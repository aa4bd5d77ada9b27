import Ryvo.Layout.ParticipantBytes
import Ryvo.State.Slots

/-!
# Layout — Participant access

The raw accesses, on the image of a bucket.  A reader returns what the function of the record returns, and a mutator is that function's `outcome`: it leaves the image of the edited record, and where it fails it has written nothing.

* `tokenEntryOffset_part` and `findOrCreateTokenEntryOffset_part` are the two searches.
* `edit_slot` and `edit_entry` say of what runs once the slot, or the entry, is found that it may be looked at on its own, with all other bytes around it.
* `…_image` is one lemma for each function of the source.
-/

namespace Ryvo

open Layout InPlace

namespace ParticipantBytes

variable {b : ParticipantBucket} {more : List UInt8} {p : U32} {t : U16} {α σ : Type}

/-! ### Slots -/

/-- Where the slot of `p` is, if it is in the bucket. -/
def slotAt (p : U32) : Nat :=
  slotsOffset + (ParticipantBucket.slotIndexForParticipantId p).val * ParticipantBucketSlot.space

theorem partSlotAt (more : List UInt8) (p : U32) :
    Part (ParticipantBucket.image more) ParticipantBucketSlot.bytes
      (fun b => b.slots (ParticipantBucket.slotIndexForParticipantId p))
      (fun b s => b.setSlot p s) (slotAt p) :=
  ParticipantBucket.partSlot more _

theorem space_le_image : ParticipantBucket.space ≤ (b.image more).length := by
  simp [ParticipantBucket.image]

theorem requireValidDiscriminator_image {errorCode : VaultError} :
    requireValidDiscriminator (b.image more) errorCode = .ok () := by
  have hspace : ParticipantBucket.space ≤ (b.image more).length := space_le_image
  refine require_of ⟨le_trans (by decide) hspace, ?_⟩
  simp [ParticipantBucket.image, ParticipantBucket.bytes]

theorem readBucketIdAndBump_image : readBucketIdAndBump (b.image more) = .ok (b.bucketId, b.bump) := by
  rw [readBucketIdAndBump, requireValidDiscriminator_image, Except.ok_bind,
    require_of space_le_image, Except.ok_bind, (ParticipantBucket.partBucketId more).readU32At,
    Except.ok_bind, (ParticipantBucket.partBump more).readU8At]
  rfl

theorem slotOffsetForParticipantIndex_image : slotOffsetForParticipantIndex (b.image more) p
    = (fun _ => slotAt p) <$> b.slotForParticipantIndex p := by
  have hle : slotAt p + ParticipantBucketSlot.space ≤ (b.image more).length :=
    ((partSlotAt more p).fits ParticipantBucketSlot.length_bytes).1
  rw [slotOffsetForParticipantIndex, readBucketIdAndBump_image, Except.ok_bind]
  simp only [require_of space_le_image, Except.ok_bind]
  rw [← slotAt, require_of hle, ParticipantBucket.slotForParticipantIndex]
  by_cases h : b.bucketId = ParticipantBucket.bucketIdForParticipantId p
  · rw [require_of h]
    rfl
  · simp only [require, if_neg h]
    rfl

theorem slotOffsetForParticipant_image : slotOffsetForParticipant (b.image more) p
    = (fun _ => slotAt p) <$> b.slotForParticipant p := by
  rw [slotOffsetForParticipant, slotOffsetForParticipantIndex_image, bind_map_left,
    ParticipantBucket.slotForParticipant, map_bind]
  cases h : b.slotForParticipantIndex p with
  | error e => rfl
  | ok s =>
      obtain rfl : b.slots (ParticipantBucket.slotIndexForParticipantId p) = s := by
        simp only [ParticipantBucket.slotForParticipantIndex, Except.bind_eq_ok,
          Except.pure_eq_ok] at h
        obtain ⟨-, -, h⟩ := h
        exact h
      simp only [Except.ok_bind, map_bind, map_pure]
      rw [((partSlotAt more p).comp ParticipantBucketSlot.partInitialized).readBoolAt,
        Except.ok_bind]
      rw [((partSlotAt more p).comp ParticipantBucketSlot.partParticipantId).readU32At]
      rfl

theorem slot_wellTyped (hb : b.WellTyped) {s : ParticipantBucketSlot}
    (h : b.slotForParticipant p = .ok s) : s.WellTyped := by
  obtain ⟨-, rfl, -, -⟩ := ParticipantBucket.slotForParticipant_eq_ok.mp h
  exact hb _

/-- What reads the slot once it is found. -/
theorem read_slot {body : Nat → Result α} {f : ParticipantBucketSlot → Result α}
    (h : body (slotAt p) = f (b.slots (ParticipantBucket.slotIndexForParticipantId p))) :
    slotOffsetForParticipant (b.image more) p >>= body = b.slotForParticipant p >>= f := by
  rw [slotOffsetForParticipant_image, bind_map_left]
  cases hs : b.slotForParticipant p with
  | error e => rfl
  | ok s =>
      obtain ⟨-, rfl, -, -⟩ := ParticipantBucket.slotForParticipant_eq_ok.mp hs
      exact h

/-- What edits the slot once it is found. -/
theorem edit_slot {body : Nat → Edit α} {f : ParticipantBucketSlot → Result (ParticipantBucketSlot × α)}
    (h : ∀ s, b.slotForParticipant p = .ok s → ∀ a c,
      body a.length (framed a c ParticipantBucketSlot.bytes s)
        = outcome (framed a c ParticipantBucketSlot.bytes) s (f s)) :
    (read (slotOffsetForParticipant · p) >>= body) (b.image more)
      = outcome (ParticipantBucket.image more) b (b.modifySlot p f) := by
  rw [ParticipantBucket.modifySlot]
  cases hs : b.slotForParticipant p with
  | error e =>
      refine bind_apply_error ?_
      rw [read_apply, slotOffsetForParticipant_image, hs]
      rfl
  | ok s =>
      refine read_then (a := slotAt p) ?_ ?_
      · rw [slotOffsetForParticipant_image, hs]
        rfl
      · obtain ⟨-, rfl, -, -⟩ := ParticipantBucket.slotForParticipant_eq_ok.mp hs
        refine outcome_part (partSlotAt more p) b fun a c ha => ?_
        rw [← ha]
        exact h _ hs a c

/-! ### Entries -/

section
variable {enc : σ → List UInt8} {get : σ → ParticipantBucketSlot}
variable {set : σ → ParticipantBucketSlot → σ} {o : Nat}
variable (h : Part enc ParticipantBucketSlot.bytes get set o)
include h

theorem partEntryAt (i : Fin maxBucketTokenBalances) :
    Part enc BucketTokenBalance.bytes (fun x => (get x).tokenBalances i)
      (fun x e => set x ((get x).setEntry i e)) (entryOffsetAt o i) := by
  rw [entryOffsetAt, Nat.add_assoc]
  exact h.comp (ParticipantBucketSlot.partEntry i)

theorem tokenEntryOffset_part (x : σ) :
    tokenEntryOffset (enc x) o t = .ok (((get x).tokenEntryOffset t).map (entryOffsetAt o)) := by
  rw [ParticipantBucketSlot.tokenEntryOffset, Table.find_eq_finRange, tokenEntryOffset]
  refine findSomeM?_ok fun i => ?_
  dsimp only
  rw [((partEntryAt h i).comp BucketTokenBalance.partInitialized).readBoolAt, Except.ok_bind,
    ((partEntryAt h i).comp BucketTokenBalance.partTokenId).readU16At]
  cases ((get x).tokenBalances i).initialized with
  | false => rfl
  | true => simp [pure, Except.pure]

theorem tokenEntryOffsetOr_part (x : σ) (missing : VaultError) :
    tokenEntryOffsetOr (enc x) o t missing
      = entryOffsetAt o <$> okOr ((get x).tokenEntryOffset t) (.vault missing) := by
  rw [tokenEntryOffsetOr, tokenEntryOffset_part h, Except.ok_bind]
  cases (get x).tokenEntryOffset t <;> rfl

end

section
variable {s : ParticipantBucketSlot} {a c : List UInt8} {i : Fin maxBucketTokenBalances}

theorem partEntryInFrame (a c : List UInt8) (i : Fin maxBucketTokenBalances) :
    Part (framed a c ParticipantBucketSlot.bytes) BucketTokenBalance.bytes (·.tokenBalances i)
      (fun s e => s.setEntry i e) (entryOffsetAt a.length i) :=
  partEntryAt (.inFrame a c _) i

/-- What edits the token's entry once it is found. -/
theorem edit_entry {missing : VaultError} {body : Nat → Edit α}
    {f : BucketTokenBalance → Result (BucketTokenBalance × α)}
    (h : ∀ i, s.tokenEntryOffset t = some i → ∀ a c,
      body a.length (framed a c BucketTokenBalance.bytes (s.tokenBalances i))
        = outcome (framed a c BucketTokenBalance.bytes) (s.tokenBalances i) (f (s.tokenBalances i))) :
    (read (tokenEntryOffsetOr · a.length t missing) >>= body)
        (framed a c ParticipantBucketSlot.bytes s)
      = outcome (framed a c ParticipantBucketSlot.bytes) s (s.withTokenEntry t missing f) := by
  have hread := tokenEntryOffsetOr_part (t := t) (.inFrame a c ParticipantBucketSlot.bytes) s missing
  rw [ParticipantBucketSlot.withTokenEntry]
  cases hi : s.tokenEntryOffset t with
  | none =>
      rw [hi] at hread
      exact bind_apply_error (congrArg (·, _) hread)
  | some i =>
      rw [hi] at hread
      refine read_then hread ?_
      refine outcome_part (partEntryInFrame a c i) s fun a' c' ha => ?_
      rw [← ha]
      exact h i hi a' c'

theorem findOrCreateTokenEntryOffset_found (hi : s.tokenEntryOffset t = some i) :
    findOrCreateTokenEntryOffset a.length t (framed a c ParticipantBucketSlot.bytes s)
      = (.ok (entryOffsetAt a.length i), framed a c ParticipantBucketSlot.bytes s) := by
  refine read_then (tokenEntryOffset_part (.inFrame a c _) s) ?_
  rw [hi]
  rfl

/-- One index of the second search, at an entry in use. -/
theorem initialized_inFrame {errorCode : VaultError} :
    readBoolAt (framed a c ParticipantBucketSlot.bytes s)
      (entryOffsetAt a.length i + tokenEntryInitializedOffset) errorCode
        = .ok (s.tokenBalances i).initialized :=
  ((partEntryInFrame a c i).comp BucketTokenBalance.partInitialized).readBoolAt

theorem findOrCreateTokenEntryOffset_full (hn : s.tokenEntryOffset t = none)
    (hf : Table.free (·.initialized) s.tokenBalances = none) :
    findOrCreateTokenEntryOffset a.length t (framed a c ParticipantBucketSlot.bytes s)
      = (.error (.vault .tooManyTokenBalances), framed a c ParticipantBucketSlot.bytes s) := by
  rw [Table.free_eq_finRange] at hf
  refine read_then (tokenEntryOffset_part (.inFrame a c _) s) ?_
  rw [hn]
  refine (bind_apply (findSomeM?_of_none hf fun j hj => ?_)).trans rfl
  refine read_then initialized_inFrame ?_
  rw [show (s.tokenBalances j).initialized = true by simpa using hj]
  rfl

theorem findOrCreateTokenEntryOffset_created (hn : s.tokenEntryOffset t = none)
    (hf : Table.free (·.initialized) s.tokenBalances = some i) :
    findOrCreateTokenEntryOffset a.length t (framed a c ParticipantBucketSlot.bytes s)
      = (.ok (entryOffsetAt a.length i),
          framed a c ParticipantBucketSlot.bytes (s.setEntry i (.fresh t))) := by
  have hfree : (s.tokenBalances i).initialized = false := (Table.free_eq_some.mp hf).1
  rw [Table.free_eq_finRange] at hf
  refine read_then (tokenEntryOffset_part (.inFrame a c _) s) ?_
  rw [hn]
  refine (bind_apply (findSomeM?_of_find hf (fun j hj => ?_) ?_)).trans rfl
  · refine read_then initialized_inFrame ?_
    rw [show (s.tokenBalances j).initialized = true by simpa using hj]
    rfl
  · refine read_then initialized_inFrame ?_
    rw [hfree]
    refine (outcome_part (partEntryInFrame a c i) s
      (f := fun _ => .ok (.fresh t, some (entryOffsetAt a.length i))) fun a' c' ha => ?_)
    rw [← ha]
    let fr := framed a' c' BucketTokenBalance.bytes
    have hzero : fillZero (fr (s.tokenBalances i)) a'.length BucketTokenBalance.space = fr .empty :=
      (Part.inFrame a' c' _).fillZero BucketTokenBalance.length_bytes BucketTokenBalance.bytes_empty
    refine write_bind (congrArg _ hzero) ?_
    refine write_bind ((BucketTokenBalance.partInitialized.framed a' c').writeBoolAt true) ?_
    exact write_bind ((BucketTokenBalance.partTokenId.framed a' c').writeU16At t) rfl

end

/-! ### Readers -/

section
variable {enc : σ → List UInt8} {get : σ → ParticipantBucketSlot}
variable {set : σ → ParticipantBucketSlot → σ} {o : Nat} {x : σ}
variable (h : Part enc ParticipantBucketSlot.bytes get set o)
include h

/-- What reads the token's entry once it is found. -/
theorem read_entry {missing : VaultError} {body : Nat → Result α} {f : BucketTokenBalance → Result α}
    (hbody : ∀ i, body (entryOffsetAt o i) = f ((get x).tokenBalances i)) :
    tokenEntryOffsetOr (enc x) o t missing >>= body
      = okOr ((get x).tokenEntry t) (.vault missing) >>= f := by
  rw [tokenEntryOffsetOr_part h, bind_map_left, ParticipantBucketSlot.tokenEntry, Table.lookup,
    ← ParticipantBucketSlot.tokenEntryOffset]
  cases (get x).tokenEntryOffset t with
  | none => rfl
  | some i => exact hbody i

theorem readEntryTotal_part {i : Fin maxBucketTokenBalances}
    (hi : ((get x).tokenBalances i).WellTyped) : readEntryTotal (enc x) (entryOffsetAt o i)
      = addU64 ((get x).tokenBalances i).availableBalance
          ((get x).tokenBalances i).withdrawingBalance := by
  rw [readEntryTotal, ((partEntryAt h i).comp BucketTokenBalance.partAvailable).readU64At hi.available,
    Except.ok_bind,
    ((partEntryAt h i).comp BucketTokenBalance.partWithdrawing).readU64At hi.withdrawing,
    Except.ok_bind]

theorem readSlotTotalOrZero_part (hx : (get x).WellTyped) :
    readSlotTotalOrZero (enc x) o t = (get x).readTokenTotalBalanceOrZero t := by
  rw [readSlotTotalOrZero, tokenEntryOffset_part h, ParticipantBucketSlot.readTokenTotalBalanceOrZero,
    ParticipantBucketSlot.tokenEntry, Table.lookup, ← ParticipantBucketSlot.tokenEntryOffset]
  cases (get x).tokenEntryOffset t with
  | none => rfl
  | some i => exact readEntryTotal_part h (hx.tokenBalances i)

end

section
variable (hb : b.WellTyped)

theorem readInboundChannelPolicyFromData_image :
    readInboundChannelPolicyFromData (b.image more) p = b.readInboundChannelPolicyFromData p := by
  refine read_slot ?_
  rw [((partSlotAt more p).comp ParticipantBucketSlot.partInboundPolicy).readU8At]
  rfl

include hb

theorem readSlotOwnerAndBlsRegistrationFromData_image :
    readSlotOwnerAndBlsRegistrationFromData (b.image more) p
      = b.readSlotOwnerAndBlsRegistrationFromData p := by
  refine read_slot ?_
  rw [((partSlotAt more p).comp ParticipantBucketSlot.partOwner).readPubkeyAt, Except.ok_bind,
    ((partSlotAt more p).comp ParticipantBucketSlot.partBlsSchemeVersion).readU8At, Except.ok_bind,
    ((partSlotAt more p).comp ParticipantBucketSlot.partBlsPubkey).readBytes (hb _).blsPubkey]

theorem readSlotOwnerFromData_image :
    readSlotOwnerFromData (b.image more) p = b.readSlotOwnerFromData p := by
  rw [readSlotOwnerFromData, readSlotOwnerAndBlsRegistrationFromData_image hb]
  rfl

theorem readTokenTotalBalanceFromData_image :
    readTokenTotalBalanceFromData (b.image more) p t = b.readTokenTotalBalanceFromData p t := by
  refine read_slot (read_entry (partSlotAt more p) fun i => ?_)
  exact readEntryTotal_part (partSlotAt more p) ((hb _).tokenBalances i)

theorem readTokenTotalBalanceOrZeroFromData_image :
    readTokenTotalBalanceOrZeroFromData (b.image more) p t
      = b.slotForParticipant p >>= (·.readTokenTotalBalanceOrZero t) :=
  read_slot (readSlotTotalOrZero_part (partSlotAt more p) (hb _))

theorem readClearingSnapshotFromData_image :
    readClearingSnapshotFromData (b.image more) p t = b.readClearingSnapshotFromData p t := by
  refine read_slot ?_
  rw [((partSlotAt more p).comp ParticipantBucketSlot.partOwner).readPubkeyAt, Except.ok_bind,
    ((partSlotAt more p).comp ParticipantBucketSlot.partBlsSchemeVersion).readU8At, Except.ok_bind,
    ((partSlotAt more p).comp ParticipantBucketSlot.partBlsPubkey).readBytes (hb _).blsPubkey,
    readSlotTotalOrZero_part (partSlotAt more p) (hb _)]

theorem readTokenAvailableBalanceFromData_image :
    readTokenAvailableBalanceFromData (b.image more) p t = (do
      let s ← b.slotForParticipant p
      let e ← okOr (s.tokenEntry t) (.vault .tokenNotFound)
      pure e.availableBalance) := by
  refine read_slot (read_entry (partSlotAt more p) fun i => ?_)
  exact ((partEntryAt (partSlotAt more p) i).comp BucketTokenBalance.partAvailable).readU64At
    ((hb _).tokenBalances i).available

theorem readTokenWithdrawalFromData_image :
    readTokenWithdrawalFromData (b.image more) p t = (fun e => TokenWithdrawalSnapshot.mk
      e.withdrawingBalance e.withdrawalUnlockAt e.withdrawalDestination)
        <$> b.readTokenWithdrawalFromData p t := by
  rw [ParticipantBucket.readTokenWithdrawalFromData, map_bind]
  refine read_slot ((read_entry (partSlotAt more p) fun i => ?_).trans (bind_pure_comp _ _))
  have hi := (hb (ParticipantBucket.slotIndexForParticipantId p)).tokenBalances i
  rw [((partEntryAt (partSlotAt more p) i).comp BucketTokenBalance.partWithdrawing).readU64At
      hi.withdrawing, Except.ok_bind,
    ((partEntryAt (partSlotAt more p) i).comp BucketTokenBalance.partUnlockAt).readI64At
      hi.unlockAt, Except.ok_bind,
    ((partEntryAt (partSlotAt more p) i).comp BucketTokenBalance.partDestination).readPubkeyAt,
    Except.ok_bind]

end

/-! ### Cancelling -/

/-- What cancelling does before it clears. -/
def returned (e : BucketTokenBalance) : Result (BucketTokenBalance × Nat) := do
  require (e.withdrawalUnlockAt ≠ 0) (.vault .noWithdrawalPending)
  let available ← addU64 e.availableBalance e.withdrawingBalance
  pure ({ e with availableBalance := available }, e.withdrawingBalance)

theorem returned_sameKey (e e' : BucketTokenBalance) (r : Nat) (h : returned e = .ok (e', r)) :
    e.SameKey e' := by
  simp only [returned, Except.bind_eq_ok, Except.pure_eq_ok, Prod.mk.injEq] at h
  obtain ⟨-, -, -, -, rfl, -⟩ := h
  exact ⟨rfl, rfl⟩

section
variable {missing m : VaultError} {f : BucketTokenBalance → Result (BucketTokenBalance × α)}
variable {g : BucketTokenBalance → BucketTokenBalance} {b' : ParticipantBucket} {r : α} {x : Error}

/-- An edit of what another edit makes of the entry. -/
def andThen (f : BucketTokenBalance → Result (BucketTokenBalance × α))
    (g : BucketTokenBalance → BucketTokenBalance) (e : BucketTokenBalance) :
    Result (BucketTokenBalance × α) := do
  let (e, r) ← f e
  pure (g e, r)

theorem modifySlot_andThen_error (h : b.modifySlot p (·.withTokenEntry t missing f) = .error x) :
    b.modifySlot p (·.withTokenEntry t missing (andThen f g)) = .error x := by
  rw [ParticipantBucket.modifySlot] at h ⊢
  cases hs : b.slotForParticipant p with
  | error y => rwa [hs] at h
  | ok s =>
      simp only [hs, Except.ok_bind, ParticipantBucketSlot.withTokenEntry] at h ⊢
      cases hi : s.tokenEntryOffset t with
      | none => rwa [hi] at h
      | some i =>
          simp only [hi, okOr, Except.ok_bind] at h ⊢
          cases hf : f (s.tokenBalances i) with
          | error y =>
              rw [hf] at h
              rw [andThen, hf]
              exact h
          | ok r =>
              rw [hf] at h
              cases h

theorem cancelTokenWithdrawal_eq_andThen (s : ParticipantBucketSlot) :
    s.cancelTokenWithdrawal t
      = s.withTokenEntry t .noWithdrawalPending (andThen returned ParticipantBucketSlot.cleared) := by
  rw [ParticipantBucketSlot.cancelTokenWithdrawal]
  congr 1
  funext e
  simp only [andThen, returned, bind_assoc, pure_bind]

/-- The entry that was edited is found again by the second edit. -/
theorem modifySlot_andThen (hf : ∀ e e' r, f e = .ok (e', r) → e.SameKey e')
    (h : b.modifySlot p (·.withTokenEntry t missing f) = .ok (b', r)) : ∃ b'',
      b'.modifySlot p (·.withTokenEntry t m fun e => .ok (g e, ())) = .ok (b'', ()) ∧
      b.modifySlot p (·.withTokenEntry t missing (andThen f g)) = .ok (b'', r) := by
  obtain ⟨s, s', hs, hw, rfl⟩ := ParticipantBucket.modifySlot_eq_ok.mp h
  obtain ⟨e, e', he, hfe, rfl⟩ := ParticipantBucketSlot.withTokenEntry_eq_ok.mp hw
  obtain ⟨hinit, hid⟩ := hf _ _ _ hfe
  have hroom := ParticipantBucketSlot.hasRoom_of_tokenEntry he
  have hinit' := hinit.trans (ParticipantBucketSlot.tokenEntry_initialized he)
  have hid' := hid.trans (ParticipantBucketSlot.tokenEntry_tokenId he)
  have hprof := ParticipantBucketSlot.SameProfile.put s t e'
  refine ⟨b.setSlot p (s.put t (g e')), ?_, ?_⟩
  · refine ParticipantBucket.modifySlot_eq_ok.mpr ⟨s.put t e', s.put t (g e'), ?_, ?_, ?_⟩
    · exact ParticipantBucket.slot?_setSlot_self (ParticipantBucket.slot?_bucketId hs)
        (hprof.initialized.trans (ParticipantBucket.slot?_initialized hs))
        (hprof.participantId.trans (ParticipantBucket.slot?_participantId hs))
    · refine ParticipantBucketSlot.withTokenEntry_eq_ok.mpr ⟨e', g e', ?_, rfl, ?_⟩
      · exact ParticipantBucketSlot.tokenEntry_put_self hroom hinit' hid'
      · exact (ParticipantBucketSlot.put_put hroom hinit' hid').symm
    · simp only [ParticipantBucket.setSlot, Function.update_idem]
  · refine ParticipantBucket.modifySlot_eq_ok.mpr ⟨s, s.put t (g e'), hs, ?_, rfl⟩
    refine ParticipantBucketSlot.withTokenEntry_eq_ok.mpr ⟨e, g e', he, ?_, rfl⟩
    rw [andThen, hfe]
    rfl

end

/-! ### Mutators -/

section
open BucketTokenBalance

theorem writeInboundChannelPolicyInData_image {policy : InboundChannelPolicy} :
    writeInboundChannelPolicyInData p policy (b.image more)
      = outcome (ParticipantBucket.image more) b (b.writeInboundChannelPolicyInData p policy) :=
  edit_slot fun _ _ a c =>
    write_last ((ParticipantBucketSlot.partInboundPolicy.framed a c).writeU8At policy.toU8)

theorem writeBlsRegistrationInData_image {version : U8} {key : List UInt8}
    (hk : key.length = blsPublicKeyCompressedSize) :
    writeBlsRegistrationInData p version key (b.image more)
      = outcome (ParticipantBucket.image more) b (b.writeBlsRegistrationInData p version key) := by
  refine edit_slot fun s _ a c => ?_
  refine write_bind ((ParticipantBucketSlot.partBlsSchemeVersion.framed a c).writeU8At version) ?_
  exact write_last ((ParticipantBucketSlot.partBlsPubkey.framed a c).writeBytesAt hk)

variable (hb : b.WellTyped)
include hb

theorem debitTokenAvailableInData_image {amount : Nat} :
    debitTokenAvailableInData p t amount (b.image more)
      = outcome (ParticipantBucket.image more) b (b.debitTokenAvailableInData p t amount) := by
  refine edit_slot fun s hs _ _ => edit_entry fun i _ a c => ?_
  have he := (slot_wellTyped hb hs).tokenBalances i
  refine read_then ((partAvailable.framed a c).readU64At he.available) ?_
  refine lift_bind rfl fun _ _ => lift_bind rfl fun next _ => ?_
  exact write_bind ((partAvailable.framed a c).writeU64At next) rfl

theorem initiateTokenWithdrawalInData_image {amount : Nat} {destination : Pubkey} {unlockAt : Int}
    (hidle : ∀ i j, ((b.slots i).tokenBalances j).withdrawalUnlockAt = 0 →
      ((b.slots i).tokenBalances j).withdrawingBalance = 0) :
    initiateTokenWithdrawalInData p t amount destination unlockAt (b.image more)
      = outcome (ParticipantBucket.image more) b
          (b.initiateTokenWithdrawalInData p t amount destination unlockAt) := by
  refine edit_slot fun s hs _ _ => edit_entry fun i _ a c => ?_
  have he := (slot_wellTyped hb hs).tokenBalances i
  have hw : (s.tokenBalances i).withdrawalUnlockAt = 0 → (s.tokenBalances i).withdrawingBalance = 0 := by
    obtain ⟨-, rfl, -, -⟩ := ParticipantBucket.slotForParticipant_eq_ok.mp hs
    exact hidle _ i
  revert he hw
  generalize s.tokenBalances i = e
  intro he hw
  refine read_then ((partAvailable.framed a c).readU64At he.available) ?_
  refine read_then ((partWithdrawing.framed a c).readU64At he.withdrawing) ?_
  refine read_then ((partUnlockAt.framed a c).readI64At he.unlockAt) ?_
  refine lift_bind rfl fun _ h₀ => lift_bind rfl fun _ ha => lift_bind rfl fun next _ => ?_
  rw [require_eq_ok] at h₀ ha
  -- Nothing was being withdrawn, so that the sum is the amount, which was available.
  have hlt : e.withdrawingBalance + amount < u64Bound := by
    rw [hw h₀, Nat.zero_add]
    exact lt_of_le_of_lt ha he.available
  have hadd : addU64 e.withdrawingBalance amount = .ok (e.withdrawingBalance + amount) :=
    checkedAdd_eq_ok.mpr ⟨rfl, hlt⟩
  simp only [hadd]
  refine write_bind ((partAvailable.framed a c).writeU64At next) (lift_then rfl ?_)
  refine write_bind ((partWithdrawing.framed a c).writeU64At _) ?_
  refine write_bind ((partUnlockAt.framed a c).writeI64At unlockAt) ?_
  exact write_last ((partDestination.framed a c).writePubkeyAt destination)

omit hb in
theorem clearTokenWithdrawalInData_image : clearTokenWithdrawalInData p t (b.image more)
    = outcome (ParticipantBucket.image more) b (b.clearTokenWithdrawalInData p t) := by
  refine edit_slot fun s _ _ _ => edit_entry fun i _ a c => ?_
  refine write_bind ((partWithdrawing.framed a c).writeU64At 0) ?_
  refine write_bind ((partUnlockAt.framed a c).writeI64At 0) ?_
  exact write_last ((partDestination.framed a c).writePubkeyAt Pubkey.default)

theorem returnWithdrawingInData_image :
    returnWithdrawingInData p t (b.image more) = outcome (ParticipantBucket.image more) b
      (b.modifySlot p (·.withTokenEntry t .noWithdrawalPending returned)) := by
  refine edit_slot fun s hs _ _ => edit_entry fun i _ a c => ?_
  have he := (slot_wellTyped hb hs).tokenBalances i
  refine read_then ((partUnlockAt.framed a c).readI64At he.unlockAt) ?_
  refine lift_bind rfl fun _ _ => ?_
  refine read_then ((partAvailable.framed a c).readU64At he.available) ?_
  refine read_then ((partWithdrawing.framed a c).readU64At he.withdrawing) ?_
  refine lift_bind rfl fun next _ => ?_
  exact write_bind ((partAvailable.framed a c).writeU64At next) rfl

theorem cancelTokenWithdrawalInData_image :
    cancelTokenWithdrawalInData p t (b.image more)
      = outcome (ParticipantBucket.image more) b (b.cancelTokenWithdrawalInData p t) := by
  have hfront : returnWithdrawingInData p t (b.image more) = outcome (ParticipantBucket.image more) b
      (b.modifySlot p (·.withTokenEntry t .noWithdrawalPending returned)) :=
    returnWithdrawingInData_image hb
  rw [ParticipantBucket.cancelTokenWithdrawalInData]
  simp only [cancelTokenWithdrawal_eq_andThen]
  cases hr : b.modifySlot p (·.withTokenEntry t .noWithdrawalPending returned) with
  | error x =>
      rw [hr] at hfront
      rw [modifySlot_andThen_error hr]
      exact bind_apply_error hfront
  | ok r =>
      obtain ⟨b'', hclear, hall⟩ := modifySlot_andThen (g := ParticipantBucketSlot.cleared)
        (m := .tokenNotFound) returned_sameKey hr
      rw [hr] at hfront
      rw [hall]
      have himage : clearTokenWithdrawalInData p t (r.1.image more)
          = outcome (ParticipantBucket.image more) r.1 (.ok (b'', ())) :=
        clearTokenWithdrawalInData_image.trans (congrArg _ hclear)
      exact (bind_apply hfront).trans (bind_apply himage)

omit hb in
theorem creditEntry_inFrame {s : ParticipantBucketSlot} (hs : s.WellTyped) {amount : Nat}
    (hlt : amount < u64Bound) (a c : List UInt8) :
    creditEntry a.length t amount (framed a c ParticipantBucketSlot.bytes s)
      = outcome (framed a c ParticipantBucketSlot.bytes) s (s.creditToken t amount) := by
  have havail := fun i => (partEntryInFrame a c i).comp partAvailable
  rw [ParticipantBucketSlot.creditToken]
  cases hi : s.tokenEntryOffset t with
  | some i =>
      simp only [ParticipantBucketSlot.findOrCreateTokenEntryOffset, hi, Except.ok_bind]
      refine (bind_apply (findOrCreateTokenEntryOffset_found hi)).trans ?_
      refine read_then ((havail i).readU64At (hs.tokenBalances i).available) ?_
      refine lift_bind rfl fun next _ => ?_
      exact write_last ((havail i).writeU64At next)
  | none =>
      cases hf : Table.free (·.initialized) s.tokenBalances with
      | none =>
          simp only [ParticipantBucketSlot.findOrCreateTokenEntryOffset, hi, hf]
          exact bind_apply_error (findOrCreateTokenEntryOffset_full hi hf)
      | some i =>
          -- A new entry is empty, so that what is credited to it fits.
          have hzero : ((s.setEntry i (.fresh t)).tokenBalances i).availableBalance = 0 := by
            simp [ParticipantBucketSlot.setEntry, BucketTokenBalance.fresh, BucketTokenBalance.empty]
          have hadd : addU64 0 amount = .ok amount :=
            checkedAdd_eq_ok.mpr ⟨(Nat.zero_add amount).symm, by rwa [Nat.zero_add]⟩
          simp only [ParticipantBucketSlot.findOrCreateTokenEntryOffset, hi, hf, Except.ok_bind,
            hzero, hadd]
          refine (bind_apply (findOrCreateTokenEntryOffset_created hi hf)).trans ?_
          refine read_then ((havail i).readU64At (by rw [hzero]; decide)) ?_
          rw [hzero]
          refine lift_then hadd ?_
          exact write_apply ((havail i).writeU64At amount)

omit hb in
theorem debitEntry_inFrame {s : ParticipantBucketSlot} (hs : s.WellTyped) {amount : Nat}
    (a c : List UInt8) : debitEntry a.length t amount (framed a c ParticipantBucketSlot.bytes s)
      = outcome (framed a c ParticipantBucketSlot.bytes) s (s.debitToken t amount) := by
  refine edit_entry fun i _ a c => ?_
  have he := hs.tokenBalances i
  refine read_then ((partAvailable.framed a c).readU64At he.available) ?_
  refine read_then ((partWithdrawing.framed a c).readU64At he.withdrawing) ?_
  rw [ParticipantBucketSlot.drained, bind_assoc]
  refine lift_bind rfl fun total ht => ?_
  rw [bind_assoc]
  refine lift_bind rfl fun _ ha => ?_
  obtain ⟨rfl, -⟩ := checkedAdd_eq_ok.mp ht
  rw [require_eq_ok] at ha
  by_cases hle : amount ≤ (s.tokenBalances i).availableBalance
  · simp only [hle, if_true]
    exact write_last ((partAvailable.framed a c).writeU64At _)
  · simp only [hle, if_false]
    -- The total covers the amount, so that the rest is there to be taken.
    have hrest : amount - (s.tokenBalances i).availableBalance
        ≤ (s.tokenBalances i).withdrawingBalance := Nat.sub_le_iff_le_add'.mpr ha
    have hsub := (checkedSub_eq_ok (e := Error.vault .mathOverflow)).mpr ⟨rfl, hrest⟩
    refine write_bind ((partAvailable.framed a c).writeU64At 0) (lift_then hsub ?_)
    rw [subU64, hsub]
    exact write_last ((partWithdrawing.framed a c).writeU64At _)

theorem applyTokenDeltaInData_image {delta : Int} :
    applyTokenDeltaInData p t delta (b.image more)
      = outcome (ParticipantBucket.image more) b (b.applyTokenDeltaInData p t delta) := by
  rw [applyTokenDeltaInData, ParticipantBucket.applyTokenDeltaInData]
  by_cases hz : delta = 0
  · rw [if_pos hz, if_pos hz]
    rfl
  · rw [if_neg hz, if_neg hz]
    refine edit_slot fun s hs a c => lift_bind rfl fun amount ha => ?_
    obtain ⟨rfl, hlt⟩ := tryFrom_eq_ok.mp ha
    by_cases hpos : 0 < delta
    · rw [if_pos hpos, if_pos hpos]
      exact creditEntry_inFrame (slot_wellTyped hb hs) hlt a c
    · rw [if_neg hpos, if_neg hpos]
      exact debitEntry_inFrame (slot_wellTyped hb hs) a c

omit hb in
theorem initializeSlotInData_image {owner : Pubkey} :
    initializeSlotInData p owner (b.image more) = outcome (ParticipantBucket.image more) b
      ((fun b' => (b', ())) <$> b.initializeSlotInData p owner) := by
  rw [initializeSlotInData, ParticipantBucket.initializeSlotInData, map_bind]
  cases hs : b.slotForParticipantIndex p with
  | error x =>
      refine bind_apply_error ?_
      rw [read_apply, slotOffsetForParticipantIndex_image, hs]
      rfl
  | ok s =>
      obtain rfl : b.slots (ParticipantBucket.slotIndexForParticipantId p) = s := by
        simp only [ParticipantBucket.slotForParticipantIndex, Except.bind_eq_ok,
          Except.pure_eq_ok] at hs
        obtain ⟨-, -, h⟩ := hs
        exact h
      refine read_then (a := slotAt p) ?_ ?_
      · rw [slotOffsetForParticipantIndex_image, hs]
        rfl
      simp only [Except.ok_bind, map_bind, map_pure]
      refine read_then
        ((partSlotAt more p).comp ParticipantBucketSlot.partInitialized).readBoolAt ?_
      refine lift_bind rfl fun _ _ => ?_
      refine (outcome_part (partSlotAt more p) b (f := fun _ => .ok (.fresh p owner, ()))
        fun a c ha => ?_)
      rw [← ha]
      let fr := framed a c ParticipantBucketSlot.bytes
      have hzero : fillZero (fr (b.slots (ParticipantBucket.slotIndexForParticipantId p))) a.length
          ParticipantBucketSlot.space = fr .empty :=
        (Part.inFrame a c _).fillZero ParticipantBucketSlot.length_bytes
          ParticipantBucketSlot.bytes_empty
      refine write_bind (congrArg _ hzero) ?_
      refine write_bind ((ParticipantBucketSlot.partInitialized.framed a c).writeBoolAt true) ?_
      refine write_bind ((ParticipantBucketSlot.partOwner.framed a c).writePubkeyAt owner) ?_
      refine write_bind ((ParticipantBucketSlot.partParticipantId.framed a c).writeU32At p) ?_
      refine write_bind ((ParticipantBucketSlot.partInboundPolicy.framed a c).writeU8At _) ?_
      exact write_last ((ParticipantBucketSlot.partBlsSchemeVersion.framed a c).writeU8At _)

omit hb in
/-- Whatever the data held, and however long it is. -/
theorem initializeAccountData_apply {data : List UInt8} (h : ParticipantBucket.space ≤ data.length)
    (bucketId : U32) (bump : U8) : initializeAccountData bucketId bump data = (.ok (),
      (ParticipantBucket.initializeAccountData bucketId bump).image
        (data.drop ParticipantBucket.space)) := by
  let rest := data.drop ParticipantBucket.space
  have hzero : fillZero data 0 ParticipantBucket.space
      = List.replicate ParticipantBucket.space 0 ++ rest := by
    simp [fillZero, overwrite, rest]
  have hdisc : overwrite (List.replicate ParticipantBucket.space 0 ++ rest) 0 discriminator
      = (ParticipantBucket.initializeAccountData 0 0).image rest := by
    rw [ParticipantBucket.image, ParticipantBucket.bytes_initializeAccountData, overwrite,
      List.drop_append_of_le_length (by rw [List.length_replicate]; decide), List.drop_replicate]
    simp [List.append_assoc]
  refine read_then (require_of h) ?_
  change _ = outcome (ParticipantBucket.image rest) (ParticipantBucket.initializeAccountData 0 0)
    (.ok (ParticipantBucket.initializeAccountData bucketId bump, ()))
  refine write_bind (congrArg _ hzero) (write_bind (congrArg _ hdisc) ?_)
  refine write_bind ((ParticipantBucket.partBucketId rest).writeU32At bucketId) ?_
  exact write_last ((ParticipantBucket.partBump rest).writeU8At bump)

end

end ParticipantBytes

end Ryvo
