import Ryvo.Layout.ParticipantRefinement

/-!
# Layout — Participant buckets as a store

The bytes of a participant bucket implement a finite map, whatever calls made them.

* `contents` is the map, read off the bytes with the raw readers; `Reads` says that all readers return what the map holds.
* `participantBytes_implement_map`: a call that succeeds changes the map as `Mutator.apply` says and returns what it says, and a call that fails fails as `Mutator.apply` does and leaves every byte.
-/

namespace Ryvo

open Layout InPlace

namespace ParticipantBytes

variable {b : ParticipantBucket} {data more : List UInt8} {p : U32} {t : U16}

/-! ### Reading the map off the bytes -/

def holdingIn (data : List UInt8) (p : U32) (t : U16) : Option Holding := do
  let available ← (readTokenAvailableBalanceFromData data p t).toOption
  let withdrawal ← (readTokenWithdrawalFromData data p t).toOption
  pure ⟨available, withdrawal.withdrawingBalance, withdrawal.withdrawalUnlockAt,
    withdrawal.withdrawalDestination⟩

def accountIn (data : List UInt8) (p : U32) : Option Account := do
  let (owner, blsSchemeVersion, blsPubkeyCompressed) ←
    (readSlotOwnerAndBlsRegistrationFromData data p).toOption
  let inboundChannelPolicy ← (readInboundChannelPolicyFromData data p).toOption
  pure ⟨owner, inboundChannelPolicy, blsSchemeVersion, blsPubkeyCompressed, holdingIn data p⟩

/-- What the raw readers return, put together. -/
def contents (data : List UInt8) : ParticipantMap :=
  let header := (readBucketIdAndBump data).toOption.getD (0, 0)
  ⟨header.1, header.2, accountIn data⟩

/-- Every raw reader returns what the map holds under its key, or fails as the key is missing. -/
structure Reads (data : List UInt8) (m : ParticipantMap) : Prop where
  header : readBucketIdAndBump data = .ok (m.bucketId, m.bump)
  owner : ∀ p, readSlotOwnerFromData data p = (·.owner) <$> m.account p
  registration : ∀ p, readSlotOwnerAndBlsRegistrationFromData data p
    = (fun a => (a.owner, a.blsSchemeVersion, a.blsPubkeyCompressed)) <$> m.account p
  policy : ∀ p, readInboundChannelPolicyFromData data p = (·.inboundChannelPolicy) <$> m.account p
  clearingSnapshot : ∀ p t, readClearingSnapshotFromData data p t = (do
    let a ← m.account p
    let total ← m.totalOrZero p t
    pure ⟨a.owner, a.blsSchemeVersion, a.blsPubkeyCompressed, total⟩)
  totalBalance : ∀ p t, readTokenTotalBalanceFromData data p t = m.holding p t >>= Holding.total
  availableBalance : ∀ p t, readTokenAvailableBalanceFromData data p t
    = (·.available) <$> m.holding p t
  withdrawal : ∀ p t, readTokenWithdrawalFromData data p t
    = (fun h => ⟨h.withdrawing, h.unlockAt, h.destination⟩) <$> m.holding p t
  totalBalanceOrZero : ∀ p t, readTokenTotalBalanceOrZeroFromData data p t = m.totalOrZero p t

theorem account_eq (hb : b.Sound) (p : U32) : b.participantMap.account p
    = ParticipantBucketSlot.account <$> b.slotForParticipant p :=
  (slotForParticipant_agrees hb p).eq_map fun _ _ h => h.2.2

theorem holding_eq (hb : b.Sound) (p : U32) (t : U16) : b.participantMap.holding p t = (do
    let s ← b.slotForParticipant p
    let e ← okOr (s.tokenEntry t) (.vault .tokenNotFound)
    pure e.holding) := by
  rw [ParticipantMap.holding, account_eq hb, bind_map_left]
  refine congrArg _ (funext fun s => ?_)
  simp only [ParticipantBucketSlot.account]
  cases s.tokenEntry t <;> rfl

theorem totalOrZero_eq (hb : b.Sound) (p : U32) (t : U16) : b.participantMap.totalOrZero p t
    = b.slotForParticipant p >>= (·.readTokenTotalBalanceOrZero t) := by
  rw [ParticipantMap.totalOrZero, account_eq hb, bind_map_left]
  refine congrArg _ (funext fun s => ?_)
  simp only [ParticipantBucketSlot.account, ParticipantBucketSlot.readTokenTotalBalanceOrZero]
  cases s.tokenEntry t <;> rfl

theorem reads_image (hb : b.Sound) : Reads (b.image more) b.participantMap where
  header := readBucketIdAndBump_image
  owner p := by
    rw [readSlotOwnerFromData_image hb.wellTyped, account_eq hb,
      ParticipantBucket.readSlotOwnerFromData,
      ParticipantBucket.readSlotOwnerAndBlsRegistrationFromData]
    cases b.slotForParticipant p <;> rfl
  registration p := by
    rw [readSlotOwnerAndBlsRegistrationFromData_image hb.wellTyped, account_eq hb,
      ParticipantBucket.readSlotOwnerAndBlsRegistrationFromData]
    cases b.slotForParticipant p <;> rfl
  policy p := by
    rw [readInboundChannelPolicyFromData_image, account_eq hb,
      ParticipantBucket.readInboundChannelPolicyFromData]
    cases h : b.slotForParticipant p with
    | error x => rfl
    | ok s =>
        obtain ⟨-, rfl, -, -⟩ := ParticipantBucket.slotForParticipant_eq_ok.mp h
        obtain ⟨policy, hpolicy⟩ := (hb.slots (ParticipantBucket.slotIndexForParticipantId p)).policy
        simp only [Except.ok_bind, hpolicy, InboundChannelPolicy.tryFrom_toU8, Functor.map,
          Except.map, ParticipantBucketSlot.account, Except.toOption, Option.getD_some]
  clearingSnapshot p t := by
    rw [readClearingSnapshotFromData_image hb.wellTyped, account_eq hb, totalOrZero_eq hb,
      ParticipantBucket.readClearingSnapshotFromData, bind_map_left]
    cases b.slotForParticipant p <;> rfl
  totalBalance p t := by
    rw [readTokenTotalBalanceFromData_image hb.wellTyped, holding_eq hb,
      ParticipantBucket.readTokenTotalBalanceFromData, bind_assoc]
    refine congrArg _ (funext fun s => ?_)
    rw [bind_assoc]
    rfl
  availableBalance p t := by
    rw [readTokenAvailableBalanceFromData_image hb.wellTyped, holding_eq hb]
    simp only [map_bind, map_pure]
    rfl
  withdrawal p t := by
    rw [readTokenWithdrawalFromData_image hb.wellTyped, holding_eq hb,
      ParticipantBucket.readTokenWithdrawalFromData]
    simp only [map_bind, ParticipantBucketSlot.readTokenWithdrawal, bind_pure_comp,
      Functor.map_map]
    rfl
  totalBalanceOrZero p t := by
    rw [readTokenTotalBalanceOrZeroFromData_image hb.wellTyped, totalOrZero_eq hb]

/-- What the readers return determines the map. -/
theorem Reads.contents {m : ParticipantMap} (h : Reads data m)
    (hother : ∀ p, m.bucketId ≠ ParticipantBucket.bucketIdForParticipantId p → m.accounts p = none) :
    contents data = m := by
  have hholding : ∀ p, holdingIn data p = fun t => (m.holding p t).toOption := by
    intro p
    funext t
    rw [holdingIn, h.availableBalance, h.withdrawal]
    cases m.holding p t <;> rfl
  have haccount : accountIn data = m.accounts := by
    funext p
    have hm : m.accounts p = (m.account p).toOption := by
      rw [ParticipantMap.account]
      by_cases hid : m.bucketId = ParticipantBucket.bucketIdForParticipantId p
      · rw [require_of hid, Except.ok_bind]
        cases m.accounts p <;> rfl
      · rw [hother p hid, require, if_neg hid]
        rfl
    rw [accountIn, h.registration, h.policy, hm, hholding]
    simp only [ParticipantMap.holding]
    cases m.account p with
    | error x => rfl
    | ok a =>
        have hself : ∀ t, (okOr (a.holdings t) (Error.vault .tokenNotFound)).toOption = a.holdings t := by
          intro t
          cases a.holdings t <;> rfl
        simp only [Except.toOption, Except.ok_bind, Option.bind_eq_bind] at hself ⊢
        exact congrArg some (congrArg (Account.mk _ _ _ _) (funext hself))
  rw [ParticipantBytes.contents, h.header, haccount]
  rfl

theorem contents_image (hb : b.Sound) : contents (b.image more) = b.participantMap := by
  refine (reads_image hb).contents fun p hid => ?_
  rw [ParticipantBucket.participantMap_accounts, Option.map_eq_none_iff,
    Option.eq_none_iff_forall_not_mem]
  intro s hs
  exact hid (ParticipantBucket.slot?_bucketId hs)

/-! ### One entry for each token -/

/-- The entry at index `j` of slot `i` is in use, for the token `t`. -/
def EntryOf (data : List UInt8) (i : Fin participantBucketSlotCount)
    (j : Fin maxBucketTokenBalances) (t : U16) : Prop :=
  let offset := entryOffsetAt (slotsOffset + i.val * ParticipantBucketSlot.space) j
  readBoolAt data (offset + tokenEntryInitializedOffset) .bucketAccountMismatch = .ok true ∧
    readU16At data (offset + tokenEntryTokenIdOffset) .bucketAccountMismatch = .ok t

theorem entryOf_image {i : Fin participantBucketSlotCount} {j : Fin maxBucketTokenBalances} :
    EntryOf (b.image more) i j t ↔ ((b.slots i).tokenBalances j).initialized = true ∧
      ((b.slots i).tokenBalances j).tokenId = t := by
  have hpart := partEntryAt (ParticipantBucket.partSlot more i) j
  simp only [EntryOf, (hpart.comp BucketTokenBalance.partInitialized).readBoolAt,
    (hpart.comp BucketTokenBalance.partTokenId).readU16At, Except.ok.injEq]

theorem entries_distinct (hb : b.Sound) {i : Fin participantBucketSlotCount}
    {j k : Fin maxBucketTokenBalances} (hj : EntryOf (b.image more) i j t)
    (hk : EntryOf (b.image more) i k t) : j = k := by
  obtain ⟨huj, htj⟩ := entryOf_image.mp hj
  obtain ⟨huk, htk⟩ := entryOf_image.mp hk
  exact (hb.slots i).distinct j k huj huk (htj.trans htk.symm)

/-! ### Reachable bytes -/

/-- The data `initialize_account_data` leaves, whatever it was given. -/
def Initialized (data : List UInt8) : Prop :=
  ∃ before bucketId bump, initializeAccountData bucketId bump before = (.ok (), data)

/-- A call leaves what it has written, whether it succeeds or not. -/
def Calls (data : List UInt8) (c : Mutator) (data' : List UInt8) : Prop :=
  Called c ∧ data' = (run c data).2

theorem sound_initializeAccountData (bucketId : U32) (bump : U8) :
    (ParticipantBucket.initializeAccountData bucketId bump).Sound where
  slots _ := {
    blsPubkey := List.length_replicate
    policy := ⟨.permissionless, rfl⟩
    distinct := fun _ _ hi => absurd hi Bool.false_ne_true
    entries := fun _ => ⟨⟨u64_zero, u64_zero, i64_zero⟩, fun _ => rfl⟩ }
  ids _ _ hi := absurd hi Bool.false_ne_true

/-- The data is the image of a sound bucket. -/
def SoundImage (data : List UInt8) : Prop :=
  ∃ (b : ParticipantBucket) (more : List UInt8), data = b.image more ∧ b.Sound

theorem soundImage_of_initialized (h : Initialized data) : SoundImage data := by
  obtain ⟨before, bucketId, bump, h⟩ := h
  by_cases hle : ParticipantBucket.space ≤ before.length
  · rw [initializeAccountData_apply hle] at h
    exact ⟨_, _, (Prod.mk.inj h).2.symm, sound_initializeAccountData bucketId bump⟩
  · have herror : initializeAccountData bucketId bump before = (.error _, before) :=
      bind_apply_error (by rw [read_apply, require, if_neg hle])
    rw [herror] at h
    cases h

theorem soundImage_of_calls {data' : List UInt8} {c : Mutator} (hdata : SoundImage data)
    (hcall : Calls data c data') : SoundImage data' := by
  obtain ⟨b, more, rfl, hb⟩ := hdata
  obtain ⟨hc, rfl⟩ := hcall
  obtain ⟨r, hrun, hr⟩ := run_agrees hb more hc
  rw [hrun]
  cases r with
  | error x => exact ⟨b, more, rfl, hb⟩
  | ok x =>
      obtain ⟨_, _, hx⟩ := hr.eq_ok rfl
      exact ⟨x.1, more, rfl, hx.sound⟩

theorem soundImage_of_reachable (h : Reachable Initialized Calls data) : SoundImage data :=
  h.invariant (fun _ => soundImage_of_initialized) fun _ _ _ _ => soundImage_of_calls

/-- The bytes are a map, and the call does to them what it does to the map. -/
structure Implements (data : List UInt8) (c : Mutator) : Prop where
  distinct : ∀ i j k t, EntryOf data i j t → EntryOf data i k t → j = k
  reads : Reads data (contents data)
  success : ∀ r data', run c data = (.ok r, data') →
    c.apply (contents data) = .ok (contents data', r) ∧ c.Frame (contents data) (contents data')
  failure : ∀ e data', run c data = (.error e, data') →
    data' = data ∧ c.apply (contents data) = .error e

/-- **The bytes of a participant bucket implement a finite map**, in every state that calls lead to: no slot has two entries for one token, the readers return what the map holds, a call that succeeds changes the map under its own key and as it says, and a call that fails leaves every byte. -/
theorem participantBytes_implement_map (h : Reachable Initialized Calls data) {c : Mutator}
    (hc : Called c) : Implements data c := by
  obtain ⟨b, more, rfl, hb⟩ := soundImage_of_reachable h
  obtain ⟨r, hrun, hr⟩ := run_agrees hb more hc
  refine ⟨fun i j k t => entries_distinct hb, ?_, fun r' data' hok => ?_, fun e data' herror => ?_⟩
  · rw [contents_image hb]
    exact reads_image hb
  · rw [hrun] at hok
    cases r with
    | error x => cases hok
    | ok x =>
        obtain ⟨y, hy, hxy⟩ := hr.eq_ok rfl
        obtain ⟨hret, rfl⟩ := Prod.mk.inj hok
        have heq : y = (contents (x.1.image more), r') := by
          rw [contents_image hxy.sound]
          exact Prod.ext hxy.map.symm (hxy.result.symm.trans (Except.ok.inj hret))
        rw [contents_image hb, ← heq]
        have hframe := Mutator.frame_of_apply (hy.trans (congrArg _ heq))
        exact ⟨hy, hframe⟩
  · rw [hrun] at herror
    cases r with
    | error x =>
        obtain ⟨hx, rfl⟩ := Prod.mk.inj herror
        rw [contents_image hb]
        exact ⟨rfl, (hr.eq_error rfl).trans (congrArg _ (Except.error.inj hx))⟩
    | ok x => cases herror

/-- A new bucket with one participant in it. -/
def opened : List UInt8 :=
  (run (.initializeSlot 0 Pubkey.default) ((ParticipantBucket.initializeAccountData 0 0).image [])).2

theorem implements_credit : Implements opened (.applyTokenDelta 0 1 5) := by
  refine participantBytes_implement_map (.next (.start ⟨List.replicate ParticipantBucket.space 0, 0, 0, ?_⟩)
    (a := .initializeSlot 0 Pubkey.default) ⟨trivial, rfl⟩) trivial
  rw [initializeAccountData_apply (List.length_replicate ..).ge, List.drop_replicate, Nat.sub_self]
  rfl

end ParticipantBytes

end Ryvo
