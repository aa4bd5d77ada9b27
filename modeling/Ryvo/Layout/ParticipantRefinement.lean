import Ryvo.Layout.ParticipantAccess
import Ryvo.Layout.ParticipantMap
import Ryvo.State.Balances
import Ryvo.Support.Agreement
import Ryvo.Support.Runs

/-!
# Layout — Participant buckets implement the map

The bytes of a participant bucket stand for a finite map from participants to accounts.  An edit of a row, a slot or a bucket agrees with the change of the holding, the account or the map it stands for, errors included; what makes this an induction is that the buckets the mutators make are `Sound`.

* `slotForParticipant_agrees`, `modifySlot_agrees`: slots are found and edited as accounts are.
* `run_agrees`: a call on the bytes of a sound bucket does what the map's call does, and leaves a sound one.
-/

namespace Ryvo

open Layout InPlace

/-! ### What a bucket stands for -/

/-- A row, without its flag and its token. -/
def BucketTokenBalance.holding (e : BucketTokenBalance) : Holding :=
  ⟨e.availableBalance, e.withdrawingBalance, e.withdrawalUnlockAt, e.withdrawalDestination⟩

/-- A slot, with its rows by token. -/
def ParticipantBucketSlot.account (s : ParticipantBucketSlot) : Account where
  owner := s.owner
  inboundChannelPolicy := (InboundChannelPolicy.tryFrom s.inboundChannelPolicy).toOption.getD .disabled
  blsSchemeVersion := s.blsSchemeVersion
  blsPubkeyCompressed := s.blsPubkeyCompressed
  holdings t := (s.tokenEntry t).map BucketTokenBalance.holding

/-- The initialized slots, by participant. -/
def ParticipantBucket.participantMap (b : ParticipantBucket) : ParticipantMap :=
  ⟨b.bucketId, b.bump, fun p => (b.slot? p).map ParticipantBucketSlot.account⟩

theorem ParticipantBucket.participantMap_accounts (b : ParticipantBucket) (p : U32) :
    b.participantMap.accounts p = (b.slot? p).map ParticipantBucketSlot.account := rfl

/-! ### What holds of every bucket the mutators make -/

/-- Nothing is being withdrawn without a time it unlocks at. -/
structure BucketTokenBalance.Sound (e : BucketTokenBalance) : Prop where
  wellTyped : e.WellTyped
  idle : e.withdrawalUnlockAt = 0 → e.withdrawingBalance = 0

/-- A slot the mutators made: no token has two rows, and every row is sound. -/
structure ParticipantBucketSlot.Sound (s : ParticipantBucketSlot) : Prop where
  blsPubkey : s.blsPubkeyCompressed.length = blsPublicKeyCompressedSize
  policy : ∃ policy : InboundChannelPolicy, s.inboundChannelPolicy = policy.toU8
  distinct : s.DistinctRows
  entries : ∀ i, (s.tokenBalances i).Sound

/-- A bucket the mutators made: every participant is in its own slot. -/
structure ParticipantBucket.Sound (b : ParticipantBucket) : Prop where
  slots : ∀ i, (b.slots i).Sound
  ids : ∀ p, b.bucketId = bucketIdForParticipantId p →
    (b.slots (slotIndexForParticipantId p)).initialized = true →
      (b.slots (slotIndexForParticipantId p)).participantId = p

theorem ParticipantBucketSlot.Sound.wellTyped {s : ParticipantBucketSlot} (hs : s.Sound) :
    s.WellTyped := ⟨hs.blsPubkey, fun i => (hs.entries i).wellTyped⟩

theorem ParticipantBucket.Sound.wellTyped {b : ParticipantBucket} (hb : b.Sound) : b.WellTyped :=
  fun i => (hb.slots i).wellTyped

namespace ParticipantBytes

variable {b : ParticipantBucket} {s : ParticipantBucketSlot} {e : BucketTokenBalance}
variable {p : U32} {t : U16} {α : Type} {ret : α → Option Nat} {missing : VaultError}

/-! ### One entry -/

/-- The edited entry stands for the changed holding. -/
structure EntryRel (ret : α → Option Nat) (e : BucketTokenBalance) (x : BucketTokenBalance × α)
    (y : Holding × Option Nat) : Prop where
  holding : x.1.holding = y.1
  sound : x.1.Sound
  sameKey : e.SameKey x.1
  result : ret x.2 = y.2

/-- Clearing a withdrawal leaves nothing to withdraw. -/
theorem sound_cleared (he : e.WellTyped) : (ParticipantBucketSlot.cleared e).Sound where
  wellTyped := ⟨he.available, u64_zero, i64_zero⟩
  idle _ := rfl

/-! ### One slot -/

/-- The edited slot stands for the changed account. -/
structure SlotRel (ret : α → Option Nat) (s : ParticipantBucketSlot) (x : ParticipantBucketSlot × α)
    (y : Account × Option Nat) : Prop where
  account : x.1.account = y.1
  sound : x.1.Sound
  initialized : x.1.initialized = s.initialized
  participantId : x.1.participantId = s.participantId
  result : ret x.2 = y.2

/-- Every row that is found is sound. -/
theorem entry_sound (hs : s.Sound) (h : s.tokenEntry t = some e) : e.Sound := by
  rw [ParticipantBucketSlot.tokenEntry, Table.lookup_eq_some] at h
  obtain ⟨i, -, rfl⟩ := h
  exact hs.entries i

/-- Writing a row is putting a holding. -/
theorem account_put (hr : s.HasRoom t) (hi : e.initialized = true) (ht : e.tokenId = t) :
    (s.put t e).account = s.account.put t e.holding := by
  have hprof := ParticipantBucketSlot.SameProfile.put s t e
  rw [ParticipantBucketSlot.account, Account.put, ParticipantBucketSlot.account, hprof.owner,
    hprof.inboundChannelPolicy, hprof.blsSchemeVersion, hprof.blsPubkeyCompressed]
  refine congrArg _ (funext fun t' => ?_)
  by_cases h : t' = t
  · subst h
    rw [Function.update_self, ParticipantBucketSlot.tokenEntry_put_self hr hi ht]
    rfl
  · rw [Function.update_of_ne h, ParticipantBucketSlot.tokenEntry_put_ne ht h]

/-- Writing a sound row keeps the slot sound. -/
theorem sound_put (hs : s.Sound) (he : e.Sound) (ht : e.tokenId = t) : (s.put t e).Sound := by
  have hprof := ParticipantBucketSlot.SameProfile.put s t e
  refine ⟨hprof.blsPubkeyCompressed ▸ hs.blsPubkey, hprof.inboundChannelPolicy ▸ hs.policy,
    hs.distinct.put ht, fun i => ?_⟩
  by_cases hr : s.HasRoom t
  · obtain ⟨j, -, hput⟩ := ParticipantBucketSlot.put_eq_setEntry hr e
    rw [hput, ParticipantBucketSlot.setEntry]
    by_cases hj : i = j
    · subst hj
      simpa using he
    · simpa [Function.update_of_ne hj] using hs.entries i
  · rw [ParticipantBucketSlot.put_of_not_hasRoom hr]
    exact hs.entries i

/-- A row written under its token. -/
theorem slotRel_put (hs : s.Sound) (hr : s.HasRoom t) (he : e.Sound) (hi : e.initialized = true)
    (ht : e.tokenId = t) {x : α} : SlotRel ret s (s.put t e, x) (s.account.put t e.holding, ret x) where
  account := account_put hr hi ht
  sound := sound_put hs he ht
  initialized := (ParticipantBucketSlot.SameProfile.put s t e).initialized
  participantId := (ParticipantBucketSlot.SameProfile.put s t e).participantId
  result := rfl

/-- An edit of the token's entry is the change of its holding. -/
theorem withTokenEntry_agrees (hs : s.Sound) {f : BucketTokenBalance → Result (BucketTokenBalance × α)}
    {g : Holding → Result (Holding × Option Nat)}
    (hfg : ∀ e, e.Sound → Agrees (EntryRel ret e) (f e) (g e.holding)) :
    Agrees (SlotRel ret s) (s.withTokenEntry t missing f) (s.account.modify t missing g) := by
  have hholding : s.account.holdings t = (s.tokenEntry t).map BucketTokenBalance.holding := rfl
  cases he : s.tokenEntry t with
  | none =>
      rw [ParticipantBucketSlot.withTokenEntry_of_none he, Account.modify, hholding, he]
      exact .error _
  | some e =>
      rw [ParticipantBucketSlot.withTokenEntry_of_some he, Account.modify, hholding, he]
      refine (hfg e (entry_sound hs he)).map fun x y hxy => ?_
      obtain ⟨hinit, hid⟩ := hxy.sameKey
      rw [← hxy.holding, ← hxy.result]
      exact slotRel_put hs (ParticipantBucketSlot.hasRoom_of_tokenEntry he) hxy.sound
        (hinit.trans (ParticipantBucketSlot.tokenEntry_initialized he))
        (hid.trans (ParticipantBucketSlot.tokenEntry_tokenId he))

section
variable (hs : s.Sound)
include hs

/-- A debit of the available balance agrees with the map's, and so do the operations that follow. -/
theorem debitTokenAvailable_agrees (amount : Nat) : Agrees (SlotRel some s)
    (s.debitTokenAvailable t amount)
    (s.account.modify t .tokenNotFound (Holding.debitAvailable amount)) := by
  refine withTokenEntry_agrees hs fun e he => Agrees.bind_same fun _ ha => ?_
  rw [require_eq_ok] at ha
  rw [subU64, checkedSub_eq_ok.mpr ⟨rfl, ha⟩, Except.ok_bind]
  refine .ok ⟨rfl, ⟨⟨?_, he.wellTyped.withdrawing, he.wellTyped.unlockAt⟩, he.idle⟩, ⟨rfl, rfl⟩, rfl⟩
  exact lt_of_le_of_lt (Nat.sub_le _ _) he.wellTyped.available

theorem initiateTokenWithdrawal_agrees (amount : Nat) (destination : Pubkey) {unlockAt : Int}
    (hu : I64 unlockAt) (hpos : 0 < unlockAt) : Agrees (SlotRel (fun _ => none) s)
      (s.initiateTokenWithdrawal t amount destination unlockAt)
      (s.account.modify t .tokenNotFound (Holding.initiate amount destination unlockAt)) := by
  refine withTokenEntry_agrees hs fun e he => ?_
  refine Agrees.bind_same fun _ h₀ => Agrees.bind_same fun _ ha => ?_
  rw [require_eq_ok] at h₀ ha
  have hlt : e.withdrawingBalance + amount < u64Bound := by
    rw [he.idle h₀, Nat.zero_add]
    exact lt_of_le_of_lt ha he.wellTyped.available
  rw [subU64, checkedSub_eq_ok.mpr ⟨rfl, ha⟩, Except.ok_bind, addU64,
    checkedAdd_eq_ok.mpr ⟨rfl, hlt⟩, Except.ok_bind]
  refine .ok ⟨rfl, ⟨⟨?_, hlt, hu⟩, fun h => absurd h hpos.ne'⟩, ⟨rfl, rfl⟩, rfl⟩
  exact lt_of_le_of_lt (Nat.sub_le _ _) he.wellTyped.available

theorem cancelTokenWithdrawal_agrees : Agrees (SlotRel some s) (s.cancelTokenWithdrawal t)
    (s.account.modify t .noWithdrawalPending Holding.cancel) := by
  refine withTokenEntry_agrees hs fun e he => ?_
  refine Agrees.bind_same fun _ _ => Agrees.bind_same fun total ht => ?_
  obtain ⟨rfl, hlt⟩ := checkedAdd_eq_ok.mp ht
  exact .ok ⟨rfl, sound_cleared ⟨hlt, he.wellTyped.withdrawing, he.wellTyped.unlockAt⟩,
    ⟨rfl, rfl⟩, rfl⟩

theorem clearTokenWithdrawal_agrees : Agrees (SlotRel (fun _ => none) s) (s.clearTokenWithdrawal t)
    (s.account.modify t .tokenNotFound Holding.clear) :=
  withTokenEntry_agrees hs fun _ he => .ok ⟨rfl, sound_cleared he.wellTyped, ⟨rfl, rfl⟩, rfl⟩

theorem debitToken_agrees (amount : Nat) : Agrees (SlotRel (fun _ => none) s)
    (s.debitToken t amount) (s.account.modify t .insufficientBalance (Holding.debit amount)) := by
  refine withTokenEntry_agrees hs fun e he => ?_
  obtain ⟨⟨hav, hwi, hun⟩, hidle⟩ := he
  rw [ParticipantBucketSlot.drained, bind_assoc]
  refine Agrees.bind_same fun total ht => ?_
  rw [bind_assoc]
  refine Agrees.bind_same fun _ ha => ?_
  obtain ⟨rfl, hlt⟩ := checkedAdd_eq_ok.mp ht
  rw [require_eq_ok] at ha
  change amount ≤ e.availableBalance + e.withdrawingBalance at ha
  by_cases hle : amount ≤ e.availableBalance
  · rw [if_pos hle, if_pos (show amount ≤ e.holding.available from hle)]
    exact .ok ⟨rfl, ⟨⟨lt_of_le_of_lt (Nat.sub_le _ _) hav, hwi, hun⟩, hidle⟩, ⟨rfl, rfl⟩, rfl⟩
  · rw [if_neg hle, if_neg (show ¬ amount ≤ e.holding.available from hle)]
    have hrest : amount - e.availableBalance ≤ e.withdrawingBalance := by omega
    rw [subU64, checkedSub_eq_ok.mpr ⟨rfl, hrest⟩, Except.ok_bind]
    refine .ok ⟨?_, ⟨⟨u64_zero, lt_of_le_of_lt (Nat.sub_le _ _) hwi, hun⟩, fun h => ?_⟩, ⟨rfl, rfl⟩, rfl⟩
    · simp only [BucketTokenBalance.holding, Holding.mk.injEq, true_and, and_true]
      omega
    · have hz := hidle h
      omega

/-- There is room in the slot exactly where there is in the account. -/
theorem hasRoom_iff : s.account.HasRoom t ↔ s.HasRoom t := by
  have hcount := Table.free_isSome_iff_ncard hs.distinct
  simp only [Account.HasRoom, ParticipantBucketSlot.HasRoom, ParticipantBucketSlot.account,
    Option.isSome_map, hcount, ParticipantBucketSlot.tokenEntry]

/-- A row there is none of counts as an empty one, which is sound. -/
theorem sound_balance (t : U16) : (s.balance t).Sound := by
  cases he : s.tokenEntry t with
  | none =>
      rw [ParticipantBucketSlot.balance_of_none he]
      exact ⟨⟨u64_zero, u64_zero, i64_zero⟩, fun _ => rfl⟩
  | some e =>
      rw [ParticipantBucketSlot.balance_of_tokenEntry he]
      exact entry_sound hs he

omit hs in
theorem holding_balance (t : U16) : (s.account.holdings t).getD .empty = (s.balance t).holding := by
  simp only [ParticipantBucketSlot.account, ParticipantBucketSlot.balance]
  cases s.tokenEntry t <;> rfl

open scoped Classical in
/-- A credit may open a row. -/
theorem creditToken_agrees (amount : Nat) :
    Agrees (SlotRel (fun _ => none) s) (s.creditToken t amount) (s.account.credit t amount) := by
  rw [Account.credit, holding_balance]
  by_cases hr : s.HasRoom t
  · rw [ParticipantBucketSlot.creditToken_of_hasRoom hr, require_of ((hasRoom_iff hs).mpr hr),
      Except.ok_bind, ← bind_pure_comp]
    refine Agrees.bind_same fun available ha => ?_
    obtain ⟨rfl, hlt⟩ := checkedAdd_eq_ok.mp ha
    obtain ⟨⟨-, hwi, hun⟩, hidle⟩ := sound_balance hs t
    let e := { s.balance t with availableBalance := (s.balance t).availableBalance + amount }
    have he : e.Sound := ⟨⟨hlt, hwi, hun⟩, hidle⟩
    exact .ok (slotRel_put hs hr he (s.balance_initialized t) (s.balance_tokenId t))
  · rw [ParticipantBucketSlot.creditToken_of_not_hasRoom hr, require,
      if_neg (mt (hasRoom_iff hs).mp hr)]
    exact .error _

/-- A delta is a credit or a debit. -/
theorem applyTokenDelta_agrees (delta : Int) : Agrees (SlotRel (fun _ => none) s)
    (s.applyTokenDelta t delta) (do
      let amount ← ParticipantBucketSlot.deltaToU64 delta
      if 0 < delta then s.account.credit t amount
      else s.account.modify t .insufficientBalance (Holding.debit amount)) := by
  refine Agrees.bind_same fun amount _ => ?_
  by_cases h : 0 < delta
  · rw [if_pos h, if_pos h]
    exact creditToken_agrees hs amount
  · rw [if_neg h, if_neg h]
    exact debitToken_agrees hs amount

theorem slotRel_policy (policy : InboundChannelPolicy) : SlotRel (fun _ : Unit => none) s
    ({ s with inboundChannelPolicy := policy.toU8 }, ())
    ({ s.account with inboundChannelPolicy := policy }, none) where
  account := by
    simp only [ParticipantBucketSlot.account, InboundChannelPolicy.tryFrom_toU8]
    rfl
  sound := ⟨hs.blsPubkey, ⟨policy, rfl⟩, hs.distinct, hs.entries⟩
  initialized := rfl
  participantId := rfl
  result := rfl

theorem slotRel_blsRegistration (version : U8) (key : Bytes blsPublicKeyCompressedSize) :
    SlotRel (fun _ : Unit => none) s
      ({ s with blsSchemeVersion := version, blsPubkeyCompressed := key.val }, ())
      ({ s.account with blsSchemeVersion := version, blsPubkeyCompressed := key.val }, none) where
  account := rfl
  sound := ⟨key.property, hs.policy, hs.distinct, hs.entries⟩
  initialized := rfl
  participantId := rfl
  result := rfl

end

/-! ### The bucket -/

/-- The edited bucket stands for the changed map. -/
structure BucketRel (ret : α → Option Nat) (x : ParticipantBucket × α)
    (y : ParticipantMap × Option Nat) : Prop where
  map : x.1.participantMap = y.1
  sound : x.1.Sound
  result : ret x.2 = y.2

/-- Writing a slot is setting its participant's account. -/
theorem participantMap_setSlot (hb : b.bucketId = ParticipantBucket.bucketIdForParticipantId p)
    (hi : s.initialized = true) (hp : s.participantId = p) :
    (b.setSlot p s).participantMap = b.participantMap.setAccount p s.account := by
  rw [ParticipantBucket.participantMap, ParticipantMap.setAccount, ParticipantBucket.participantMap]
  refine congrArg _ (funext fun q => ?_)
  by_cases h : q = p
  · subst h
    rw [Function.update_self, ParticipantBucket.slot?_setSlot_self hb hi hp]
    rfl
  · rw [Function.update_of_ne h, ParticipantBucket.slot?_setSlot_ne h hb]

/-- Writing a sound slot keeps the bucket sound. -/
theorem sound_setSlot (hb : b.Sound) (hid : b.bucketId = ParticipantBucket.bucketIdForParticipantId p)
    (hs : s.Sound) (hp : s.participantId = p) : (b.setSlot p s).Sound where
  slots i := by
    rw [ParticipantBucket.setSlot]
    by_cases h : i = ParticipantBucket.slotIndexForParticipantId p
    · subst h
      simpa using hs
    · simpa [Function.update_of_ne h] using hb.slots i
  ids q hq hi := by
    change b.bucketId = ParticipantBucket.bucketIdForParticipantId q at hq
    rw [ParticipantBucket.setSlot] at hi ⊢
    by_cases h : ParticipantBucket.slotIndexForParticipantId q
        = ParticipantBucket.slotIndexForParticipantId p
    · obtain rfl := ParticipantBucket.id_eq_of_position (hq.symm.trans hid) h
      simpa using hp
    · simp only [Function.update_of_ne h] at hi ⊢
      exact hb.ids q hq hi

/-- A slot is found exactly where the map has an account. -/
theorem slotForParticipant_agrees (hb : b.Sound) (p : U32) :
    Agrees (fun s a => b.slotForParticipant p = .ok s ∧ s.Sound ∧ s.account = a)
      (b.slotForParticipant p) (b.participantMap.account p) := by
  have hiff := fun s => ParticipantBucket.slotForParticipant_eq_ok (b := b) (p := p) (s := s)
  simp only [hiff]
  rw [ParticipantBucket.slotForParticipant, ParticipantBucket.slotForParticipantIndex, bind_assoc]
  refine Agrees.bind_same fun _ hid => ?_
  rw [require_eq_ok] at hid
  rw [pure_bind]
  by_cases hi : (b.slots (ParticipantBucket.slotIndexForParticipantId p)).initialized = true
  · have hp := hb.ids p hid hi
    have hfound : b.slot? p = some (b.slots (ParticipantBucket.slotIndexForParticipantId p)) :=
      ParticipantBucket.slot?_eq_some.mpr ((hiff _).mpr ⟨hid, rfl, hi, hp⟩)
    rw [require_of hi, Except.ok_bind, require_of hp, Except.ok_bind,
      ParticipantBucket.participantMap_accounts, hfound]
    exact .ok ⟨⟨hid, rfl, hi, hp⟩, hb.slots _, rfl⟩
  · have hnone : b.slot? p = none := by
      rw [Option.eq_none_iff_forall_not_mem]
      intro s hs
      obtain ⟨-, rfl, hinit, -⟩ := (hiff s).mp (ParticipantBucket.slot?_eq_some.mp hs)
      exact hi hinit
    rw [require, if_neg hi, ParticipantBucket.participantMap_accounts, hnone]
    exact .error _

/-- An edit of a slot is the change of its account. -/
theorem modifySlot_agrees (hb : b.Sound)
    {f : ParticipantBucketSlot → Result (ParticipantBucketSlot × α)}
    {g : Account → Result (Account × Option Nat)}
    (hfg : ∀ s, s.Sound → Agrees (SlotRel ret s) (f s) (g s.account)) :
    Agrees (BucketRel ret) (b.modifySlot p f) (b.participantMap.modify p g) := by
  refine (slotForParticipant_agrees hb p).bind fun s a _ hsa => ?_
  obtain ⟨hslot, hs, rfl⟩ := hsa
  obtain ⟨hid, -, hinit, hp⟩ := ParticipantBucket.slotForParticipant_eq_ok.mp hslot
  refine (hfg s hs).bind fun x y _ hxy => .ok ?_
  have hp' := hxy.participantId.trans hp
  exact ⟨hxy.account ▸ participantMap_setSlot hid (hxy.initialized.trans hinit) hp',
    sound_setSlot hb hid hxy.sound hp', hxy.result⟩

/-! ### Every call -/

/-- The call itself, on the bytes. -/
def run : Mutator → Edit (Option Nat)
  | .initializeSlot p owner => do
      initializeSlotInData p owner
      pure none
  | .applyTokenDelta p t delta => do
      applyTokenDeltaInData p t delta
      pure none
  | .debitTokenAvailable p t amount => do
      let nextAvailable ← debitTokenAvailableInData p t amount.val
      pure (some nextAvailable)
  | .initiateTokenWithdrawal p t amount destination unlockAt => do
      initiateTokenWithdrawalInData p t amount.val destination unlockAt
      pure none
  | .cancelTokenWithdrawal p t => do
      let withdrawing ← cancelTokenWithdrawalInData p t
      pure (some withdrawing)
  | .clearTokenWithdrawal p t => do
      clearTokenWithdrawalInData p t
      pure none
  | .writeInboundChannelPolicy p policy => do
      writeInboundChannelPolicyInData p policy
      pure none
  | .writeBlsRegistration p blsSchemeVersion blsPubkeyCompressed => do
      writeBlsRegistrationInData p blsSchemeVersion blsPubkeyCompressed.val
      pure none

/-- An unlock time is an `i64`, and callers pass positive ones. -/
def Called : Mutator → Prop
  | .initiateTokenWithdrawal _ _ _ _ unlockAt => 0 < unlockAt ∧ unlockAt < 2 ^ 63
  | _ => True

/-- A fresh slot is an opened account. -/
theorem account_fresh (p : U32) (owner : Pubkey) :
    (ParticipantBucketSlot.fresh p owner).account = .opened owner := by
  rw [ParticipantBucketSlot.account, Account.opened]
  refine congrArg _ (funext fun t => ?_)
  rw [ParticipantBucketSlot.tokenEntry_fresh]
  rfl

theorem sound_fresh (p : U32) (owner : Pubkey) : (ParticipantBucketSlot.fresh p owner).Sound where
  blsPubkey := List.length_replicate
  policy := ⟨.consentRequired, rfl⟩
  distinct := ParticipantBucketSlot.distinctRows_fresh p owner
  entries _ := ⟨⟨u64_zero, u64_zero, i64_zero⟩, fun _ => rfl⟩

/-- A slot is opened for a participant that has none. -/
theorem initializeSlotInData_agrees (hb : b.Sound) (p : U32) (owner : Pubkey) :
    Agrees (BucketRel fun _ : Unit => none) ((fun b' => (b', ())) <$> b.initializeSlotInData p owner)
      (Mutator.apply b.participantMap (.initializeSlot p owner)) := by
  rw [ParticipantBucket.initializeSlotInData, ParticipantBucket.slotForParticipantIndex, bind_assoc,
    map_bind]
  refine Agrees.bind_same fun _ hid => ?_
  rw [require_eq_ok] at hid
  rw [pure_bind, map_bind, ParticipantBucket.participantMap_accounts]
  cases hi : (b.slots (ParticipantBucket.slotIndexForParticipantId p)).initialized with
  | true =>
      have hfound := ParticipantBucket.slot?_eq_some.mpr
        (ParticipantBucket.slotForParticipant_eq_ok.mpr ⟨hid, rfl, hi, hb.ids p hid hi⟩)
      rw [hfound]
      exact .error _
  | false =>
      have hnone : b.slot? p = none := by
        rw [Option.eq_none_iff_forall_not_mem]
        intro s hs
        obtain ⟨-, rfl, hinit, -⟩ :=
          ParticipantBucket.slotForParticipant_eq_ok.mp (ParticipantBucket.slot?_eq_some.mp hs)
        exact Bool.false_ne_true (hi.symm.trans hinit)
      rw [hnone]
      refine .ok ⟨?_, sound_setSlot hb hid (sound_fresh p owner) rfl, rfl⟩
      rw [← account_fresh p owner]
      exact participantMap_setSlot hid rfl rfl

/-- **A call on the bytes is the operation on the map.** -/
theorem run_agrees (hb : b.Sound) (more : List UInt8) {c : Mutator} (hc : Called c) :
    ∃ r, run c (b.image more) = outcome (ParticipantBucket.image more) b r ∧
      Agrees (BucketRel id) r (c.apply b.participantMap) := by
  have hwt := hb.wellTyped
  cases c with
  | initializeSlot p owner =>
      exact ⟨_, outcome_map _ initializeSlotInData_image,
        (initializeSlotInData_agrees hb p owner).map_left fun _ _ h => ⟨h.map, h.sound, h.result⟩⟩
  | applyTokenDelta p t delta =>
      refine ⟨_, outcome_map _ (applyTokenDeltaInData_image hwt), ?_⟩
      rw [ParticipantBucket.applyTokenDeltaInData, Mutator.apply]
      by_cases hz : delta = 0
      · rw [if_pos hz, if_pos hz]
        exact .ok ⟨rfl, hb, rfl⟩
      · rw [if_neg hz, if_neg hz]
        exact (modifySlot_agrees hb fun s hs => applyTokenDelta_agrees hs delta).map_left
          fun _ _ h => ⟨h.map, h.sound, h.result⟩
  | debitTokenAvailable p t amount =>
      exact ⟨_, outcome_map _ (debitTokenAvailableInData_image hwt),
        (modifySlot_agrees hb fun s hs => debitTokenAvailable_agrees hs amount.val).map_left
          fun _ _ h => ⟨h.map, h.sound, h.result⟩⟩
  | initiateTokenWithdrawal p t amount destination unlockAt =>
      obtain ⟨hpos, hlt⟩ := hc
      refine ⟨_, outcome_map _ (initiateTokenWithdrawalInData_image hwt
        fun i j => ((hb.slots i).entries j).idle), ?_⟩
      have hu : I64 unlockAt := ⟨by omega, hlt⟩
      exact (modifySlot_agrees hb fun s hs =>
        initiateTokenWithdrawal_agrees hs amount.val destination hu hpos).map_left
          fun _ _ h => ⟨h.map, h.sound, h.result⟩
  | cancelTokenWithdrawal p t =>
      exact ⟨_, outcome_map _ (cancelTokenWithdrawalInData_image hwt),
        (modifySlot_agrees hb fun s hs => cancelTokenWithdrawal_agrees hs).map_left
          fun _ _ h => ⟨h.map, h.sound, h.result⟩⟩
  | clearTokenWithdrawal p t =>
      exact ⟨_, outcome_map _ clearTokenWithdrawalInData_image,
        (modifySlot_agrees hb fun s hs => clearTokenWithdrawal_agrees hs).map_left
          fun _ _ h => ⟨h.map, h.sound, h.result⟩⟩
  | writeInboundChannelPolicy p policy =>
      exact ⟨_, outcome_map _ writeInboundChannelPolicyInData_image,
        (modifySlot_agrees hb fun s hs => .ok (slotRel_policy hs policy)).map_left
          fun _ _ h => ⟨h.map, h.sound, h.result⟩⟩
  | writeBlsRegistration p version key =>
      exact ⟨_, outcome_map _ (writeBlsRegistrationInData_image key.property),
        (modifySlot_agrees hb fun s hs => .ok (slotRel_blsRegistration hs version key)).map_left
          fun _ _ h => ⟨h.map, h.sound, h.result⟩⟩

end ParticipantBytes

end Ryvo
