import Ryvo.Layout.ChannelLanes
import Ryvo.Layout.ParticipantAccess

/-!
# Layout — Account structs

The account structs have accessors of their own, which work on the decoded value and not on the data.  Here they are translated by themselves, and compared with the accesses by offset on the encoded value.

* `participantReads`, `channelReads`: a raw reader returns what the struct's accessor gives, or fails as it does.
* `deltaAgrees`: a balance change in the data succeeds exactly where the one on the struct does, and leaves its encoding.

The settlement and commitment readers also require the lane to have been created, which `resolve_lane` does not.
-/

namespace Ryvo

open Layout InPlace

namespace AccountStruct

/-! ### The participant structs -/

section
variable (s : ParticipantBucketSlot) (tokenId : U16)

def findTokenBalanceIndex : Option (Fin maxBucketTokenBalances) :=
  (List.finRange maxBucketTokenBalances).find? fun i =>
    (s.tokenBalances i).initialized && decide ((s.tokenBalances i).tokenId = tokenId)

def findOrCreateTokenBalanceIndex : Result (ParticipantBucketSlot × Fin maxBucketTokenBalances) :=
  match findTokenBalanceIndex s tokenId with
  | some index => .ok (s, index)
  | none => do
      let index ← okOr ((List.finRange _).find? fun i => !(s.tokenBalances i).initialized)
        (.vault .tooManyTokenBalances)
      pure (s.setEntry index { BucketTokenBalance.empty with initialized := true, tokenId }, index)

def getTokenBalance : Option BucketTokenBalance :=
  (findTokenBalanceIndex s tokenId).map s.tokenBalances

/-- What is made of the balance that `get_token_balance_mut` lends. -/
def editTokenBalance (f : BucketTokenBalance → Result BucketTokenBalance) :
    Result ParticipantBucketSlot := do
  let (s, index) ← findOrCreateTokenBalanceIndex s tokenId
  let balance ← f (s.tokenBalances index)
  pure (s.setEntry index balance)

def creditToken (amount : Nat) : Result ParticipantBucketSlot :=
  editTokenBalance s tokenId fun balance => do
    let availableBalance ← addU64 balance.availableBalance amount
    pure { balance with availableBalance }

def debitToken (amount : Nat) : Result ParticipantBucketSlot :=
  editTokenBalance s tokenId fun balance => do
    let totalBalance ← addU64 balance.availableBalance balance.withdrawingBalance
    require (amount ≤ totalBalance) (.vault .insufficientBalance)
    if amount ≤ balance.availableBalance then
      pure { balance with availableBalance := balance.availableBalance - amount }
    else
      let remainder := amount - balance.availableBalance
      let withdrawingBalance ← subU64 balance.withdrawingBalance remainder
      pure { balance with availableBalance := 0, withdrawingBalance }

def getTokenTotalBalance : Result Nat := do
  let balance ← okOr (getTokenBalance s tokenId) (.vault .tokenNotFound)
  addU64 balance.availableBalance balance.withdrawingBalance

def getTokenTotalBalanceOrZero : Result Nat :=
  match getTokenBalance s tokenId with
  | some balance => addU64 balance.availableBalance balance.withdrawingBalance
  | none => .ok 0

/-- `u64::try_from`. -/
def checkedPositiveDeltaToU64 (delta : Int) : Result Nat := do
  require (0 ≤ delta ∧ delta < u64Bound) (.vault .mathOverflow)
  pure delta.toNat

/-- `checked_neg` in `i128`, and `u64::try_from`. -/
def checkedNegativeDeltaToU64 (delta : Int) : Result Nat := do
  let amount ← signed 127 (-delta) (Error.vault .mathOverflow)
  checkedPositiveDeltaToU64 amount

def applyTokenDelta (delta : Int) : Result ParticipantBucketSlot :=
  if 0 ≤ delta then do
    let amount ← checkedPositiveDeltaToU64 delta
    creditToken s tokenId amount
  else do
    let amount ← checkedNegativeDeltaToU64 delta
    debitToken s tokenId amount

end

section
variable (b : ParticipantBucket) (participantId : U32)

/-- `slot`, and the slot that `slot_mut` lends. -/
def slot : Result ParticipantBucketSlot := do
  require (b.bucketId = ParticipantBucket.bucketIdForParticipantId participantId)
    (.vault .bucketAccountMismatch)
  let slot := b.slots (ParticipantBucket.slotIndexForParticipantId participantId)
  require (slot.initialized = true) (.vault .participantNotFound)
  require (slot.participantId = participantId) (.vault .bucketSlotMismatch)
  pure slot

/-- `slot_mut(participant_id)?.apply_token_delta(token_id, delta)`. -/
def applySlotDelta (tokenId : U16) (delta : Int) : Result ParticipantBucket := do
  let slot ← slot b participantId
  let slot ← applyTokenDelta slot tokenId delta
  pure (b.setSlot participantId slot)

end

/-! ### The channel structs -/

section
variable (b : ChannelBucket)

/-- `ChannelBucket::slot`. -/
def channelSlot (lower higher : U32) : Result ChannelBucketSlot := do
  let bucketId ← ChannelBucket.bucketIdForPair lower higher
  require (b.bucketId = bucketId) (.vault .bucketAccountMismatch)
  let index ← ChannelBucket.slotIndexForPair lower higher
  let slot := b.slots index
  require (slot.initialized = true) (.vault .channelNotInitialized)
  require (slot.lowerParticipantId = lower ∧ slot.higherParticipantId = higher)
    (.vault .bucketSlotMismatch)
  pure slot

def resolveLane (payerId payeeId : U32) : Result DirectionalLaneState := do
  let (lower, higher, selector) ← ChannelBucket.canonicalize payerId payeeId
  let slot ← channelSlot b lower higher
  pure (slot.lane selector)

end

/-! ### The accessors and the record -/

section
variable {s s' : ParticipantBucketSlot} {t : U16} {b b' : ParticipantBucket} {p : U32} {amount : Nat}
variable {delta : Int}

theorem slot_eq : slot b p = b.slotForParticipant p := by
  simp only [slot, ParticipantBucket.slotForParticipant, ParticipantBucket.slotForParticipantIndex,
    bind_assoc, pure_bind]

theorem findTokenBalanceIndex_eq : findTokenBalanceIndex s t = s.tokenEntryOffset t :=
  Table.find_eq_finRange.symm

theorem getTokenBalance_eq : getTokenBalance s t = s.tokenEntry t := by
  rw [getTokenBalance, findTokenBalanceIndex_eq]
  rfl

theorem getTokenTotalBalance_eq : getTokenTotalBalance s t = s.readTokenTotalBalance t := by
  rw [getTokenTotalBalance, getTokenBalance_eq]
  rfl

theorem getTokenTotalBalanceOrZero_eq :
    getTokenTotalBalanceOrZero s t = s.readTokenTotalBalanceOrZero t := by
  rw [getTokenTotalBalanceOrZero, getTokenBalance_eq, ParticipantBucketSlot.readTokenTotalBalanceOrZero]
  cases s.tokenEntry t with
  | none => rfl
  | some e => rfl

theorem findOrCreateTokenBalanceIndex_eq :
    findOrCreateTokenBalanceIndex s t = s.findOrCreateTokenEntryOffset t := by
  rw [findOrCreateTokenBalanceIndex, findTokenBalanceIndex_eq, ← Table.free_eq_finRange,
    ParticipantBucketSlot.findOrCreateTokenEntryOffset]
  cases s.tokenEntryOffset t with
  | some i => rfl
  | none =>
      cases Table.free (·.initialized) s.tokenBalances with
      | some i => rfl
      | none => rfl

theorem creditToken_eq : creditToken s t amount = Prod.fst <$> s.creditToken t amount := by
  rw [creditToken, editTokenBalance, findOrCreateTokenBalanceIndex_eq,
    ParticipantBucketSlot.creditToken, map_bind]
  refine bind_congr fun x => ?_
  simp only [bind_assoc, pure_bind, map_bind, map_pure]

theorem debitToken_eq : debitToken s t amount
    = editTokenBalance s t fun e => ParticipantBucketSlot.drained e amount := rfl

/-- There is nothing to take from an empty balance. -/
theorem drained_fresh (h : 0 < amount) :
    ParticipantBucketSlot.drained (.fresh t) amount = .error (.vault .insufficientBalance) := by
  have htotal : addU64 (BucketTokenBalance.fresh t).availableBalance
      (BucketTokenBalance.fresh t).withdrawingBalance = .ok 0 := rfl
  have hless : require (amount ≤ 0) (Error.vault .insufficientBalance)
      = .error (.vault .insufficientBalance) := if_neg (Nat.not_le.mpr h)
  rw [ParticipantBucketSlot.drained, htotal, Except.ok_bind, hless]
  rfl

/-- Both need the token's entry: where there is none, the struct makes an empty one first, which has nothing to take. -/
theorem debitToken_eq_ok (h : 0 < amount) :
    debitToken s t amount = .ok s' ↔ s.debitToken t amount = .ok (s', ()) := by
  rw [debitToken_eq, editTokenBalance, findOrCreateTokenBalanceIndex_eq,
    ParticipantBucketSlot.findOrCreateTokenEntryOffset, ParticipantBucketSlot.debitToken,
    ParticipantBucketSlot.withTokenEntry]
  cases s.tokenEntryOffset t with
  | some i =>
      simp only [okOr, Except.ok_bind, bind_assoc, pure_bind, Except.bind_eq_ok, Except.pure_eq_ok,
        Prod.mk.injEq, and_true]
  | none =>
      have hmissing : (okOr (none : Option (Fin maxBucketTokenBalances))
          (.vault .insufficientBalance) : Result _) = .error (.vault .insufficientBalance) := rfl
      cases Table.free (·.initialized) s.tokenBalances with
      | none => simp [hmissing]
      | some i => simp [hmissing, ParticipantBucketSlot.setEntry, drained_fresh h]

open ParticipantBucketSlot in
theorem checkedPositiveDeltaToU64_eq_ok {n : Nat} (h : 0 ≤ delta) :
    checkedPositiveDeltaToU64 delta = .ok n ↔ deltaToU64 delta = .ok n := by
  have habs : (delta.natAbs : Int) = delta := Int.natAbs_of_nonneg h
  simp only [checkedPositiveDeltaToU64, deltaToU64, Except.bind_eq_ok, require_eq_ok, exists_const,
    Except.pure_eq_ok, tryFrom_eq_ok]
  omega

open ParticipantBucketSlot in
theorem checkedNegativeDeltaToU64_eq_ok {n : Nat} (h : delta < 0) :
    checkedNegativeDeltaToU64 delta = .ok n ↔ deltaToU64 delta = .ok n := by
  have hbound : (u64Bound : Int) ≤ 2 ^ 127 := by decide
  have habs : (delta.natAbs : Int) = -delta := Int.ofNat_natAbs_of_nonpos h.le
  have hneg : deltaToU64 delta = deltaToU64 (-delta) := by rw [deltaToU64, deltaToU64, Int.natAbs_neg]
  rw [hneg, ← checkedPositiveDeltaToU64_eq_ok (by omega)]
  simp only [checkedNegativeDeltaToU64, Except.bind_eq_ok, signed_eq_ok]
  constructor
  · rintro ⟨amount, ⟨rfl, -⟩, hn⟩
    exact hn
  · intro hn
    refine ⟨-delta, ⟨rfl, ?_⟩, hn⟩
    simp only [checkedPositiveDeltaToU64, Except.bind_eq_ok, require_eq_ok] at hn
    obtain ⟨-, ⟨hle, hlt⟩, -⟩ := hn
    exact ⟨by omega, by omega⟩

theorem applyTokenDelta_eq_ok (h : delta ≠ 0) :
    applyTokenDelta s t delta = .ok s' ↔ s.applyTokenDelta t delta = .ok (s', ()) := by
  rw [applyTokenDelta, ParticipantBucketSlot.applyTokenDelta]
  by_cases hpos : 0 ≤ delta
  · have hlt : 0 < delta := by omega
    simp only [if_pos hpos, if_pos hlt, Except.bind_eq_ok, checkedPositiveDeltaToU64_eq_ok hpos,
      creditToken_eq, Except.map_eq_ok, Prod.exists, exists_eq_right, Unique.exists_iff,
      PUnit.default_eq_unit]
  · have hlt : ¬ 0 < delta := by omega
    simp only [if_neg hpos, if_neg hlt, Except.bind_eq_ok,
      checkedNegativeDeltaToU64_eq_ok (not_le.mp hpos)]
    refine exists_congr fun amount => and_congr_right fun hn => debitToken_eq_ok ?_
    rw [ParticipantBucketSlot.deltaToU64, tryFrom_eq_ok] at hn
    omega

theorem applySlotDelta_eq_ok (h : delta ≠ 0) :
    applySlotDelta b p t delta = .ok b' ↔ b.applyTokenDeltaInData p t delta = .ok (b', ()) := by
  rw [applySlotDelta, slot_eq, ParticipantBucket.applyTokenDeltaInData, if_neg h,
    ParticipantBucket.modifySlot]
  simp only [Except.bind_eq_ok, applyTokenDelta_eq_ok h, Except.pure_eq_ok, Prod.exists,
    Prod.mk.injEq, and_true, Unique.exists_iff, PUnit.default_eq_unit]

end

section
variable {b : ChannelBucket} {p q lower higher : U32} {selector : LaneSelector}

theorem channelSlot_eq : channelSlot b lower higher = b.slots <$> b.slotOffsetForPair lower higher := by
  simp only [channelSlot, ChannelBucket.slotOffsetForPair, map_bind, map_pure]

theorem resolveLane_eq : resolveLane b p q = b.readResolvedLaneCoreFromData p q := by
  simp only [resolveLane, channelSlot_eq, ChannelBucket.readResolvedLaneCoreFromData,
    ChannelBucket.laneOffset, bind_assoc, pure_bind, bind_map_left]
  rfl

/-- A lane of the slot, if it has been created. -/
def createdLane (b : ChannelBucket) (lower higher : U32) (selector : LaneSelector) :
    Result DirectionalLaneState := do
  let slot ← channelSlot b lower higher
  require ((slot.lane selector).initialized = true) (.vault .channelNotInitialized)
  pure (slot.lane selector)

/-- The lane from a payer to a payee, if it has been created. -/
def createdResolvedLane (b : ChannelBucket) (payerId payeeId : U32) :
    Result DirectionalLaneState := do
  let lane ← resolveLane b payerId payeeId
  require (lane.initialized = true) (.vault .channelNotInitialized)
  pure lane

theorem createdLane_eq :
    createdLane b lower higher selector = Prod.snd <$> b.readLaneForSelectorFromData lower higher selector := by
  simp only [createdLane, channelSlot_eq, ChannelBucket.readLaneForSelectorFromData, bind_map_left,
    map_bind, map_pure]
  rfl

theorem createdResolvedLane_eq : createdResolvedLane b p q = (do
      let (lower, higher, selector) ← ChannelBucket.canonicalize p q
      createdLane b lower higher selector) := by
  simp only [createdResolvedLane, resolveLane, createdLane, bind_assoc, pure_bind]

end

end AccountStruct

open AccountStruct

/-! ### Participant buckets -/

section
open ParticipantBytes

/-- A raw reader of a participant bucket returns what the struct holds, or fails as `slot` does. -/
structure ParticipantReads (b : ParticipantBucket) : Prop where
  bucketIdAndBump : readBucketIdAndBump b.bytes = .ok (b.bucketId, b.bump)
  ownerAndBlsRegistration : ∀ p, readSlotOwnerAndBlsRegistrationFromData b.bytes p
    = (fun s => (s.owner, s.blsSchemeVersion, s.blsPubkeyCompressed)) <$> slot b p
  owner : ∀ p, readSlotOwnerFromData b.bytes p = ParticipantBucketSlot.owner <$> slot b p
  inboundChannelPolicy : ∀ p, readInboundChannelPolicyFromData b.bytes p
    = slot b p >>= fun s => InboundChannelPolicy.tryFrom s.inboundChannelPolicy
  totalBalance : ∀ p t, readTokenTotalBalanceFromData b.bytes p t
    = slot b p >>= (getTokenTotalBalance · t)
  totalBalanceOrZero : ∀ p t, readTokenTotalBalanceOrZeroFromData b.bytes p t
    = slot b p >>= (getTokenTotalBalanceOrZero · t)
  availableBalance : ∀ p t, readTokenAvailableBalanceFromData b.bytes p t = (do
    let s ← slot b p
    let balance ← okOr (getTokenBalance s t) (.vault .tokenNotFound)
    pure balance.availableBalance)
  withdrawal : ∀ p t, readTokenWithdrawalFromData b.bytes p t = (do
    let s ← slot b p
    let balance ← okOr (getTokenBalance s t) (.vault .tokenNotFound)
    pure ⟨balance.withdrawingBalance, balance.withdrawalUnlockAt, balance.withdrawalDestination⟩)
  clearingSnapshot : ∀ p t, readClearingSnapshotFromData b.bytes p t = (do
    let s ← slot b p
    let total ← getTokenTotalBalanceOrZero s t
    pure ⟨s.owner, s.blsSchemeVersion, s.blsPubkeyCompressed, total⟩)

/-- A balance change in the data and the one on the struct. -/
structure DeltaAgrees (b : ParticipantBucket) : Prop where
  succeeds : ∀ p t delta, delta ≠ 0 →
    ((applyTokenDeltaInData p t delta b.bytes).1 = .ok () ↔ ∃ b', applySlotDelta b p t delta = .ok b')
  yields : ∀ p t delta b', delta ≠ 0 → applySlotDelta b p t delta = .ok b' →
    (applyTokenDeltaInData p t delta b.bytes).2 = b'.bytes

variable {b : ParticipantBucket} (hb : b.WellTyped)
include hb

omit hb in
theorem ParticipantBucket.bytes_eq_image : b.bytes = b.image [] := (List.append_nil _).symm

theorem participantReads : ParticipantReads b where
  bucketIdAndBump := by rw [ParticipantBucket.bytes_eq_image, readBucketIdAndBump_image]
  ownerAndBlsRegistration p := by
    rw [ParticipantBucket.bytes_eq_image, readSlotOwnerAndBlsRegistrationFromData_image hb, slot_eq]
    exact bind_pure_comp _ _
  owner p := by
    rw [ParticipantBucket.bytes_eq_image, readSlotOwnerFromData_image hb, slot_eq,
      ParticipantBucket.readSlotOwnerFromData, ParticipantBucket.readSlotOwnerAndBlsRegistrationFromData,
      bind_assoc]
    exact bind_pure_comp _ _
  inboundChannelPolicy p := by
    rw [ParticipantBucket.bytes_eq_image, readInboundChannelPolicyFromData_image, slot_eq]
    rfl
  totalBalance p t := by
    rw [ParticipantBucket.bytes_eq_image, readTokenTotalBalanceFromData_image hb, slot_eq]
    exact bind_congr fun s => getTokenTotalBalance_eq.symm
  totalBalanceOrZero p t := by
    rw [ParticipantBucket.bytes_eq_image, readTokenTotalBalanceOrZeroFromData_image hb, slot_eq]
    exact bind_congr fun s => getTokenTotalBalanceOrZero_eq.symm
  availableBalance p t := by
    rw [ParticipantBucket.bytes_eq_image, readTokenAvailableBalanceFromData_image hb, slot_eq]
    exact bind_congr fun s => by rw [getTokenBalance_eq]
  withdrawal p t := by
    rw [ParticipantBucket.bytes_eq_image, readTokenWithdrawalFromData_image hb, slot_eq,
      ParticipantBucket.readTokenWithdrawalFromData, map_bind]
    refine bind_congr fun s => ?_
    rw [getTokenBalance_eq]
    exact (bind_pure_comp _ _).symm
  clearingSnapshot p t := by
    rw [ParticipantBucket.bytes_eq_image, readClearingSnapshotFromData_image hb, slot_eq]
    exact bind_congr fun s => by rw [getTokenTotalBalanceOrZero_eq]

theorem deltaAgrees : DeltaAgrees b where
  succeeds p t delta h := by
    rw [ParticipantBucket.bytes_eq_image, applyTokenDeltaInData_image hb]
    simp only [applySlotDelta_eq_ok h]
    cases b.applyTokenDeltaInData p t delta with
    | error e => simp [outcome]
    | ok r => exact ⟨fun _ => ⟨r.1, rfl⟩, fun _ => rfl⟩
  yields p t delta b' h hok := by
    rw [ParticipantBucket.bytes_eq_image, applyTokenDeltaInData_image hb,
      (applySlotDelta_eq_ok h).mp hok, ParticipantBucket.bytes_eq_image]
    rfl

end

/-! ### Channel buckets -/

section
open ChannelBytes

/-- What a settlement reader returns of a lane, and what a commitment reader does; the offset besides is where the lane was read. -/
def settlementFields (lane : DirectionalLaneState) : Nat × Nat :=
  (lane.settledCumulative, lane.lockedBalance)

def commitmentFields (lane : DirectionalLaneState) : Nat × Nat × Pubkey :=
  (lane.settledCumulative, lane.lockedBalance, lane.authorizedSigner)

/-- A raw reader of a channel bucket returns what the struct holds, or fails as `resolve_lane` does; but a snapshot is only taken of a lane that has been created. -/
structure ChannelReads (b : ChannelBucket) : Prop where
  tokenBucketAndBump : readTokenBucketAndBump b.bytes = .ok (b.tokenId, b.bucketId, b.bump)
  laneCore : ∀ p q, readResolvedLaneCoreFromData b.bytes p q = resolveLane b p q
  settlementForSelector : ∀ lower higher selector,
    (fun x => (x.settledCumulative, x.lockedBalance))
        <$> readLaneSettlementForSelectorFromData b.bytes lower higher selector
      = settlementFields <$> createdLane b lower higher selector
  commitmentForSelector : ∀ lower higher selector,
    (fun x => (x.settledCumulative, x.lockedBalance, x.authorizedSigner))
        <$> readLaneCommitmentForSelectorFromData b.bytes lower higher selector
      = commitmentFields <$> createdLane b lower higher selector
  settlement : ∀ p q,
    (fun x => (x.settledCumulative, x.lockedBalance))
        <$> readResolvedLaneSettlementFromData b.bytes p q
      = settlementFields <$> createdResolvedLane b p q
  commitment : ∀ p q,
    (fun x => (x.settledCumulative, x.lockedBalance, x.authorizedSigner))
        <$> readResolvedLaneCommitmentFromData b.bytes p q
      = commitmentFields <$> createdResolvedLane b p q

variable {b : ChannelBucket} {lower higher : U32} {selector : LaneSelector} (hb : b.WellTyped)
include hb

omit hb in
theorem ChannelBucket.bytes_eq_image : b.bytes = b.image [] := (List.append_nil _).symm

theorem settlementForSelector_reads : (fun x => (x.settledCumulative, x.lockedBalance))
      <$> readLaneSettlementForSelectorFromData b.bytes lower higher selector
    = settlementFields <$> createdLane b lower higher selector := by
  rw [ChannelBucket.bytes_eq_image, readLaneSettlementForSelectorFromData_image hb, createdLane_eq,
    Functor.map_map, Functor.map_map]
  rfl

theorem commitmentForSelector_reads :
    (fun x => (x.settledCumulative, x.lockedBalance, x.authorizedSigner))
      <$> readLaneCommitmentForSelectorFromData b.bytes lower higher selector
    = commitmentFields <$> createdLane b lower higher selector := by
  rw [ChannelBucket.bytes_eq_image, readLaneCommitmentForSelectorFromData_image hb, createdLane_eq,
    Functor.map_map, Functor.map_map]
  rfl

theorem channelReads : ChannelReads b where
  tokenBucketAndBump := by rw [ChannelBucket.bytes_eq_image, readTokenBucketAndBump_image]
  laneCore p q := by
    rw [ChannelBucket.bytes_eq_image, readResolvedLaneCoreFromData_image hb, resolveLane_eq]
  settlementForSelector lower higher selector := settlementForSelector_reads hb
  commitmentForSelector lower higher selector := commitmentForSelector_reads hb
  settlement p q := by
    rw [readResolvedLaneSettlementFromData, createdResolvedLane_eq, map_bind, map_bind]
    exact bind_congr fun x => settlementForSelector_reads hb
  commitment p q := by
    rw [readResolvedLaneCommitmentFromData, createdResolvedLane_eq, map_bind, map_bind]
    exact bind_congr fun x => commitmentForSelector_reads hb

end

/-- **Offsets and structs agree**, for every value of the two account structs. -/
theorem accountStructs_agree {participants : ParticipantBucket} {channels : ChannelBucket}
    (hp : participants.WellTyped) (hc : channels.WellTyped) :
    ParticipantReads participants ∧ DeltaAgrees participants ∧ ChannelReads channels :=
  ⟨participantReads hp, deltaAgrees hp, channelReads hc⟩

/-- `resolve_lane` returns the other direction of a pair with one lane; no snapshot is taken of it. -/
theorem laneOpened_unread :
    resolveLane Session.laneOpened 1 0 = .ok .uninitialized ∧
      ChannelBytes.readResolvedLaneSettlementFromData Session.laneOpened.bytes 1 0
        = .error (.vault .channelNotInitialized) := by
  have hc : ChannelBucket.canonicalize 1 0 = .ok (0, 1, .higherToLower) := rfl
  have hl : Session.laneOpened.readLaneForSelectorFromData 0 1 .higherToLower
      = .error (.vault .channelNotInitialized) := rfl
  refine ⟨rfl, ?_⟩
  rw [ChannelBucket.bytes_eq_image, ChannelBytes.readResolvedLaneSettlementFromData, hc,
    Except.ok_bind]
  simp only
  rw [ChannelBytes.readLaneSettlementForSelectorFromData_image Session.laneOpened_sound.wellTyped, hl]
  rfl

theorem wellTyped_setEntry {s : ParticipantBucketSlot} {e : BucketTokenBalance} (hs : s.WellTyped)
    (he : e.WellTyped) (i : Fin maxBucketTokenBalances) : (s.setEntry i e).WellTyped := by
  refine ⟨hs.blsPubkey, fun j => ?_⟩
  simp only [ParticipantBucketSlot.setEntry, Function.update_apply]
  split
  · exact he
  · exact hs.tokenBalances j

theorem wellTyped_setSlot {b : ParticipantBucket} {s : ParticipantBucketSlot} (hb : b.WellTyped)
    (hs : s.WellTyped) (p : U32) : (b.setSlot p s).WellTyped := by
  intro i
  simp only [ParticipantBucket.setSlot, Function.update_apply]
  split
  · exact hs
  · exact hb i

/-- A participant bucket with a balance of five. -/
def creditedBucket : ParticipantBucket :=
  (ParticipantBucket.initializeAccountData 0 255).setSlot 0
    ((ParticipantBucketSlot.fresh 0 Session.firstSigner).setEntry ⟨0, by decide⟩
      { BucketTokenBalance.fresh 1 with availableBalance := 5 })

theorem creditedBucket_wellTyped : creditedBucket.WellTyped := by
  have hempty : BucketTokenBalance.empty.WellTyped := ⟨u64_zero, u64_zero, i64_zero⟩
  refine wellTyped_setSlot (fun _ => ⟨List.length_replicate, fun _ => hempty⟩)
    (wellTyped_setEntry ⟨List.length_replicate, fun _ => hempty⟩ ?_ _) 0
  exact ⟨by decide, u64_zero, i64_zero⟩

theorem accountStructs_agree_credited : ParticipantReads creditedBucket ∧
    DeltaAgrees creditedBucket ∧ ChannelReads Session.laneOpened :=
  accountStructs_agree creditedBucket_wellTyped Session.laneOpened_sound.wellTyped

end Ryvo
