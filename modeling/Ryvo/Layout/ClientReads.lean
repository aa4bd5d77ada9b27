import Ryvo.Layout.ChannelAccess
import Ryvo.Layout.ParticipantAccess
import Ryvo.State.Addressing

/-!
# Layout — Client reads

The readers of the client helpers, which take the bytes of an account apart at offsets written out as numbers, and what the helpers make of them.

* `readRawParticipantBucketSlot_bytes`: on the bytes of a bucket, a participant's slot is read, or found missing.
* `readRawChannelBucketState_bytes`: on the bytes of a bucket, reading a pair is normalising the decoded account.
* `getTokenBalance_normalize`: the balance a client finds for a token is the one the program finds.
-/

namespace Ryvo

open Layout

/-- What the helpers throw. -/
inductive ClientError where
  | outOfRange
  | accountNotFound (pubkey : Pubkey)
  | participantSlotNotInitialized (participantId : U32)
  | channelBucketSlotNotInitialized (payerId payeeId : U32)
  | selfChannelsNotSupported
  | pairChannelMismatch (payerId payeeId : U32)
  | strategyUninitialized
  deriving DecidableEq

namespace Client

/-! ### Numbers and keys -/

section
variable (data : List UInt8) (offset : Nat)

/-- `data[offset] !== 0`, which holds past the end as well. -/
def isSet : Bool := data[offset]? != some 0

def readUInt16LE : Except ClientError U16 := do
  require (offset + 2 ≤ data.length) .outOfRange
  pure (Fin.ofNat _ (leNat (window data offset 2)))

def readUInt32LE : Except ClientError U32 := do
  require (offset + 4 ≤ data.length) .outOfRange
  pure (Fin.ofNat _ (leNat (window data offset 4)))

def readRawU64 : Nat := leNat (window data offset 8)

def readRawI64 : Except ClientError Int := do
  require (offset + 8 ≤ data.length) .outOfRange
  pure (i64OfBytes (window data offset 8))

/-- `new PublicKey` puts zeros in front of fewer than 32 bytes. -/
def readRawPubkey : Pubkey :=
  let bytes := window data offset 32
  .ofBytes (List.replicate (32 - bytes.length) 0 ++ bytes)

end

/-! ### Participants -/

/-- What `readRawParticipantBucketSlot` returns. -/
structure RawParticipantSlot where
  initialized : Bool
  owner : Pubkey
  participantId : U32
  inboundChannelPolicy : U8
  blsSchemeVersion : U8
  blsPubkeyCompressed : List UInt8
  tokenBalances : List BucketTokenBalance

structure Balance where
  availableBalance : Nat
  withdrawingBalance : Nat
  withdrawalUnlockAt : Int
  withdrawalDestination : Pubkey
  deriving DecidableEq

structure TokenBalance extends Balance where
  tokenId : U16
  deriving DecidableEq

/-- What `normalizeParticipantBucketSlot` returns. -/
structure Participant where
  owner : Pubkey
  participantId : U32
  tokenBalances : List TokenBalance
  bump : Nat
  inboundChannelPolicy : U8
  blsSchemeVersion : U8
  blsPubkeyCompressed : List UInt8
  deriving DecidableEq

def participantBucketIdForParticipantId (participantId : U32) : U32 :=
  ⟨participantId.val / 9, (Nat.div_le_self _ 9).trans_lt participantId.isLt⟩

def participantBucketSlotIndex (participantId : U32) : Nat := participantId.val % 9

/-- One row of `readRawParticipantBucketSlot`. -/
def readRawTokenBalance (data : List UInt8) (offset : Nat) :
    Except ClientError BucketTokenBalance := do
  let initialized := isSet data offset
  let tokenId ← readUInt16LE data (offset + 1)
  let availableBalance := readRawU64 data (offset + 3)
  let withdrawingBalance := readRawU64 data (offset + 11)
  let withdrawalUnlockAt ← readRawI64 data (offset + 19)
  let withdrawalDestination := readRawPubkey data (offset + 27)
  pure { initialized, tokenId, availableBalance, withdrawingBalance, withdrawalUnlockAt,
         withdrawalDestination }

def readRawParticipantBucketSlot (data : List UInt8) (participantId : U32) :
    Except ClientError RawParticipantSlot := do
  let slotOffset := 13 + participantBucketSlotIndex participantId * 1079
  let initialized := isSet data slotOffset
  let actualParticipantId ← readUInt32LE data (slotOffset + 33)
  require (initialized = true ∧ actualParticipantId = participantId)
    (.participantSlotNotInitialized participantId)
  let tokenBalances ← (List.finRange 16).mapM fun index =>
    readRawTokenBalance data (slotOffset + 135 + index.val * 59)
  -- The data reaches past these bytes: the rows behind them have been read.
  pure { initialized
         owner := readRawPubkey data (slotOffset + 1)
         participantId := actualParticipantId
         inboundChannelPolicy := Fin.ofNat _ (data.getD (slotOffset + 37) 0).toNat
         blsSchemeVersion := Fin.ofNat _ (data.getD (slotOffset + 38) 0).toNat
         blsPubkeyCompressed := window data (slotOffset + 39) 96
         tokenBalances }

/-- The entry `normalizeParticipantBucketSlot` makes of a row. -/
def normalizeTokenBalance (balance : BucketTokenBalance) : TokenBalance :=
  { tokenId := balance.tokenId
    availableBalance := balance.availableBalance
    withdrawingBalance := balance.withdrawingBalance
    withdrawalUnlockAt := balance.withdrawalUnlockAt
    withdrawalDestination := balance.withdrawalDestination }

def normalizeParticipantBucketSlot (slot : RawParticipantSlot) : Participant :=
  { owner := slot.owner
    participantId := slot.participantId
    tokenBalances := (slot.tokenBalances.filter (·.initialized)).map normalizeTokenBalance
    bump := 0
    inboundChannelPolicy := slot.inboundChannelPolicy
    blsSchemeVersion := slot.blsSchemeVersion
    blsPubkeyCompressed := slot.blsPubkeyCompressed }

/-- The first entry of the token, and zeros where there is none. -/
def getTokenBalance (participant : Participant) (tokenId : U16) : Balance :=
  match participant.tokenBalances.find? fun b => b.tokenId = tokenId with
  | some balance => balance.toBalance
  | none => ⟨0, 0, 0, Pubkey.default⟩

/-! ### Channels -/

structure PairChannel where
  tokenId : U16
  lowerParticipantId : U32
  higherParticipantId : U32
  lowerToHigher : DirectionalLaneState
  higherToLower : DirectionalLaneState
  deriving DecidableEq

/-- A lane, and whose it is. -/
structure DirectionalChannel extends DirectionalLaneState where
  payerId : U32
  payeeId : U32
  tokenId : U16
  deriving DecidableEq

/-- `BigInt`. -/
def pairOrdinal (lowerParticipantId higherParticipantId : U32) : Nat :=
  higherParticipantId.val * (higherParticipantId.val - 1) / 2 + lowerParticipantId.val

/-- The lower id and the higher. -/
def getCanonicalChannelParticipants (payerId payeeId : U32) : U32 × U32 :=
  (min payerId payeeId, max payerId payeeId)

def channelBucketSlotIndexForPair (payerId payeeId : U32) : Fin channelBucketSlotCount :=
  let (lower, higher) := getCanonicalChannelParticipants payerId payeeId
  ⟨pairOrdinal lower higher % channelBucketSlotCount, Nat.mod_lt _ (by decide)⟩

/-- An object with the fields of a lane. -/
def readRawLane (data : List UInt8) (laneOffset : Nat) :
    Except ClientError DirectionalLaneState := do
  let unlockRequestedAt ← readRawI64 data (laneOffset + 57)
  let authorizedSignerUpdateRequestedAt ← readRawI64 data (laneOffset + 97)
  pure { initialized := isSet data laneOffset
         settledCumulative := readRawU64 data (laneOffset + 1)
         lockedBalance := readRawU64 data (laneOffset + 9)
         authorizedSigner := readRawPubkey data (laneOffset + 17)
         pendingUnlockAmount := readRawU64 data (laneOffset + 49)
         unlockRequestedAt
         pendingAuthorizedSigner := readRawPubkey data (laneOffset + 65)
         authorizedSignerUpdateRequestedAt }

/-- `fetchRawChannelBucketState`, once the account is fetched. -/
def readRawChannelBucketState (data : List UInt8) (payerId payeeId : U32) :
    Except ClientError PairChannel := do
  let (lower, higher) := getCanonicalChannelParticipants payerId payeeId
  let slotOffset := 19 + (channelBucketSlotIndexForPair payerId payeeId).val * 219
  let initialized := isSet data slotOffset
  let actualLower ← readUInt32LE data (slotOffset + 1)
  let actualHigher ← readUInt32LE data (slotOffset + 5)
  require (initialized = true ∧ actualLower = lower ∧ actualHigher = higher)
    (.channelBucketSlotNotInitialized payerId payeeId)
  let tokenId ← readUInt16LE data 8
  let lowerToHigher ← readRawLane data (slotOffset + 9)
  let higherToLower ← readRawLane data (slotOffset + 114)
  pure ⟨tokenId, lower, higher, lowerToHigher, higherToLower⟩

/-- The same on a decoded account. -/
def normalizeChannelBucketState (channelBucket : ChannelBucket) (payerId payeeId : U32) :
    Except ClientError PairChannel := do
  let (lower, higher) := getCanonicalChannelParticipants payerId payeeId
  let slot := channelBucket.slots (channelBucketSlotIndexForPair payerId payeeId)
  require (slot.initialized = true ∧ slot.lowerParticipantId = lower
    ∧ slot.higherParticipantId = higher) (.channelBucketSlotNotInitialized payerId payeeId)
  pure ⟨channelBucket.tokenId, lower, higher, slot.lowerToHigher, slot.higherToLower⟩

def getDirectionalLaneState (pairChannel : PairChannel) (payerId payeeId : U32) :
    Except ClientError DirectionalLaneState := do
  require (payerId ≠ payeeId) .selfChannelsNotSupported
  let (lower, higher) := getCanonicalChannelParticipants payerId payeeId
  require (pairChannel.lowerParticipantId = lower ∧ pairChannel.higherParticipantId = higher)
    (.pairChannelMismatch payerId payeeId)
  pure (if payerId < payeeId then pairChannel.lowerToHigher else pairChannel.higherToLower)

def normalizeDirectionalChannelState (pairChannel : PairChannel) (payerId payeeId : U32) :
    Except ClientError DirectionalChannel := do
  let lane ← getDirectionalLaneState pairChannel payerId payeeId
  pure { lane with payerId, payeeId, tokenId := pairChannel.tokenId }

/-- The commitment that pays so much more than has been settled. -/
def nextCommitmentAmount (channelData : DirectionalChannel) (delta : Nat) : Nat :=
  channelData.settledCumulative + delta

/-! ### Addresses -/

/-- `Number(n)`: the nearest with fifty-three bits, the even one of two. -/
def toNumber (n : Nat) : Nat :=
  let unit := 2 ^ (Nat.log2 n + 1 - 53)
  let q := n / unit
  let r := n % unit
  if 2 * r < unit ∨ (2 * r = unit ∧ q % 2 = 0) then q * unit else (q + 1) * unit

/-- What `value.toString()` spells: the fewest digits that mean `value`, and zeros. -/
def spelled (value : Nat) : Nat :=
  ((List.range 20).reverse.findSome? fun k =>
    let digits := (value + 10 ^ k / 2) / 10 ^ k * 10 ^ k
    if toNumber digits = value then some digits else none).getD value

def channelBucketIdForPair (payerId payeeId : U32) : Nat :=
  let (lower, higher) := getCanonicalChannelParticipants payerId payeeId
  toNumber (pairOrdinal lower higher / channelBucketSlotCount)

section
variable (env : Env)

def findParticipantBucketPdaById (participantId : U32) : Pubkey :=
  env.address (.participantBucket (participantBucketIdForParticipantId participantId))

def findChannelBucketPda (payerId payeeId : U32) (tokenId : U16) : Pubkey :=
  env.address (.channelBucket tokenId (Fin.ofNat _ (spelled (channelBucketIdForPair payerId payeeId))))

end

/-- The pair's bucket has an id that a `Number` holds exactly. -/
def SafePair (payerId payeeId : U32) : Prop :=
  let (lower, higher) := getCanonicalChannelParticipants payerId payeeId
  pairOrdinal lower higher / channelBucketSlotCount < 2 ^ 53

/-- It has as long as there are no more than this many participants. -/
theorem safePair_of_lt {p q : U32} (hp : p.val < 910000000) (hq : q.val < 910000000) :
    SafePair p q := by
  have hlower : (min p q).val < 910000000 := lt_of_le_of_lt (min_le_left p q) hp
  have hhigher : (max p q).val ≤ 909999999 := by
    rcases max_choice p q with h | h <;> rw [h] <;> omega
  have hprod : (max p q).val * ((max p q).val - 1) ≤ 909999999 * 909999998 :=
    Nat.mul_le_mul hhigher (Nat.sub_le_sub_right hhigher 1)
  simp only [SafePair, getCanonicalChannelParticipants, pairOrdinal, channelBucketSlotCount]
  omega

theorem toNumber_of_lt {n : Nat} (h : n < 2 ^ 53) : toNumber n = n := by
  have hlog : Nat.log2 n + 1 - 53 = 0 := by
    rcases Nat.eq_zero_or_pos n with rfl | hn
    · rfl
    · have := (Nat.log2_lt hn.ne').mpr h
      omega
  simp [toNumber, hlog, Nat.mod_one]

/-- Rounding does not reach below the first number that is not exact. -/
theorem le_toNumber {n : Nat} (h : 2 ^ 53 ≤ n) : 2 ^ 53 ≤ toNumber n := by
  have hlog : 53 ≤ Nat.log2 n := (Nat.le_log2 (by omega)).mpr h
  obtain ⟨k, hk⟩ := Nat.exists_eq_add_of_le hlog
  have hunit : Nat.log2 n + 1 - 53 = k + 1 := by omega
  have hle : 2 ^ 52 * 2 ^ (k + 1) ≤ n := by
    rw [← pow_add, show 52 + (k + 1) = Nat.log2 n by omega]
    exact Nat.log2_self_le (by omega)
  have hq : 2 ^ 52 ≤ n / 2 ^ (k + 1) := (Nat.le_div_iff_mul_le (Nat.two_pow_pos _)).mpr hle
  have htwo : 2 ≤ 2 ^ (k + 1) := by
    rw [pow_succ]
    exact Nat.le_mul_of_pos_left 2 (Nat.two_pow_pos k)
  have hmul : 2 ^ 53 ≤ n / 2 ^ (k + 1) * 2 ^ (k + 1) :=
    le_trans (by decide) (Nat.mul_le_mul hq htwo)
  simp only [toNumber, hunit]
  split
  · exact hmul
  · exact hmul.trans (Nat.mul_le_mul_right _ (Nat.le_succ _))

/-- A number that is held exactly is spelled out. -/
theorem spelled_of_lt {value : Nat} (h : value < 2 ^ 53) : spelled value = value := by
  rw [spelled]
  cases hf : (List.range 20).reverse.findSome? _ with
  | none => rfl
  | some digits =>
      obtain ⟨k, -, hk⟩ := List.exists_of_findSome?_eq_some hf
      dsimp only at hk
      split at hk
      · rename_i hdigits
        obtain rfl := Option.some.inj hk
        have hlt : (value + 10 ^ k / 2) / 10 ^ k * 10 ^ k < 2 ^ 53 := by
          by_contra hle
          exact absurd (le_toNumber (not_lt.mp hle)) (by rw [hdigits]; exact not_le.mpr h)
        rw [toNumber_of_lt hlt] at hdigits
        exact hdigits
      · cases hk

/-- The last bucket there is, and the one a client looks for in its place. -/
example : spelled (toNumber 200508087711028090) = 200508087711028100 := by decide +kernel

/-! ### Reading parts -/

section
variable {σ φ : Type} {enc : σ → List UInt8} {o n : Nat} {x : σ}

theorem isSet_part {get : σ → Bool} {set : σ → Bool → σ} (h : Part enc boolBytes get set o) :
    isSet (enc x) o = get x := by
  obtain ⟨hlt, hx⟩ := h.getD (s := x) length_boolBytes rfl
  rw [List.getD_eq_getElem?_getD, List.getElem?_eq_getElem hlt, Option.getD_some] at hx
  rw [isSet, List.getElem?_eq_getElem hlt, hx]
  cases get x <;> rfl

theorem readUInt16LE_part {get : σ → U16} {set : σ → U16 → σ} (h : Part enc u16Bytes get set o) :
    readUInt16LE (enc x) o = .ok (get x) := by
  obtain ⟨hle, hx⟩ := h.fits (s := x) length_u16Bytes
  rw [readUInt16LE, require_of hle, Except.ok_bind, hx, u16Bytes, leNat_leBytes_of_lt (get x).isLt]
  exact congrArg _ (Fin.ofNat_val_eq_self _)

theorem readUInt32LE_part {get : σ → U32} {set : σ → U32 → σ} (h : Part enc u32Bytes get set o) :
    readUInt32LE (enc x) o = .ok (get x) := by
  obtain ⟨hle, hx⟩ := h.fits (s := x) length_u32Bytes
  rw [readUInt32LE, require_of hle, Except.ok_bind, hx, u32Bytes, leNat_leBytes_of_lt (get x).isLt]
  exact congrArg _ (Fin.ofNat_val_eq_self _)

theorem readRawU64_part {get : σ → Nat} {set : σ → Nat → σ} (h : Part enc u64Bytes get set o)
    (hx : get x < u64Bound) : readRawU64 (enc x) o = get x := by
  rw [readRawU64, (h.fits length_u64Bytes).2, u64Bytes, leNat_leBytes_of_lt hx]

theorem readRawI64_part {get : σ → Int} {set : σ → Int → σ} (h : Part enc i64Bytes get set o)
    (hx : I64 (get x)) : readRawI64 (enc x) o = .ok (get x) := by
  obtain ⟨hle, hw⟩ := h.fits (s := x) length_i64Bytes
  rw [readRawI64, require_of hle, Except.ok_bind, hw, i64OfBytes_i64Bytes hx]
  rfl

theorem readRawPubkey_part {get : σ → Pubkey} {set : σ → Pubkey → σ}
    (h : Part enc Pubkey.toBytes get set o) : readRawPubkey (enc x) o = get x := by
  rw [readRawPubkey, (h.fits Pubkey.length_toBytes).2, Pubkey.length_toBytes]
  exact Pubkey.ofBytes_toBytes _

theorem readU8_part {get : σ → U8} {set : σ → U8 → σ} (h : Part enc u8Bytes get set o) :
    Fin.ofNat _ ((enc x).getD o 0).toNat = get x := by
  rw [(h.getD (s := x) length_u8Bytes rfl).2]
  refine Fin.ext ?_
  have := (get x).isLt
  simp

theorem readRawTokenBalance_part {get : σ → BucketTokenBalance} {set : σ → BucketTokenBalance → σ}
    (h : Part enc BucketTokenBalance.bytes get set o) (hx : (get x).WellTyped) :
    readRawTokenBalance (enc x) o = .ok (get x) := by
  have hinit : isSet (enc x) o = _ := isSet_part (h.comp BucketTokenBalance.partInitialized)
  have htoken : readUInt16LE (enc x) (o + 1) = _ :=
    readUInt16LE_part (h.comp BucketTokenBalance.partTokenId)
  have havail : readRawU64 (enc x) (o + 3) = _ :=
    readRawU64_part (h.comp BucketTokenBalance.partAvailable) hx.available
  have hwith : readRawU64 (enc x) (o + 11) = _ :=
    readRawU64_part (h.comp BucketTokenBalance.partWithdrawing) hx.withdrawing
  have hunlock : readRawI64 (enc x) (o + 19) = _ :=
    readRawI64_part (h.comp BucketTokenBalance.partUnlockAt) hx.unlockAt
  have hdest : readRawPubkey (enc x) (o + 27) = _ :=
    readRawPubkey_part (h.comp BucketTokenBalance.partDestination)
  rw [readRawTokenBalance, htoken, Except.ok_bind, hunlock, Except.ok_bind, hinit, havail, hwith,
    hdest]
  rfl

theorem readRawLane_part {get : σ → DirectionalLaneState} {set : σ → DirectionalLaneState → σ}
    (h : Part enc DirectionalLaneState.bytes get set o) (hx : (get x).WellTyped) :
    readRawLane (enc x) o = .ok (get x) := by
  have hinit : isSet (enc x) o = _ := isSet_part (h.comp DirectionalLaneState.partInitialized)
  have hsettled : readRawU64 (enc x) (o + 1) = _ :=
    readRawU64_part (h.comp DirectionalLaneState.partSettledCumulative) hx.settledCumulative
  have hlocked : readRawU64 (enc x) (o + 9) = _ :=
    readRawU64_part (h.comp DirectionalLaneState.partLockedBalance) hx.lockedBalance
  have hsigner : readRawPubkey (enc x) (o + 17) = _ :=
    readRawPubkey_part (h.comp DirectionalLaneState.partAuthorizedSigner)
  have hamount : readRawU64 (enc x) (o + 49) = _ :=
    readRawU64_part (h.comp DirectionalLaneState.partPendingUnlockAmount) hx.pendingUnlockAmount
  have hunlock : readRawI64 (enc x) (o + 57) = _ :=
    readRawI64_part (h.comp DirectionalLaneState.partUnlockRequestedAt) hx.unlockRequestedAt
  have hpending : readRawPubkey (enc x) (o + 65) = _ :=
    readRawPubkey_part (h.comp DirectionalLaneState.partPendingAuthorizedSigner)
  have hupdate : readRawI64 (enc x) (o + 97) = _ :=
    readRawI64_part (h.comp DirectionalLaneState.partAuthorizedSignerUpdateRequestedAt)
      hx.authorizedSignerUpdateRequestedAt
  rw [readRawLane, hunlock, Except.ok_bind, hupdate, Except.ok_bind, hinit, hsettled, hlocked,
    hsigner, hamount, hpending]
  rfl

end

/-! ### Reading buckets -/

/-- What a client is to see of a slot. -/
def RawParticipantSlot.ofSlot (s : ParticipantBucketSlot) : RawParticipantSlot :=
  { initialized := s.initialized
    owner := s.owner
    participantId := s.participantId
    inboundChannelPolicy := s.inboundChannelPolicy
    blsSchemeVersion := s.blsSchemeVersion
    blsPubkeyCompressed := s.blsPubkeyCompressed
    tokenBalances := List.ofFn s.tokenBalances }

theorem readRawTokenBalances_part {σ : Type} {enc : σ → List UInt8}
    {get : σ → ParticipantBucketSlot} {set : σ → ParticipantBucketSlot → σ} {o : Nat} {x : σ}
    (h : Part enc ParticipantBucketSlot.bytes get set o) (hx : (get x).WellTyped) :
    ((List.finRange 16).mapM fun index =>
      readRawTokenBalance (enc x) (o + 135 + index.val * 59)) = .ok (List.ofFn (get x).tokenBalances) := by
  rw [List.ofFn_eq_map]
  exact mapM_eq_ok_map fun i _ =>
    readRawTokenBalance_part (ParticipantBytes.partEntryAt h i) (hx.tokenBalances i)

variable {b : ParticipantBucket} {c : ChannelBucket} {p q : U32} {t : U16}

theorem readRawParticipantBucketSlot_bytes {s : ParticipantBucketSlot}
    (hs : b.slots (ParticipantBucket.slotIndexForParticipantId p) = s)
    (hx : s.initialized = true → s.participantId = p → s.WellTyped) :
    readRawParticipantBucketSlot b.bytes p = (do
      require (s.initialized = true ∧ s.participantId = p) (.participantSlotNotInitialized p)
      pure (.ofSlot s)) := by
  subst hs
  let o := 13 + participantBucketSlotIndex p * 1079
  have h : Part (ParticipantBucket.image []) ParticipantBucketSlot.bytes _ _ o :=
    ParticipantBytes.partSlotAt [] p
  have hinit : isSet (b.image []) o = _ := isSet_part (h.comp ParticipantBucketSlot.partInitialized)
  have hid : readUInt32LE (b.image []) (o + 33) = _ :=
    readUInt32LE_part (h.comp ParticipantBucketSlot.partParticipantId)
  have howner : readRawPubkey (b.image []) (o + 1) = _ :=
    readRawPubkey_part (h.comp ParticipantBucketSlot.partOwner)
  have hpolicy : Fin.ofNat _ ((b.image []).getD (o + 37) 0).toNat = _ :=
    readU8_part (h.comp ParticipantBucketSlot.partInboundPolicy)
  have hscheme : Fin.ofNat _ ((b.image []).getD (o + 38) 0).toNat = _ :=
    readU8_part (h.comp ParticipantBucketSlot.partBlsSchemeVersion)
  rw [← List.append_nil b.bytes, ← ParticipantBucket.image, readRawParticipantBucketSlot, hid,
    Except.ok_bind, hinit]
  refine Except.bind_congr_ok fun _ hreq => ?_
  obtain ⟨hi, hp⟩ := require_eq_ok.mp hreq
  have hwt := hx hi hp
  have hbls : window (b.image []) (o + 39) 96 = _ :=
    (h.comp ParticipantBucketSlot.partBlsPubkey).readBytes hwt.blsPubkey
  rw [readRawTokenBalances_part h hwt, Except.ok_bind, howner, hpolicy, hscheme, hbls]
  rfl

/-- Reading the bytes is normalising the decoded account. -/
theorem readRawChannelBucketState_bytes (hx : ∀ pair, normalizeChannelBucketState c p q = .ok pair →
      (c.slots (channelBucketSlotIndexForPair p q)).WellTyped) :
    readRawChannelBucketState c.bytes p q = normalizeChannelBucketState c p q := by
  let o := 19 + (channelBucketSlotIndexForPair p q).val * 219
  have h : Part (ChannelBucket.image []) ChannelBucketSlot.bytes _ _ o :=
    ChannelBucket.partSlot [] (channelBucketSlotIndexForPair p q)
  have hinit : isSet (c.image []) o = _ := isSet_part (h.comp ChannelBucketSlot.partInitialized)
  have hlower : readUInt32LE (c.image []) (o + 1) = _ :=
    readUInt32LE_part (h.comp ChannelBucketSlot.partLowerParticipantId)
  have hhigher : readUInt32LE (c.image []) (o + 5) = _ :=
    readUInt32LE_part (h.comp ChannelBucketSlot.partHigherParticipantId)
  have htoken : readUInt16LE (c.image []) 8 = _ := readUInt16LE_part (ChannelBucket.partTokenId [])
  rw [normalizeChannelBucketState] at hx ⊢
  rw [← List.append_nil c.bytes, ← ChannelBucket.image, readRawChannelBucketState]
  generalize getCanonicalChannelParticipants p q = pair at hx ⊢
  obtain ⟨lower, higher⟩ := pair
  dsimp only at hx ⊢
  rw [hlower, Except.ok_bind, hhigher, Except.ok_bind, hinit]
  refine Except.bind_congr_ok fun _ hreq => ?_
  have hwt := hx _ (by rw [hreq]; rfl)
  have hup : readRawLane (c.image []) (o + 9) = _ :=
    readRawLane_part (h.comp (ChannelBucketSlot.partLane .lowerToHigher)) (hwt .lowerToHigher)
  have hdown : readRawLane (c.image []) (o + 114) = _ :=
    readRawLane_part (h.comp (ChannelBucketSlot.partLane .higherToLower)) (hwt .higherToLower)
  rw [htoken, Except.ok_bind, hup, Except.ok_bind, hdown]
  rfl

/-! ### Balances -/

/-- What a client is to see of a row. -/
def Balance.ofEntry (e : BucketTokenBalance) : Balance :=
  ⟨e.availableBalance, e.withdrawingBalance, e.withdrawalUnlockAt, e.withdrawalDestination⟩

/-- The entries of a normalised slot are the rows in use. -/
theorem find_normalize (s : ParticipantBucketSlot) (t : U16) :
    ((normalizeParticipantBucketSlot (.ofSlot s)).tokenBalances.find? fun b => b.tokenId = t)
      = (s.tokenEntry t).map normalizeTokenBalance := by
  have hrows : (List.ofFn s.tokenBalances).find? (fun e => e.initialized && decide (e.tokenId = t))
      = s.tokenEntry t := by
    rw [ParticipantBucketSlot.tokenEntry, Table.lookup, Table.find_eq_finRange, List.ofFn_eq_map,
      List.find?_map]
    rfl
  rw [← hrows, normalizeParticipantBucketSlot, RawParticipantSlot.ofSlot, List.find?_map,
    List.find?_filter]
  refine congrArg (Option.map _ <| List.find? · _) (funext fun e => ?_)
  rw [Bool.eq_iff_iff, decide_eq_true_iff, Bool.and_eq_true]
  exact and_congr_right fun _ => decide_eq_true_iff.trans decide_eq_true_iff.symm

/-- The balance a client finds for a token is the one the program finds. -/
theorem getTokenBalance_normalize (s : ParticipantBucketSlot) (t : U16) :
    getTokenBalance (normalizeParticipantBucketSlot (.ofSlot s)) t = .ofEntry (s.balance t) := by
  rw [getTokenBalance, find_normalize, ParticipantBucketSlot.balance]
  cases s.tokenEntry t <;> rfl

/-! ### Lanes -/

variable {lower higher : U32} {sel : LaneSelector}

theorem getCanonicalChannelParticipants_of
    (hc : ChannelBucket.canonicalize p q = .ok (lower, higher, sel)) :
    getCanonicalChannelParticipants p q = (lower, higher) ∧ p ≠ q ∧ ∀ slot : ChannelBucketSlot,
      (if p < q then slot.lowerToHigher else slot.higherToLower) = slot.lane sel := by
  rcases ChannelBucket.canonicalize_eq_ok.mp hc with ⟨hlt, rfl, rfl, rfl⟩ | ⟨hlt, rfl, rfl, rfl⟩
  · exact ⟨Prod.ext (min_eq_left hlt.le) (max_eq_right hlt.le), hlt.ne, fun _ => if_pos hlt⟩
  · exact ⟨Prod.ext (min_eq_right hlt.le) (max_eq_left hlt.le), hlt.ne', fun _ =>
      if_neg (lt_asymm hlt)⟩

/-- The client's slot of a pair is the program's. -/
theorem slotIndexForPair_of (hc : ChannelBucket.canonicalize p q = .ok (lower, higher, sel)) :
    ChannelBucket.slotIndexForPair lower higher = .ok (channelBucketSlotIndexForPair p q) := by
  have hlt : lower < higher := by
    rcases ChannelBucket.canonicalize_eq_ok.mp hc with ⟨h, rfl, rfl, -⟩ | ⟨h, rfl, rfl, -⟩ <;> exact h
  obtain ⟨hpair, -, -⟩ := getCanonicalChannelParticipants_of hc
  rw [ChannelBucket.slotIndexForPair_eq_ok]
  refine ⟨hlt, ?_⟩
  rw [channelBucketSlotIndexForPair, hpair]
  rfl

/-- A lane as a client shows it. -/
def DirectionalChannel.ofLane (l : DirectionalLaneState) (payerId payeeId : U32) (tokenId : U16) :
    DirectionalChannel :=
  { l with payerId, payeeId, tokenId }

/-- What a client is to see of a bucket: the lane where the program finds it. -/
def DirectionalChannel.ofBucket (c : ChannelBucket) (payerId payeeId : U32) :
    Except ClientError DirectionalChannel :=
  match c.laneOffset payerId payeeId with
  | .ok off => .ok (.ofLane (c.laneAt off) payerId payeeId c.tokenId)
  | .error _ => .error (.channelBucketSlotNotInitialized payerId payeeId)

/-- A client finds a lane where the program does. -/
theorem normalizeChannel_eq (hc : ChannelBucket.canonicalize p q = .ok (lower, higher, sel))
    (hid : ChannelBucket.bucketIdForPair lower higher = .ok c.bucketId) :
    (do
      let pair ← normalizeChannelBucketState c p q
      normalizeDirectionalChannelState pair p q) = DirectionalChannel.ofBucket c p q := by
  obtain ⟨hpair, hne, hlane⟩ := getCanonicalChannelParticipants_of hc
  have hi := slotIndexForPair_of hc
  rw [normalizeChannelBucketState, hpair, DirectionalChannel.ofBucket]
  generalize channelBucketSlotIndexForPair p q = i at hi ⊢
  dsimp only
  by_cases hm : (c.slots i).initialized = true ∧ (c.slots i).lowerParticipantId = lower ∧
      (c.slots i).higherParticipantId = higher
  · have hoff : c.laneOffset p q = .ok (i, sel) := ChannelBucket.laneOffset_eq_ok.mpr
      ⟨lower, higher, hc, ChannelBucket.slotOffsetForPair_eq_ok.mpr ⟨hid, hi, hm⟩⟩
    rw [require_of hm, hoff, Except.ok_bind]
    change normalizeDirectionalChannelState _ p q = _
    rw [normalizeDirectionalChannelState, getDirectionalLaneState, require_of hne, hpair,
      Except.ok_bind]
    dsimp only
    rw [require_of ⟨rfl, rfl⟩, Except.ok_bind, hlane]
    rfl
  · rw [require, if_neg hm]
    cases hoff : c.laneOffset p q with
    | error e => rfl
    | ok off =>
        obtain ⟨lower', higher', hc', hs⟩ := ChannelBucket.laneOffset_eq_ok.mp hoff
        obtain ⟨-, hi', hm'⟩ := ChannelBucket.slotOffsetForPair_eq_ok.mp hs
        rw [hc] at hc'
        cases hc'
        rw [hi] at hi'
        cases hi'
        exact absurd hm' hm

end Client

end Ryvo
