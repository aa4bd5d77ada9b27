import Ryvo.State.Slots
import Ryvo.Support.Pairs

/-!
# State — Addressing

Every pair of participants has one place: its ordinal is its rank among all pairs, and a channel bucket holds forty-six ranks in a row.

* `pairOrdinal_eq_ok`: the ordinal is the rank, and never overflows.
* `position_unique`, `position_exists`: each slot of each bucket is one pair's, up to the last pair there is.
* `Written.headers`: the slots of a bucket that are in use carry the pairs they belong to, so none is ever found to be somebody else's.
-/

namespace Ryvo

namespace ChannelBucket

open Pairs

variable {b b' : ChannelBucket} {lower higher lower' higher' : U32} {id : U64} {n : Nat}
variable {i : Fin channelBucketSlotCount} {t : U16} {sel : LaneSelector} {signer : Pubkey}

/-- The pairs there are. -/
def pairCount : Nat := 2 ^ 31 * (2 ^ 32 - 1)

theorem triangle_pairCount : triangle (2 ^ 32) = pairCount := by norm_num [triangle, pairCount]

theorem rank_lt_pairCount (h : lower < higher) : rank (lower.val, higher.val) < pairCount := by
  rw [← triangle_pairCount]
  exact (rank_lt_iff h).mpr higher.isLt

theorem pairOrdinal_eq_ok : pairOrdinal lower higher = .ok n ↔
    lower < higher ∧ n = rank (lower.val, higher.val) := by
  simp only [pairOrdinal, Except.bind_eq_ok, require_eq_ok, exists_const, subU64, checkedSub_eq_ok,
    checkedMul_eq_ok, addU64, checkedAdd_eq_ok]
  constructor
  · rintro ⟨hlt, _, ⟨rfl, -⟩, _, ⟨rfl, -⟩, rfl, -⟩
    exact ⟨hlt, rfl⟩
  · rintro ⟨hlt, rfl⟩
    -- The product is below `2 ^ 64` because the higher id is below `2 ^ 32`.
    have hrank := rank_lt_pairCount hlt
    have hprod : higher.val * (higher.val - 1) < u64Bound :=
      lt_of_lt_of_eq (Nat.mul_lt_mul'' higher.isLt (show higher.val - 1 < 2 ^ 32 by omega))
        (by norm_num)
    have hlow : 0 < higher.val := lt_of_le_of_lt (Nat.zero_le _) hlt
    refine ⟨hlt, _, ⟨rfl, hlow⟩, _, ⟨rfl, hprod⟩, rfl, ?_⟩
    simp only [rank, triangle, pairCount, u64Bound] at hrank ⊢
    omega

theorem bucketIdForPair_eq_ok : bucketIdForPair lower higher = .ok id ↔
    lower < higher ∧ id.val = rank (lower.val, higher.val) / 46 := by
  simp only [bucketIdForPair, Except.bind_eq_ok, Except.pure_eq_ok, pairOrdinal_eq_ok]
  -- The ordinal is below `2 ^ 64`, and so is its quotient.
  have hval : lower < higher → (Fin.ofNat (2 ^ 64)
      (rank (lower.val, higher.val) / channelBucketSlotCount)).val
        = rank (lower.val, higher.val) / 46 := by
    intro hlt
    have hrank := rank_lt_pairCount hlt
    simp only [pairCount] at hrank
    rw [Fin.val_ofNat, channelBucketSlotCount, Nat.mod_eq_of_lt (by omega)]
  constructor
  · rintro ⟨_, ⟨hlt, rfl⟩, rfl⟩
    exact ⟨hlt, hval hlt⟩
  · rintro ⟨hlt, hid⟩
    exact ⟨_, ⟨hlt, rfl⟩, Fin.ext ((hval hlt).trans hid.symm)⟩

theorem slotIndexForPair_eq_ok : slotIndexForPair lower higher = .ok i ↔
    lower < higher ∧ i.val = rank (lower.val, higher.val) % 46 := by
  simp only [slotIndexForPair, Except.bind_eq_ok, Except.pure_eq_ok, pairOrdinal_eq_ok]
  constructor
  · rintro ⟨_, ⟨hlt, rfl⟩, rfl⟩
    exact ⟨hlt, rfl⟩
  · rintro ⟨hlt, hi⟩
    exact ⟨_, ⟨hlt, rfl⟩, Fin.ext hi.symm⟩

/-- A bucket and a slot of it. -/
def PlacedAt (lower higher : U32) (id : U64) (i : Fin channelBucketSlotCount) : Prop :=
  bucketIdForPair lower higher = .ok id ∧ slotIndexForPair lower higher = .ok i

theorem placedAt_iff : PlacedAt lower higher id i ↔
    lower < higher ∧ rank (lower.val, higher.val) = 46 * id.val + i.val := by
  have hi : i.val < 46 := i.isLt
  rw [PlacedAt, bucketIdForPair_eq_ok, slotIndexForPair_eq_ok]
  constructor
  · intro h
    exact ⟨h.1.1, by omega⟩
  · intro h
    exact ⟨⟨h.1, by omega⟩, h.1, by omega⟩

theorem placedAt_of_lt (h : lower < higher) : ∃ id i, PlacedAt lower higher id i := by
  have hrank := rank_lt_pairCount h
  simp only [pairCount] at hrank
  refine ⟨⟨rank (lower.val, higher.val) / 46, by omega⟩,
    ⟨rank (lower.val, higher.val) % 46, Nat.mod_lt _ (by decide)⟩, placedAt_iff.mpr ⟨h, ?_⟩⟩
  exact (Nat.div_add_mod _ _).symm

/-- One place is one pair's. -/
theorem position_unique (h : PlacedAt lower higher id i) (h' : PlacedAt lower' higher' id i) :
    lower = lower' ∧ higher = higher' := by
  obtain ⟨hlt, hr⟩ := placedAt_iff.mp h
  obtain ⟨hlt', hr'⟩ := placedAt_iff.mp h'
  have he := rank_injOn (show (lower.val, higher.val) ∈ {p : ℕ × ℕ | p.1 < p.2} from hlt) hlt'
    (hr.trans hr'.symm)
  exact ⟨Fin.ext (congrArg Prod.fst he), Fin.ext (congrArg Prod.snd he)⟩

/-- Up to the last pair there is, every place is taken. -/
theorem position_exists (h : 46 * id.val + i.val < pairCount) :
    ∃ lower higher, PlacedAt lower higher id i := by
  obtain ⟨⟨l, u⟩, hlt, hr⟩ := exists_rank (46 * id.val + i.val)
  simp only at hlt
  have hu : u < 2 ^ 32 := by
    refine (rank_lt_iff hlt).mp ?_
    rw [hr, triangle_pairCount]
    exact h
  exact ⟨⟨l, hlt.trans hu⟩, ⟨u, hu⟩, placedAt_iff.mpr ⟨hlt, hr⟩⟩

theorem position_iff : (∃ lower higher, PlacedAt lower higher id i) ↔
    46 * id.val + i.val < pairCount := by
  constructor
  · rintro ⟨lower, higher, h⟩
    obtain ⟨hlt, hr⟩ := placedAt_iff.mp h
    rw [← hr]
    exact rank_lt_pairCount hlt
  · exact position_exists

/-! ### Buckets as they are written -/

/-- The buckets the program's writes lead to: an account is initialised, lanes are created in it, and created lanes are edited. -/
inductive Written : ChannelBucket → Prop
  | account (t : U16) (id : U64) (bump : U8) : Written (initializeAccountData t id bump)
  | created {b b' : ChannelBucket} {t : U16} {lower higher : U32} {sel : LaneSelector}
      {signer : Pubkey} : Written b → b.initializeLaneInData t lower higher sel signer = .ok b' →
        Written b'
  | edited {b b' : ChannelBucket} {α : Type} {a : α} {off : LaneOffset}
      {f : DirectionalLaneState → Result (DirectionalLaneState × α)} : Written b →
        b.modifyLaneAt off f = .ok (b', a) → Written b'

/-- A slot in use carries a pair that belongs there. -/
def Headed (b : ChannelBucket) : Prop := ∀ i, (b.slots i).initialized = true →
  PlacedAt (b.slots i).lowerParticipantId (b.slots i).higherParticipantId b.bucketId i

theorem Headed.created (hb : b.Headed)
    (h : b.initializeLaneInData t lower higher sel signer = .ok b') : b'.Headed := by
  simp only [initializeLaneInData, Except.bind_eq_ok, require_eq_ok, exists_const,
    Except.pure_eq_ok] at h
  obtain ⟨-, _, hid, rfl, i, hi, slot, hslot, -, rfl⟩ := h
  intro j hj
  by_cases e : j = i
  · subst e
    simp only [setSlot, Function.update_self, ChannelBucketSlot.setLane_initialized,
      ChannelBucketSlot.setLane_lower, ChannelBucketSlot.setLane_higher] at hj ⊢
    unfold claimSlot at hslot
    split at hslot
    · rename_i h₀
      simp only [Except.bind_eq_ok, require_eq_ok, exists_const, Except.pure_eq_ok] at hslot
      obtain ⟨-, rfl⟩ := hslot
      exact hb j h₀
    · rw [Except.pure_eq_ok] at hslot
      subst hslot
      exact ⟨hid, hi⟩
  · simp only [setSlot, Function.update_of_ne e] at hj ⊢
    exact hb j hj

theorem Headed.edited {α : Type} {a : α} {off : LaneOffset}
    {f : DirectionalLaneState → Result (DirectionalLaneState × α)} (hb : b.Headed)
    (h : b.modifyLaneAt off f = .ok (b', a)) : b'.Headed := by
  obtain ⟨-, lane, -, rfl⟩ := modifyLaneAt_eq_ok.mp h
  intro j hj
  by_cases e : j = off.1
  · subst e
    simp only [setLaneAt, setSlot, Function.update_self, ChannelBucketSlot.setLane_initialized,
      ChannelBucketSlot.setLane_lower, ChannelBucketSlot.setLane_higher] at hj ⊢
    exact hb _ hj
  · simp only [setLaneAt, setSlot, Function.update_of_ne e] at hj ⊢
    exact hb j hj

theorem Written.headed (h : Written b) : b.Headed := by
  induction h with
  | account t id bump =>
      intro i hi
      exact absurd hi (by simp [initializeAccountData, ChannelBucketSlot.empty])
  | created _ h ih => exact ih.created h
  | edited _ h ih => exact ih.edited h

/-- A slot in use that a pair is looked up in is the pair's own. -/
theorem Headed.header (hb : b.Headed) (hid : bucketIdForPair lower higher = .ok b.bucketId)
    (hi : slotIndexForPair lower higher = .ok i) (h : (b.slots i).initialized = true) :
    (b.slots i).lowerParticipantId = lower ∧ (b.slots i).higherParticipantId = higher :=
  position_unique (hb i h) ⟨hid, hi⟩

/-- The errors of the ordinal are its own. -/
theorem pairOrdinal_ne : pairOrdinal lower higher ≠ .error (.vault .bucketSlotMismatch) := by
  simp only [pairOrdinal, subU64, addU64, ne_eq, Except.bind_eq_error, require_eq_error,
    checkedSub_eq_error, checkedMul_eq_error, checkedAdd_eq_error]
  simp

theorem bucketIdForPair_ne : bucketIdForPair lower higher ≠ .error (.vault .bucketSlotMismatch) := by
  simp only [bucketIdForPair, ne_eq, Except.bind_eq_error, Except.pure_eq_error, pairOrdinal_ne,
    and_false, exists_const, or_self, not_false_eq_true]

theorem slotIndexForPair_ne : slotIndexForPair lower higher ≠ .error (.vault .bucketSlotMismatch) := by
  simp only [slotIndexForPair, ne_eq, Except.bind_eq_error, Except.pure_eq_error, pairOrdinal_ne,
    and_false, exists_const, or_self, not_false_eq_true]

/-- No slot a pair is looked up in is found to be another pair's. -/
theorem Headed.slotOffset_ne (hb : b.Headed) :
    b.slotOffsetForPair lower higher ≠ .error (.vault .bucketSlotMismatch) := by
  intro h
  simp only [slotOffsetForPair, Except.bind_eq_error, require_eq_error, require_eq_ok, exists_const,
    Except.pure_eq_error, bucketIdForPair_ne, slotIndexForPair_ne, false_or, and_false, or_false] at h
  obtain ⟨_, hid, ⟨-, h⟩ | ⟨rfl, i, hi, ⟨-, h⟩ | ⟨hu, hne, -⟩⟩⟩ := h
  · simp at h
  · simp at h
  · exact hne (hb.header hid hi hu)

/-- Nor is the slot a lane is to be created in. -/
theorem Headed.initializeLane_ne (hb : b.Headed) :
    b.initializeLaneInData t lower higher sel signer ≠ .error (.vault .bucketSlotMismatch) := by
  intro h
  simp only [initializeLaneInData, claimSlot, Except.bind_eq_error, require_eq_error, require_eq_ok,
    exists_const, Except.pure_eq_error, bucketIdForPair_ne, slotIndexForPair_ne, false_or, and_false,
    or_false] at h
  obtain ⟨-, h⟩ | ⟨-, _, hid, ⟨-, h⟩ | ⟨rfl, i, hi, hclaim | ⟨slot, -, -, h⟩⟩⟩ := h
  · simp at h
  · simp at h
  · split at hclaim
    · rename_i hu
      simp only [Except.bind_eq_error, require_eq_error, Except.pure_eq_error, and_false, exists_const,
        or_false, and_true] at hclaim
      exact hclaim (hb.header hid hi hu)
    · cases hclaim
  · simp at h

end ChannelBucket

open ChannelBucket in
/-- **The pair ordinal is a perfect addressing scheme.**  It is the rank of the pair among all pairs of natural numbers, which numbers them without gaps or collisions and the pairs of 32-bit ids from zero to the last; it never overflows.  So a bucket and a slot of it belong to one pair, and to exactly one up to the last pair there is; and no slot in use is ever taken for another pair's. -/
theorem pairs_addressed :
    (∀ lower higher : U32, lower < higher →
      pairOrdinal lower higher = .ok (Pairs.rank (lower.val, higher.val))) ∧
    Set.BijOn Pairs.rank {p | p.1 < p.2} Set.univ ∧
    Set.BijOn Pairs.rank {p | p.1 < p.2 ∧ p.2 < 2 ^ 32} (Set.Iio pairCount) ∧
    (∀ lower higher lower' higher' id i, PlacedAt lower higher id i → PlacedAt lower' higher' id i →
      lower = lower' ∧ higher = higher') ∧
    (∀ lower higher : U32, lower < higher → ∃ id i, PlacedAt lower higher id i) ∧
    (∀ id i, 46 * id.val + i.val < pairCount ↔ ∃ lower higher, PlacedAt lower higher id i) ∧
    ∀ b, Written b → ∀ lower higher,
      b.slotOffsetForPair lower higher ≠ .error (.vault .bucketSlotMismatch) ∧
      ∀ t sel signer, b.initializeLaneInData t lower higher sel signer
        ≠ .error (.vault .bucketSlotMismatch) := by
  refine ⟨fun _ _ h => pairOrdinal_eq_ok.mpr ⟨h, rfl⟩, Pairs.rank_bijOn, ?_,
    fun _ _ _ _ _ _ => position_unique, fun _ _ => placedAt_of_lt, fun _ _ => position_iff.symm, ?_⟩
  · rw [← triangle_pairCount]
    exact Pairs.rank_bijOn_below _
  · intro b hb lower higher
    exact ⟨hb.headed.slotOffset_ne, fun _ _ _ => hb.headed.initializeLane_ne⟩

open ChannelBucket in
/-- The last bucket is the last pair's, and its last slot is no pair's. -/
theorem lastBucket_unfilled : ∃ id i, (∃ lower higher j, PlacedAt lower higher id j) ∧
    ¬ ∃ lower higher, PlacedAt lower higher id i := by
  refine ⟨200508087711028090, ⟨45, by decide⟩,
    ⟨4294967294, 4294967295, ⟨19, by decide⟩, ?_⟩, ?_⟩
  · refine placedAt_iff.mpr ⟨by decide, ?_⟩
    norm_num [Pairs.rank, Pairs.triangle]
  · rw [position_iff]
    simp only [pairCount]
    decide

end Ryvo
