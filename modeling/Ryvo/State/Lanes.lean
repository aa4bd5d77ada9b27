import Ryvo.State.ChannelBucket

/-!
# State — Lanes

What the operations on a lane do.  `capPendingUnlock_eq` gives the cap in one line: the pending unlock becomes its minimum with the cap, and a pending unlock of zero has no request time.  Each operation then succeeds exactly under its stated checks, with a named result: `settled`, `unlocked`, `cooperativelyUnlocked`.
-/

namespace Ryvo.DirectionalLaneState

variable {lane lane' : DirectionalLaneState}

theorem capPendingUnlock_eq (lane : DirectionalLaneState) (cap : Nat) :
    lane.capPendingUnlock cap = { lane with
      pendingUnlockAmount := min lane.pendingUnlockAmount cap
      unlockRequestedAt :=
        if min lane.pendingUnlockAmount cap = 0 then 0 else lane.unlockRequestedAt } := by
  unfold capPendingUnlock
  by_cases h₀ : lane.pendingUnlockAmount = 0
  · simp [h₀]
  by_cases hle : lane.pendingUnlockAmount ≤ cap
  · simp [h₀, hle]
  by_cases hc : cap = 0
  · simp [h₀, hc]
  · have hmin : min lane.pendingUnlockAmount cap = cap := by omega
    simp [h₀, hle, hc, hmin]

/-- The lane after a settlement to `target` that consumed `used` of its collateral. -/
def settled (lane : DirectionalLaneState) (target used : Nat) : DirectionalLaneState :=
  { lane with
    settledCumulative := target
    lockedBalance := lane.lockedBalance - used
    pendingUnlockAmount := min lane.pendingUnlockAmount (lane.lockedBalance - used)
    unlockRequestedAt :=
      if min lane.pendingUnlockAmount (lane.lockedBalance - used) = 0 then 0
      else lane.unlockRequestedAt }

/-- The lane after an unlock that both sides signed. -/
def cooperativelyUnlocked (lane : DirectionalLaneState) (amount : Nat) : DirectionalLaneState :=
  lane.settled lane.settledCumulative amount

/-- The lane after its pending unlock was executed. -/
def unlocked (lane : DirectionalLaneState) : DirectionalLaneState :=
  { lane with
    lockedBalance := lane.lockedBalance - min lane.pendingUnlockAmount lane.lockedBalance
    pendingUnlockAmount := 0
    unlockRequestedAt := 0 }

theorem applySettlement_eq_ok {target used : Nat} {u : Unit} :
    lane.applySettlement target used = .ok (lane', u) ↔
      used ≤ lane.lockedBalance ∧ lane' = lane.settled target used := by
  simp only [applySettlement, Except.bind_eq_ok, checkedSub_eq_ok, Except.pure_eq_ok,
    Prod.mk.injEq, and_true, capPendingUnlock_eq]
  constructor
  · rintro ⟨_, ⟨rfl, h⟩, rfl⟩
    exact ⟨h, rfl⟩
  · rintro ⟨h, rfl⟩
    exact ⟨_, ⟨rfl, h⟩, rfl⟩

theorem addLockedBalance_eq_ok {amount n : Nat} :
    lane.addLockedBalance amount = .ok (lane', n) ↔
      lane.lockedBalance + amount < u64Bound ∧ n = lane.lockedBalance + amount ∧
        lane' = { lane with lockedBalance := lane.lockedBalance + amount } := by
  simp only [addLockedBalance, Except.bind_eq_ok, checkedAdd_eq_ok, Except.pure_eq_ok,
    Prod.mk.injEq]
  constructor
  · rintro ⟨_, ⟨rfl, h⟩, rfl, rfl⟩
    exact ⟨h, rfl, rfl⟩
  · rintro ⟨h, rfl, rfl⟩
    exact ⟨_, ⟨rfl, h⟩, rfl, rfl⟩

theorem requestUnlock_eq_ok {amount : Nat} {requestedAt : Int} {u : Unit} :
    lane.requestUnlock amount requestedAt = .ok (lane', u) ↔ amount ≤ lane.lockedBalance ∧
      lane' = { lane with pendingUnlockAmount := amount, unlockRequestedAt := requestedAt } := by
  simp only [requestUnlock, Except.bind_eq_ok, require_eq_ok, exists_const, Except.pure_eq_ok,
    Prod.mk.injEq, and_true, eq_comm (b := lane')]

theorem executeUnlock_eq_ok {released remaining : Nat} :
    lane.executeUnlock = .ok (lane', released, remaining) ↔
      0 < lane.pendingUnlockAmount ∧ lane.unlockRequestedAt ≠ 0 ∧
        released = min lane.pendingUnlockAmount lane.lockedBalance ∧
        remaining = lane.lockedBalance - released ∧ lane' = lane.unlocked := by
  simp only [executeUnlock, Except.bind_eq_ok, require_eq_ok, exists_const, checkedSub_eq_ok,
    Except.pure_eq_ok, Prod.mk.injEq]
  constructor
  · rintro ⟨⟨h₁, h₂⟩, _, ⟨rfl, -⟩, rfl, rfl, rfl⟩
    exact ⟨h₁, h₂, rfl, rfl, rfl⟩
  · rintro ⟨h₁, h₂, rfl, rfl, rfl⟩
    exact ⟨⟨h₁, h₂⟩, _, ⟨rfl, min_le_right _ _⟩, rfl, rfl, rfl⟩

theorem cooperativeUnlock_eq_ok {amount released remaining : Nat} :
    lane.cooperativeUnlock amount = .ok (lane', released, remaining) ↔
      amount ≤ lane.lockedBalance ∧ released = amount ∧ remaining = lane.lockedBalance - amount ∧
        lane' = lane.cooperativelyUnlocked amount := by
  simp only [cooperativeUnlock, Except.bind_eq_ok, require_eq_ok, exists_const, checkedSub_eq_ok,
    Except.pure_eq_ok, Prod.mk.injEq, capPendingUnlock_eq]
  constructor
  · rintro ⟨h, _, ⟨rfl, -⟩, rfl, rfl, rfl⟩
    exact ⟨h, rfl, rfl, rfl⟩
  · rintro ⟨h, rfl, rfl, rfl⟩
    exact ⟨h, _, ⟨rfl, h⟩, rfl, rfl, rfl⟩

theorem requestAuthorizedSignerUpdate_eq_ok {newSigner k : Pubkey} {requestedAt : Int} :
    lane.requestAuthorizedSignerUpdate newSigner requestedAt = .ok (lane', k) ↔
      newSigner ≠ Pubkey.default ∧ newSigner ≠ lane.authorizedSigner ∧ k = lane.authorizedSigner ∧
        lane' = { lane with
          pendingAuthorizedSigner := newSigner
          authorizedSignerUpdateRequestedAt := requestedAt } := by
  simp only [requestAuthorizedSignerUpdate, Except.bind_eq_ok, require_eq_ok, exists_const,
    Except.pure_eq_ok, Prod.mk.injEq, and_assoc]
  constructor
  · rintro ⟨h₁, h₂, rfl, rfl⟩
    exact ⟨h₁, h₂, rfl, rfl⟩
  · rintro ⟨h₁, h₂, rfl, rfl⟩
    exact ⟨h₁, h₂, rfl, rfl⟩

theorem executeAuthorizedSignerUpdate_eq_ok {k k' : Pubkey} :
    lane.executeAuthorizedSignerUpdate = .ok (lane', k, k') ↔
      lane.pendingAuthorizedSigner ≠ Pubkey.default ∧ lane.authorizedSignerUpdateRequestedAt ≠ 0 ∧
        k = lane.authorizedSigner ∧ k' = lane.pendingAuthorizedSigner ∧
        lane' = { lane with
          authorizedSigner := lane.pendingAuthorizedSigner
          pendingAuthorizedSigner := Pubkey.default
          authorizedSignerUpdateRequestedAt := 0 } := by
  simp only [executeAuthorizedSignerUpdate, Except.bind_eq_ok, require_eq_ok, exists_const,
    Except.pure_eq_ok, Prod.mk.injEq, and_assoc]
  constructor
  · rintro ⟨h₁, h₂, rfl, rfl, rfl⟩
    exact ⟨h₁, h₂, rfl, rfl, rfl⟩
  · rintro ⟨h₁, h₂, rfl, rfl, rfl⟩
    exact ⟨h₁, h₂, rfl, rfl, rfl⟩

end Ryvo.DirectionalLaneState
