import Ryvo.Machine.Program
import Ryvo.Machine.SplToken

/-!
# Machine — A local chain

An environment that satisfies the laws of `Env`, and small enough to run the program on: addresses are numbered, every seed has its own, wallets are the small numbers, the hash is constant and the curve syscalls fail.  `runsTo` runs a list of actions and checks the world they lead to, so that runs can be given as plain data.
-/

namespace Ryvo

namespace Localnet

/-- A number for each derived address. -/
def code : Seeds → Nat
  | .globalConfig => 0
  | .tokenRegistry => 1
  | .participantBucket id => 8 * id.val + 2
  | .ownerIndexBucket id => 8 * id.val + 3
  | .channelBucket t id => 8 * (2 ^ 64 * t.val + id.val) + 4
  | .vaultTokenAccount t => 8 * t.val + 5
  | .yieldStrategy t => 8 * t.val + 6
  | .yieldShareVault t => 8 * t.val + 7

theorem code_lt (s : Seeds) : code s < 2 ^ 100 := by
  cases s <;> simp only [code] <;> omega

theorem code_injective : Function.Injective code := by
  intro s s' h
  cases s <;> cases s' <;> simp only [code] at h <;> first
    | rfl
    | omega
    | (congr 1 <;> exact Fin.ext (by omega))

def address (s : Seeds) : Pubkey :=
  ⟨2 ^ 200 + code s, by have := code_lt s; omega⟩

def lendingCode : LendingSeeds → Nat
  | .reserve mint => 4 * mint.word
  | .shareMint mint => 4 * mint.word + 1
  | .liquidityVault mint => 4 * mint.word + 2

def lendingAddress (l : LendingSeeds) : Pubkey :=
  ⟨2 ^ 255 + lendingCode l % 2 ^ 250, by have := Nat.mod_lt (lendingCode l) (Nat.two_pow_pos 250); omega⟩

theorem address_injective (s s' : Seeds) (h : address s = address s') : s = s' := by
  refine code_injective ?_
  simp only [address, Pubkey.mk.injEq] at h
  omega

theorem lendingAddress_ne_address (l : LendingSeeds) (s : Seeds) : lendingAddress l ≠ address s := by
  intro h
  have := code_lt s
  simp only [lendingAddress, address, Pubkey.mk.injEq] at h
  omega

/-- Wallets are the keys below `2 ^ 100`. -/
def isWallet (k : Pubkey) : Bool := decide (0 < k.word ∧ k.word < 2 ^ 100)

theorem isWallet_address (s : Seeds) : isWallet (address s) = false := by
  simp [isWallet, address]
  omega

theorem isWallet_lendingAddress (l : LendingSeeds) : isWallet (lendingAddress l) = false := by
  simp [isWallet, lendingAddress]
  omega

theorem isWallet_default : isWallet Pubkey.default = false := rfl

/-- The key with a number. -/
def key (n : Nat) : Pubkey := ⟨n % 256 ^ 32, Nat.mod_lt _ (by decide)⟩

end Localnet

theorem Localnet.length_zeros (_ : List UInt8) : (List.replicate 32 (0 : UInt8)).length = 32 := rfl

theorem Localnet.create_find (s : Seeds) :
    (if (255 : U8) = 255 then some (address s) else none) = some (address s) := rfl

open Localnet in
/-- The chain itself. -/
def localnet : Env where
  programId := key (2 ^ 150)
  yieldProgramId := key (2 ^ 150 + 1)
  createProgramAddress s bump := if bump = 255 then some (address s) else none
  findProgramAddress s := (address s, 255)
  lendingAddress := lendingAddress
  upgradeAuthority := some (key 1)
  sha256 _ := List.replicate 32 0
  curve := ⟨fun _ => none, fun _ => none, fun _ _ => none, fun _ _ => none, fun _ _ => none⟩
  tokenProgram := splToken
  canSign := isWallet
  create_find := create_find
  address_injective := address_injective
  lending_ne_address := lendingAddress_ne_address
  length_sha256 := length_zeros
  canSign_address := isWallet_address
  canSign_lending := isWallet_lendingAddress
  canSign_default := isWallet_default

/-- The actions run from the world, and the world they lead to passes the check. -/
def World.runsTo (env : Env) (w : World) (actions : List Action) (check : World → Bool) : Bool :=
  match w.perform env actions with
  | .ok w' => check w'
  | .error _ => false

theorem World.runsTo_iff {env : Env} {w : World} {actions : List Action} {check : World → Bool} :
    w.runsTo env actions check = true ↔ ∃ w', w.perform env actions = .ok w' ∧ check w' = true := by
  unfold World.runsTo
  cases w.perform env actions <;> simp

namespace Localnet

/-- The owner index bucket everybody is in: the hash is constant. -/
def indexBucket : Pubkey := address (.ownerIndexBucket 0)

/-- The first participant bucket. -/
def bucket : Pubkey := address (.participantBucket 0)

/-- The first channel bucket of a token. -/
def channels (t : U16) : Pubkey := address (.channelBucket t 0)

/-- The mint of token 1. -/
def usd : Pubkey := key 50

def symbol : Bytes 8 := ⟨[85, 83, 68, 0, 0, 0, 0, 0], rfl⟩

/-- A deployment with token 1, and wallets 10 and 11 as participants 0 and 1; the first has a thousand of the token in its account 60. -/
def opening : List Action :=
  [.call (.initializeProgram (key 1) (key 2) GlobalConfig.localnetChainId 10 0 none),
    .call (.initializeTokenRegistry (key 1)),
    .outside (.createMint usd (key 9) none 6),
    .call (.registerToken (key 1) usd 1 symbol),
    .call (.initializeParticipant (key 10) (key 2) 0 0),
    .call (.initializeParticipant (key 11) (key 2) 0 0),
    .outside (.createTokenAccount (key 60) usd (key 10)),
    .outside (.mintTo usd (key 60) (key 9) 1000)]

/-- The reserve over the mint of token 1. -/
def reserve : Pubkey := lendingAddress (.reserve usd)

def shareMint : Pubkey := lendingAddress (.shareMint usd)

/-- The reserve, at the highest rate there is, and token 2, which is yield-bearing over it. -/
def lending : List Action :=
  [.outside (.initializeReserve usd (key 9) 5000),
    .call (.registerYieldBearingToken (key 1) usd (key (2 ^ 150 + 1)) reserve shareMint
      (lendingAddress (.liquidityVault usd)) 2 symbol 0)]

end Localnet

/-- The strategy of a token after an accrual, with what the accrual read of the reserve, passes the check. -/
def World.accrues (env : Env) (w : World) (t : U16) (check : YieldStrategy → ReserveSnapshot → Bool) :
    Bool :=
  (w.yieldStrategies t).any fun s =>
    match accrueStrategy env w s with
    | .ok (_, s, snap) => check s snap
    | .error _ => false

theorem World.accrues_iff {env : Env} {w : World} {t : U16}
    {check : YieldStrategy → ReserveSnapshot → Bool} : w.accrues env t check = true ↔
      ∃ s w₁ s₁ snap, w.yieldStrategies t = some s ∧ accrueStrategy env w s = .ok (w₁, s₁, snap) ∧
        check s₁ snap = true := by
  simp only [World.accrues, Option.any_eq_true]
  constructor
  · rintro ⟨s, hs, hc⟩
    split at hc
    · rename_i w₁ s₁ snap hacc
      exact ⟨s, w₁, s₁, snap, hs, hacc, hc⟩
    · cases hc
  · rintro ⟨s, w₁, s₁, snap, hs, hacc, hc⟩
    refine ⟨s, hs, ?_⟩
    rw [hacc]
    exact hc

/-- The world a run from genesis leads to is reached. -/
theorem reached_of_runsTo (env : Env) (actions : List Action) (check : World → Bool)
    (h : (World.genesis 1).runsTo env actions check = true) :
    ∃ w, Reached env w ∧ check w = true := by
  obtain ⟨w, hw, hc⟩ := World.runsTo_iff.mp h
  exact ⟨w, Reached.perform (.start ⟨1, by decide, rfl⟩) hw, hc⟩

/-- One action is a step. -/
theorem World.runsTo_singleton {env : Env} {w : World} {a : Action} {check : World → Bool} :
    w.runsTo env [a] check = true ↔ ∃ w', Step env w a w' ∧ check w' = true := by
  rw [World.runsTo_iff]
  simp only [World.perform, List.foldlM_cons, List.foldlM_nil, Except.bind_eq_ok, require_eq_ok,
    List.all_eq_true, exists_const, Except.pure_eq_ok, exists_eq_right]
  constructor
  · rintro ⟨w', ⟨h₁, h₂⟩, hc⟩
    exact ⟨w', ⟨h₁, h₂⟩, hc⟩
  · rintro ⟨w', h, hc⟩
    exact ⟨w', ⟨h.signed, h.ran⟩, hc⟩

/-- So is the world before the run's last action, which is then a step. -/
theorem step_of_runsTo (env : Env) (actions : List Action) (a : Action)
    (check : World → World → Bool) (h : (World.genesis 1).runsTo env actions
      (fun w => w.runsTo env [a] (check w)) = true) :
    ∃ w w', Reached env w ∧ Step env w a w' ∧ check w w' = true := by
  obtain ⟨w, hw, hc⟩ := reached_of_runsTo env actions _ h
  obtain ⟨w', hstep, hc⟩ := World.runsTo_singleton.mp hc
  exact ⟨w, w', hw, hstep, hc⟩

end Ryvo
