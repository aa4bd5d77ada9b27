import Ryvo.State.TokenProgram

/-!
# State — Chain

An `Env` is what the program is handed by the chain it runs on: its own id, the derivation of program addresses, SHA-256, the curve syscalls, the token program and the keys somebody may sign with.  Its laws are the ones the program relies on.

* `findProgramAddress` returns a bump for which `createProgramAddress` gives the same address.
* Distinct seeds of the program have distinct addresses, and none is an address of the lending program.
* A derived address is off the curve: nobody signs with it, and nobody signs with the zero key.
-/

namespace Ryvo

/-- The curve syscalls, on the big-endian encodings of BLS12-381 points.  `none` is a nonzero return code. -/
structure CurveSyscalls where
  /-- `sol_curve_decompress` in the first source group. -/
  decompressG1 : List UInt8 → Option (List UInt8)
  /-- `sol_curve_decompress` in the second source group. -/
  decompressG2 : List UInt8 → Option (List UInt8)
  /-- `sol_curve_group_op` with `ADD` in the second source group. -/
  addG2 : List UInt8 → List UInt8 → Option (List UInt8)
  /-- `sol_curve_group_op` with `MUL` in the first source group: a scalar and a point. -/
  mulG1 : List UInt8 → List UInt8 → Option (List UInt8)
  /-- `sol_curve_pairing_map`. -/
  pairingMap : List (List UInt8) → List (List UInt8) → Option (List UInt8)

/-- The chain the program runs on. -/
structure Env where
  programId : Pubkey
  /-- The lending program. -/
  yieldProgramId : Pubkey
  /-- `Pubkey::create_program_address(seeds ++ [bump], program_id)`. -/
  createProgramAddress : Seeds → U8 → Option Pubkey
  /-- `Pubkey::find_program_address(seeds, program_id)`. -/
  findProgramAddress : Seeds → Pubkey × U8
  /-- `Pubkey::find_program_address` in the lending program. -/
  lendingAddress : LendingSeeds → Pubkey
  /-- The upgrade authority recorded in the program's `ProgramData`. -/
  upgradeAuthority : Option Pubkey
  sha256 : List UInt8 → List UInt8
  curve : CurveSyscalls
  tokenProgram : TokenProgram
  /-- Somebody may hold a secret key for this address. -/
  canSign : Pubkey → Bool
  create_find : ∀ s, createProgramAddress s (findProgramAddress s).2 = some (findProgramAddress s).1
  address_injective : ∀ s s', (findProgramAddress s).1 = (findProgramAddress s').1 → s = s'
  lending_ne_address : ∀ l s, lendingAddress l ≠ (findProgramAddress s).1
  length_sha256 : ∀ bs, (sha256 bs).length = 32
  canSign_address : ∀ s, canSign (findProgramAddress s).1 = false
  canSign_lending : ∀ l, canSign (lendingAddress l) = false
  canSign_default : canSign Pubkey.default = false

namespace Env

variable (env : Env)

/-- The canonical address of the seeds. -/
def address (s : Seeds) : Pubkey := (env.findProgramAddress s).1

/-- The canonical bump of the seeds. -/
def bump (s : Seeds) : U8 := (env.findProgramAddress s).2

variable {env}

@[simp] theorem create_bump (s : Seeds) :
    env.createProgramAddress s (env.bump s) = some (env.address s) := env.create_find s

@[simp] theorem address_inj {s s' : Seeds} : env.address s = env.address s' ↔ s = s' :=
  ⟨env.address_injective s s', congrArg _⟩

theorem canSign_ne_address {k : Pubkey} (h : env.canSign k = true) (s : Seeds) :
    k ≠ env.address s := by
  rintro rfl
  exact Bool.false_ne_true ((env.canSign_address s).symm.trans h)

theorem canSign_ne_lending {k : Pubkey} (h : env.canSign k = true) (l : LendingSeeds) :
    k ≠ env.lendingAddress l := by
  rintro rfl
  exact Bool.false_ne_true ((env.canSign_lending l).symm.trans h)

theorem canSign_ne_default {k : Pubkey} (h : env.canSign k = true) : k ≠ Pubkey.default := by
  rintro rfl
  exact Bool.false_ne_true (env.canSign_default.symm.trans h)

end Env

end Ryvo
