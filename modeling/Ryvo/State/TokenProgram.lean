import Mathlib.Logic.Function.Basic
import Mathlib.Tactic.Simps.Basic
import Ryvo.State.Errors
import Ryvo.State.Keys

/-!
# State — Token program

The mints and accounts of the token program, and what is relied on of its instructions.  The token program is not part of the repository: a `TokenProgram` is any that behaves as documented, one law an instruction.  A law says when the instruction succeeds and what it leaves behind.

* The owner of an account takes from it, and a frozen account neither pays, receives, nor burns.
* A mint's freeze authority, when it has one, freezes and thaws accounts of the mint.
* The owner closes an account, an empty one only.

Delegates, multisignature owners and changes of authority are left out: what a delegate may move, the owner may.  So are the native mint and its accounts, which can be closed while they hold something.
-/

namespace Ryvo

/-- A token program mint. -/
structure Mint where
  supply : Nat
  decimals : Nat
  mintAuthority : Pubkey
  freezeAuthority : Option Pubkey
  deriving DecidableEq

/-- A token program account. -/
structure TokenAccount where
  mint : Pubkey
  owner : Pubkey
  amount : Nat
  frozen : Bool
  deriving DecidableEq

/-- The accounts the token program owns. -/
structure Tokens where
  mints : Pubkey → Option Mint
  accounts : Pubkey → Option TokenAccount

namespace Tokens

variable (T : Tokens)

@[simps] def setMint (k : Pubkey) (m : Mint) : Tokens :=
  { T with mints := Function.update T.mints k (some m) }

@[simps] def setAccount (k : Pubkey) (a : Option TokenAccount) : Tokens :=
  { T with accounts := Function.update T.accounts k a }

/-- `authority` moves an amount, which leaves `T'`.  From an account to itself nothing moves. -/
def Transfers (source destination authority : Pubkey) (amount : Nat) (T' : Tokens) : Prop :=
  ∃ src dst, T.accounts source = some src ∧ T.accounts destination = some dst ∧
    src.frozen = false ∧ dst.frozen = false ∧ amount ≤ src.amount ∧ src.mint = dst.mint ∧
    authority = src.owner ∧
    if source = destination then T' = T
    else dst.amount + amount < u64Bound ∧
      T' = (T.setAccount source (some { src with amount := src.amount - amount })).setAccount
        destination (some { dst with amount := dst.amount + amount })

/-- `authority` mints an amount. -/
def MintsTo (mint destination authority : Pubkey) (amount : Nat) (T' : Tokens) : Prop :=
  ∃ m dst, T.mints mint = some m ∧ T.accounts destination = some dst ∧ dst.frozen = false ∧
    dst.mint = mint ∧ authority = m.mintAuthority ∧ m.supply + amount < u64Bound ∧
    dst.amount + amount < u64Bound ∧
    T' = (T.setMint mint { m with supply := m.supply + amount }).setAccount destination
      (some { dst with amount := dst.amount + amount })

/-- `authority` burns an amount. -/
def Burns (mint source authority : Pubkey) (amount : Nat) (T' : Tokens) : Prop :=
  ∃ m src, T.mints mint = some m ∧ T.accounts source = some src ∧ src.frozen = false ∧
    src.mint = mint ∧ amount ≤ src.amount ∧ authority = src.owner ∧ amount ≤ m.supply ∧
    T' = (T.setMint mint { m with supply := m.supply - amount }).setAccount source
      (some { src with amount := src.amount - amount })

/-- `authority` freezes an account, or thaws it. -/
def Toggles (freeze : Bool) (account mint authority : Pubkey) (T' : Tokens) : Prop :=
  ∃ m a, T.mints mint = some m ∧ T.accounts account = some a ∧ a.frozen = !freeze ∧
    a.mint = mint ∧ m.freezeAuthority = some authority ∧
    T' = T.setAccount account (some { a with frozen := freeze })

/-- `authority` closes an account. -/
def Closes (account authority : Pubkey) (T' : Tokens) : Prop :=
  ∃ a, T.accounts account = some a ∧ a.amount = 0 ∧ authority = a.owner ∧
    T' = T.setAccount account none

/-- An unused address becomes a mint. -/
def InitializesMint (k mintAuthority : Pubkey) (freezeAuthority : Option Pubkey) (decimals : Nat)
    (T' : Tokens) : Prop :=
  T.mints k = none ∧ T.accounts k = none ∧
    T' = T.setMint k ⟨0, decimals, mintAuthority, freezeAuthority⟩

/-- An unused address becomes an account of an existing mint. -/
def InitializesAccount (k mint owner : Pubkey) (T' : Tokens) : Prop :=
  (∃ m, T.mints mint = some m) ∧ T.mints k = none ∧ T.accounts k = none ∧
    T' = T.setAccount k (some ⟨mint, owner, 0, false⟩)

end Tokens

/-- A token program. -/
structure TokenProgram where
  transfer (T : Tokens) (source destination authority : Pubkey) (amount : Nat) : Result Tokens
  mintTo (T : Tokens) (mint destination authority : Pubkey) (amount : Nat) : Result Tokens
  burn (T : Tokens) (mint source authority : Pubkey) (amount : Nat) : Result Tokens
  /-- `freeze_account` and `thaw_account`. -/
  toggleFreeze (T : Tokens) (freeze : Bool) (account mint authority : Pubkey) : Result Tokens
  closeAccount (T : Tokens) (account authority : Pubkey) : Result Tokens
  initializeMint (T : Tokens) (k mintAuthority : Pubkey) (freezeAuthority : Option Pubkey)
    (decimals : Nat) : Result Tokens
  initializeAccount (T : Tokens) (k mint owner : Pubkey) : Result Tokens
  transfer_iff : ∀ {T source destination authority amount T'},
    transfer T source destination authority amount = .ok T' ↔
      T.Transfers source destination authority amount T'
  mintTo_iff : ∀ {T mint destination authority amount T'},
    mintTo T mint destination authority amount = .ok T' ↔
      T.MintsTo mint destination authority amount T'
  burn_iff : ∀ {T mint source authority amount T'},
    burn T mint source authority amount = .ok T' ↔ T.Burns mint source authority amount T'
  toggleFreeze_iff : ∀ {T freeze account mint authority T'},
    toggleFreeze T freeze account mint authority = .ok T' ↔
      T.Toggles freeze account mint authority T'
  closeAccount_iff : ∀ {T account authority T'},
    closeAccount T account authority = .ok T' ↔ T.Closes account authority T'
  initializeMint_iff : ∀ {T k mintAuthority freezeAuthority decimals T'},
    initializeMint T k mintAuthority freezeAuthority decimals = .ok T' ↔
      T.InitializesMint k mintAuthority freezeAuthority decimals T'
  initializeAccount_iff : ∀ {T k mint owner T'},
    initializeAccount T k mint owner = .ok T' ↔ T.InitializesAccount k mint owner T'

end Ryvo
