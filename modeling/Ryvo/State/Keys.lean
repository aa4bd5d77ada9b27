import Mathlib.Data.Fintype.Basic
import Ryvo.Support.Bytes

/-!
# State — Keys

Identifiers and addresses.  Participant, token and bucket identifiers are the fixed-width integers of the program; a `Pubkey` is 32 bytes, kept as the number they spell, so that no other length can be built.  `Seeds` and `LendingSeeds` are what the two programs derive their addresses from.
-/

namespace Ryvo

abbrev U8 := Fin (2 ^ 8)
abbrev U16 := Fin (2 ^ 16)
abbrev U32 := Fin (2 ^ 32)
abbrev U64 := Fin (2 ^ 64)

instance neZeroU8 : NeZero (2 ^ 8) := ⟨by decide⟩
instance neZeroU16 : NeZero (2 ^ 16) := ⟨by decide⟩
instance neZeroU32 : NeZero (2 ^ 32) := ⟨by decide⟩
instance neZeroU64 : NeZero (2 ^ 64) := ⟨by decide⟩

/-- A 32-byte public key or account address. -/
structure Pubkey where
  word : Nat
  bound : word < 256 ^ 32
  deriving DecidableEq

namespace Pubkey

/-- `Pubkey::default()`: thirty-two zero bytes. -/
def default : Pubkey := ⟨0, by decide⟩

/-- `Pubkey::as_ref`. -/
def toBytes (k : Pubkey) : List UInt8 := leBytes 32 k.word

/-- `Pubkey::new_from_array`; callers pass 32 bytes. -/
def ofBytes (bs : List UInt8) : Pubkey :=
  ⟨leNat (bs.take 32), (leNat_lt _).trans_le (Nat.pow_le_pow_right (by decide) (by simp))⟩

theorem ofBytes_toBytes (k : Pubkey) : ofBytes k.toBytes = k := by
  have e : (leBytes 32 k.word).take 32 = leBytes 32 k.word := List.take_of_length_le (by simp)
  simp only [ofBytes, toBytes, e, leNat_leBytes_of_lt k.bound]

theorem toBytes_ofBytes {bs : List UInt8} (h : bs.length = 32) : (ofBytes bs).toBytes = bs := by
  have e : bs.take 32 = bs := List.take_of_length_le h.le
  simp only [ofBytes, toBytes, e]
  conv_lhs => rw [← h, leBytes_leNat]

theorem toBytes_injective : Function.Injective toBytes :=
  Function.LeftInverse.injective ofBytes_toBytes

@[simp] theorem length_toBytes (k : Pubkey) : k.toBytes.length = 32 := length_leBytes _ _

end Pubkey

/-- The seeds of the addresses the program derives, one constructor a `SEED_PREFIX`. -/
inductive Seeds where
  | globalConfig
  | tokenRegistry
  | participantBucket (bucketId : U32)
  | ownerIndexBucket (bucketId : U32)
  | channelBucket (tokenId : U16) (bucketId : U64)
  | vaultTokenAccount (tokenId : U16)
  | yieldStrategy (tokenId : U16)
  | yieldShareVault (tokenId : U16)
  deriving DecidableEq

/-- The seeds of the addresses the lending program derives, each with the underlying mint. -/
inductive LendingSeeds where
  | reserve (underlyingMint : Pubkey)
  | shareMint (underlyingMint : Pubkey)
  | liquidityVault (underlyingMint : Pubkey)
  deriving DecidableEq

end Ryvo
