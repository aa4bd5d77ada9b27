import Ryvo.State.Errors
import Ryvo.State.Chain
import Ryvo.Support.Tables

/-!
# State — Owner index

An owner's participant id is looked up in the bucket its key hashes to.  A bucket has thirty-two rows, filled from the front and never cleared.
-/

namespace Ryvo

/-- A row: who owns which participant. -/
structure OwnerIndexSlot where
  initialized : Bool
  owner : Pubkey
  participantId : U32
  deriving DecidableEq

/-- An unused row. -/
def OwnerIndexSlot.empty : OwnerIndexSlot := ⟨false, Pubkey.default, 0⟩

def ownerIndexBucketSlotCount : Nat := 32
/-- How many buckets keys are hashed to. -/
def ownerIndexBucketCount : Nat := 1024

/-- An owner index account. -/
structure OwnerIndexBucket where
  bucketId : U32
  bump : U8
  slots : Fin ownerIndexBucketSlotCount → OwnerIndexSlot

namespace OwnerIndexBucket

/-- The zeroed account `init_if_needed` allocates. -/
def zeroed : OwnerIndexBucket := ⟨0, 0, fun _ => .empty⟩

/-- The first four bytes of the key's hash, as a number, modulo the number of buckets. -/
def bucketIdForOwner (env : Env) (owner : Pubkey) : U32 :=
  ⟨leNat ((env.sha256 owner.toBytes).take 4) % ownerIndexBucketCount,
    (Nat.mod_lt _ (by decide)).trans (by decide)⟩

variable (b : OwnerIndexBucket)

/-- A bucket without rows is given its id and bump; one with rows has to have them. -/
def initializeIfNeeded (bucketId : U32) (bump : U8) : Result OwnerIndexBucket :=
  if ∀ i, (b.slots i).initialized = false then .ok ⟨bucketId, bump, fun _ => .empty⟩
  else do
    require (b.bucketId = bucketId) (.vault .bucketAccountMismatch)
    require (b.bump = bump) (.vault .bucketAccountMismatch)
    pure b

/-- The owner must be new to the bucket, and there must be a row left. -/
def insertOwner (owner : Pubkey) (participantId : U32) : Result OwnerIndexBucket := do
  require (∀ i, ¬ ((b.slots i).initialized = true ∧ (b.slots i).owner = owner))
    (.vault .ownerAlreadyRegistered)
  let i ← okOr (Table.free (·.initialized) b.slots) (.vault .bucketFull)
  pure { b with slots := Function.update b.slots i ⟨true, owner, participantId⟩ }

/-- The participant id recorded for `owner`, if there is one. -/
def entry (owner : Pubkey) : Option U32 :=
  (Table.lookup (·.initialized) (·.owner) b.slots owner).map (·.participantId)

def participantIdForOwner (owner : Pubkey) : Result U32 :=
  okOr (b.entry owner) (.vault .participantNotFound)

/-- `Pubkey::create_program_address` with the stored bump. -/
def verifyExpectedPda (env : Env) (accountKey : Pubkey) (bucketId : U32) (bump : U8) :
    Result Unit := do
  let expectedPda ←
    okOr (env.createProgramAddress (.ownerIndexBucket bucketId) bump) (.vault .bucketAccountMismatch)
  require (accountKey = expectedPda) (.vault .bucketAccountMismatch)

/-- The bucket is the one the owner's key hashes to. -/
def verifyForOwner (env : Env) (accountKey owner : Pubkey) : Result Unit := do
  require (b.bucketId = bucketIdForOwner env owner) (.vault .bucketAccountMismatch)
  verifyExpectedPda env accountKey (bucketIdForOwner env owner) b.bump

def participantIdForVerifiedOwner (env : Env) (accountKey owner : Pubkey) : Result U32 := do
  b.verifyForOwner env accountKey owner
  b.participantIdForOwner owner

end OwnerIndexBucket

end Ryvo
