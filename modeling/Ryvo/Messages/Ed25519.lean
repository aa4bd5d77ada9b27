import Ryvo.State.Errors
import Ryvo.State.Chain

/-!
# Messages — Ed25519

Signatures are checked by the chain's Ed25519 precompile, an instruction of the same transaction.  The program reads that instruction's data back: a count, then one block of offsets a signature, which must point into the same data, so that the bytes read here are the bytes the precompile verified.
-/

namespace Ryvo

/-- The instructions sysvar: the transaction's instructions and which of them is running. -/
structure InstructionsSysvar where
  instructions : List (Pubkey × List UInt8)
  current : Nat

namespace Ed25519

/-- `Ed25519SigVerify111111111111111111111111111`. -/
def programId : Pubkey := Pubkey.ofBytes
  [3, 125, 70, 214, 124, 147, 251, 190, 18, 249, 66, 143, 131, 141, 64, 255, 5, 112, 116, 73,
    39, 244, 138, 100, 252, 202, 112, 68, 128, 0, 0, 0]

structure SignatureOffsets where
  signatureOffset : Nat
  signatureInstructionIndex : Nat
  publicKeyOffset : Nat
  publicKeyInstructionIndex : Nat
  messageDataOffset : Nat
  messageDataSize : Nat
  messageInstructionIndex : Nat

def selfContainedInstructionIndex : Nat := 65535

def requireSelfContainedOffsets (offsets : SignatureOffsets) : Result Unit :=
  require (offsets.signatureInstructionIndex = selfContainedInstructionIndex
    ∧ offsets.publicKeyInstructionIndex = selfContainedInstructionIndex
    ∧ offsets.messageInstructionIndex = selfContainedInstructionIndex) (.vault .invalidEd25519Data)

/-- The data of the instruction at `index`, which must be the precompile's. -/
def verifyEd25519Ix (sysvar : InstructionsSysvar) (index : Nat) : Result (List UInt8) := do
  let ix ← okOr sysvar.instructions[index]? (.vault .invalidEd25519Data)
  require (ix.1 = programId) (.vault .invalidEd25519Data)
  pure ix.2

/-- The two bytes at `offset`, little-endian. -/
def readU16 (data : List UInt8) (offset : Nat) : Nat := leNat ((data.drop offset).take 2)

def parseEd25519Offsets (ixData : List UInt8) (sigIndex : Nat) : Result SignatureOffsets := do
  require (2 ≤ ixData.length) (.vault .invalidEd25519Data)
  let numSigs := (ixData.headD 0).toNat
  require (0 < numSigs ∧ sigIndex < numSigs) (.vault .invalidEd25519Data)
  let headerStart := 2 + sigIndex * 14
  require (headerStart + 14 ≤ ixData.length) (.vault .invalidEd25519Data)
  let offsets : SignatureOffsets :=
    { signatureOffset := readU16 ixData headerStart
      signatureInstructionIndex := readU16 ixData (headerStart + 2)
      publicKeyOffset := readU16 ixData (headerStart + 4)
      publicKeyInstructionIndex := readU16 ixData (headerStart + 6)
      messageDataOffset := readU16 ixData (headerStart + 8)
      messageDataSize := readU16 ixData (headerStart + 10)
      messageInstructionIndex := readU16 ixData (headerStart + 12) }
  requireSelfContainedOffsets offsets
  pure offsets

def extractPubkey (ixData : List UInt8) (offsets : SignatureOffsets) : Result Pubkey := do
  require (offsets.publicKeyOffset + 32 ≤ ixData.length) (.vault .invalidEd25519Data)
  pure (Pubkey.ofBytes ((ixData.drop offsets.publicKeyOffset).take 32))

def extractMessage (ixData : List UInt8) (offsets : SignatureOffsets) : Result (List UInt8) := do
  require (offsets.messageDataOffset + offsets.messageDataSize ≤ ixData.length)
    (.vault .invalidEd25519Data)
  pure ((ixData.drop offsets.messageDataOffset).take offsets.messageDataSize)

/-- The running instruction must be the program's own, not one it was invoked from. -/
def assertNoCpi (env : Env) (sysvar : InstructionsSysvar) : Result Unit := do
  let ix ← okOr sysvar.instructions[sysvar.current]? (.vault .cpiNotAllowed)
  require (ix.1 = env.programId) (.vault .cpiNotAllowed)

/-- A signer and the message it signed, as the precompile verified them. -/
structure SignedMessage where
  signer : Pubkey
  message : List UInt8
  deriving DecidableEq

/-- The signer and message of signature `sigIndex`. -/
def signedMessage (ixData : List UInt8) (sigIndex : Nat) : Result SignedMessage := do
  let offsets ← parseEd25519Offsets ixData sigIndex
  let signer ← extractPubkey ixData offsets
  let message ← extractMessage ixData offsets
  pure ⟨signer, message⟩

end Ed25519

end Ryvo
