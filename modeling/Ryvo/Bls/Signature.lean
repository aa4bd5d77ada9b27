import Ryvo.Bls.Scalar
import Ryvo.State.Errors
import Ryvo.State.Chain

/-!
# BLS — Signatures

The participants' signatures on clearing rounds, and the proof of possession a key is registered with.  A message is signed at the point its scalar gives on the generator; a signature is checked with one pairing product.
-/

namespace Ryvo.Bls

/-- `BLS_REGISTRATION_MESSAGE_KIND`. -/
def registrationMessageKind : UInt8 := 0x03
/-- `BLS_REGISTRATION_MESSAGE_VERSION`. -/
def registrationMessageVersion : UInt8 := 0x01
/-- `BLS_CLEARING_ROUND_MESSAGE_VERSION`. -/
def clearingRoundMessageVersion : UInt8 := 0x05
/-- `BLS_SCHEME_VERSION_V1`. -/
def schemeVersionV1 : U8 := 1
/-- `BLS_GT_SIZE`. -/
def gtSize : Nat := 576

/-- `G1_GENERATOR_UNCOMPRESSED_BE`. -/
def g1GeneratorUncompressedBe : List UInt8 :=
  [0x17, 0xf1, 0xd3, 0xa7, 0x31, 0x97, 0xd7, 0x94, 0x26, 0x95, 0x63, 0x8c, 0x4f, 0xa9, 0xac,
    0x0f, 0xc3, 0x68, 0x8c, 0x4f, 0x97, 0x74, 0xb9, 0x05, 0xa1, 0x4e, 0x3a, 0x3f, 0x17, 0x1b,
    0xac, 0x58, 0x6c, 0x55, 0xe8, 0x3f, 0xf9, 0x7a, 0x1a, 0xef, 0xfb, 0x3a, 0xf0, 0x0a, 0xdb,
    0x22, 0xc6, 0xbb, 0x08, 0xb3, 0xf4, 0x81, 0xe3, 0xaa, 0xa0, 0xf1, 0xa0, 0x9e, 0x30, 0xed,
    0x74, 0x1d, 0x8a, 0xe4, 0xfc, 0xf5, 0xe0, 0x95, 0xd5, 0xd0, 0x0a, 0xf6, 0x00, 0xdb, 0x18,
    0xcb, 0x2c, 0x04, 0xb3, 0xed, 0xd0, 0x3c, 0xc7, 0x44, 0xa2, 0x88, 0x8a, 0xe4, 0x0c, 0xaa,
    0x23, 0x29, 0x46, 0xc5, 0xe7, 0xe1]

/-- `NEG_G2_GENERATOR_UNCOMPRESSED_BE`. -/
def negG2GeneratorUncompressedBe : List UInt8 :=
  [0x13, 0xe0, 0x2b, 0x60, 0x52, 0x71, 0x9f, 0x60, 0x7d, 0xac, 0xd3, 0xa0, 0x88, 0x27, 0x4f,
    0x65, 0x59, 0x6b, 0xd0, 0xd0, 0x99, 0x20, 0xb6, 0x1a, 0xb5, 0xda, 0x61, 0xbb, 0xdc, 0x7f,
    0x50, 0x49, 0x33, 0x4c, 0xf1, 0x12, 0x13, 0x94, 0x5d, 0x57, 0xe5, 0xac, 0x7d, 0x05, 0x5d,
    0x04, 0x2b, 0x7e, 0x02, 0x4a, 0xa2, 0xb2, 0xf0, 0x8f, 0x0a, 0x91, 0x26, 0x08, 0x05, 0x27,
    0x2d, 0xc5, 0x10, 0x51, 0xc6, 0xe4, 0x7a, 0xd4, 0xfa, 0x40, 0x3b, 0x02, 0xb4, 0x51, 0x0b,
    0x64, 0x7a, 0xe3, 0xd1, 0x77, 0x0b, 0xac, 0x03, 0x26, 0xa8, 0x05, 0xbb, 0xef, 0xd4, 0x80,
    0x56, 0xc8, 0xc1, 0x21, 0xbd, 0xb8, 0x13, 0xfa, 0x4d, 0x4a, 0x0a, 0xd8, 0xb1, 0xce, 0x18,
    0x6e, 0xd5, 0x06, 0x17, 0x89, 0x21, 0x3d, 0x99, 0x39, 0x23, 0x06, 0x6d, 0xdd, 0xaf, 0x10,
    0x40, 0xbc, 0x3f, 0xf5, 0x9f, 0x82, 0x5c, 0x78, 0xdf, 0x74, 0xf2, 0xd7, 0x54, 0x67, 0xe2,
    0x5e, 0x0f, 0x55, 0xf8, 0xa0, 0x0f, 0xa0, 0x30, 0xed, 0x0d, 0x1b, 0x3c, 0xc2, 0xc7, 0x02,
    0x78, 0x88, 0xbe, 0x51, 0xd9, 0xef, 0x69, 0x1d, 0x77, 0xbc, 0xb6, 0x79, 0xaf, 0xda, 0x66,
    0xc7, 0x3f, 0x17, 0xf9, 0xee, 0x38, 0x37, 0xa5, 0x50, 0x24, 0xf7, 0x8c, 0x71, 0x36, 0x32,
    0x75, 0xa7, 0x5d, 0x75, 0xd8, 0x6b, 0xab, 0x79, 0xf7, 0x47, 0x82, 0xaa]

/-- `gt_identity_be`: one, in the target group. -/
def gtIdentityBe : List UInt8 := List.replicate (gtSize - 1) 0 ++ [1]

/-- Bit 6 of the first byte; no bytes at all count as infinity. -/
def compressedPointHasInfinityFlag (bytes : List UInt8) : Bool :=
  match bytes.head? with
  | some first => first &&& 0x40 != 0
  | none => true

/-- What a key is proven with: the deployment, the participant, its owner and the key itself. -/
def buildRegistrationMessage (messageDomain : List UInt8) (participantId : U32) (owner : Pubkey)
    (blsPubkeyCompressed : List UInt8) : List UInt8 :=
  [registrationMessageKind, registrationMessageVersion] ++ messageDomain
    ++ leBytes 4 participantId.val ++ owner.toBytes ++ blsPubkeyCompressed

variable (env : Env)

/-- A signature's point; the point at infinity is refused before the syscall. -/
def decompressG1Be (compressed : List UInt8) : Result (List UInt8) := do
  require (compressedPointHasInfinityFlag compressed = false) (.vault .invalidBlsSignature)
  okOr (env.curve.decompressG1 compressed) (.vault .invalidBlsSignature)

/-- A key's point. -/
def decompressG2Be (compressed : List UInt8) : Result (List UInt8) := do
  require (compressedPointHasInfinityFlag compressed = false) (.vault .invalidBlsPublicKey)
  okOr (env.curve.decompressG2 compressed) (.vault .invalidBlsPublicKey)

def addG2Be (left right : List UInt8) : Result (List UInt8) :=
  okOr (env.curve.addG2 left right) (.vault .blsSyscallFailed)

def multiplyG1Be (scalarBe point : List UInt8) : Result (List UInt8) :=
  okOr (env.curve.mulG1 scalarBe point) (.vault .blsSyscallFailed)

/-- `e(g1Points[0], g2Points[0]) * ... = 1`. -/
def pairingProductIsIdentityBe (g1Points g2Points : List (List UInt8)) : Result Bool := do
  require (g1Points ≠ [] ∧ g1Points.length = g2Points.length ∧ g1Points.length ≤ 8)
    (.vault .blsSyscallFailed)
  let gtResult ← okOr (env.curve.pairingMap g1Points g2Points) (.vault .blsSyscallFailed)
  pure (gtResult == gtIdentityBe)

/-- The point of a message: its scalar times the generator. -/
def hashMessageToSigningPointBe (message : List UInt8) : Result (List UInt8) :=
  multiplyG1Be env (hashMessageToScalarBe env.sha256 message) g1GeneratorUncompressedBe

/-- One more key in a sum of keys. -/
def aggregatePubkeyWithCompressedBe (currentAggregate : Option (List UInt8))
    (pubkeyCompressed : List UInt8) : Result (List UInt8) := do
  let point ← decompressG2Be env pubkeyCompressed
  match currentAggregate with
  | some aggregate => addG2Be env aggregate point
  | none => pure point

/-- The proof of possession: the key's own signature on its registration. -/
def verifyPop (messageDomain : List UInt8) (participantId : U32) (owner : Pubkey)
    (blsPubkeyCompressed popSignatureCompressed : List UInt8) : Result Unit := do
  let message := buildRegistrationMessage messageDomain participantId owner blsPubkeyCompressed
  let messagePoint ← hashMessageToSigningPointBe env message
  let signaturePoint ← decompressG1Be env popSignatureCompressed
  let publicKeyPoint ← decompressG2Be env blsPubkeyCompressed
  let isValid ← pairingProductIsIdentityBe env [signaturePoint, messagePoint]
    [negG2GeneratorUncompressedBe, publicKeyPoint]
  require (isValid = true) (.vault .invalidBlsProofOfPossession)

/-- One signature of everybody whose keys add up to this one. -/
def verifySameMessageAggregateSignature (message aggregateSignatureCompressed
    aggregatePubkeyUncompressed : List UInt8) : Result Unit := do
  let messagePoint ← hashMessageToSigningPointBe env message
  let signaturePoint ← decompressG1Be env aggregateSignatureCompressed
  let isValid ← pairingProductIsIdentityBe env [signaturePoint, messagePoint]
    [negG2GeneratorUncompressedBe, aggregatePubkeyUncompressed]
  require (isValid = true) (.vault .invalidBlsSignature)

end Ryvo.Bls
