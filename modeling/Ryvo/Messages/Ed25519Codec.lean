import Ryvo.Messages.CommitmentCodec
import Ryvo.Instructions.SettleCommitmentBundle
import Ryvo.Support.Layout

/-!
# Messages — Ed25519 instructions

What clients write for the precompile, and what the program reads back.  An instruction is a count, a row of offsets for each signature, and behind the rows the bytes they point to.

* `signedMessage_eq_ok`: a row that is self-contained and points at a key and a message is read as that key and that message.
* `signedMessage_multiMessage`, `verifyAndExtract_multiSig`: both client builders are read back.
* `readCommitments_build`: a bundle that is built from commitments presents them.
-/

namespace Ryvo

namespace Ed25519

open Layout

variable {data rest pre : List UInt8} {o : SignatureOffsets} {rows : List SignatureOffsets}
variable {i k n : Nat} {signer : Pubkey} {msg : List UInt8}

/-! ### Rows -/

/-- The seven fields, two bytes each. -/
def SignatureOffsets.bytes (o : SignatureOffsets) : List UInt8 :=
  leBytes 2 o.signatureOffset ++ (leBytes 2 o.signatureInstructionIndex
    ++ (leBytes 2 o.publicKeyOffset ++ (leBytes 2 o.publicKeyInstructionIndex
    ++ (leBytes 2 o.messageDataOffset ++ (leBytes 2 o.messageDataSize
    ++ leBytes 2 o.messageInstructionIndex)))))

/-- What `writeUInt16LE` can write. -/
structure SignatureOffsets.Fits (o : SignatureOffsets) : Prop where
  signatureOffset : o.signatureOffset < 65536
  signatureInstructionIndex : o.signatureInstructionIndex < 65536
  publicKeyOffset : o.publicKeyOffset < 65536
  publicKeyInstructionIndex : o.publicKeyInstructionIndex < 65536
  messageDataOffset : o.messageDataOffset < 65536
  messageDataSize : o.messageDataSize < 65536
  messageInstructionIndex : o.messageInstructionIndex < 65536

@[simp] theorem SignatureOffsets.length_bytes (o : SignatureOffsets) : o.bytes.length = 14 := by
  simp [bytes]

theorem length_rows (rows : List SignatureOffsets) :
    (rows.flatMap SignatureOffsets.bytes).length = 14 * rows.length := by
  induction rows with
  | nil => rfl
  | cons o rows ih =>
      rw [List.flatMap_cons, List.length_append, ih, SignatureOffsets.length_bytes, List.length_cons]
      ring

/-- A field is read where it stands. -/
theorem readU16_append {v : Nat} (hpre : pre.length = n) (hv : v < 65536) :
    readU16 (pre ++ (leBytes 2 v ++ rest)) n = v := by
  have hw : window (pre ++ (leBytes 2 v ++ rest)) n 2 = leBytes 2 v :=
    window_append hpre (length_leBytes 2 v)
  rw [window] at hw
  rw [readU16, hw, leNat_leBytes_of_lt (by simpa using hv)]

/-- A row is read where it stands. -/
theorem readU16_row (rest : List UInt8) (hpre : pre.length = n) (ho : o.Fits) :
    readU16 (pre ++ (o.bytes ++ rest)) n = o.signatureOffset ∧
    readU16 (pre ++ (o.bytes ++ rest)) (n + 2) = o.signatureInstructionIndex ∧
    readU16 (pre ++ (o.bytes ++ rest)) (n + 4) = o.publicKeyOffset ∧
    readU16 (pre ++ (o.bytes ++ rest)) (n + 6) = o.publicKeyInstructionIndex ∧
    readU16 (pre ++ (o.bytes ++ rest)) (n + 8) = o.messageDataOffset ∧
    readU16 (pre ++ (o.bytes ++ rest)) (n + 10) = o.messageDataSize ∧
    readU16 (pre ++ (o.bytes ++ rest)) (n + 12) = o.messageInstructionIndex := by
  have field : ∀ {v : Nat} (a b : List UInt8), o.bytes = a ++ (leBytes 2 v ++ b) → v < 65536 →
      readU16 (pre ++ (o.bytes ++ rest)) (n + a.length) = v := fun {v} a b he hv => by
    have happ : pre ++ (o.bytes ++ rest) = (pre ++ a) ++ (leBytes 2 v ++ (b ++ rest)) := by
      rw [he]
      simp only [List.append_assoc]
    rw [happ]
    exact readU16_append (by rw [List.length_append, hpre]) hv
  have h₂ := field (leBytes 2 o.signatureOffset) _ rfl ho.signatureInstructionIndex
  have h₄ := field (leBytes 2 o.signatureOffset ++ leBytes 2 o.signatureInstructionIndex) _
    (by simp [SignatureOffsets.bytes]; rfl) ho.publicKeyOffset
  have h₆ := field (leBytes 2 o.signatureOffset ++ leBytes 2 o.signatureInstructionIndex
    ++ leBytes 2 o.publicKeyOffset) _
    (by simp [SignatureOffsets.bytes]; rfl) ho.publicKeyInstructionIndex
  have h₈ := field (leBytes 2 o.signatureOffset ++ leBytes 2 o.signatureInstructionIndex
    ++ leBytes 2 o.publicKeyOffset ++ leBytes 2 o.publicKeyInstructionIndex) _
    (by simp [SignatureOffsets.bytes]; rfl) ho.messageDataOffset
  have h₁₀ := field (leBytes 2 o.signatureOffset ++ leBytes 2 o.signatureInstructionIndex
    ++ leBytes 2 o.publicKeyOffset ++ leBytes 2 o.publicKeyInstructionIndex
    ++ leBytes 2 o.messageDataOffset) _
    (by simp [SignatureOffsets.bytes]; rfl) ho.messageDataSize
  have h₁₂ := field (leBytes 2 o.signatureOffset ++ leBytes 2 o.signatureInstructionIndex
    ++ leBytes 2 o.publicKeyOffset ++ leBytes 2 o.publicKeyInstructionIndex
    ++ leBytes 2 o.messageDataOffset ++ leBytes 2 o.messageDataSize) []
    (by simp [SignatureOffsets.bytes]) ho.messageInstructionIndex
  simp only [List.length_append, length_leBytes] at h₂ h₄ h₆ h₈ h₁₀ h₁₂
  exact ⟨field [] _ rfl ho.signatureOffset, h₂, h₄, h₆, h₈, h₁₀, h₁₂⟩

/-- A count, the rows, and the bytes they point to. -/
def instructionData (rows : List SignatureOffsets) (payload : List UInt8) : List UInt8 :=
  [UInt8.ofNat rows.length, 0] ++ (rows.flatMap SignatureOffsets.bytes ++ payload)

theorem split_of_getElem? {α : Type} {l : List α} {a : α} (h : l[i]? = some a) :
    ∃ l₁ l₂, l = l₁ ++ a :: l₂ ∧ l₁.length = i := by
  obtain ⟨hi, rfl⟩ := List.getElem?_eq_some_iff.mp h
  refine ⟨l.take i, l.drop (i + 1), ?_, List.length_take_of_le hi.le⟩
  rw [← List.drop_eq_getElem_cons hi, List.take_append_drop]

theorem length_instructionData (rows : List SignatureOffsets) (payload : List UInt8) :
    (instructionData rows payload).length = 2 + 14 * rows.length + payload.length := by
  simp only [instructionData, List.length_append, length_rows, List.length_cons, List.length_nil]
  ring

theorem toNat_count {n : Nat} (hn : n ≤ 255) : (UInt8.ofNat n).toNat = n := by
  rw [UInt8.toNat_ofNat', Nat.mod_eq_of_lt (by omega)]

/-- A row of the instruction is parsed, if it is self-contained. -/
theorem parse_instructionData (h : rows[i]? = some o) (hn : rows.length ≤ 255) (ho : o.Fits)
    (payload : List UInt8) : parseEd25519Offsets (instructionData rows payload) i
      = requireSelfContainedOffsets o >>= fun _ => .ok o := by
  have hi : i < rows.length := (List.getElem?_eq_some_iff.mp h).1
  have hlen := length_instructionData rows payload
  have hhead : ((instructionData rows payload).headD 0).toNat = rows.length := toNat_count hn
  obtain ⟨r₁, r₂, hr, rfl⟩ := split_of_getElem? h
  have hdata : instructionData rows payload = ([UInt8.ofNat rows.length, 0]
      ++ r₁.flatMap SignatureOffsets.bytes) ++ (o.bytes ++ (r₂.flatMap SignatureOffsets.bytes
      ++ payload)) := by
    rw [instructionData]
    conv_lhs => rw [hr, ← hr]
    simp only [hr, List.flatMap_append, List.flatMap_cons, List.append_assoc]
  have hpre : ([UInt8.ofNat rows.length, 0] ++ r₁.flatMap SignatureOffsets.bytes).length
      = 2 + r₁.length * 14 := by
    rw [List.length_append, length_rows]
    simp only [List.length_cons, List.length_nil]
    ring
  obtain ⟨h₀, h₂, h₄, h₆, h₈, h₁₀, h₁₂⟩ :=
    readU16_row (r₂.flatMap SignatureOffsets.bytes ++ payload) hpre ho
  rw [← hdata] at h₀ h₂ h₄ h₆ h₈ h₁₀ h₁₂
  rw [parseEd25519Offsets, require_of (by omega), Except.ok_bind]
  simp only [hhead, h₀, h₂, h₄, h₆, h₈, h₁₀, h₁₂]
  rw [require_of ⟨by omega, hi⟩, Except.ok_bind, require_of (by omega), Except.ok_bind]
  rfl

/-- The row points into the same instruction. -/
def SignatureOffsets.SelfContained (o : SignatureOffsets) : Prop :=
  o.signatureInstructionIndex = selfContainedInstructionIndex ∧
    o.publicKeyInstructionIndex = selfContainedInstructionIndex ∧
    o.messageInstructionIndex = selfContainedInstructionIndex

/-- The bytes `v` stand at `n`. -/
def StandsAt (data v : List UInt8) (n : Nat) : Prop := ∃ a b, data = a ++ (v ++ b) ∧ a.length = n

theorem StandsAt.le {v : List UInt8} (h : StandsAt data v n) : n + v.length ≤ data.length := by
  obtain ⟨a, b, rfl, rfl⟩ := h
  simp only [List.length_append]
  omega

theorem StandsAt.window_eq {v : List UInt8} (h : StandsAt data v n) :
    (data.drop n).take v.length = v := by
  obtain ⟨a, b, rfl, ha⟩ := h
  exact window_append ha rfl

/-- A key and a message are read where the row says they stand. -/
theorem signedMessage_eq_ok (hp : parseEd25519Offsets data i = .ok o)
    (hk : StandsAt data signer.toBytes o.publicKeyOffset)
    (hm : StandsAt data msg o.messageDataOffset) (hs : o.messageDataSize = msg.length) :
    signedMessage data i = .ok ⟨signer, msg⟩ := by
  have hlen : signer.toBytes.length = 32 := by simp
  have hk₁ := hk.le
  have hk₂ := hk.window_eq
  rw [hlen] at hk₁ hk₂
  rw [signedMessage, hp, Except.ok_bind, extractPubkey, require_of hk₁, extractMessage, hs,
    require_of hm.le]
  simp only [Except.ok_bind, hk₂, hm.window_eq, Pubkey.ofBytes_toBytes]
  rfl

/-! ### What clients write -/

/-- A signer of a client. -/
structure Keypair where
  publicKey : Pubkey
  sign : List UInt8 → List UInt8
  length_sign : ∀ message, (sign message).length = 64

/-- `Buffer.writeUInt16LE`, which throws where the number does not fit. -/
def writeUInt16LE (v : Nat) : Option (List UInt8) := if v < 65536 then some (leBytes 2 v) else none

/-- Where one signature, its key and its message stand. -/
structure OffsetRow where
  signatureOffset : Nat
  publicKeyOffset : Nat
  messageOffset : Nat
  messageLength : Nat

/-- The seven fields of a row, the three instruction indices being those of the row's own instruction. -/
def OffsetRow.offsets (row : OffsetRow) : SignatureOffsets :=
  ⟨row.signatureOffset, 0xffff, row.publicKeyOffset, 0xffff, row.messageOffset, row.messageLength,
    0xffff⟩

def SignatureOffsets.write (o : SignatureOffsets) : Option (List UInt8) := do
  let signatureOffset ← writeUInt16LE o.signatureOffset
  let signatureInstructionIndex ← writeUInt16LE o.signatureInstructionIndex
  let publicKeyOffset ← writeUInt16LE o.publicKeyOffset
  let publicKeyInstructionIndex ← writeUInt16LE o.publicKeyInstructionIndex
  let messageDataOffset ← writeUInt16LE o.messageDataOffset
  let messageDataSize ← writeUInt16LE o.messageDataSize
  let messageInstructionIndex ← writeUInt16LE o.messageInstructionIndex
  pure (signatureOffset ++ (signatureInstructionIndex ++ (publicKeyOffset
    ++ (publicKeyInstructionIndex ++ (messageDataOffset ++ (messageDataSize
    ++ messageInstructionIndex))))))

theorem writeUInt16LE_eq_some {v : Nat} {bs : List UInt8} :
    writeUInt16LE v = some bs ↔ v < 65536 ∧ bs = leBytes 2 v := by
  rw [writeUInt16LE]
  split <;> simp_all [eq_comm]

theorem SignatureOffsets.write_eq_some {bs : List UInt8} :
    o.write = some bs ↔ o.Fits ∧ bs = o.bytes := by
  simp only [write, Option.bind_eq_bind, Option.bind_eq_some_iff, writeUInt16LE_eq_some,
    Option.pure_def, Option.some.injEq]
  constructor
  · rintro ⟨_, ⟨h₁, rfl⟩, _, ⟨h₂, rfl⟩, _, ⟨h₃, rfl⟩, _, ⟨h₄, rfl⟩, _, ⟨h₅, rfl⟩, _, ⟨h₆, rfl⟩, _,
      ⟨h₇, rfl⟩, rfl⟩
    exact ⟨⟨h₁, h₂, h₃, h₄, h₅, h₆, h₇⟩, rfl⟩
  · rintro ⟨⟨h₁, h₂, h₃, h₄, h₅, h₆, h₇⟩, rfl⟩
    exact ⟨_, ⟨h₁, rfl⟩, _, ⟨h₂, rfl⟩, _, ⟨h₃, rfl⟩, _, ⟨h₄, rfl⟩, _, ⟨h₅, rfl⟩, _, ⟨h₆, rfl⟩, _,
      ⟨h₇, rfl⟩, rfl⟩

/-- A count, the rows, and the bytes they point to, where all offsets fit. -/
def writeInstruction (rows : List SignatureOffsets) (payload : List UInt8) : Option (List UInt8) := do
  let headers ← rows.mapM SignatureOffsets.write
  pure ([UInt8.ofNat rows.length, 0] ++ (headers.flatten ++ payload))

theorem mapM_write_eq_some {headers : List (List UInt8)} :
    rows.mapM SignatureOffsets.write = some headers ↔
      (∀ o ∈ rows, o.Fits) ∧ headers = rows.map SignatureOffsets.bytes := by
  induction rows generalizing headers with
  | nil => simp [eq_comm]
  | cons o rows ih =>
      simp only [List.mapM_cons, Option.bind_eq_bind, Option.bind_eq_some_iff,
        SignatureOffsets.write_eq_some, ih, Option.pure_def, Option.some.injEq,
        List.forall_mem_cons, List.map_cons]
      constructor
      · rintro ⟨_, ⟨ho, rfl⟩, _, ⟨hs, rfl⟩, rfl⟩
        exact ⟨⟨ho, hs⟩, rfl⟩
      · rintro ⟨⟨ho, hs⟩, rfl⟩
        exact ⟨_, ⟨ho, rfl⟩, _, ⟨hs, rfl⟩, rfl⟩

theorem writeInstruction_eq_some {payload : List UInt8} : writeInstruction rows payload = some data ↔
    (∀ o ∈ rows, o.Fits) ∧ data = instructionData rows payload := by
  simp only [writeInstruction, Option.bind_eq_bind, Option.bind_eq_some_iff, mapM_write_eq_some,
    Option.pure_def, Option.some.injEq, instructionData, List.flatMap_def]
  constructor
  · rintro ⟨_, ⟨hs, rfl⟩, rfl⟩
    exact ⟨hs, rfl⟩
  · rintro ⟨hs, rfl⟩
    exact ⟨_, ⟨hs, rfl⟩, rfl⟩

/-- The first loop of the builder: each key, signature and message behind the one before. -/
def offsetRows : Nat → List (Keypair × List UInt8) → List OffsetRow
  | _, [] => []
  | cursor, entry :: entries =>
      let publicKeyOffset := cursor
      let signatureOffset := publicKeyOffset + 32
      let messageOffset := signatureOffset + 64
      ⟨signatureOffset, publicKeyOffset, messageOffset, entry.2.length⟩
        :: offsetRows (messageOffset + entry.2.length) entries

/-- The bytes of one signature, key first. -/
def entryBytes (entry : Keypair × List UInt8) : List UInt8 :=
  entry.1.publicKey.toBytes ++ (entry.1.sign entry.2 ++ entry.2)

def createMultiMessageEd25519Instruction (entries : List (Keypair × List UInt8)) :
    Option (List UInt8) :=
  writeInstruction ((offsetRows (2 + 14 * entries.length) entries).map OffsetRow.offsets)
    (entries.flatMap entryBytes)

/-- All signers sign one message, which stands behind their keys and signatures. -/
def createMultiSigEd25519Instruction (signers : List Keypair) (message : List UInt8) :
    Option (List UInt8) :=
  let dataStart := 2 + 14 * signers.length
  let messageOffset := dataStart + signers.length * 96
  writeInstruction (signers.zipIdx.map fun signer =>
      OffsetRow.offsets ⟨dataStart + signer.2 * 96 + 32, dataStart + signer.2 * 96, messageOffset,
        message.length⟩)
    (signers.flatMap (fun signer => signer.publicKey.toBytes ++ signer.sign message) ++ message)

/-- The message is left to another instruction of the transaction. -/
def createCrossInstructionMessageEd25519Instruction (signer : Keypair) (message : List UInt8)
    (messageInstructionIndex : Nat) : Option (List UInt8) :=
  writeInstruction [⟨48, 0xffff, 16, 0xffff, 0, message.length, messageInstructionIndex⟩]
    (signer.publicKey.toBytes ++ signer.sign message)

/-! ### Reading them back -/

variable {entries : List (Keypair × List UInt8)} {entry : Keypair × List UInt8} {cursor : Nat}
variable {signers : List Keypair}

theorem length_entryBytes (entry : Keypair × List UInt8) :
    (entryBytes entry).length = 96 + entry.2.length := by
  simp only [entryBytes, List.length_append, Keypair.length_sign, Pubkey.length_toBytes]
  ring

theorem length_offsetRows : (offsetRows cursor entries).length = entries.length := by
  induction entries generalizing cursor with
  | nil => rfl
  | cons entry entries ih => rw [offsetRows, List.length_cons, List.length_cons, ih]

/-- The row of an entry says where its bytes come to stand. -/
theorem offsetRows_append (e₁ e₂ : List (Keypair × List UInt8)) :
    offsetRows cursor (e₁ ++ entry :: e₂) = offsetRows cursor e₁
      ++ ⟨cursor + (e₁.flatMap entryBytes).length + 32, cursor + (e₁.flatMap entryBytes).length,
          cursor + (e₁.flatMap entryBytes).length + 96, entry.2.length⟩
        :: offsetRows (cursor + (e₁.flatMap entryBytes).length + 96 + entry.2.length) e₂ := by
  induction e₁ generalizing cursor with
  | nil => rfl
  | cons x e₁ ih =>
      have hc : cursor + 32 + 64 + x.2.length + (e₁.flatMap entryBytes).length
          = cursor + ((x :: e₁).flatMap entryBytes).length := by
        rw [List.flatMap_cons, List.length_append, length_entryBytes]
        ring
      rw [List.cons_append, offsetRows, ih, hc]
      rfl

/-- What stands in the payload stands behind the rows. -/
theorem standsAt_payload {payload : List UInt8} (a v b : List UInt8) (hp : payload = a ++ (v ++ b)) :
    StandsAt (instructionData rows payload) v (2 + 14 * rows.length + a.length) := by
  refine ⟨[UInt8.ofNat rows.length, 0] ++ (rows.flatMap SignatureOffsets.bytes ++ a), b, ?_, ?_⟩
  · simp only [instructionData, hp, List.append_assoc]
  · simp only [List.length_append, length_rows, List.length_cons, List.length_nil]
    ring

/-- A row of the clients' is self-contained. -/
theorem parse_row {row : OffsetRow} {payload : List UInt8} (h : rows[i]? = some row.offsets)
    (hn : rows.length ≤ 255) (hfits : ∀ o ∈ rows, o.Fits) :
    parseEd25519Offsets (instructionData rows payload) i = .ok row.offsets := by
  rw [parse_instructionData h hn (hfits _ (List.mem_of_getElem? h))]
  rfl

/-- Every signature of the instruction is read back as its signer and its message. -/
theorem signedMessage_multiMessage (hd : createMultiMessageEd25519Instruction entries = some data)
    (hn : entries.length ≤ 255) (hi : entries[i]? = some entry) :
    signedMessage data i = .ok ⟨entry.1.publicKey, entry.2⟩ := by
  obtain ⟨hfits, rfl⟩ := writeInstruction_eq_some.mp hd
  obtain ⟨e₁, e₂, rfl, rfl⟩ := split_of_getElem? hi
  set rows := (offsetRows (2 + 14 * (e₁ ++ entry :: e₂).length) (e₁ ++ entry :: e₂)).map
    OffsetRow.offsets with hrows
  have hlen : rows.length = (e₁ ++ entry :: e₂).length := by
    rw [hrows, List.length_map, length_offsetRows]
  have hrow : rows[e₁.length]? = some (OffsetRow.offsets
      ⟨2 + 14 * rows.length + (e₁.flatMap entryBytes).length + 32,
        2 + 14 * rows.length + (e₁.flatMap entryBytes).length,
        2 + 14 * rows.length + (e₁.flatMap entryBytes).length + 96, entry.2.length⟩) := by
    rw [hlen, hrows, offsetRows_append, List.map_append, List.getElem?_append_right (by
      rw [List.length_map, length_offsetRows]), List.length_map, length_offsetRows, Nat.sub_self]
    rfl
  refine signedMessage_eq_ok (parse_row hrow (hlen ▸ hn) hfits) ?_ ?_ rfl
  · exact standsAt_payload (e₁.flatMap entryBytes) _
      (entry.1.sign entry.2 ++ (entry.2 ++ e₂.flatMap entryBytes))
      (by simp only [List.flatMap_append, List.flatMap_cons, entryBytes, List.append_assoc])
  · have hm : StandsAt (instructionData rows ((e₁ ++ entry :: e₂).flatMap entryBytes)) entry.2 _ :=
      standsAt_payload (e₁.flatMap entryBytes
        ++ (entry.1.publicKey.toBytes ++ entry.1.sign entry.2)) _ (e₂.flatMap entryBytes)
      (by simp only [List.flatMap_append, List.flatMap_cons, entryBytes, List.append_assoc])
    simpa [OffsetRow.offsets, Keypair.length_sign, Nat.add_assoc] using hm

/-! ### One message of several signers -/

structure VerifiedSharedMessage where
  signers : List Pubkey
  ixData : List UInt8
  messageOffset : Nat
  messageSize : Nat

def VerifiedSharedMessage.message (v : VerifiedSharedMessage) : List UInt8 :=
  (v.ixData.drop v.messageOffset).take v.messageSize

def messageRange (ixData : List UInt8) (offsets : SignatureOffsets) : Result (Nat × Nat) := do
  require (offsets.messageDataOffset + offsets.messageDataSize ≤ ixData.length)
    (.vault .invalidEd25519Data)
  pure (offsets.messageDataOffset, offsets.messageDataSize)

/-- A signature after the first, which must be of the same bytes. -/
def sharedSigner (ixData sharedMessage : List UInt8) (i : Nat) : Result Pubkey := do
  let offsets ← parseEd25519Offsets ixData i
  let (candidateOffset, candidateSize) ← messageRange ixData offsets
  require (candidateSize = sharedMessage.length ∧
    (ixData.drop candidateOffset).take candidateSize = sharedMessage) (.vault .invalidEd25519Data)
  extractPubkey ixData offsets

def verifyAndExtractAllSignatures (sysvar : InstructionsSysvar) (index : Nat) :
    Result VerifiedSharedMessage := do
  let ixData ← verifyEd25519Ix sysvar index
  require (2 ≤ ixData.length) (.vault .invalidEd25519Data)
  let numSigs := (ixData.headD 0).toNat
  require (0 < numSigs) (.vault .invalidEd25519Data)
  let firstOffsets ← parseEd25519Offsets ixData 0
  let (messageOffset, messageSize) ← messageRange ixData firstOffsets
  let sharedMessage := (ixData.drop messageOffset).take messageSize
  let signer ← extractPubkey ixData firstOffsets
  let signers ← (List.range' 1 (numSigs - 1)).mapM (sharedSigner ixData sharedMessage)
  pure ⟨signer :: signers, ixData, messageOffset, messageSize⟩

theorem sharedSigner_eq_ok {sharedMessage : List UInt8} :
    sharedSigner data sharedMessage i = .ok signer ↔
      signedMessage data i = .ok ⟨signer, sharedMessage⟩ := by
  simp only [sharedSigner, signedMessage, messageRange, extractMessage, Except.bind_eq_ok,
    require_eq_ok, exists_const, Prod.exists, Except.pure_eq_ok, Prod.mk.injEq,
    SignedMessage.mk.injEq]
  constructor
  · rintro ⟨o, hp, _, _, ⟨hle, rfl, rfl⟩, ⟨hs, hm⟩, hk⟩
    exact ⟨o, hp, _, hk, _, ⟨hle, rfl⟩, rfl, hm⟩
  · rintro ⟨o, hp, _, hk, _, ⟨hle, rfl⟩, rfl, rfl⟩
    refine ⟨o, hp, _, _, ⟨hle, rfl, rfl⟩, ⟨?_, rfl⟩, hk⟩
    rw [List.length_take, List.length_drop]
    omega

theorem mapM_range'_eq_ok {α : Type} {f : Nat → Result α} {a : Nat} {ys : List α} :
    (List.range' a n).mapM f = .ok ys ↔
      ys.length = n ∧ ∀ i y, ys[i]? = some y → f (a + i) = .ok y := by
  induction n generalizing a ys with
  | zero =>
      rw [List.range'_zero, mapM_nil_eq_ok, List.length_eq_zero_iff]
      exact ⟨fun h => ⟨h, by simp [h]⟩, fun h => h.1⟩
  | succ n ih =>
      rw [List.range'_succ, mapM_cons_eq_ok]
      constructor
      · rintro ⟨b, bs, hb, hbs, rfl⟩
        obtain ⟨hlen, hall⟩ := ih.mp hbs
        refine ⟨by rw [List.length_cons, hlen], fun i y hy => ?_⟩
        rcases i with _ | i
        · obtain rfl := Option.some.inj hy
          exact hb
        · have := hall i y hy
          rwa [Nat.add_right_comm] at this
      · rintro ⟨hlen, hall⟩
        rcases ys with _ | ⟨b, bs⟩
        · cases hlen
        · refine ⟨b, bs, hall 0 b rfl, ih.mpr ⟨Nat.succ.inj hlen, fun i y hy => ?_⟩, rfl⟩
          have := hall (i + 1) y hy
          rwa [Nat.add_right_comm]

/-- **What is shared**: the signers and the message that are extracted are those of all the signatures of the instruction, in order. -/
theorem verifyAndExtract_iff {sysvar : InstructionsSysvar} {keys : List Pubkey} :
    (∃ v, verifyAndExtractAllSignatures sysvar k = .ok v ∧ v.signers = keys ∧ v.message = msg) ↔
      keys ≠ [] ∧ ∃ data, verifyEd25519Ix sysvar k = .ok data ∧
        (data.headD 0).toNat = keys.length ∧
        ∀ i s, keys[i]? = some s → signedMessage data i = .ok ⟨s, msg⟩ := by
  simp only [verifyAndExtractAllSignatures, Except.bind_eq_ok, require_eq_ok, exists_const,
    messageRange, Prod.exists, Except.pure_eq_ok, Prod.mk.injEq, mapM_range'_eq_ok,
    sharedSigner_eq_ok]
  constructor
  · rintro ⟨_, ⟨data, hd, hlen, hpos, o, hp, _, _, ⟨hle, rfl, rfl⟩, s, hs, ss, ⟨hn, hall⟩, rfl⟩, rfl, rfl⟩
    refine ⟨List.cons_ne_nil _ _, data, hd, ?_, fun i x hx => ?_⟩
    · rw [List.length_cons, hn]
      omega
    · rcases i with _ | i
      · obtain rfl := Option.some.inj hx
        rw [signedMessage, hp, Except.ok_bind, hs, Except.ok_bind, extractMessage, require_of hle]
        rfl
      · have := hall i x hx
        rwa [Nat.add_comm] at this
  · rintro ⟨hne, data, hd, hn, hall⟩
    obtain ⟨s, ss, rfl⟩ := List.exists_cons_of_ne_nil hne
    have h₀ := hall 0 s rfl
    simp only [signedMessage, Except.bind_eq_ok, extractMessage, require_eq_ok, exists_const,
      Except.pure_eq_ok, SignedMessage.mk.injEq] at h₀
    obtain ⟨o, hp, _, hk, _, ⟨hle, rfl⟩, rfl, rfl⟩ := h₀
    have hlen : 2 ≤ data.length := by
      simp only [parseEd25519Offsets, Except.bind_eq_ok, require_eq_ok, exists_const] at hp
      exact hp.1
    rw [List.length_cons] at hn
    refine ⟨_, ⟨data, hd, hlen, by omega, o, hp, _, _, ⟨hle, rfl, rfl⟩, _, hk, ss,
      ⟨by omega, fun i x hx => ?_⟩, rfl⟩, rfl, rfl⟩
    have := hall (i + 1) x hx
    rwa [Nat.add_comm]

/-- A key and a signature. -/
def keyBlock (msg : List UInt8) (signer : Keypair) : List UInt8 :=
  signer.publicKey.toBytes ++ signer.sign msg

theorem length_keyBlocks (signers : List Keypair) :
    (signers.flatMap (keyBlock msg)).length = signers.length * 96 := by
  induction signers with
  | nil => rfl
  | cons x ss ih =>
      rw [List.flatMap_cons, List.length_append, ih, keyBlock, List.length_append,
        Keypair.length_sign, Pubkey.length_toBytes, List.length_cons]
      ring

/-- Every signer of the instruction is read back, with the message. -/
theorem signedMessage_multiSig (hd : createMultiSigEd25519Instruction signers msg = some data)
    (hn : signers.length ≤ 255) {s : Keypair} (hi : signers[i]? = some s) :
    signedMessage data i = .ok ⟨s.publicKey, msg⟩ := by
  obtain ⟨hfits, rfl⟩ := writeInstruction_eq_some.mp hd
  set rows := signers.zipIdx.map fun signer => OffsetRow.offsets
    ⟨2 + 14 * signers.length + signer.2 * 96 + 32, 2 + 14 * signers.length + signer.2 * 96,
      2 + 14 * signers.length + signers.length * 96, msg.length⟩ with hrows
  have hlen : rows.length = signers.length := by rw [hrows, List.length_map, List.length_zipIdx]
  have hrow : rows[i]? = some (OffsetRow.offsets
      ⟨2 + 14 * signers.length + i * 96 + 32, 2 + 14 * signers.length + i * 96,
        2 + 14 * signers.length + signers.length * 96, msg.length⟩) := by
    simp [hrows, List.getElem?_zipIdx, hi]
  refine signedMessage_eq_ok (parse_row hrow (hlen ▸ hn) hfits) ?_ ?_ rfl
  · obtain ⟨s₁, s₂, rfl, rfl⟩ := split_of_getElem? hi
    have hk : StandsAt (instructionData rows ((s₁ ++ s :: s₂).flatMap (keyBlock msg) ++ msg))
        s.publicKey.toBytes _ :=
      standsAt_payload (s₁.flatMap (keyBlock msg)) _
        (s.sign msg ++ (s₂.flatMap (keyBlock msg) ++ msg))
      (by simp only [List.flatMap_append, List.flatMap_cons, keyBlock, List.append_assoc])
    rw [length_keyBlocks, hlen] at hk
    exact hk
  · have hm : StandsAt (instructionData rows (signers.flatMap (keyBlock msg) ++ msg)) msg _ :=
      standsAt_payload (signers.flatMap (keyBlock msg)) _ [] (by rw [List.append_nil])
    rw [length_keyBlocks, hlen] at hm
    exact hm

/-- **Round trip of shared messages**: what clients build for several signers of one message is read back as these signers, in order, and this message. -/
theorem verifyAndExtract_multiSig {sysvar : InstructionsSysvar} (hne : signers ≠ [])
    (hn : signers.length ≤ 255) (hd : createMultiSigEd25519Instruction signers msg = some data)
    (hix : sysvar.instructions[k]? = some (programId, data)) :
    ∃ v, verifyAndExtractAllSignatures sysvar k = .ok v ∧
      v.signers = signers.map Keypair.publicKey ∧ v.message = msg := by
  refine verifyAndExtract_iff.mpr ⟨by simpa using hne, data, ?_, ?_, fun i s hs => ?_⟩
  · rw [verifyEd25519Ix, hix]
    rfl
  · obtain ⟨-, rfl⟩ := writeInstruction_eq_some.mp hd
    rw [List.length_map, instructionData]
    simpa using toNat_count hn
  · obtain ⟨x, hx, rfl⟩ := by simpa using hs
    exact signedMessage_multiSig hd hn hx

/-- A message left to another instruction is refused. -/
theorem signedMessage_crossInstruction {signer : Keypair}
    (hd : createCrossInstructionMessageEd25519Instruction signer msg k = some data) (hk : k ≠ 0xffff) :
    signedMessage data i = .error (.vault .invalidEd25519Data) := by
  obtain ⟨hfits, rfl⟩ := writeInstruction_eq_some.mp hd
  have hhead : ((instructionData [(⟨48, 0xffff, 16, 0xffff, 0, msg.length, k⟩ : SignatureOffsets)]
      (signer.publicKey.toBytes ++ signer.sign msg)).headD 0).toNat = 1 := rfl
  have hlen := length_instructionData [(⟨48, 0xffff, 16, 0xffff, 0, msg.length, k⟩ : SignatureOffsets)]
    (signer.publicKey.toBytes ++ signer.sign msg)
  rcases i with _ | i
  · rw [signedMessage, parse_instructionData (i := 0) rfl (by simp) (hfits _ (.head _)),
      requireSelfContainedOffsets, require, if_neg (fun h => hk h.2.2)]
    rfl
  · rw [signedMessage, parseEd25519Offsets, require_of (by omega), Except.ok_bind]
    simp only [hhead]
    rw [require, if_neg (by omega)]
    rfl

end Ed25519

/-! ### Bundles -/

namespace SettleCommitmentBundle

open Ed25519 (Keypair createMultiMessageEd25519Instruction)

variable {data : List UInt8} {config : GlobalConfig} {t : U16} {q : U32} {batch : Option (U16 × U32)}
variable {cs cs' : List ParsedBundleCommitment} {n : Nat}

/-- Commitment `i` of the instruction is `c`. -/
def Carries (data : List UInt8) (config : GlobalConfig) (i : Nat) (c : ParsedBundleCommitment) : Prop :=
  ∃ signed, Ed25519.signedMessage data i = .ok signed ∧ signed.signer = c.signerPubkey ∧
    parseCommitmentMessage signed.message config = .ok c.parsed

/-- All of the batch are for the token and the payee that the batch began with. -/
theorem parseCommitments_range' {a : Nat} (h : ∀ i c, cs[i]? = some c → Carries data config (a + i) c) :
    parseCommitments data config batch (List.range' a cs.length) = .ok cs' ↔
      cs' = cs ∧ ∃ b : U16 × U32, (∀ b', batch = some b' → b' = b) ∧
        ∀ c ∈ cs, (c.parsed.tokenId, c.parsed.payeeId) = b := by
  induction cs generalizing a batch cs' with
  | nil =>
      rw [List.length_nil, List.range'_zero, parseCommitments, Except.ok.injEq, eq_comm]
      refine ⟨fun h => ⟨h, ?_⟩, fun h => h.1⟩
      cases batch with
      | none => exact ⟨(0, 0), by simp, by simp⟩
      | some b => exact ⟨b, by simp [eq_comm], by simp⟩
  | cons c cs ih =>
      obtain ⟨signed, hs, hsigner, hparse⟩ := h 0 c rfl
      have htail : ∀ i x, cs[i]? = some x → Carries data config (a + 1 + i) x := fun i x hx => by
        have := h (i + 1) x hx
        rwa [Nat.add_right_comm]
      rw [List.length_cons, List.range'_succ, parseCommitments]
      rw [Nat.add_zero] at hs
      simp only [hs, Except.ok_bind, hparse, Except.bind_eq_ok, require_eq_ok, exists_const,
        ih htail, Except.pure_eq_ok, hsigner]
      constructor
      · rintro ⟨ht, hq, _, ⟨rfl, b, hb, hall⟩, rfl⟩
        obtain rfl := hb _ rfl
        refine ⟨rfl, _, fun b' hb' => ?_, List.forall_mem_cons.mpr ⟨rfl, hall⟩⟩
        subst hb'
        simp only [Option.all_some, beq_iff_eq] at ht hq
        exact Prod.ext ht hq
      · rintro ⟨rfl, b, hb, hall⟩
        obtain ⟨hc, hall⟩ := List.forall_mem_cons.mp hall
        have hbatch : ∀ b', batch = some b' → b' = (c.parsed.tokenId, c.parsed.payeeId) :=
          fun b' hb' => (hb b' hb').trans hc.symm
        refine ⟨?_, ?_, cs, ⟨rfl, b, fun b' hb' => (Option.some.inj hb').symm.trans hc, hall⟩, rfl⟩
        · cases batch with
          | none => rfl
          | some b' => simp [hbatch b' rfl]
        · cases batch with
          | none => rfl
          | some b' => simp [hbatch b' rfl]

/-- The transaction's first instruction carries these commitments, and no others. -/
theorem readCommitments_iff {sysvar : InstructionsSysvar}
    (hix : sysvar.instructions[0]? = some (Ed25519.programId, data))
    (hcount : data.head?.map (·.toNat) = some cs.length)
    (h : ∀ i c, cs[i]? = some c → Carries data config i c) :
    readCommitments sysvar config n = .ok cs' ↔ n = cs.length ∧ cs' = cs ∧
      ∃ b : U16 × U32, ∀ c ∈ cs, (c.parsed.tokenId, c.parsed.payeeId) = b := by
  have hix' : Ed25519.verifyEd25519Ix sysvar 0 = .ok data := by
    rw [Ed25519.verifyEd25519Ix, hix]
    rfl
  simp only [readCommitments, hix', Except.ok_bind, Except.bind_eq_ok, require_eq_ok, exists_const,
    hcount, Option.some.injEq, eq_comm (b := n)]
  refine and_congr_right fun hn => ?_
  subst hn
  rw [List.range_eq_range', parseCommitments_range' (by simpa using h)]
  simp

/-- What a client builds of commitments: each signed by its signer, in a message of the domain. -/
def buildBundle (domain : List UInt8) (commitments : List (Keypair × ParsedCommitmentMessage)) :
    Option (List UInt8) :=
  createMultiMessageEd25519Instruction
    (commitments.map fun c => (c.1, buildCommitmentMessageBytes domain c.2))

/-- **Round trip of bundles**: the program reads from a built instruction exactly the commitments it was built of, with their signers, when the count is theirs and all are of one token and for one payee, and refuses it otherwise. -/
theorem readCommitments_build {sysvar : InstructionsSysvar} (domain : Bytes 16)
    {commitments : List (Keypair × ParsedCommitmentMessage)}
    (hdomain : config.messageDomain = domain.val) (hlen : commitments.length ≤ 255)
    (hamount : ∀ c ∈ commitments, c.2.committedAmount < u64Bound)
    (hdata : buildBundle domain.val commitments = some data)
    (hix : sysvar.instructions[0]? = some (Ed25519.programId, data)) :
    readCommitments sysvar config n = .ok cs ↔ n = commitments.length ∧
      cs = commitments.map (fun c => ⟨c.2, c.1.publicKey⟩) ∧
      ∃ b : U16 × U32, ∀ c ∈ commitments, (c.2.tokenId, c.2.payeeId) = b := by
  have hcount : data.head?.map (·.toNat) = some commitments.length := by
    obtain ⟨-, rfl⟩ := Ed25519.writeInstruction_eq_some.mp hdata
    simp only [Ed25519.instructionData, List.length_map, Ed25519.length_offsetRows, List.cons_append,
      List.head?_cons, Option.map_some, Ed25519.toNat_count hlen]
  have hcarries : ∀ i c, (commitments.map fun c => (⟨c.2, c.1.publicKey⟩ :
      ParsedBundleCommitment))[i]? = some c → Carries data config i c := fun i c hc => by
    rw [List.getElem?_map, Option.map_eq_some_iff] at hc
    obtain ⟨x, hx, rfl⟩ := hc
    have hdom : config.messageDomain.length = 16 := by rw [hdomain, domain.property]
    refine ⟨⟨x.1.publicKey, buildCommitmentMessageBytes domain.val x.2⟩, ?_, rfl, ?_⟩
    · exact Ed25519.signedMessage_multiMessage hdata (by rwa [List.length_map])
        (by rw [List.getElem?_map, hx]; rfl)
    · rw [← hdomain]
      exact parse_build hdom (hamount x (List.mem_of_getElem? hx))
  rw [readCommitments_iff hix (by rwa [List.length_map]) hcarries, List.length_map]
  refine and_congr_right fun _ => and_congr_right fun _ => exists_congr fun b => ?_
  rw [List.forall_mem_map]

/-- A key of the local chain. -/
def localKeypair (n : Nat) : Keypair :=
  ⟨Pubkey.ofBytes (leBytes 32 n), fun _ => List.replicate 64 0, fun _ => List.length_replicate⟩

/-- Participants 0 and 2 pay participant 1. -/
def localCommitments : List (Keypair × ParsedCommitmentMessage) :=
  [(localKeypair 10, ⟨0, 1, 1, 300, none⟩), (localKeypair 12, ⟨2, 1, 1, 70, none⟩)]

theorem isSome_buildBundle : (buildBundle (List.replicate 16 0) localCommitments).isSome := by
  decide +kernel

/-- Both commitments are read, with the count they were built for. -/
theorem readCommitments_build_two : ∃ data config, readCommitments
    ⟨[(Ed25519.programId, data)], 1⟩ config 2 = .ok
      [⟨⟨0, 1, 1, 300, none⟩, Pubkey.ofBytes (leBytes 32 10)⟩,
        ⟨⟨2, 1, 1, 70, none⟩, Pubkey.ofBytes (leBytes 32 12)⟩] := by
  obtain ⟨data, hdata⟩ := Option.isSome_iff_exists.mp isSome_buildBundle
  refine ⟨data, ⟨.default, .default, 3, 0, 1000000, 3, 3, List.replicate 16 0, .default, 0⟩,
    (readCommitments_build ⟨List.replicate 16 0, rfl⟩ rfl (by decide) ?_ hdata rfl).mpr
      ⟨rfl, rfl, (1, 1), ?_⟩⟩
  · simp [localCommitments, u64Bound]
  · simp [localCommitments]

end SettleCommitmentBundle

end Ryvo
