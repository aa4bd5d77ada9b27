import Ryvo.Bls.Order
import Ryvo.Bls.Signature
import Ryvo.Support.Pairing

/-!
# BLS — Pairings

What the verifications check, where the curve syscalls compute in paired groups of the BLS order.  A message is signed by signing its scalar.

* `Implements`: what the syscalls are relied on for, on the encodings of points.
* `verifyPop_iff`, `verifySameMessageAggregateSignature_iff`: accepted is what signs the message's scalar under the key.
* `aggregatePubkey_eq`: keys are folded into their sum.
-/

namespace Ryvo.Bls

variable {G₁ G₂ Gₜ : Type} [AddCommGroup G₁] [AddCommGroup G₂] [AddCommGroup Gₜ]

/-- The syscalls compute in these groups, on encodings of their points: compressed, as they are sent, and uncompressed.  The target group is written additively. -/
structure Implements (curve : CurveSyscalls) (P : PairedGroups order G₁ G₂ Gₜ) where
  compress₁ : G₁ → List UInt8
  compress₂ : G₂ → List UInt8
  encode₁ : G₁ → List UInt8
  encode₂ : G₂ → List UInt8
  encodeₜ : Gₜ → List UInt8
  length_compress₁ : ∀ x, (compress₁ x).length = 48
  length_compress₂ : ∀ y, (compress₂ y).length = 96
  /-- Only zero carries the flag of the point at infinity. -/
  infinity₁ : ∀ x, compressedPointHasInfinityFlag (compress₁ x) = true ↔ x = 0
  infinity₂ : ∀ y, compressedPointHasInfinityFlag (compress₂ y) = true ↔ y = 0
  /-- Decompression finds the point, and refuses what is not one. -/
  decompressG1 : ∀ c p, curve.decompressG1 c = some p ↔ ∃ x, c = compress₁ x ∧ p = encode₁ x
  decompressG2 : ∀ c p, curve.decompressG2 c = some p ↔ ∃ y, c = compress₂ y ∧ p = encode₂ y
  addG2 : ∀ y y', curve.addG2 (encode₂ y) (encode₂ y') = some (encode₂ (y + y'))
  mulG1 : ∀ k x, k.length = 32 → beNat k < order →
    curve.mulG1 k (encode₁ x) = some (encode₁ (beNat k • x))
  pairingMap : ∀ ps : List (G₁ × G₂), curve.pairingMap (ps.map fun p => encode₁ p.1)
    (ps.map fun p => encode₂ p.2) = some (encodeₜ (ps.map fun p => P.pair p.1 p.2).sum)
  identity : ∀ z, encodeₜ z = gtIdentityBe ↔ z = 0
  generator₁ : encode₁ P.gen₁ = g1GeneratorUncompressedBe
  negGenerator₂ : encode₂ (-P.gen₂) = negG2GeneratorUncompressedBe

/-- The scalar of a message, as a number. -/
def messageScalar (env : Env) (message : List UInt8) : Nat :=
  beNat (hashMessageToScalarBe env.sha256 message)

variable {env : Env} {P : PairedGroups order G₁ G₂ Gₜ} {message signature : List UInt8}
variable {x : G₁} {y : G₂} {a : Nat}

/-- No message has the zero scalar. -/
theorem order_not_dvd_messageScalar (message : List UInt8) : ¬ order ∣ messageScalar env message := by
  obtain ⟨-, hpos, hlt⟩ := hashMessageToScalarBe_range env.length_sha256 message
  exact fun hdvd => hlt.not_ge (Nat.le_of_dvd hpos hdvd)

namespace Implements

variable (I : Implements env.curve P)

theorem hashMessageToSigningPointBe_eq (message : List UInt8) :
    hashMessageToSigningPointBe env message
      = .ok (I.encode₁ (messageScalar env message • P.gen₁)) := by
  obtain ⟨hlen, -, hlt⟩ := hashMessageToScalarBe_range env.length_sha256 message
  rw [hashMessageToSigningPointBe, multiplyG1Be, ← I.generator₁, I.mulG1 _ _ hlen hlt]
  rfl

theorem decompressG1Be_eq_ok {p : List UInt8} : decompressG1Be env signature = .ok p ↔
    ∃ x, x ≠ 0 ∧ signature = I.compress₁ x ∧ p = I.encode₁ x := by
  simp only [decompressG1Be, Except.bind_eq_ok, require_eq_ok, exists_const, okOr_eq_ok, I.decompressG1]
  constructor
  · rintro ⟨hflag, x, rfl, rfl⟩
    refine ⟨x, fun hx => ?_, rfl, rfl⟩
    rw [(I.infinity₁ x).mpr hx] at hflag
    cases hflag
  · rintro ⟨x, hx, rfl, rfl⟩
    exact ⟨Bool.eq_false_iff.mpr fun hflag => hx ((I.infinity₁ x).mp hflag), x, rfl, rfl⟩

theorem decompressG2Be_eq_ok {key p : List UInt8} : decompressG2Be env key = .ok p ↔
    ∃ y, y ≠ 0 ∧ key = I.compress₂ y ∧ p = I.encode₂ y := by
  simp only [decompressG2Be, Except.bind_eq_ok, require_eq_ok, exists_const, okOr_eq_ok, I.decompressG2]
  constructor
  · rintro ⟨hflag, y, rfl, rfl⟩
    refine ⟨y, fun hy => ?_, rfl, rfl⟩
    rw [(I.infinity₂ y).mpr hy] at hflag
    cases hflag
  · rintro ⟨y, hy, rfl, rfl⟩
    exact ⟨Bool.eq_false_iff.mpr fun hflag => hy ((I.infinity₂ y).mp hflag), y, rfl, rfl⟩

/-- The check of a signature's point against a message's. -/
theorem pairingProduct_eq (x : G₁) (a : Nat) (y : G₂) :
    pairingProductIsIdentityBe env [I.encode₁ x, I.encode₁ (a • P.gen₁)]
      [negG2GeneratorUncompressedBe, I.encode₂ y] = .ok true ↔ P.Signs y a x := by
  have hmap := I.pairingMap [(x, -P.gen₂), (a • P.gen₁, y)]
  simp only [List.map_cons, List.map_nil, I.negGenerator₂, List.sum_cons, List.sum_nil,
    add_zero, map_neg] at hmap
  rw [pairingProductIsIdentityBe, require_of (by simp), Except.ok_bind, hmap]
  simp only [okOr, Except.ok_bind, Except.pure_eq_ok, beq_iff_eq, I.identity]
  rw [PairedGroups.Signs, neg_add_eq_zero]

/-- **What is accepted for several signers.** -/
theorem verifySameMessageAggregateSignature_iff :
    verifySameMessageAggregateSignature env message signature (I.encode₂ y) = .ok () ↔
      ∃ x, x ≠ 0 ∧ signature = I.compress₁ x ∧ P.Signs y (messageScalar env message) x := by
  simp only [verifySameMessageAggregateSignature, I.hashMessageToSigningPointBe_eq, Except.ok_bind,
    Except.bind_eq_ok, I.decompressG1Be_eq_ok, require_eq_ok]
  constructor
  · rintro ⟨_, ⟨x, hx, rfl, rfl⟩, _, hpair, rfl⟩
    exact ⟨x, hx, rfl, (I.pairingProduct_eq ..).mp hpair⟩
  · rintro ⟨x, hx, rfl, hsigns⟩
    exact ⟨_, ⟨x, hx, rfl, rfl⟩, _, (I.pairingProduct_eq ..).mpr hsigns, rfl⟩

/-- **What is accepted as a proof of possession**: the same, for the message of the registration. -/
theorem verifyPop_iff {messageDomain : List UInt8} {participantId : U32} {owner : Pubkey}
    {key : List UInt8} : verifyPop env messageDomain participantId owner key signature = .ok () ↔
      ∃ y x, y ≠ 0 ∧ key = I.compress₂ y ∧ x ≠ 0 ∧ signature = I.compress₁ x ∧
        P.Signs y (messageScalar env
          (buildRegistrationMessage messageDomain participantId owner key)) x := by
  simp only [verifyPop, I.hashMessageToSigningPointBe_eq, Except.ok_bind, Except.bind_eq_ok,
    I.decompressG1Be_eq_ok, I.decompressG2Be_eq_ok, require_eq_ok]
  constructor
  · rintro ⟨_, ⟨x, hx, rfl, rfl⟩, _, ⟨y, hy, rfl, rfl⟩, _, hpair, rfl⟩
    exact ⟨y, x, hy, rfl, hx, rfl, (I.pairingProduct_eq ..).mp hpair⟩
  · rintro ⟨y, x, hy, rfl, hx, rfl, hsigns⟩
    exact ⟨_, ⟨x, hx, rfl, rfl⟩, _, ⟨y, hy, rfl, rfl⟩, _, (I.pairingProduct_eq ..).mpr hsigns, rfl⟩

/-- Compressed points are told apart by what they pair to. -/
theorem compress₂_injective : Function.Injective I.compress₂ := by
  intro y y' h
  have hpoint : ∀ z, env.curve.decompressG2 (I.compress₂ z) = some (I.encode₂ z) :=
    fun z => (I.decompressG2 _ _).mpr ⟨z, rfl, rfl⟩
  have hencode : I.encode₂ y = I.encode₂ y' :=
    Option.some.inj ((hpoint y).symm.trans ((congrArg _ h).trans (hpoint y')))
  -- One side pairs to zero with the generator, so the other does.
  have hself := I.pairingMap [(P.gen₁, -y), (P.gen₁, y)]
  have hother := I.pairingMap [(P.gen₁, -y), (P.gen₁, y')]
  simp only [List.map_cons, List.map_nil, hencode, List.sum_cons, List.sum_nil, add_zero,
    map_neg] at hself hother
  have hsum := Option.some.inj (hself.symm.trans hother)
  rw [neg_add_cancel, (I.identity 0).mpr rfl] at hsum
  have hpair : P.pair P.gen₁ (y' - y) = 0 := by
    rw [map_sub, sub_eq_neg_add]
    exact (I.identity _).mp hsum.symm
  rcases PairedGroups.pair_eq_zero hpair with h₀ | h₀
  · have hgen := P.pair_gen
    rw [h₀, map_zero, AddMonoidHom.zero_apply] at hgen
    exact absurd rfl hgen
  · exact (sub_eq_zero.mp h₀).symm

/-- One key more is added. -/
theorem aggregatePubkey_eq (hy : y ≠ 0) (sum : G₂) :
    aggregatePubkeyWithCompressedBe env (some (I.encode₂ sum)) (I.compress₂ y)
      = .ok (I.encode₂ (sum + y)) := by
  have hpoint : decompressG2Be env (I.compress₂ y) = .ok (I.encode₂ y) :=
    I.decompressG2Be_eq_ok.mpr ⟨y, hy, rfl, rfl⟩
  simp only [aggregatePubkeyWithCompressedBe, hpoint, Except.ok_bind, addG2Be, I.addG2]
  rfl

/-- The first key is the sum. -/
theorem aggregatePubkey_first (hy : y ≠ 0) :
    aggregatePubkeyWithCompressedBe env none (I.compress₂ y) = .ok (I.encode₂ y) := by
  have hpoint : decompressG2Be env (I.compress₂ y) = .ok (I.encode₂ y) :=
    I.decompressG2Be_eq_ok.mpr ⟨y, hy, rfl, rfl⟩
  rw [aggregatePubkeyWithCompressedBe, hpoint]
  rfl

end Implements

end Ryvo.Bls
