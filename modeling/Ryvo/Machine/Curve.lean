import Ryvo.Bls.Pairing

/-!
# Machine — A curve

Curve syscalls that can be run, and the proof that they compute in paired groups.  The groups are the residues modulo the order, so a point is known by how often the generator was added up.  What such a point looks like on the wire is given by a `Numbering`: points in its table have the codes listed there, and all others are counted up from a base.

* `Numbering.decode_eq_some`: a valid numbering decodes what it encodes, and nothing else.
* `curveOf_implements`: valid numberings make an implementation.
-/

namespace Ryvo

open Bls

/-- With keys that differ, an entry is found by its key. -/
theorem find?_eq_some_iff_of_nodup {α β : Type} [DecidableEq β] {f : α → β} {l : List α}
    (hn : (l.map f).Nodup) {b : β} {a : α} :
    l.find? (fun e => f e = b) = some a ↔ a ∈ l ∧ f a = b := by
  constructor
  · intro h
    exact ⟨List.mem_of_find?_eq_some h, by simpa using List.find?_some h⟩
  · rintro ⟨ha, rfl⟩
    have hfound : (l.find? fun e => f e = f a).isSome := List.find?_isSome.mpr ⟨a, ha, by simp⟩
    obtain ⟨a', h⟩ := Option.isSome_iff_exists.mp hfound
    have hf : f a' = f a := by simpa using List.find?_some h
    rw [h, List.inj_on_of_nodup_map hn (List.mem_of_find?_eq_some h) ha hf]

/-- Codes of so many bytes for the residues. -/
structure Numbering where
  size : Nat
  base : Nat
  table : List (Nat × Nat)

namespace Numbering

variable {N : Numbering} {x c : Nat} {bs : List UInt8}

/-- The code of a residue, if it is in the table. -/
def lookup (N : Numbering) (x : Nat) : Option Nat :=
  (N.table.find? fun e => e.1 = x).map (·.2)

def code (N : Numbering) (x : Nat) : Nat := (N.lookup x).getD (N.base + x)

/-- The residue with a code. -/
def residue (N : Numbering) (c : Nat) : Option Nat :=
  match N.table.find? fun e => e.2 = c with
  | some e => some e.1
  | none =>
      if N.base ≤ c ∧ c < N.base + order ∧ N.lookup (c - N.base) = none then some (c - N.base)
      else none

/-- Big-endian. -/
def encode (N : Numbering) (x : Nat) : List UInt8 := (leBytes N.size (N.code x)).reverse

def decode (N : Numbering) (bs : List UInt8) : Option Nat :=
  if bs.length = N.size then N.residue (beNat bs) else none

/-- No code is used twice, and all fit. -/
structure Valid (N : Numbering) : Prop where
  residues : (N.table.map Prod.fst).Nodup
  codes : (N.table.map Prod.snd).Nodup
  small : ∀ e ∈ N.table, e.1 < order
  apart : ∀ e ∈ N.table, e.2 < N.base ∨ N.base + order ≤ e.2
  fits : ∀ e ∈ N.table, e.2 < 256 ^ N.size
  room : N.base + order ≤ 256 ^ N.size

instance decidableValid (N : Numbering) : Decidable N.Valid :=
  decidable_of_iff ((N.table.map Prod.fst).Nodup ∧ (N.table.map Prod.snd).Nodup ∧
      (∀ e ∈ N.table, e.1 < order) ∧ (∀ e ∈ N.table, e.2 < N.base ∨ N.base + order ≤ e.2) ∧
      (∀ e ∈ N.table, e.2 < 256 ^ N.size) ∧ N.base + order ≤ 256 ^ N.size)
    ⟨fun ⟨h₁, h₂, h₃, h₄, h₅, h₆⟩ => ⟨h₁, h₂, h₃, h₄, h₅, h₆⟩,
      fun h => ⟨h.residues, h.codes, h.small, h.apart, h.fits, h.room⟩⟩

theorem Valid.lookup_eq_some (hv : N.Valid) : N.lookup x = some c ↔ (x, c) ∈ N.table := by
  simp only [lookup, Option.map_eq_some_iff, find?_eq_some_iff_of_nodup hv.residues]
  constructor
  · rintro ⟨⟨x, c⟩, ⟨hmem, rfl⟩, rfl⟩
    exact hmem
  · intro hmem
    exact ⟨(x, c), ⟨hmem, rfl⟩, rfl⟩

/-- A code is found back. -/
theorem Valid.residue_eq_some (hv : N.Valid) : N.residue c = some x ↔ x < order ∧ c = N.code x := by
  rw [residue]
  split
  · rename_i e he
    obtain ⟨hmem, rfl⟩ := (find?_eq_some_iff_of_nodup hv.codes).mp he
    constructor
    · rintro ⟨rfl⟩
      refine ⟨hv.small e hmem, ?_⟩
      rw [code, hv.lookup_eq_some.mpr hmem, Option.getD_some]
    · rintro ⟨hlt, hcode⟩
      rw [code] at hcode
      cases hx : N.lookup x with
      | some c =>
          rw [hx, Option.getD_some] at hcode
          obtain rfl : e = (x, c) :=
            List.inj_on_of_nodup_map hv.codes hmem (hv.lookup_eq_some.mp hx) hcode
          rfl
      | none =>
          rw [hx, Option.getD_none] at hcode
          rcases hv.apart e hmem with h | h <;> omega
  · rename_i hnone
    have hfree : ∀ e ∈ N.table, e.2 ≠ c := by simpa using List.find?_eq_none.mp hnone
    rw [Option.ite_none_right_eq_some]
    constructor
    · rintro ⟨⟨hle, hlt, hnone⟩, hx⟩
      obtain rfl := Option.some.inj hx
      refine ⟨by omega, ?_⟩
      rw [code, hnone, Option.getD_none]
      omega
    · rintro ⟨hlt, rfl⟩
      cases hx : N.lookup x with
      | some c =>
          rw [code, hx] at hfree
          exact absurd rfl (hfree _ (hv.lookup_eq_some.mp hx))
      | none =>
          rw [code, hx, Option.getD_none, Nat.add_sub_cancel_left]
          exact ⟨⟨Nat.le_add_right _ _, Nat.add_lt_add_left hlt _, hx⟩, rfl⟩

theorem Valid.code_lt (hv : N.Valid) (hx : x < order) : N.code x < 256 ^ N.size := by
  rw [code]
  cases h : N.lookup x with
  | some c => exact hv.fits _ (hv.lookup_eq_some.mp h)
  | none => exact (Nat.add_lt_add_left hx _).trans_le hv.room

@[simp] theorem length_encode (N : Numbering) (x : Nat) : (N.encode x).length = N.size := by
  rw [encode, List.length_reverse, length_leBytes]

theorem Valid.beNat_encode (hv : N.Valid) (hx : x < order) : beNat (N.encode x) = N.code x := by
  rw [encode, beNat, List.reverse_reverse, leNat_leBytes_of_lt (hv.code_lt hx)]

/-- What is encoded is decoded, and nothing else is. -/
theorem Valid.decode_eq_some (hv : N.Valid) :
    N.decode bs = some x ↔ x < order ∧ bs = N.encode x := by
  rw [decode, Option.ite_none_right_eq_some, hv.residue_eq_some]
  constructor
  · rintro ⟨hlen, hlt, hcode⟩
    refine ⟨hlt, ?_⟩
    rw [encode, ← hcode, beNat, ← hlen, ← List.length_reverse, leBytes_leNat, List.reverse_reverse]
  · rintro ⟨hlt, rfl⟩
    exact ⟨length_encode N x, hlt, hv.beNat_encode hlt⟩

theorem Valid.decode_encode (hv : N.Valid) (hx : x < order) : N.decode (N.encode x) = some x :=
  hv.decode_eq_some.mpr ⟨hx, rfl⟩

/-- Only zero carries the flag of the point at infinity, whichever way it is coded. -/
structure Flagged (N : Numbering) : Prop where
  size : N.size ≠ 0
  zero : ∃ c, (0, c) ∈ N.table
  table : ∀ e ∈ N.table, compressedPointHasInfinityFlag (N.encode e.1) = true ↔ e.1 = 0
  base : (N.base + order - 1) / 256 ^ (N.size - 1) = N.base / 256 ^ (N.size - 1)
  plain : UInt8.ofNat (N.base / 256 ^ (N.size - 1)) &&& 0x40 = 0

instance decidableFlagged (N : Numbering) : Decidable N.Flagged :=
  decidable_of_iff (N.size ≠ 0 ∧ (N.table.any fun e => e.1 = 0) = true ∧
      (∀ e ∈ N.table, compressedPointHasInfinityFlag (N.encode e.1) = true ↔ e.1 = 0) ∧
      (N.base + order - 1) / 256 ^ (N.size - 1) = N.base / 256 ^ (N.size - 1) ∧
      UInt8.ofNat (N.base / 256 ^ (N.size - 1)) &&& 0x40 = 0)
    ⟨fun ⟨h₁, h₂, h₃, h₄, h₅⟩ => ⟨h₁, by simpa using h₂, h₃, h₄, h₅⟩,
      fun h => ⟨h.size, by simpa using h.zero, h.table, h.base, h.plain⟩⟩

/-- The last byte of a little-endian number. -/
theorem leBytes_succ (n v : Nat) : leBytes (n + 1) v = leBytes n v ++ [UInt8.ofNat (v / 256 ^ n)] := by
  induction n generalizing v with
  | zero => simp [leBytes]
  | succ n ih => rw [leBytes, ih, leBytes, List.cons_append, Nat.div_div_eq_div_mul, pow_succ']

theorem head?_encode (hs : N.size ≠ 0) :
    (N.encode x).head? = some (UInt8.ofNat (N.code x / 256 ^ (N.size - 1))) := by
  obtain ⟨n, hn⟩ := Nat.exists_eq_succ_of_ne_zero hs
  rw [encode, hn, Nat.succ_eq_add_one, leBytes_succ, List.reverse_append]
  rfl

theorem Valid.hasInfinityFlag (hv : N.Valid) (hf : N.Flagged) (hx : x < order) :
    compressedPointHasInfinityFlag (N.encode x) = true ↔ x = 0 := by
  cases h : N.lookup x with
  | some c => exact hf.table _ (hv.lookup_eq_some.mp h)
  | none =>
      have hne : x ≠ 0 := by
        rintro rfl
        obtain ⟨c, hc⟩ := hf.zero
        rw [hv.lookup_eq_some.mpr hc] at h
        cases h
      -- Counting up does not reach the first byte.
      have htop : N.code x / 256 ^ (N.size - 1) = N.base / 256 ^ (N.size - 1) := by
        rw [code, h, Option.getD_none]
        refine Nat.le_antisymm ?_ (Nat.div_le_div_right (Nat.le_add_right _ _))
        rw [← hf.base]
        exact Nat.div_le_div_right (by omega)
      rw [compressedPointHasInfinityFlag, head?_encode hf.size, htop]
      simp [hf.plain, hne]

end Numbering

/-! ### The groups -/

/-- The residues, paired by multiplication. -/
def residues : PairedGroups order (ZMod order) (ZMod order) (ZMod order) where
  gen₁ := 1
  gen₂ := 1
  pair := AddMonoidHom.mul
  generates₁ x := ⟨x.val, by rw [nsmul_one, ZMod.natCast_zmod_val]⟩
  generates₂ y := ⟨y.val, by rw [nsmul_one, ZMod.natCast_zmod_val]⟩
  order₁ := by rw [nsmul_one, ZMod.natCast_self]
  order₂ := by rw [nsmul_one, ZMod.natCast_self]
  pair_gen := by
    rw [AddMonoidHom.mul_apply, one_mul]
    exact one_ne_zero

/-- Syscalls on compressed and uncompressed points of both groups, and on elements of the target group. -/
def curveOf (c₁ c₂ u₁ u₂ uₜ : Numbering) : CurveSyscalls where
  decompressG1 bs := (c₁.decode bs).map u₁.encode
  decompressG2 bs := (c₂.decode bs).map u₂.encode
  addG2 p q := do
    let x ← u₂.decode p
    let y ← u₂.decode q
    some (u₂.encode ((x + y) % order))
  mulG1 k p := (u₁.decode p).map fun x => u₁.encode (beNat k * x % order)
  pairingMap ps qs := do
    let xs ← ps.mapM u₁.decode
    let ys ← qs.mapM u₂.decode
    some (uₜ.encode ((List.zipWith (· * ·) xs ys).sum % order))

/-- Numberings as the constants of the verifications have them. -/
structure Fitting (c₁ c₂ u₁ u₂ uₜ : Numbering) : Prop where
  valid : c₁.Valid ∧ c₂.Valid ∧ u₁.Valid ∧ u₂.Valid ∧ uₜ.Valid
  flagged : c₁.Flagged ∧ c₂.Flagged
  sizes : c₁.size = 48 ∧ c₂.size = 96
  generator₁ : u₁.encode 1 = g1GeneratorUncompressedBe
  negGenerator₂ : u₂.encode (order - 1) = negG2GeneratorUncompressedBe
  identity : uₜ.encode 0 = gtIdentityBe

theorem mapM_decode {N : Numbering} (hv : N.Valid) (zs : List (ZMod order)) :
    (zs.map fun z => N.encode z.val).mapM N.decode = some (zs.map ZMod.val) := by
  induction zs with
  | nil => rfl
  | cons z zs ih =>
      rw [List.map_cons, List.mapM_cons, hv.decode_encode z.val_lt, Option.bind_eq_bind,
        Option.bind_some, ih]
      rfl

/-- The products, added up, are the residues' pairings. -/
theorem natCast_sum_products (ps : List (ZMod order × ZMod order)) :
    ((List.zipWith (· * ·) (ps.map fun p => p.1.val) (ps.map fun p => p.2.val)).sum : Nat)
      = (ps.map fun p => residues.pair p.1 p.2).sum := by
  induction ps with
  | nil => rfl
  | cons p ps ih =>
      rw [List.map_cons, List.map_cons, List.zipWith_cons_cons, List.sum_cons, Nat.cast_add,
        ih, List.map_cons, List.sum_cons, Nat.cast_mul, ZMod.natCast_zmod_val,
        ZMod.natCast_zmod_val]
      rfl

theorem val_neg_one : (-1 : ZMod order).val = order - 1 := by
  rw [ZMod.val_neg_of_ne_zero, ZMod.val_one]

variable {c₁ c₂ u₁ u₂ uₜ : Numbering}

/-- **The syscalls compute with residues.** -/
def curveOf_implements (h : Fitting c₁ c₂ u₁ u₂ uₜ) :
    Implements (curveOf c₁ c₂ u₁ u₂ uₜ) residues where
  compress₁ x := c₁.encode x.val
  compress₂ y := c₂.encode y.val
  encode₁ x := u₁.encode x.val
  encode₂ y := u₂.encode y.val
  encodeₜ z := uₜ.encode z.val
  length_compress₁ _ := (Numbering.length_encode _ _).trans h.sizes.1
  length_compress₂ _ := (Numbering.length_encode _ _).trans h.sizes.2
  infinity₁ x := (h.valid.1.hasInfinityFlag h.flagged.1 x.val_lt).trans (ZMod.val_eq_zero x)
  infinity₂ y := (h.valid.2.1.hasInfinityFlag h.flagged.2 y.val_lt).trans (ZMod.val_eq_zero y)
  decompressG1 c p := by
    simp only [curveOf, Option.map_eq_some_iff, h.valid.1.decode_eq_some]
    constructor
    · rintro ⟨x, ⟨hx, rfl⟩, rfl⟩
      exact ⟨(x : ZMod order), by rw [ZMod.val_natCast_of_lt hx], by rw [ZMod.val_natCast_of_lt hx]⟩
    · rintro ⟨x, rfl, rfl⟩
      exact ⟨x.val, ⟨x.val_lt, rfl⟩, rfl⟩
  decompressG2 c p := by
    simp only [curveOf, Option.map_eq_some_iff, h.valid.2.1.decode_eq_some]
    constructor
    · rintro ⟨x, ⟨hx, rfl⟩, rfl⟩
      exact ⟨(x : ZMod order), by rw [ZMod.val_natCast_of_lt hx], by rw [ZMod.val_natCast_of_lt hx]⟩
    · rintro ⟨x, rfl, rfl⟩
      exact ⟨x.val, ⟨x.val_lt, rfl⟩, rfl⟩
  addG2 y y' := by
    simp only [curveOf, h.valid.2.2.2.1.decode_encode y.val_lt,
      h.valid.2.2.2.1.decode_encode y'.val_lt, Option.bind_eq_bind, Option.bind_some, ZMod.val_add]
  mulG1 k x _ _ := by
    simp only [curveOf, h.valid.2.2.1.decode_encode x.val_lt, Option.map_some, nsmul_eq_mul,
      ZMod.val_mul, ZMod.val_natCast, Nat.mod_mul_mod]
  pairingMap ps := by
    have hxs := mapM_decode h.valid.2.2.1 (ps.map Prod.fst)
    have hys := mapM_decode h.valid.2.2.2.1 (ps.map Prod.snd)
    simp only [List.map_map, Function.comp_def] at hxs hys
    simp only [curveOf, hxs, hys, Option.bind_eq_bind, Option.bind_some, ← ZMod.val_natCast,
      natCast_sum_products]
  identity z := by
    constructor
    · intro hz
      have hcode := h.valid.2.2.2.2.decode_encode z.val_lt
      have hzero := h.valid.2.2.2.2.decode_encode (x := 0) order_prime.pos
      rw [hz, ← h.identity, hzero] at hcode
      exact (ZMod.val_eq_zero z).mp (Option.some.inj hcode).symm
    · rintro rfl
      rw [ZMod.val_zero]
      exact h.identity
  generator₁ := by
    rw [← h.generator₁]
    exact congrArg u₁.encode (ZMod.val_one order)
  negGenerator₂ := by
    rw [← h.negGenerator₂]
    exact congrArg u₂.encode val_neg_one

/-! ### Real points -/

namespace Localnet

/-- An uncompressed point, from its coordinates. -/
def point (coordinates : List Nat) : Nat := coordinates.foldl (fun n c => n * 256 ^ 48 + c) 0

/-- The scalar of a registration. -/
def popScalar : Nat := 0x134ed63e25ee5ca7ac0ab76a8fa4274c8fbb7b65caf333c86f194e9ccd4788b3

/-- The scalar of a round. -/
def roundScalar : Nat := 0x4b6f4e331725b85218a38714e74b6241a8ed8fcdd76c08cb86e1a9bd251a1d88

/-- The coordinates of the proof of possession: the secret is forty-two. -/
def popPoint : List Nat := [
  0x00108a340c954782c1926b43ac2792a4eae49ea4ce9bb92ac6ed85499000c856096c1012874e960ca6005bfd79e53cdd,
  0x08fa31226e5c922ec999d0d132247be2c0816958b3788381e4e0086e8b57f26670d61ae30eb86b3ed2ac864010a81b04]

/-- The coordinates of the signature on the round. -/
def roundPoint : List Nat := [
  0x0fd356e13887819466ba1cd3d1354b564ae1b7459cf485baab214cd38a7c992e26083869145d45c0a32f58f9dbcb4b59,
  0x0229a690b50b395dc89d31f44783072a5e9ed5d91a00e1555a24a7b7d00df979d65e0f8944cf3a0215efec203e3cbeb8]

/-- The coordinates of the key, forty-two times the generator. -/
def keyPoint : List Nat := [
  0x0c7fa63dfc38bbf3712e27a180391bca4ccabf609c5967a0592eff420b6235f3f2b323051cb099acc3969aca310f7ff4,
  0x191b2d6db43fafc2c9592f7e5f73981107975d3d92b843891e724dbc9f05b5eee5a3b2b1fc782ede8149f30830b84444,
  0x1192c7a1180ac944ce48bdefb1a0e1a95a9aca6164c83727ea148c24a95b0f66941b589f3e9c24d6c6ac5cf5f5de1e86,
  0x047db6e12dcc5c02c8df45e44a2f58eb86b4a112d7767b9b65a8b978c5d57c9254a04b62fd2a650725632aa3835e35dd]

def g1Compressed : Numbering where
  size := 48
  base := 0
  table := [(0, 0xc0 * 256 ^ 47),
    (42 * popScalar % order, 0x80 * 256 ^ 47 + popPoint.headD 0),
    (42 * roundScalar % order, 0x80 * 256 ^ 47 + roundPoint.headD 0)]

def g2Compressed : Numbering where
  size := 96
  base := 0
  table := [(0, 0xc0 * 256 ^ 95), (42, 0xa0 * 256 ^ 95 + point (keyPoint.take 2))]

def g1Uncompressed : Numbering where
  size := 96
  base := 0
  table := [(0, 0x40 * 256 ^ 95), (1, beNat g1GeneratorUncompressedBe),
    (popScalar, point [
  0x18a5519baf5c245459526cb8f8176ff931b0034ac26fe5cd7b3f2603994eb9ad364d1b7e05165846e0603faab7d11bfd,
  0x15ff55236af9c102a57dc117415fe08d64a2cfda7751d09091e2b8b6fe69e86bd4afcd7e2c751d7462c1805b398e4c5f]),
    (roundScalar, point [
  0x05f049f05158f37ddfdf79aedfc63cd180ba5f2e740f4215205f9dc91f94d865716bb4b1d42137122c39b4705e03e31a,
  0x19704c4e5b9652a912963a24cba4243ee45872378c00e9509799808b7855c738a27ccaf091dbb60dfb29e9adbda5440c]),
    (42 * popScalar % order, point popPoint),
    (42 * roundScalar % order, point roundPoint)]

def g2Uncompressed : Numbering where
  size := 192
  base := 0
  table := [(0, 0x40 * 256 ^ 191), (42, point keyPoint),
    (order - 1, beNat negG2GeneratorUncompressedBe)]

def targetGroup : Numbering where
  size := gtSize
  base := 2
  table := [(0, 1)]

theorem fitting : Fitting g1Compressed g2Compressed g1Uncompressed g2Uncompressed targetGroup where
  valid := by decide +kernel
  flagged := by decide +kernel
  sizes := ⟨rfl, rfl⟩
  generator₁ := by decide +kernel
  negGenerator₂ := by decide +kernel
  identity := by decide +kernel

/-- Curve operations that are the real ones on the points in the tables. -/
def curve : CurveSyscalls :=
  curveOf g1Compressed g2Compressed g1Uncompressed g2Uncompressed targetGroup

end Localnet

end Ryvo
