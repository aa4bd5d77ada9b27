import Ryvo.Messages.VarintCodec

/-!
# Messages — Varints at an offset

The two copies of `read_varint_u64` as the source has them: a loop over the message with an offset, a shift and the value read so far.

* `readVarintU64At_eq`: at an offset, the loop reads what the reader of a byte list reads of the bytes from there on.
* `varints_exact`: what both copies accept, what they return and where they leave the offset.
-/

namespace Ryvo

/-- The loop of `read_varint_u64`.  The offset is the one a success leaves; no caller looks at it after a failure. -/
def readVarintLoop (e : VaultError) (msg : List UInt8) (offset shift value : Nat) :
    Result (Nat × Nat) :=
  match msg[offset]? with
  | none => .error (.vault e)
  | some byte =>
      let chunk := (byte &&& 0x7f).toNat
      if shift = 63 ∧ 1 < chunk then .error (.vault e)
      -- `checked_shl` fails from a shift of 64 on, and drops what it shifts past the last bit.
      else if 64 ≤ shift then .error (.vault e)
      else
        let value := value ||| (chunk <<< shift) % u64Bound
        if byte &&& 0x80 = 0 then .ok (value, offset + 1)
        else if shift + 7 < 64 then readVarintLoop e msg (offset + 1) (shift + 7) value
        else .error (.vault e)
termination_by 64 - shift

def readVarintU64At (e : VaultError) (msg : List UInt8) (offset : Nat) : Result (Nat × Nat) :=
  readVarintLoop e msg offset 0 0

def readVarintU32At (e : VaultError) (msg : List UInt8) (offset : Nat) : Result (U32 × Nat) := do
  let (value, offset) ← readVarintU64At e msg offset
  if h : value < 2 ^ 32 then pure (⟨value, h⟩, offset) else .error (.vault e)

namespace SettleIndividual

def readVarintU64 : List UInt8 → Nat → Result (Nat × Nat) :=
  readVarintU64At .invalidCommitmentMessage

def readVarintU32 : List UInt8 → Nat → Result (U32 × Nat) :=
  readVarintU32At .invalidCommitmentMessage

end SettleIndividual

namespace ClearingRoundMessage

def readVarintU64 : List UInt8 → Nat → Result (Nat × Nat) :=
  readVarintU64At .invalidClearingRoundMessage

def readVarintU32 : List UInt8 → Nat → Result (U32 × Nat) :=
  readVarintU32At .invalidClearingRoundMessage

end ClearingRoundMessage

/-! ### What the bytes say -/

/-- The number of a string of seven-bit groups, the least significant first. -/
def leBase128 : List UInt8 → Nat
  | [] => 0
  | b :: bs => b.toNat % 128 + 128 * leBase128 bs

/-- The first byte from the offset on without the high bit is the `n`-th. -/
structure EndsAt (msg : List UInt8) (offset n : Nat) : Prop where
  last : ∃ b, msg[offset + n]? = some b ∧ b.toNat < 128
  before : ∀ k, k < n → ∃ b, msg[offset + k]? = some b ∧ 128 ≤ b.toNat

/-- The groups that go through `checked_shl`, each with its shift. -/
def shiftedChunks (msg : List UInt8) (offset shift : Nat) : List (Nat × Nat) :=
  match msg[offset]? with
  | none => []
  | some byte =>
      let chunk := (byte &&& 0x7f).toNat
      if shift = 63 ∧ 1 < chunk then []
      else (chunk, shift) :: (if byte &&& 0x80 = 0 then []
        else if shift + 7 < 64 then shiftedChunks msg (offset + 1) (shift + 7)
        else [])
termination_by 64 - shift

variable {e : VaultError} {msg bs rest : List UInt8} {offset o shift value n v : Nat}

theorem drop_of_getElem? {b : UInt8} (h : msg[offset]? = some b) :
    msg.drop offset = b :: msg.drop (offset + 1) := by
  obtain ⟨hlt, rfl⟩ := List.getElem?_eq_some_iff.mp h
  exact List.drop_eq_getElem_cons hlt

/-- At an offset, the loop is the loop over the bytes from there on. -/
theorem readVarintLoop_eq (h : shift < 64) : readVarintLoop e msg offset shift value
    = (fun x => (x.1, msg.length - x.2.length)) <$> readVarintFrom e shift value (msg.drop offset) := by
  induction offset, shift, value using readVarintLoop.induct msg with
  | case1 offset shift value hnone =>
      rw [readVarintLoop, hnone, List.drop_eq_nil_of_le (List.getElem?_eq_none_iff.mp hnone)]
      rfl
  | case2 offset shift value byte hbyte chunk hover =>
      rw [readVarintLoop, drop_of_getElem? hbyte, readVarintFrom, hbyte]
      simp only
      rw [if_pos hover, if_pos hover]
      rfl
  | case3 offset shift value byte hbyte chunk hover hshift => omega
  | case4 offset shift value byte hbyte chunk hover hshift hlast =>
      have hlt : offset < msg.length := (List.getElem?_eq_some_iff.mp hbyte).1
      rw [readVarintLoop, drop_of_getElem? hbyte, readVarintFrom, hbyte]
      simp only
      rw [if_neg hover, if_neg hover, if_neg hshift, if_pos hlast, if_pos hlast]
      have hleft : msg.length - (msg.drop (offset + 1)).length = offset + 1 := by
        rw [List.length_drop]
        omega
      change _ = Except.ok (_, msg.length - (msg.drop (offset + 1)).length)
      rw [hleft]
  | case5 offset shift value byte hbyte chunk hover hshift value' hlast hnext ih =>
      rw [readVarintLoop, drop_of_getElem? hbyte, readVarintFrom, hbyte]
      simp only
      rw [if_neg hover, if_neg hover, if_neg hshift, if_neg hlast, if_neg hlast, if_pos hnext,
        if_pos hnext]
      exact ih hnext
  | case6 offset shift value byte hbyte chunk hover hshift hlast hnext =>
      rw [readVarintLoop, drop_of_getElem? hbyte, readVarintFrom, hbyte]
      simp only
      rw [if_neg hover, if_neg hover, if_neg hshift, if_neg hlast, if_neg hlast, if_neg hnext,
        if_neg hnext]
      rfl

theorem readVarintU64At_eq : readVarintU64At e msg offset
    = (fun x => (x.1, msg.length - x.2.length)) <$> readVarintU64 e (msg.drop offset) :=
  readVarintLoop_eq (by decide)

/-! ### The groups at an offset -/

theorem getElem?_succ_add {k : Nat} : msg[offset + 1 + k]? = msg[offset + (k + 1)]? :=
  congrArg (fun i => msg[i]?) (by omega)

/-- What the reader of a byte list takes ends with the first byte without the high bit. -/
theorem IsVarint.endsAt (h : IsVarint bs v) (hmsg : msg.drop offset = bs ++ rest) :
    EndsAt msg offset (bs.length - 1) ∧ v = leBase128 bs := by
  have hhead : ∀ {offset : Nat} {b : UInt8} {bs' : List UInt8}, msg.drop offset = b :: bs' →
      msg[offset]? = some b := by
    intro offset b bs' hdrop
    have h0 := congrArg (fun l : List UInt8 => l[0]?) hdrop
    simpa using h0
  induction h generalizing offset with
  | last b hb =>
      refine ⟨⟨⟨b, hhead hmsg, hb⟩, fun k hk => absurd hk (by simp)⟩, ?_⟩
      rw [leBase128, leBase128, Nat.mod_eq_of_lt hb]
      rfl
  | more b hb hbs ih =>
      rename_i bs v
      have hfirst := hhead hmsg
      have hrest : msg.drop (offset + 1) = bs ++ rest := by
        rw [drop_of_getElem? hfirst] at hmsg
        exact (List.cons.inj hmsg).2
      obtain ⟨hends, rfl⟩ := ih hrest
      have hlen := hbs.length_pos
      refine ⟨⟨?_, fun k hk => ?_⟩, ?_⟩
      · obtain ⟨c, hc, hclt⟩ := hends.last
        refine ⟨c, ?_, hclt⟩
        rw [getElem?_succ_add, Nat.sub_add_cancel hlen] at hc
        exact hc
      · cases k with
        | zero => exact ⟨b, hfirst, hb⟩
        | succ k =>
            obtain ⟨c, hc, hcle⟩ := hends.before k (by simp only [List.length_cons] at hk; omega)
            exact ⟨c, getElem?_succ_add.symm.trans hc, hcle⟩
      · have := b.toNat_lt
        rw [leBase128]
        omega

/-- The bytes up to the first one without the high bit are what the reader takes. -/
theorem EndsAt.isVarint (h : EndsAt msg offset n) :
    IsVarint ((msg.drop offset).take (n + 1)) (leBase128 ((msg.drop offset).take (n + 1))) := by
  induction n generalizing offset with
  | zero =>
      obtain ⟨b, hb, hlt⟩ : ∃ b, msg[offset]? = some b ∧ b.toNat < 128 := h.last
      rw [drop_of_getElem? hb, List.take_succ_cons, List.take_zero, leBase128, leBase128,
        Nat.mod_eq_of_lt hlt]
      exact .last b hlt
  | succ n ih =>
      obtain ⟨b, hb, hle⟩ : ∃ b, msg[offset]? = some b ∧ 128 ≤ b.toNat :=
        h.before 0 (Nat.succ_pos n)
      have htail : EndsAt msg (offset + 1) n := by
        refine ⟨?_, fun k hk => ?_⟩
        · rw [getElem?_succ_add]
          exact h.last
        · rw [getElem?_succ_add]
          exact h.before (k + 1) (Nat.succ_lt_succ hk)
      have hmod : b.toNat % 128 = b.toNat - 128 := by
        have := b.toNat_lt
        omega
      rw [drop_of_getElem? hb, List.take_succ_cons, leBase128, hmod]
      exact .more b hle (ih htail)

theorem EndsAt.lt_length (h : EndsAt msg offset n) : offset + n < msg.length := by
  obtain ⟨b, hb, -⟩ := h.last
  exact (List.getElem?_eq_some_iff.mp hb).1

/-- There is one such byte at most. -/
theorem EndsAt.unique {n' : Nat} (h : EndsAt msg offset n) (h' : EndsAt msg offset n') : n = n' := by
  have key : ∀ {n n' : Nat}, EndsAt msg offset n → EndsAt msg offset n' → ¬ n < n' := by
    intro n n' h h' hlt
    obtain ⟨b, hb, hsmall⟩ := h.last
    obtain ⟨c, hc, hlarge⟩ := h'.before n hlt
    obtain rfl : b = c := Option.some.inj (hb.symm.trans hc)
    omega
  exact le_antisymm (Nat.not_lt.mp (key h' h)) (Nat.not_lt.mp (key h h'))

/-- What a reader returns, and where it leaves the offset. -/
theorem readVarintU64At_eq_ok : readVarintU64At e msg offset = .ok (v, o) ↔ ∃ n, n < 10 ∧
    EndsAt msg offset n ∧ v = leBase128 ((msg.drop offset).take (n + 1)) ∧ v < u64Bound ∧
      o = offset + n + 1 := by
  rw [readVarintU64At_eq]
  simp only [Except.map_eq_ok, Prod.exists, readVarintU64_eq_ok, Prod.mk.injEq]
  constructor
  · rintro ⟨v, rest, ⟨bs, hmsg, hbs⟩, rfl, rfl⟩
    obtain ⟨hends, hv⟩ := hbs.spells.endsAt hmsg
    have hlen := hbs.spells.length_pos
    have hten := hbs.length_le
    have hone : bs.length - 1 + 1 = bs.length := Nat.sub_add_cancel hlen
    refine ⟨bs.length - 1, by omega, hends, ?_, hbs.lt, ?_⟩
    · rw [hone, hmsg, List.take_left, hv]
    · have htotal := congrArg List.length hmsg
      have hlt := hends.lt_length
      simp only [List.length_drop, List.length_append] at htotal
      omega
  · rintro ⟨n, hn, hends, rfl, hlt, rfl⟩
    have hle := hends.lt_length
    refine ⟨_, msg.drop (offset + n + 1), ⟨_, ?_, hends.isVarint, hlt, ?_⟩, rfl, ?_⟩
    · have hdrop : msg.drop (offset + n + 1) = (msg.drop offset).drop (n + 1) := by
        rw [List.drop_drop, Nat.add_assoc]
      rw [hdrop, List.take_append_drop]
    · rw [List.length_take]
      omega
    · rw [List.length_drop]
      omega

theorem readVarintU32At_eq_ok {id : U32} :
    readVarintU32At e msg offset = .ok (id, o) ↔ readVarintU64At e msg offset = .ok (id.val, o) := by
  simp only [readVarintU32At, Except.bind_eq_ok, Prod.exists]
  constructor
  · rintro ⟨v, o', h, hid⟩
    split at hid
    · simp only [Except.pure_eq_ok, Prod.mk.injEq] at hid
      obtain ⟨rfl, rfl⟩ := hid
      exact h
    · cases hid
  · intro h
    refine ⟨id.val, o, h, ?_⟩
    rw [dif_pos id.isLt]
    rfl

theorem mem_shiftedChunks {x : Nat × Nat} (hx : x ∈ shiftedChunks msg offset shift) :
    (∃ chunk, chunk < 128 ∧ ¬ (shift = 63 ∧ 1 < chunk) ∧ x = (chunk, shift)) ∨
      shift + 7 < 64 ∧ x ∈ shiftedChunks msg (offset + 1) (shift + 7) := by
  rw [shiftedChunks] at hx
  split at hx
  · cases hx
  · rename_i byte hbyte
    simp only at hx
    split at hx
    · cases hx
    · rename_i hover
      rcases List.mem_cons.mp hx with rfl | hx
      · refine .inl ⟨_, ?_, hover, rfl⟩
        rw [toNat_and_0x7f]
        exact Nat.mod_lt _ (by decide)
      · split at hx
        · cases hx
        · split at hx
          · exact .inr ⟨by assumption, hx⟩
          · cases hx

/-- A tenth group has one bit, and the ones before it leave room for seven. -/
theorem shiftedChunks_lt {k : Nat} (hk : k ≤ 9) {x : Nat × Nat}
    (hx : x ∈ shiftedChunks msg offset (7 * k)) : x.1 <<< x.2 < u64Bound := by
  -- The induction is on the rounds that are left.
  induction hn : 9 - k generalizing offset k with
  | zero =>
      obtain ⟨chunk, hc, hover, rfl⟩ | ⟨hshift, -⟩ := mem_shiftedChunks hx
      · rw [Nat.shiftLeft_eq, ← chunk_bound hk hc]
        exact hover
      · omega
  | succ n ih =>
      obtain ⟨chunk, hc, hover, rfl⟩ | ⟨hshift, hx⟩ := mem_shiftedChunks hx
      · rw [Nat.shiftLeft_eq, ← chunk_bound hk hc]
        exact hover
      · exact ih (k := k + 1) (by omega) hx (by omega)

/-- A reader of `u64`s and one of `u32`s, each at an offset, that are exact. -/
structure ReadsVarints (readU64 : List UInt8 → Nat → Result (Nat × Nat))
    (readU32 : List UInt8 → Nat → Result (U32 × Nat)) : Prop where
  u64 : ∀ msg offset v o, readU64 msg offset = .ok (v, o) ↔ ∃ n, n < 10 ∧ EndsAt msg offset n ∧
    v = leBase128 ((msg.drop offset).take (n + 1)) ∧ v < 2 ^ 64 ∧ o = offset + n + 1
  u32 : ∀ msg offset id o, readU32 msg offset = .ok (id, o) ↔ readU64 msg offset = .ok (id.val, o)
  encoded : ∀ (before after : List UInt8) (v : U64),
    readU64 (before ++ encodeVarintU64 v.val ++ after) before.length
      = .ok (v.val, before.length + (encodeVarintU64 v.val).length)

theorem readsVarints (e : VaultError) :
    ReadsVarints (readVarintU64At e) (readVarintU32At e) where
  u64 _ _ _ _ := readVarintU64At_eq_ok
  u32 _ _ _ _ := readVarintU32At_eq_ok
  encoded before after v := by
    have hread : readVarintU64 e (encodeVarintU64 v.val ++ after) = .ok (v.val, after) :=
      readVarintU64_eq_ok.mpr ⟨_, rfl, isVarintU64_encode v⟩
    rw [readVarintU64At_eq, List.append_assoc, List.drop_left, hread]
    refine congrArg (fun o => Except.ok (v.val, o)) ?_
    simp only [List.length_append]
    omega

/-- Whatever error it raises, the loop accepts the same bytes. -/
theorem readVarintU64At_error {e' : VaultError} {r : Nat × Nat} :
    readVarintU64At e msg offset = .ok r ↔ readVarintU64At e' msg offset = .ok r := by
  obtain ⟨v, o⟩ := r
  rw [readVarintU64At_eq_ok, readVarintU64At_eq_ok]

/-- **The varint readers are exact**, both copies: each returns the number the bytes from the offset on spell and the offset after them, the two accept the same bytes, and no bit is shifted out. -/
theorem varints_exact :
    ReadsVarints SettleIndividual.readVarintU64 SettleIndividual.readVarintU32 ∧
    ReadsVarints ClearingRoundMessage.readVarintU64 ClearingRoundMessage.readVarintU32 ∧
    (∀ msg offset r, SettleIndividual.readVarintU64 msg offset = .ok r ↔
      ClearingRoundMessage.readVarintU64 msg offset = .ok r) ∧
    (∀ msg offset r, SettleIndividual.readVarintU32 msg offset = .ok r ↔
      ClearingRoundMessage.readVarintU32 msg offset = .ok r) ∧
    ∀ msg offset x, x ∈ shiftedChunks msg offset 0 → x.1 <<< x.2 < 2 ^ 64 := by
  refine ⟨readsVarints _, readsVarints _, fun _ _ _ => readVarintU64At_error, ?_, ?_⟩
  · intro msg offset r
    obtain ⟨id, o⟩ := r
    exact readVarintU32At_eq_ok.trans (readVarintU64At_error.trans readVarintU32At_eq_ok.symm)
  · intro msg offset x hx
    exact shiftedChunks_lt (Nat.zero_le 9) hx

end Ryvo
