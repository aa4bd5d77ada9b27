import Ryvo.Messages.Commitment
import Ryvo.Messages.VarintCodec

/-!
# Messages — Encoding of commitments

`parseCommitmentMessage_eq_ok` says which byte strings the parser accepts, part by part.  The parts of an accepted message are unique even where bytes follow it (`CommitmentParts.unique`), so no accepted message is the start of another, and what a client encodes is read back as it was (`commitment_roundTrip`).
-/

namespace Ryvo

open Commitment

/-- The bytes of a commitment message after kind, version and domain. -/
structure CommitmentParts where
  flags : UInt8
  payer : List UInt8
  payee : List UInt8
  token : List UInt8
  amount : List UInt8
  settler : List UInt8

namespace CommitmentParts

def bytes (p : CommitmentParts) (domain : List UInt8) : List UInt8 :=
  messageKind :: messageVersion :: (domain ++
    p.flags :: (p.payer ++ (p.payee ++ (p.token ++ (p.amount ++ p.settler)))))

/-- The parts spell the fields: thirty-two bytes of settler exactly where the flag is set. -/
structure Spells (p : CommitmentParts) (m : ParsedCommitmentMessage) : Prop where
  payer : IsVarintU64 p.payer m.payerId.val
  payee : IsVarintU64 p.payee m.payeeId.val
  token : p.token = leBytes 2 m.tokenId.val
  amount : IsVarintU64 p.amount m.committedAmount
  settler : (p.flags = 0 ∧ p.settler = [] ∧ m.authorizedSettler = none) ∨
    (p.flags = 1 ∧ ∃ k : Pubkey, p.settler = k.toBytes ∧ m.authorizedSettler = some k)

variable {p p' : CommitmentParts} {m m' : ParsedCommitmentMessage} {domain domain' rest : List UInt8}

theorem Spells.length_settler (h : p.Spells m) :
    p.settler.length = if p.flags = 0 then 0 else 32 := by
  rcases h.settler with ⟨hf, hs, -⟩ | ⟨hf, k, hs, -⟩ <;> simp [hf, hs]

/-- A message followed by anything has one reading. -/
theorem unique (h : p.Spells m) (h' : p'.Spells m') (hd : domain.length = domain'.length)
    (hb : p.bytes domain ++ rest = p'.bytes domain') : domain = domain' ∧ p = p' ∧ rest = [] := by
  simp only [bytes, List.cons_append, List.append_assoc, List.cons.injEq, true_and] at hb
  obtain ⟨hdomain, hb₁⟩ := List.append_inj hb hd
  obtain ⟨hf, hb₂⟩ := List.cons.inj hb₁
  obtain ⟨hpayer, -, hb₃⟩ := h.payer.unique h'.payer hb₂
  obtain ⟨hpayee, -, hb₄⟩ := h.payee.unique h'.payee hb₃
  obtain ⟨htoken, hb₅⟩ := List.append_inj hb₄ (by simp [h.token, h'.token])
  obtain ⟨hamount, -, hb₆⟩ := h.amount.unique h'.amount hb₅
  have hlen : p.settler.length = p'.settler.length := by
    rw [h.length_settler, h'.length_settler, hf]
  obtain ⟨hsettler, hrest⟩ := List.append_inj (hb₆.trans (List.append_nil _).symm) hlen
  refine ⟨hdomain, ?_, hrest⟩
  cases p
  cases p'
  rw [CommitmentParts.mk.injEq]
  exact ⟨hf, hpayer, hpayee, htoken, hamount, hsettler⟩

/-- The parts decide the fields. -/
theorem Spells.fields (h : p.Spells m) (h' : p.Spells m') : m = m' := by
  have hamount := h.amount.value_eq h'.amount
  have hpayer := Fin.ext (h.payer.value_eq h'.payer)
  have hpayee := Fin.ext (h.payee.value_eq h'.payee)
  have htoken : m.tokenId = m'.tokenId := by
    have := congrArg leNat (h.token.symm.trans h'.token)
    rw [leNat_leBytes_of_lt m.tokenId.isLt, leNat_leBytes_of_lt m'.tokenId.isLt] at this
    exact Fin.ext this
  have hsettler : m.authorizedSettler = m'.authorizedSettler := by
    rcases h.settler with ⟨hf, -, hm⟩ | ⟨hf, k, hk, hm⟩ <;>
      rcases h'.settler with ⟨hf', -, hm'⟩ | ⟨hf', k', hk', hm'⟩
    · rw [hm, hm']
    · rw [hf] at hf'; cases hf'
    · rw [hf] at hf'; cases hf'
    · rw [hm, hm', Pubkey.toBytes_injective (hk.symm.trans hk')]
  cases m
  cases m'
  rw [ParsedCommitmentMessage.mk.injEq]
  exact ⟨hpayer, hpayee, htoken, hamount, hsettler⟩

theorem Spells.length_bytes (h : p.Spells m) (hd : domain.length = 16) :
    minMsgSize ≤ (p.bytes domain).length := by
  have h₁ := h.payer.spells.length_pos
  have h₂ := h.payee.spells.length_pos
  have h₃ := h.amount.spells.length_pos
  simp only [bytes, h.token, List.length_cons, List.length_append, length_leBytes, minMsgSize]
  omega

end CommitmentParts

variable {msg domain : List UInt8} {config : GlobalConfig} {m : ParsedCommitmentMessage}

/-- Only the one flag bit may be set. -/
theorem flags_cases (flags : UInt8) :
    flags &&& ~~~flagAuthorizedSettler = 0 ↔ flags = 0 ∨ flags = 1 := by
  have h : ∀ n : Fin 256, (UInt8.ofNat n.val &&& ~~~flagAuthorizedSettler = 0 ↔
      UInt8.ofNat n.val = 0 ∨ UInt8.ofNat n.val = 1) := by decide +kernel
  simpa using h ⟨flags.toNat, flags.toNat_lt⟩

theorem readAuthorizedSettler_eq_ok {flags : UInt8} {settler : Option Pubkey} {rest : List UInt8}
    (hf : flags = 0 ∨ flags = 1) : readAuthorizedSettler flags msg = .ok (settler, rest) ↔
      (flags = 0 ∧ msg = rest ∧ settler = none) ∨
        (flags = 1 ∧ ∃ k : Pubkey, msg = k.toBytes ++ rest ∧ settler = some k) := by
  rcases hf with rfl | rfl
  · have h : ¬ ((0 : UInt8) &&& flagAuthorizedSettler ≠ 0) := by decide
    simp only [readAuthorizedSettler, h, if_false, Except.ok.injEq, Prod.mk.injEq, true_and,
      show ¬ ((0 : UInt8) = 1) by decide, false_and, or_false]
    exact ⟨fun ⟨h₁, h₂⟩ => ⟨h₂, h₁.symm⟩, fun ⟨h₁, h₂⟩ => ⟨h₂.symm, h₁⟩⟩
  · have h : (1 : UInt8) &&& flagAuthorizedSettler ≠ 0 := by decide
    rw [readAuthorizedSettler, if_pos h]
    simp only [Except.bind_eq_ok, Prod.exists, takeBytes_eq_ok, Except.pure_eq_ok, Prod.mk.injEq,
      true_and, show ¬ ((1 : UInt8) = 0) by decide, false_and, false_or]
    constructor
    · rintro ⟨bs, r, ⟨rfl, hl⟩, rfl, rfl⟩
      exact ⟨_, by rw [Pubkey.toBytes_ofBytes hl], rfl⟩
    · rintro ⟨k, rfl, rfl⟩
      exact ⟨_, rest, ⟨rfl, by simp⟩, by rw [Pubkey.ofBytes_toBytes], rfl⟩

/-- **What the parser accepts**: a header with the config's domain, three numbers with the two token bytes before the last, and a settler where the flag announces one; nothing else. -/
theorem parseCommitmentMessage_eq_ok : parseCommitmentMessage msg config = .ok m ↔
    config.messageDomain.length = 16 ∧
      ∃ p : CommitmentParts, p.Spells m ∧ msg = p.bytes config.messageDomain := by
  have htoken : ∀ bs : List UInt8, bs.length = 2 → leBytes 2 (Fin.ofNat (2 ^ 16) (leNat bs)).val = bs :=
    fun bs h => by
      have hlt := leNat_lt bs
      rw [h] at hlt
      have hv : (Fin.ofNat (2 ^ 16) (leNat bs)).val = leNat bs := Nat.mod_eq_of_lt hlt
      conv_lhs => rw [hv, ← h, leBytes_leNat]
  simp only [parseCommitmentMessage, Except.bind_eq_ok, require_eq_ok, exists_const, Prod.exists,
    takeByte_eq_ok, takeBytes_eq_ok, readVarintU32_eq_ok, readVarintU64_eq_ok, Except.pure_eq_ok,
    flags_cases]
  constructor
  · rintro ⟨-, kind, r₁, rfl, version, r₂, rfl, ⟨rfl, rfl⟩, d, r₃, ⟨rfl, hd⟩, rfl, flags, r₄, rfl, hf,
      payer, r₅, ⟨b₁, rfl, h₁⟩, payee, r₆, ⟨b₂, rfl, h₂⟩, token, r₇, ⟨rfl, ht⟩, amount, r₈,
      ⟨b₃, rfl, h₃⟩, settler, r₉, hs, rfl, rfl⟩
    refine ⟨hd, ⟨flags, b₁, b₂, token, b₃, r₈⟩, ⟨h₁, h₂, (htoken token ht).symm, h₃, ?_⟩, rfl⟩
    simpa using (readAuthorizedSettler_eq_ok hf).mp hs
  · rintro ⟨hd, p, h, rfl⟩
    have hf : p.flags = 0 ∨ p.flags = 1 := h.settler.imp (·.1) (·.1)
    have hts : Fin.ofNat (2 ^ 16) (leNat p.token) = m.tokenId := by
      rw [h.token, leNat_leBytes_of_lt m.tokenId.isLt]
      exact Fin.ext (Nat.mod_eq_of_lt m.tokenId.isLt)
    refine ⟨h.length_bytes hd, _, _, rfl, _, _, rfl, ⟨rfl, rfl⟩, _, _, ⟨rfl, hd⟩, rfl, _, _, rfl, hf,
      _, _, ⟨_, rfl, h.payer⟩, _, _, ⟨_, rfl, h.payee⟩, _, _, ⟨rfl, by simp [h.token]⟩, _, _,
      ⟨_, rfl, h.amount⟩, m.authorizedSettler, [], (readAuthorizedSettler_eq_ok hf).mpr ?_, rfl, ?_⟩
    · simpa using h.settler
    · rw [hts]

/-! ### What clients write -/

/-- `build_commitment_message_bytes`. -/
def buildCommitmentMessageBytes (domain : List UInt8) (m : ParsedCommitmentMessage) : List UInt8 :=
  [messageKind, messageVersion] ++ domain ++ [if m.authorizedSettler.isSome then flagAuthorizedSettler else 0]
    ++ encodeVarintU64 m.payerId.val ++ encodeVarintU64 m.payeeId.val ++ leBytes 2 m.tokenId.val
    ++ encodeVarintU64 m.committedAmount ++ m.authorizedSettler.elim [] Pubkey.toBytes

theorem build_eq_bytes (hm : m.committedAmount < u64Bound) : ∃ p : CommitmentParts, p.Spells m ∧
    ∀ domain, buildCommitmentMessageBytes domain m = p.bytes domain := by
  refine ⟨⟨if m.authorizedSettler.isSome then flagAuthorizedSettler else 0,
    encodeVarintU64 m.payerId.val, encodeVarintU64 m.payeeId.val, leBytes 2 m.tokenId.val,
    encodeVarintU64 m.committedAmount, m.authorizedSettler.elim [] Pubkey.toBytes⟩,
    ⟨isVarintU64_encode_u32 _, isVarintU64_encode_u32 _, rfl, isVarintU64_encode ⟨_, hm⟩, ?_⟩,
    fun domain => by simp [buildCommitmentMessageBytes, CommitmentParts.bytes]⟩
  cases hs : m.authorizedSettler with
  | none => exact .inl ⟨rfl, rfl, rfl⟩
  | some k => exact .inr ⟨rfl, k, rfl, rfl⟩

theorem parse_build (hd : config.messageDomain.length = 16) (hm : m.committedAmount < u64Bound) :
    parseCommitmentMessage (buildCommitmentMessageBytes config.messageDomain m) config = .ok m := by
  obtain ⟨p, hp, hb⟩ := build_eq_bytes hm
  exact parseCommitmentMessage_eq_ok.mpr ⟨hd, p, hp, hb _⟩

/-- The domain is checked before anything behind it is read. -/
theorem parse_bytes_of_ne {p : CommitmentParts} (hp : p.Spells m) (hd : domain.length = 16)
    (hne : domain ≠ config.messageDomain) :
    parseCommitmentMessage (p.bytes domain) config = .error (.vault .invalidMessageDomain) := by
  have hlen := hp.length_bytes hd
  have htake : takeBytes .invalidCommitmentMessage 16 (domain ++
      p.flags :: (p.payer ++ (p.payee ++ (p.token ++ (p.amount ++ p.settler)))))
      = .ok (domain, p.flags :: (p.payer ++ (p.payee ++ (p.token ++ (p.amount ++ p.settler))))) :=
    takeBytes_eq_ok.mpr ⟨rfl, hd⟩
  rw [parseCommitmentMessage, require_of hlen, Except.ok_bind, CommitmentParts.bytes]
  simp only [takeByte, Except.ok_bind, require_of, and_self, htake]
  rw [require, if_neg hne]
  rfl

/-- An accepted message is neither the start of another accepted one nor an extension of one. -/
theorem parse_of_append {msg' : List UInt8} {config' : GlobalConfig} {m' : ParsedCommitmentMessage}
    (h : parseCommitmentMessage msg config = .ok m)
    (h' : parseCommitmentMessage msg' config' = .ok m') (hp : msg <+: msg') : msg' = msg := by
  obtain ⟨hd, p, hs, rfl⟩ := parseCommitmentMessage_eq_ok.mp h
  obtain ⟨hd', p', hs', rfl⟩ := parseCommitmentMessage_eq_ok.mp h'
  obtain ⟨rest, hb⟩ := hp
  obtain ⟨-, -, rfl⟩ := CommitmentParts.unique hs hs' (hd.trans hd'.symm) hb
  rw [← hb, List.append_nil]

/-- **Round trip of commitments.** What is encoded for a domain is read back under that domain and refused under any other; an accepted message is made of exactly the listed parts; no accepted message is a proper prefix of another; and the encoding is injective. -/
theorem commitment_roundTrip :
    (∀ (domain : Bytes 16) (payerId payeeId : U32) (tokenId : U16) (amount : U64)
      (settler : Option Pubkey) (config : GlobalConfig),
      (config.messageDomain = domain.val → parseCommitmentMessage (buildCommitmentMessageBytes
        domain.val ⟨payerId, payeeId, tokenId, amount.val, settler⟩) config
          = .ok ⟨payerId, payeeId, tokenId, amount.val, settler⟩) ∧
      (config.messageDomain ≠ domain.val → parseCommitmentMessage (buildCommitmentMessageBytes
        domain.val ⟨payerId, payeeId, tokenId, amount.val, settler⟩) config
          = .error (.vault .invalidMessageDomain))) ∧
    (∀ msg config m, parseCommitmentMessage msg config = .ok m →
      (∃ p : CommitmentParts, p.Spells m ∧ msg = p.bytes config.messageDomain) ∧
      ∀ msg' config' m', parseCommitmentMessage msg' config' = .ok m' →
        msg <+: msg' ∨ msg' <+: msg → msg' = msg) ∧
    (∀ (domain domain' : Bytes 16) (m m' : ParsedCommitmentMessage),
      m.committedAmount < u64Bound → m'.committedAmount < u64Bound →
      buildCommitmentMessageBytes domain.val m = buildCommitmentMessageBytes domain'.val m' →
        domain = domain' ∧ m = m') := by
  refine ⟨fun domain payerId payeeId tokenId amount settler config => ⟨?_, ?_⟩,
    fun msg config m h => ⟨?_, ?_⟩, fun domain domain' m m' hm hm' he => ?_⟩
  · rintro hd
    rw [← hd]
    exact parse_build (by rw [hd, domain.property]) amount.isLt
  · intro hne
    obtain ⟨p, hp, hb⟩ := build_eq_bytes (m := ⟨payerId, payeeId, tokenId, amount.val, settler⟩)
      amount.isLt
    rw [hb]
    exact parse_bytes_of_ne hp domain.property (Ne.symm hne)
  · exact (parseCommitmentMessage_eq_ok.mp h).2
  · rintro msg' config' m' h' (hp | hp)
    · exact parse_of_append h h' hp
    · exact (parse_of_append h' h hp).symm
  · obtain ⟨p, hp, hb⟩ := build_eq_bytes hm
    obtain ⟨p', hp', hb'⟩ := build_eq_bytes hm'
    have hlen : domain.val.length = domain'.val.length := domain.property.trans domain'.property.symm
    have happ : p.bytes domain.val ++ [] = p'.bytes domain'.val := by
      rw [List.append_nil, ← hb, ← hb', he]
    obtain ⟨hd, rfl, -⟩ := CommitmentParts.unique hp hp' hlen happ
    exact ⟨Subtype.ext hd, hp.fields hp'⟩

end Ryvo
