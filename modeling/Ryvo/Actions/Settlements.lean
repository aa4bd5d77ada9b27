import Ryvo.Actions.Channels
import Ryvo.Settlement.Bundle
import Ryvo.Settlement.Round

/-!
# Actions — Settlements

The three settlement instructions: what was signed and read, that it was accepted, and the one move they make.
-/

namespace Ryvo

variable {env : Env} {R : Rights env} {w w' : World} {submitter : Pubkey} {t : U16} {q : U32}
variable {sysvar : InstructionsSysvar} {remaining : List Pubkey} {c : GlobalConfig}

namespace SettleIndividual

/-- A commitment that was read, for a registered token, and accepted. -/
structure Settled (env : Env) (w : World) (submitter : Pubkey) (sysvar : InstructionsSysvar)
    (parsed : ParsedCommitmentMessage) : Prop where
  registered : w.Registered parsed.tokenId
  accepted : ∃ c signer, w.globalConfig = some c ∧ readCommitment sysvar c = .ok (signer, parsed) ∧
    Accepts env w (authority submitter signer parsed) parsed

theorem handler_spec (hl : Located env w) (h : handler env w submitter sysvar remaining = .ok w') :
    ∃ parsed, Settled env w submitter sysvar parsed ∧
      Does R [.settle parsed.tokenId [parsed.entry]] w w' := by
  simp only [handler, World.getGlobalConfig, Except.bind_eq_ok, okOr_eq_ok, Prod.exists,
    requireToken_eq_ok] at h
  obtain ⟨c, hc, _, -, signer, parsed, hread, _, hreg, hsettle⟩ := h
  obtain ⟨hacc, hset, hl', hb⟩ := settle_spec hl hsettle
  exact ⟨parsed, ⟨hreg, c, signer, hc, hread, hacc⟩, .move hb hl' hset⟩

end SettleIndividual

namespace SettleCommitmentBundle

/-- The commitments of a bundle are for one token and one payee. -/
theorem parseCommitments_batch {ixData : List UInt8} {batch : Option (U16 × U32)}
    {indices : List Nat} {cs : List ParsedBundleCommitment}
    (h : parseCommitments ixData c batch indices = .ok cs) (hb : batch = some (t, q)) :
    ∀ x ∈ cs, x.parsed.tokenId = t ∧ x.parsed.payeeId = q := by
  induction indices generalizing batch cs with
  | nil =>
      cases h
      simp
  | cons i indices ih =>
      simp only [parseCommitments, Except.bind_eq_ok, require_eq_ok, exists_const,
        Except.pure_eq_ok] at h
      obtain ⟨signed, -, parsed, -, ht, hq, rest, hrest, rfl⟩ := h
      subst hb
      obtain rfl : t = parsed.tokenId := by simpa using ht
      obtain rfl : q = parsed.payeeId := by simpa using hq
      rintro x (_ | ⟨_, hx⟩)
      · exact ⟨rfl, rfl⟩
      · exact ih hrest rfl x hx

/-- The first of them says which. -/
theorem readCommitments_batch {count : Nat} {cs : List ParsedBundleCommitment}
    {first : ParsedBundleCommitment} (h : readCommitments sysvar c count = .ok cs)
    (hfirst : cs.head? = some first) : ∀ x ∈ cs, x.parsed.tokenId = first.parsed.tokenId ∧
      x.parsed.payeeId = first.parsed.payeeId := by
  simp only [readCommitments, Except.bind_eq_ok, require_eq_ok, exists_const] at h
  obtain ⟨ixData, -, -, hparse⟩ := h
  generalize List.range count = indices at hparse
  cases indices with
  | nil =>
      cases hparse
      simp
  | cons i indices =>
      simp only [parseCommitments, Except.bind_eq_ok, require_eq_ok, exists_const,
        Except.pure_eq_ok] at hparse
      obtain ⟨signed, -, parsed, -, -, -, rest, hrest, rfl⟩ := hparse
      obtain rfl : ⟨parsed, signed.signer⟩ = first := by simpa using hfirst
      rintro x (_ | ⟨_, hx⟩)
      · exact ⟨rfl, rfl⟩
      · exact parseCommitments_batch hrest rfl x hx

/-- Commitments that were read, for a registered token, and accepted one by one. -/
structure Settled (env : Env) (w : World) (submitter : Pubkey) (sysvar : InstructionsSysvar)
    (count : Nat) (t : U16) (q : U32) (cs : List ParsedBundleCommitment) : Prop where
  registered : w.Registered t
  read : ∃ c, w.globalConfig = some c ∧ readCommitments sysvar c count = .ok cs
  batch : ∀ x ∈ cs, x.parsed.tokenId = t ∧ x.parsed.payeeId = q
  accepted : ∀ x ∈ cs, SettleIndividual.Accepts env w (authorities submitter x) x.parsed

theorem handler_spec {count : U8} (hl : Located env w)
    (h : handler env w submitter sysvar remaining count = .ok w') :
    ∃ t q cs, Settled env w submitter sysvar count.val t q cs ∧
      Does R [.settle t (entries cs)] w w' := by
  simp only [handler, World.getGlobalConfig, Except.bind_eq_ok, okOr_eq_ok, requireToken_eq_ok,
    require_eq_ok, exists_const] at h
  obtain ⟨c, hc, _, -, -, cs, hread, first, hfirst, hreg, hsettle⟩ := h
  have hbatch := readCommitments_batch hread hfirst
  obtain ⟨hacc, hset, hl', hb⟩ := settle_spec hl hbatch hsettle
  exact ⟨_, _, cs, ⟨hreg, ⟨c, hc, hread⟩, hbatch, hacc⟩, .move hb hl' hset⟩

end SettleCommitmentBundle

namespace SettleClearingRound

/-- A round that was read, for a registered token, among participants it knows, and signed by those who pay. -/
structure Settled (env : Env) (w : World) (message : List UInt8) (signature : Bytes 48)
    (layout : ParsedClearingRoundLayout) (es : List LaneEntry) : Prop where
  registered : w.Registered layout.tokenId
  read : ∃ c, w.globalConfig = some c ∧
    parseClearingRoundLayoutWithVersion message c Bls.clearingRoundMessageVersion = .ok layout
  entries : layout.entries = .ok es
  roster : layout.roster.Nodup
  known : ∀ p ∈ layout.roster, Known env w layout.tokenId p
  authenticated : Authenticated env w (blsAuthentication env message signature.val) layout

theorem handler_spec {message : List UInt8} {signature : Bytes 48} (hl : Located env w)
    (h : handler env w sysvar remaining message signature = .ok w') :
    ∃ layout es, Settled env w message signature layout es ∧
      Does R [.settle layout.tokenId es] w w' := by
  simp only [handler, World.getGlobalConfig, Except.bind_eq_ok, okOr_eq_ok, requireToken_eq_ok] at h
  obtain ⟨c, hc, _, -, layout, hread, _, hreg, hsettle⟩ := h
  obtain ⟨es, hes, hn, hknown, hauth, hset, hl', hb⟩ := settle_spec hl hsettle
  exact ⟨layout, es, ⟨hreg, ⟨c, hc, hread⟩, hes, hn, hknown, hauth⟩, .move hb hl' hset⟩

end SettleClearingRound

end Ryvo
