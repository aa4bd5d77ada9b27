import Ryvo.Actions.Effects
import Ryvo.Instructions.Withdrawals

/-!
# Actions — The vault

Deposits and withdrawals of plain tokens: which participant is credited or debited, and what moves in or out of the token's vault with it.
-/

namespace Ryvo

variable {env : Env} {R : Rights env} {w w' w₁ : World} {k k₁ k₂ owner : Pubkey} {t : U16} {p : U32}
variable {n : Nat}

/-- The registry has the token, and it is of the kind asked for. -/
def World.HasToken (w : World) (t : U16) (kind : TokenKind) (e : TokenEntry) : Prop :=
  ∃ r, w.tokenRegistry = some r ∧ r.findToken t = some e ∧ e.kind = kind

theorem plainToken_eq_ok {e : TokenEntry} : w.plainToken t = .ok e ↔ w.HasToken t .plain e := by
  simp only [World.plainToken, World.getTokenRegistry, Except.bind_eq_ok, okOr_eq_ok, require_eq_ok,
    exists_const, Except.pure_eq_ok, World.HasToken]
  constructor
  · rintro ⟨r, hr, e, he, hk, rfl⟩
    refine ⟨r, hr, he, ?_⟩
    cases h : e.kind <;> simp_all [TokenEntry.isYieldBearing]
  · rintro ⟨r, hr, he, hk⟩
    exact ⟨r, hr, e, he, by simp [TokenEntry.isYieldBearing, hk], rfl⟩

theorem sameBuckets_transfer {source destination authority : Pubkey}
    (h : w.tokenTransfer env source destination authority n = .ok w') : SameBuckets w w' := by
  rw [(tokenTransfer_spec h).2.1]
  exact ⟨rfl, rfl⟩

/-- The address of a plain token's vault. -/
abbrev vaultOf (env : Env) (t : U16) : Pubkey := env.address (.vaultTokenAccount t)

namespace Deposit

theorem handler_spec (hl : Located env w) (h : handler env w owner k k₁ k₂ t n = .ok w') :
    ∃ p e v w₁, w.participantIdForOwner env k owner = .ok p ∧ w.HasToken t .plain e ∧
      (w.tokenAccounts (vaultOf env t) = some v ∧ v.mint = e.mint) ∧
      w.tokenTransfer env k₂ (vaultOf env t) owner n = .ok w₁ ∧ Does R [.credit t p n] w₁ w' := by
  simp only [handler, World.getTokenAccount, Except.bind_eq_ok, require_eq_ok, okOr_eq_ok,
    exists_const, Prod.exists, Except.pure_eq_ok, plainToken_eq_ok] at h
  obtain ⟨src, -, -, v, hv, hn, e, he, -, hvm, w₁, ht, p, ha, _, u, hedit, rfl⟩ := h
  have hs := sameBuckets_transfer ht
  obtain ⟨hp, rfl, -⟩ := (authenticated_eq_ok (hs.located hl)).mp ha
  refine ⟨p, e, v, w₁, ?_, he, ⟨hv, hvm⟩, ht, .credit (hs.located hl) hn hedit⟩
  rw [(tokenTransfer_spec ht).2.1] at hp
  exact hp

end Deposit

namespace DepositFor

/-- The credits of a list of recipients. -/
def credits (t : U16) (recipients : List (U32 × Nat)) : List Move :=
  recipients.map fun r => .credit t r.1 r.2

theorem creditAll_spec {recipients : List (U32 × Nat)} {b b' : Bindings U32} (hl : Located env w)
    (hb : Bindings.BoundTo (fun id => env.address (.participantBucket id)) b.bound)
    (h : recipients.foldlM (creditOne env t) (w, b) = .ok (w', b')) :
    Does R (credits t recipients) w w' := by
  induction recipients generalizing w b with
  | nil =>
      obtain ⟨rfl, -⟩ := Prod.mk.inj (foldlM_nil_eq_ok.mp h)
      exact .nil hl
  | cons r rs ih =>
      obtain ⟨⟨w₁, b₁⟩, hone, h⟩ := foldlM_cons_eq_ok.mp h
      simp only [creditOne, Except.bind_eq_ok, require_eq_ok, exists_const, Prod.exists,
        Except.pure_eq_ok, Prod.mk.injEq] at hone
      obtain ⟨hn, b₂, k, hbind, _, u, hedit, rfl, rfl⟩ := hone
      obtain ⟨rfl, hb₂⟩ := hb.bind Bindings.enters_push
        (fun k hv => ((verifyParticipantBucket hl).mp hv).1) hbind
      have hd : Does R [.credit t r.1 r.2] w _ := .credit hl hn hedit
      exact hd.trans (ih hd.located hb₂ h)

theorem foldlM_addU64_eq_ok {amounts : List Nat} {a : Nat} (h : amounts.foldlM addU64 a = .ok n) :
    n = a + amounts.sum := by
  induction amounts generalizing a with
  | nil => simpa using (foldlM_nil_eq_ok.mp h).symm
  | cons m ms ih =>
      obtain ⟨b, hb, h⟩ := foldlM_cons_eq_ok.mp h
      obtain ⟨rfl, -⟩ := checkedAdd_eq_ok.mp hb
      rw [ih h, List.sum_cons, Nat.add_assoc]

theorem handler_spec {remaining : List Pubkey} {ids : List U32} {amounts : List Nat}
    (hl : Located env w) (h : handler env w owner k remaining t ids amounts = .ok w') :
    ∃ e v w₁, w.HasToken t .plain e ∧
      (w.tokenAccounts (vaultOf env t) = some v ∧ v.mint = e.mint) ∧
      w.tokenTransfer env k (vaultOf env t) owner ((ids.zip amounts).map (·.2)).sum = .ok w₁ ∧
      Does R (credits t (ids.zip amounts)) w₁ w' := by
  simp only [handler, World.getTokenAccount, Except.bind_eq_ok, require_eq_ok, okOr_eq_ok,
    exists_const, Prod.exists, Except.pure_eq_ok, plainToken_eq_ok] at h
  obtain ⟨src, -, -, v, hv, ⟨-, hlen⟩, -, e, he, -, hvm, total, htotal, -, w₁, ht, _, b, hfold, -,
    rfl⟩ := h
  obtain rfl : total = amounts.sum := by simpa using foldlM_addU64_eq_ok htotal
  refine ⟨e, v, w₁, he, ⟨hv, hvm⟩, ?_, creditAll_spec ((sameBuckets_transfer ht).located hl)
    Bindings.BoundTo.nil hfold⟩
  rwa [List.map_snd_zip hlen.le]

end DepositFor

namespace RequestWithdrawal

theorem handler_spec {destination : Pubkey} (hl : Located env w)
    (h : handler env w owner k k₁ k₂ t n destination = .ok w') :
    ∃ p unlockAt, w.participantIdForOwner env k owner = .ok p ∧
      Does R [.request t p n destination unlockAt] w w' := by
  simp only [handler, Except.bind_eq_ok, require_eq_ok, exists_const, Prod.exists,
    Except.pure_eq_ok] at h
  obtain ⟨d, -, -, c, -, p, ha, e, -, -, -, -, -, unlockAt, -, _, u, hedit, rfl⟩ := h
  obtain ⟨hp, rfl, -⟩ := (authenticated_eq_ok hl).mp ha
  exact ⟨p, unlockAt, hp, .request hl hedit⟩

end RequestWithdrawal

namespace CancelWithdrawal

theorem handler_spec (hl : Located env w) (h : handler env w owner k k₁ t = .ok w') :
    ∃ p, w.participantIdForOwner env k owner = .ok p ∧ Does R [.cancel t p] w w' := by
  simp only [handler, Except.bind_eq_ok, Prod.exists, Except.pure_eq_ok] at h
  obtain ⟨p, ha, _, n, hedit, rfl⟩ := h
  obtain ⟨hp, rfl, -⟩ := (authenticated_eq_ok hl).mp ha
  obtain ⟨s, s', hs, hd, rfl⟩ := editSlot_eq_ok.mp hedit
  exact ⟨p, hp, .slot hl (fun _ _ => id) hs (ParticipantBucketSlot.rewrites_cancel hd).profile ⟨n, hd⟩⟩

end CancelWithdrawal

/-- A matured withdrawal of the row, to its own destination. -/
structure Matured (w : World) (e : BucketTokenBalance) (destination : Pubkey) : Prop where
  pending : e.withdrawalUnlockAt ≠ 0
  destination : destination = e.withdrawalDestination
  matured : e.withdrawalUnlockAt ≤ w.clock

/-- Reading a row in its bucket's account. -/
theorem readWithdrawal_eq_ok {e : BucketTokenBalance} :
    (∃ b, w.getParticipantBucket (slotKey env p) = .ok b ∧ b.readTokenWithdrawalFromData p t = .ok e) ↔
      ∃ s, w.slot env p = some s ∧ s.tokenEntry t = some e := by
  simp only [World.getParticipantBucket, okOr_eq_ok, ParticipantBucket.readTokenWithdrawalFromData,
    ParticipantBucketSlot.readTokenWithdrawal, Except.bind_eq_ok, ← ParticipantBucket.slot?_eq_some,
    slot_eq_some]
  constructor
  · rintro ⟨b, hb, s, hs, he⟩
    exact ⟨s, ⟨b, hb, hs⟩, he⟩
  · rintro ⟨s, ⟨b, hb, hs⟩, he⟩
    exact ⟨b, hb, s, hs, he⟩

namespace ExecuteWithdrawalTimelocked

theorem transferPositive_spec {source destination authority : Pubkey}
    (hR : R.spends source authority)
    (h : w.transferPositive env source destination authority n = .ok w') :
    Ops R w w' ∧ SameBuckets w w' ∧ (w.holding source : Int) - n ≤ w'.holding source := by
  unfold World.transferPositive at h
  split at h
  · refine ⟨.single (.transfer hR h), sameBuckets_transfer h, ?_⟩
    have := (tokenTransfer_spec h).2.2.holding source
    rw [if_pos rfl] at this
    split_ifs at this <;> omega
  · cases h
    exact ⟨.refl, ⟨rfl, rfl⟩, by omega⟩

/-- What is paid out of the vault is at most what was pending. -/
theorem settlePending_spec {c : GlobalConfig} {e : TokenEntry} {destination fee : Pubkey}
    (hR : R.spends (vaultOf env t) (env.address .globalConfig))
    (h : settlePending env w c e t destination fee n = .ok w') :
    Ops R w w' ∧ SameBuckets w w' ∧
      (w.holding (vaultOf env t) : Int) - n ≤ w'.holding (vaultOf env t) := by
  unfold settlePending at h
  split at h
  · cases h
    exact ⟨.refl, ⟨rfl, rfl⟩, by omega⟩
  · simp only [Except.bind_eq_ok, payOut, feeAmount, Except.pure_eq_ok] at h
    obtain ⟨_, ⟨minFee, -, product, -, rfl⟩, w₁, h₁, h₂⟩ := h
    obtain ⟨ho₁, hs₁, hh₁⟩ := transferPositive_spec hR h₁
    obtain ⟨ho₂, hs₂, hh₂⟩ := transferPositive_spec hR h₂
    refine ⟨ho₁.trans ho₂, ⟨hs₂.1.trans hs₁.1, hs₂.2.trans hs₁.2⟩, ?_⟩
    have := withdrawalFee_le (product / 10000 % u64Bound) minFee n
    omega

theorem handler_spec {destination fee : Pubkey} (hl : Located env w)
    (hR : R.spends (vaultOf env t) (env.address .globalConfig))
    (h : handler env w k destination fee t p = .ok w') :
    ∃ s e w₁, w.slot env p = some s ∧ s.tokenEntry t = some e ∧ Matured w e destination ∧
      (∃ te, w.HasToken t .plain te) ∧ Ops R w w₁ ∧ SameBuckets w w₁ ∧
      (w.holding (vaultOf env t) : Int) - e.withdrawingBalance ≤ w₁.holding (vaultOf env t) ∧
      ∀ R' : Rights env, Does R' [.clear t p] w₁ w' := by
  simp only [handler, World.getTokenRegistry, Except.bind_eq_ok, require_eq_ok, okOr_eq_ok,
    exists_const, Prod.exists, Except.pure_eq_ok] at h
  obtain ⟨c, -, v, -, d, -, -, f, -, -, -, _, hver, r, hr, te, hte, -, hk, data, hdata, e, he, hun, hdest,
    -, hmat, w₁, hpay, _, u, hedit, rfl⟩ := h
  obtain ⟨rfl, -⟩ := (verifyParticipantBucket hl).mp hver
  obtain ⟨s, hs, he⟩ := readWithdrawal_eq_ok.mp ⟨data, hdata, he⟩
  obtain ⟨hops, hsame, hheld⟩ := settlePending_spec hR hpay
  have hplain : te.kind = .plain := by
    cases h : te.kind <;> simp_all [TokenEntry.isYieldBearing]
  exact ⟨s, e, w₁, hs, he, ⟨hun, hdest, hmat⟩, ⟨te, r, hr, hte, hplain⟩, hops, hsame, hheld,
    fun R' => .clear (hsame.located hl) hedit⟩

end ExecuteWithdrawalTimelocked

end Ryvo
