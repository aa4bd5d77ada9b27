import Ryvo.Runs.Profiles
import Ryvo.Support.Handover

/-!
# Runs — Consent

Who agreed to a channel.  A participant's policy is its owner's last word on it (`PolicyRecord`); a lane comes up with the signature of the payee's owner, or where that word was to let anybody open one.

* `CreateChannel.consent_spec`: what `create_channel` checks of the payee.
* `channels_of_history`: so every lane has its payee's consent.
-/

namespace Ryvo

variable {env : Env} {w w' : World} {a : Action} {p q : U32} {h : List (World × Action)}
variable {s s' : ParticipantBucketSlot}

/-! ### Policies -/

/-- The owner's last word on the policy, which asks for consent where there was none. -/
inductive PolicyRecord (env : Env) (h : List (World × Action)) (p : U32) (s : ParticipantBucketSlot) :
    Prop
  | initial : s.inboundChannelPolicy = InboundChannelPolicy.consentRequired.toU8 →
      (∀ x ∈ h, ∀ policy, ¬ SetsPolicy env p policy x) → PolicyRecord env h p s
  | set {policy : InboundChannelPolicy} : s.inboundChannelPolicy = policy.toU8 →
      (∃ h₁ x h₂, h = h₁ ++ x :: h₂ ∧ SetsPolicy env p policy.toU8 x ∧
        ∀ y ∈ h₁, ∀ policy', ¬ SetsPolicy env p policy' y) → PolicyRecord env h p s

theorem PolicyRecord.cons {x : World × Action} (hp : PolicyRecord env h p s)
    (hx : ∀ policy, ¬ SetsPolicy env p policy x)
    (hpolicy : s'.inboundChannelPolicy = s.inboundChannelPolicy) : PolicyRecord env (x :: h) p s' := by
  cases hp with
  | initial hc hnone => exact .initial (hpolicy.trans hc) (List.forall_mem_cons.mpr ⟨hx, hnone⟩)
  | set hc hset => exact .set (hpolicy.trans hc) (exists_since_cons hset hx)

theorem policyRecord_of_history (r : History env h w) (hs : w.slot env p = some s) :
    PolicyRecord env h p s := by
  refine Run.history (P := fun h w => ∀ s, w.slot env p = some s → PolicyRecord env h p s) ?_ ?_ r s hs
  · rintro w ⟨clock, -, rfl⟩ s hs
    cases hs
  · intro h w a w' r ih hstep s' hs'
    have hw : Reached env w := r.reachable
    cases hs : w.slot env p with
    | none =>
        obtain ⟨owner, rfl⟩ := hw.newSlot hstep hs hs'
        refine .initial rfl ?_
        rintro x hx policy ⟨owner, _, _, -, ho⟩
        exact noSlot_of_join r hs x hx owner ho
    | some s =>
        obtain ⟨s₁, hs₁, hchange⟩ := hw.profileChange hstep hs
        obtain rfl := Option.some.inj (hs₁.symm.trans hs')
        cases hchange with
        | kept _ hp hsame => exact (ih s hs).cons hp hsame.inboundChannelPolicy
        | registered hr _ _ hs' =>
            subst hs'
            refine (ih s hs).cons ?_ rfl
            obtain ⟨_, _, _, _, ha, -⟩ := hr
            rintro policy ⟨_, _, _, ha', -⟩
            cases ha.symm.trans ha'
        | policySet hset hs' =>
            subst hs'
            exact .set rfl (exists_since_head _ hset)

/-! ### Channels -/

/-- The payee with this slot signs for the channel, or lets anybody open one. -/
def Consents (s : ParticipantBucketSlot) (payeeOwner : Option Pubkey) : Prop :=
  payeeOwner = some s.owner ∨ s.inboundChannelPolicy = InboundChannelPolicy.permissionless.toU8

namespace CreateChannel

variable {k k₁ k₂ owner : Pubkey} {payeeOwner signer : Option Pubkey} {t : U16} {lower higher : U32}
variable {id : U64}

theorem consents_of_check {policy : InboundChannelPolicy} (hp : s.inboundChannelPolicy = policy.toU8)
    (h : checkConsent policy s.owner payeeOwner = .ok ()) :
    Consents s payeeOwner ∧ s.inboundChannelPolicy ≠ InboundChannelPolicy.disabled.toU8 := by
  simp only [checkConsent, Except.bind_eq_ok, require_eq_ok, exists_const] at h
  obtain ⟨-, h⟩ := h
  cases policy with
  | permissionless => exact ⟨.inr hp, hp ▸ by decide⟩
  | consentRequired => exact ⟨.inl (require_eq_ok.mp h), hp ▸ by decide⟩
  | disabled => cases h

/-- The lane that is created is one its payee consents to, and no other comes up. -/
theorem consent_spec (hl : Located env w)
    (h : handler env w owner k k₁ k₂ payeeOwner t lower higher id signer = .ok w') :
    ∃ p q s, w.participantIdForOwner env k owner = .ok p ∧ w.slot env q = some s ∧
      Consents s payeeOwner ∧ s.inboundChannelPolicy ≠ InboundChannelPolicy.disabled.toU8 ∧
      ∃ lane, w'.ledger env = (w.ledger env).setLane t p q lane := by
  simp only [handler, Except.bind_eq_ok, require_eq_ok, exists_const, Prod.exists,
    Except.pure_eq_ok, requireToken_eq_ok, World.editChannelBucket, World.getChannelBucket,
    okOr_eq_ok, Prod.mk.injEq] at h
  obtain ⟨-, p, ha, payerData, -, payerOwner, -, q, -, lower', higher', sel, hc, ⟨rfl, rfl⟩, _,
    hv, payeeData, hqd, payeeKey, hqo, policy, hpolicy, _, hconsent, _, hid, rfl, w₁, h₁, w₂,
    ⟨b, hb, b', ⟨_, hinit, rfl, -⟩, rfl, -⟩, rfl⟩ := h
  obtain ⟨hp, rfl, -⟩ := (authenticated_eq_ok hl).mp ha
  obtain ⟨rfl, -⟩ := (verifyParticipantBucket hl).mp hv
  obtain ⟨s, hs, rfl⟩ := readOwner_eq_ok.mp ⟨payeeData, hqd, hqo⟩
  obtain ⟨hl₁, hled, -⟩ := createOrVerifyBucket_spec hl h₁
  obtain ⟨-, -, hset⟩ := initializeLane_spec hl₁ hc hid hb hinit
  obtain ⟨s₁, hs₁, hpolicy⟩ := readPolicy_eq_ok.mp ⟨payeeData, hqd, hpolicy⟩
  obtain rfl := Option.some.inj (hs₁.symm.trans hs)
  obtain ⟨hcons, hne⟩ := consents_of_check hpolicy hconsent
  exact ⟨p, q, s₁, hp, hs, hcons, hne, _, hset.trans (by rw [hled])⟩

end CreateChannel

/-- The owner of `p` opens its lane to `q` in the token: the owner of `q` signs for it too, or had let anybody open one, with its last word on the matter in the history before. -/
def OpensLane (env : Env) (t : U16) (p q : U32) (h : List (World × Action)) (x : World × Action) : Prop :=
  ∃ owner k k₁ k₂ payeeOwner lower higher id signer,
    x.2 = .call (.createChannel owner k k₁ k₂ payeeOwner t lower higher id signer) ∧
    x.1.OwnedBy env p owner ∧
    ((∃ o, payeeOwner = some o ∧ x.1.OwnedBy env q o) ∨
      ∃ h₁ y h₂, h = h₁ ++ y :: h₂ ∧ SetsPolicy env q InboundChannelPolicy.permissionless.toU8 y ∧
        ∀ z ∈ h₁, ∀ policy, ¬ SetsPolicy env q policy z)

/-- A lane comes up as its two parties have it. -/
theorem opensLane_of_history {t : U16} {l : DirectionalLaneState} (r : History env h w)
    (hstep : Step env w a w') (hn : w.lane env t p q = none) (hl : w'.lane env t p q = some l) :
    OpensLane env t p q h (w, a) := by
  have hw : Reached env w := r.reachable
  obtain ⟨signer, hm, -⟩ := hw.newLane hstep hn hl
  generalize hms : [Move.openLane t p q signer] = ms at hm
  cases hm with
  | @openLane owner k k₁ k₂ payeeOwner signer' t' lower higher id p' q' sp hreg hp' hsp =>
      obtain ⟨rfl, rfl, rfl, -⟩ := Move.openLane.inj (List.singleton_inj.mp hms)
      obtain ⟨p₁, q₁, s, hp₁, hs, hcons, -, lane, hledger⟩ :=
        CreateChannel.consent_spec hw.located hstep.ran
      -- The lane that came up is the one the accounts and ids name.
      have hnew : t = t ∧ p = p₁ ∧ q = q₁ := by
        by_contra hne
        have he := congrFun (congrFun (congrFun (congrArg Ledger.lane hledger) t) p) q
        rw [Ledger.lane_setLane_ne hne, World.ledger_lane, World.ledger_lane, hl, hn] at he
        cases he
      obtain ⟨-, rfl, rfl⟩ := hnew
      refine ⟨owner, k, k₁, k₂, payeeOwner, lower, higher, id, signer', rfl, hw.ownedBy_iff.mp hp', ?_⟩
      rcases hcons with ho | hpolicy
      · exact .inl ⟨s.owner, ho, s, hs, rfl⟩
      · cases policyRecord_of_history r hs with
        | initial hc _ => exact absurd (hpolicy.symm.trans hc) (by decide)
        | @set policy hc hset =>
            obtain rfl : policy = .permissionless := by
              have := hc.symm.trans hpolicy
              cases policy <;> first | rfl | exact absurd this (by decide)
            exact .inr hset
  | depositFor hms' _ =>
      have hfalse := DepositFor.onBalance hms' (.openLane t p q signer) (by simp [← hms])
      exact hfalse.elim
  | _ => simp at hms

/-- Before a lane came up, no step found it. -/
theorem noLane_of_history {t : U16} (r : History env h w) (hn : w.lane env t p q = none) :
    ∀ x ∈ h, x.1.lane env t p q = none := by
  refine Run.history (P := fun h w => w.lane env t p q = none → ∀ x ∈ h, x.1.lane env t p q = none)
    ?_ ?_ r hn
  · simp
  · intro h w a w' r ih hstep hn'
    cases hl : w.lane env t p q with
    | none => exact List.forall_mem_cons.mpr ⟨hl, ih hl⟩
    | some l =>
        obtain ⟨l', hl', -⟩ := Reached.laneStep r.reachable hstep hl
        rw [hn'] at hl'
        cases hl'

/-- What a history says of the lanes there are: each came up once, as its parties had it; no step before found it, and every step since did. -/
def LanesOpened (env : Env) (h : List (World × Action)) (w : World) : Prop :=
  ∀ t p q l, w.lane env t p q = some l → ∃ h₁ x h₂, h = h₁ ++ x :: h₂ ∧ OpensLane env t p q h₂ x ∧
    (∀ y ∈ x :: h₂, y.1.lane env t p q = none) ∧ ∀ y ∈ h₁, (y.1.lane env t p q).isSome

/-- **No channel against its payee**: along every run, every lane was opened by its payer's owner, once, when the payee's owner signed too or had opened itself to everybody with its last word before; nobody else can make one. -/
theorem channels_of_history (r : History env h w) : LanesOpened env h w := by
  refine Run.history (P := fun h w => LanesOpened env h w) ?_ ?_ r
  · rintro w ⟨clock, -, rfl⟩ t p q l hl
    rw [lane_genesis] at hl
    cases hl
  · intro h w a w' r ih hstep t p q l hl'
    cases hl : w.lane env t p q with
    | none =>
        have habsent : ∀ y ∈ (w, a) :: h, y.1.lane env t p q = none :=
          List.forall_mem_cons.mpr ⟨hl, noLane_of_history r hl⟩
        exact ⟨[], (w, a), h, rfl, opensLane_of_history r hstep hl hl', habsent, by simp⟩
    | some l₀ =>
        obtain ⟨h₁, x, h₂, rfl, hopens, hnone, hsome⟩ := ih t p q l₀ hl
        exact ⟨(w, a) :: h₁, x, h₂, rfl, hopens, hnone, List.forall_mem_cons.mpr ⟨by simp [hl], hsome⟩⟩

namespace Localnet

/-- Key 11 lets anybody open channels to it, and key 10 does. -/
def openInvitation : List Action :=
  [.call (.updateInboundChannelPolicy (key 11) indexBucket bucket InboundChannelPolicy.permissionless.toU8),
    .call (.createChannel (key 10) indexBucket bucket bucket none 1 0 1 0 none)]

end Localnet

open Localnet in
/-- Key 11 did not sign for the lane. -/
theorem channels_of_invitation : ∃ h w l, History localnet h w ∧ w.lane localnet 1 0 1 = some l ∧
    LanesOpened localnet h w := by
  obtain ⟨w, ⟨h, r⟩, hc⟩ := reached_of_runsTo localnet (opening ++ openInvitation)
    (fun w => (w.lane localnet 1 0 1).isSome) (by decide +kernel)
  obtain ⟨l, hl⟩ := Option.isSome_iff_exists.mp hc
  exact ⟨h, w, l, r, hl, channels_of_history r⟩

end Ryvo
