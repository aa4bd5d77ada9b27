import Ryvo.Runs.Rotation

/-!
# Runs — Signers

Whether a key can sign for a lane at all.  A rotation refuses the zero key, for which nobody signs.  `create_channel` writes the key it is given, or the payer's owner when it is given none.

* `Step.signed_iff`: from lanes that all have a signer, a step leads to such lanes exactly when it does not create one for the zero key.
* `signed_iff_of_history`: so a run keeps to them exactly when none of its steps does.
-/

namespace Ryvo

variable {env : Env} {w w' : World} {a : Action} {t : U16} {p q : U32}
variable {l : DirectionalLaneState} {h : List (World × Action)}

/-- Each lane has a signer other than the zero key. -/
def World.Signed (env : Env) (w : World) : Prop :=
  ∀ t p q l, w.lane env t p q = some l → l.authorizedSigner ≠ Pubkey.default

/-- A `create_channel` for the zero key. -/
def Action.NamesZeroKey (a : Action) : Prop :=
  ∃ owner k k₁ k₂ payeeOwner t lower higher id, a = .call (.createChannel owner k k₁ k₂ payeeOwner
    t lower higher id (some Pubkey.default))

/-! ### Steps -/

/-- A lane created without the zero key is signed for by a key its payer chose, or by the payer, who signed the step. -/
theorem Reached.newLane_signed (hw : Reached env w) (h : Step env w a w') (ha : ¬ a.NamesZeroKey)
    (hn : w.lane env t p q = none) (hl : w'.lane env t p q = some l) :
    l.authorizedSigner ≠ Pubkey.default := by
  obtain ⟨signer, hm, rfl⟩ := hw.newLane h hn hl
  cases hm with
  | @openLane owner k k₁ k₂ payeeOwner signer t lower higher id p q s hreg hp hs =>
      obtain ⟨s', hs', rfl⟩ := hw.ownedBy_iff.mp hp
      obtain rfl := Option.some.inj (hs.symm.trans hs')
      cases signer with
      | none => exact Env.canSign_ne_default (h.signed _ (.head _))
      | some key =>
          intro hkey
          obtain rfl : key = Pubkey.default := hkey
          exact ha ⟨_, _, _, _, _, _, _, _, _, rfl⟩
  | depositFor hms _ => exact (DepositFor.onBalance hms _ (.head _)).elim

/-- A rotation puts a key in place that its request compared with the zero key. -/
theorem Reached.lane_signed (hw : Reached env w) (h : Step env w a w') (hs : w.Signed env)
    {l' : DirectionalLaneState} (hl : w.lane env t p q = some l)
    (hl' : w'.lane env t p q = some l') : l'.authorizedSigner ≠ Pubkey.default := by
  obtain ⟨l₁, hl₁, hc⟩ := hw.signerChange h hl
  obtain rfl := Option.some.inj (hl₁.symm.trans hl')
  cases hc with
  | same _ hsame =>
      rw [hsame.signer]
      exact hs t p q l hl
  | requested _ _ _ => exact hs t p q l hl
  | executed _ _ _ _ _ hat => exact (hw.signerRecord hl).timed.mpr hat

/-- A lane created for the zero key has it. -/
theorem Reached.not_signed (hw : Reached env w) (h : Step env w a w') (ha : a.NamesZeroKey) :
    ¬ w'.Signed env := by
  obtain ⟨owner, k, k₁, k₂, payeeOwner, t, lower, higher, id, rfl⟩ := ha
  obtain ⟨p, q, s, -, -, -, hd⟩ := CreateChannel.handler_spec
    (R := Action.rights env w (.outside (.tick 0))) hw.located h.ran
  obtain ⟨-, -, -, -, he⟩ := Ledger.takesAll_singleton.mp hd.takes
  intro hs
  refine hs t p q (.fresh Pubkey.default) ?_ rfl
  have hlane := congrFun (congrFun (congrFun (congrArg Ledger.lane he) t) p) q
  rw [World.ledger_lane] at hlane
  exact hlane.trans Ledger.lane_setLane_self

theorem Step.signed_iff (hw : Reached env w) (h : Step env w a w') (hs : w.Signed env) :
    w'.Signed env ↔ ¬ a.NamesZeroKey := by
  constructor
  · intro hs' ha
    exact hw.not_signed h ha hs'
  · intro ha t p q l' hl'
    cases hl : w.lane env t p q with
    | none => exact hw.newLane_signed h ha hl hl'
    | some l => exact hw.lane_signed h hs hl hl'

/-! ### Runs -/

/-- The worlds a run went through, and the one it leads to. -/
def worlds (h : List (World × Action)) (w : World) : List World := w :: h.map (·.1)

/-- **A signer for every lane**: in every world of a run each lane has one, exactly when no step of the run created a lane for the zero key. -/
theorem signed_iff_of_history (r : History env h w) :
    (∀ v ∈ worlds h w, v.Signed env) ↔ ∀ x ∈ h, ¬ x.2.NamesZeroKey := by
  refine Run.history (P := fun h w =>
    (∀ v ∈ worlds h w, v.Signed env) ↔ ∀ x ∈ h, ¬ x.2.NamesZeroKey) ?_ ?_ r
  · rintro w ⟨clock, -, rfl⟩
    refine ⟨fun _ x hx => absurd hx (List.not_mem_nil), fun _ v hv t p q l hl => ?_⟩
    obtain rfl := List.mem_singleton.mp hv
    rw [lane_genesis] at hl
    cases hl
  · intro h w a w' r ih hstep
    have hcons : (∀ v ∈ worlds ((w, a) :: h) w', v.Signed env) ↔
        w'.Signed env ∧ ∀ v ∈ worlds h w, v.Signed env := List.forall_mem_cons
    rw [hcons, List.forall_mem_cons, ← ih]
    -- the step is from a signed world as soon as the worlds up to it are
    refine and_congr_left fun hv => ?_
    exact hstep.signed_iff r.reachable (hv w (.head _))

open Localnet in
/-- A lane signed for by key 33. -/
theorem signed_of_funding : ∃ h w, (w.lane localnet 1 0 1).map (·.authorizedSigner)
      = some (Localnet.key 33) ∧
    ((∀ v ∈ worlds h w, v.Signed localnet) ↔ ∀ x ∈ h, ¬ x.2.NamesZeroKey) := by
  obtain ⟨w, ⟨h, r⟩, hc⟩ := reached_of_runsTo localnet (opening ++ funding)
    (fun w => (w.lane localnet 1 0 1).map (·.authorizedSigner) = some (Localnet.key 33))
    (by decide +kernel)
  exact ⟨h, w, of_decide_eq_true hc, signed_iff_of_history r⟩

open Localnet in
/-- The payer may create a lane for the zero key. -/
theorem zeroKey_signs : ∃ w l, Reached localnet w ∧ w.lane localnet 1 0 1 = some l ∧
    l.authorizedSigner = Pubkey.default := by
  obtain ⟨w, hw, hc⟩ := reached_of_runsTo localnet
    (opening ++ [.call (.createChannel (Localnet.key 10) indexBucket bucket bucket
      (some (Localnet.key 11)) 1 0 1 0 (some Pubkey.default))])
    (fun w => (w.lane localnet 1 0 1).any fun l : DirectionalLaneState =>
      decide (l.authorizedSigner = Pubkey.default)) (by decide +kernel)
  obtain ⟨l, hl, he⟩ := (Option.any_eq_true _ _).mp hc
  exact ⟨w, l, hw, hl, of_decide_eq_true he⟩

end Ryvo
