import Ryvo.Runs.Debits
import Ryvo.Runs.Profiles
import Ryvo.Runs.Rounds

/-!
# Runs — Keys

The keys that rounds are signed with.  A key is registered once, by the participant's owner, with a proof of possession for this deployment, this participant and this owner.

* `keyRecord_of_history`: the key of a slot, in its history.
* `keys_of_history`: so a round is verified under keys that their owners registered, for its own message.
-/

namespace Ryvo

variable {env : Env} {w w' : World} {a : Action} {p : U32} {h : List (World × Action)}
variable {s s' : ParticipantBucketSlot}

/-! ### Records -/

/-- Either nothing was ever registered for `p`, or one key was, once and proven, and is there still. -/
inductive KeyRecord (env : Env) (h : List (World × Action)) (p : U32) (s : ParticipantBucketSlot) : Prop
  | unregistered : s.blsSchemeVersion = ParticipantBucketSlot.blsSchemeVersionUnregistered →
      (∀ x ∈ h, ∀ key, ¬ RegistersKey env p key x) → KeyRecord env h p s
  | registered {key : Bytes 96} {h₁ h₂ : List (World × Action)} {x : World × Action} :
      s.blsSchemeVersion = ParticipantBucketSlot.blsSchemeVersionV1 → s.blsPubkeyCompressed = key.val →
      h = h₁ ++ x :: h₂ → RegistersKey env p key x → ProvesKey env p s.owner key x →
      (∀ y ∈ h₁ ++ h₂, ∀ key', ¬ RegistersKey env p key' y) → KeyRecord env h p s

theorem KeyRecord.cons {x : World × Action} (hk : KeyRecord env h p s)
    (hx : ∀ key, ¬ RegistersKey env p key x) (howner : s'.owner = s.owner)
    (hversion : s'.blsSchemeVersion = s.blsSchemeVersion)
    (hkey : s'.blsPubkeyCompressed = s.blsPubkeyCompressed) : KeyRecord env (x :: h) p s' := by
  cases hk with
  | unregistered hv hnone => exact .unregistered (hversion.trans hv) (List.forall_mem_cons.mpr ⟨hx, hnone⟩)
  | registered hv hb hh hr hp hnone =>
      subst hh
      exact .registered (hversion.trans hv) (hkey.trans hb) (List.cons_append ..).symm hr (howner ▸ hp)
        (List.forall_mem_cons.mpr ⟨hx, hnone⟩)

/-- The key of a slot, in its history. -/
theorem keyRecord_of_history (r : History env h w) (hs : w.slot env p = some s) :
    KeyRecord env h p s := by
  refine Run.history (P := fun h w => ∀ s, w.slot env p = some s → KeyRecord env h p s) ?_ ?_ r s hs
  · rintro w ⟨clock, -, rfl⟩ s hs
    cases hs
  · intro h w a w' r ih hstep s' hs'
    have hw : Reached env w := r.reachable
    cases hs : w.slot env p with
    | none =>
        obtain ⟨owner, rfl⟩ := hw.newSlot hstep hs hs'
        refine .unregistered rfl ?_
        rintro x hx key ⟨owner, _, _, _, -, ho⟩
        exact noSlot_of_join r hs x hx owner ho
    | some s =>
        obtain ⟨s₁, hs₁, hchange⟩ := hw.profileChange hstep hs
        obtain rfl := Option.some.inj (hs₁.symm.trans hs')
        have hrecord := ih s hs
        cases hchange with
        | kept hr _ hsame =>
            exact hrecord.cons hr hsame.owner hsame.blsSchemeVersion hsame.blsPubkeyCompressed
        | registered hr hp hv hs' =>
            subst hs'
            cases hrecord with
            | unregistered _ hnone => exact .registered rfl rfl (List.nil_append _).symm hr hp hnone
            | registered hv' => exact absurd (hv.symm.trans hv') (by decide)
        | policySet hset hs' =>
            subst hs'
            refine hrecord.cons ?_ rfl rfl rfl
            obtain ⟨_, _, _, ha, -⟩ := hset
            rintro key ⟨_, _, _, _, ha', -⟩
            cases ha.symm.trans ha'

/-- A registered key stays. -/
theorem Reached.keyStays (hw : Reached env w) (h : Step env w a w') (hs : w.slot env p = some s)
    (hv : s.blsSchemeVersion = ParticipantBucketSlot.blsSchemeVersionV1) :
    ∃ s', w'.slot env p = some s' ∧ s'.blsSchemeVersion = s.blsSchemeVersion ∧
      s'.blsPubkeyCompressed = s.blsPubkeyCompressed := by
  obtain ⟨s', hs', hchange⟩ := hw.profileChange h hs
  refine ⟨s', hs', ?_⟩
  cases hchange with
  | kept _ _ hsame => exact ⟨hsame.blsSchemeVersion, hsame.blsPubkeyCompressed⟩
  | registered _ _ hv' => exact absurd (hv'.symm.trans hv) (by decide)
  | policySet _ hs' => exact hs' ▸ ⟨rfl, rfl⟩

/-! ### Rounds -/

/-- The slots of those who pay in a round, in the order of their blocks. -/
def payingSlots (env : Env) (w : World) (blocks : List ParticipantBlockMeta) :
    List ParticipantBucketSlot :=
  blocks.filterMap fun b => if 0 < b.entryCount then w.slot env b.participantId else none

theorem map_payingSnapshots {t : U16} (blocks : List ParticipantBlockMeta) :
    (SettleClearingRound.payingSnapshots env w t blocks).map (·.blsPubkeyCompressed)
      = (payingSlots env w blocks).map (·.blsPubkeyCompressed) := by
  simp only [SettleClearingRound.payingSnapshots, payingSlots, List.map_filterMap]
  congr 1
  funext b
  split
  · cases w.slot env b.participantId <;> rfl
  · rfl

/-- A round of this deployment in which everybody who pays had registered a key, by its owner and proven; and the signature was verified for the round's own message, under the sum of these keys. -/
def RoundSigned (env : Env) (h : List (World × Action)) (w : World) (message : List UInt8)
    (signature : Bytes 48) : Prop :=
  ∃ c layout sum, w.globalConfig = some c ∧
    parseClearingRoundLayoutWithVersion message c Bls.clearingRoundMessageVersion = .ok layout ∧
    (∀ b ∈ layout.blocks, 0 < b.entryCount → ∃ s key, w.slot env b.participantId = some s ∧
      s.blsPubkeyCompressed = key.val ∧ ∃ x ∈ h, RegistersKey env b.participantId key x ∧
        ProvesKey env b.participantId s.owner key x) ∧
    Bls.aggregate env ((payingSlots env w layout.blocks).map (·.blsPubkeyCompressed)) = .ok (some sum) ∧
    Bls.verifySameMessageAggregateSignature env message signature.val sum = .ok ()

/-- Behind a registered key there is its registration. -/
theorem KeyRecord.exists_registration (hk : KeyRecord env h p s)
    (hv : s.blsSchemeVersion = ParticipantBucketSlot.blsSchemeVersionV1) :
    ∃ key : Bytes 96, s.blsPubkeyCompressed = key.val ∧ ∃ x ∈ h, RegistersKey env p key x ∧
      ProvesKey env p s.owner key x := by
  cases hk with
  | unregistered hv' => exact absurd (hv'.symm.trans hv) (by decide)
  | @registered key h₁ h₂ x _ hb hh hr hp _ =>
      subst hh
      exact ⟨key, hb, x, List.mem_append_right _ (.head _), hr, hp⟩

theorem roundSigned_of_history (r : History env h w) {submitter : Pubkey} {sysvar : InstructionsSysvar}
    {remaining : List Pubkey} {message : List UInt8} {signature : Bytes 48}
    (hstep : Step env w (.call (.settleClearingRound submitter sysvar remaining message signature)) w') :
    RoundSigned env h w message signature := by
  have hw : Reached env w := r.reachable
  obtain ⟨layout, es, hset, -⟩ := SettleClearingRound.handler_spec
    (R := Action.rights env w (.outside (.tick 0))) hw.located hstep.ran
  obtain ⟨c, hc, hread⟩ := hset.read
  obtain ⟨sum, hsum, hverify⟩ := hset.authenticated
  obtain ⟨hversion, hsum⟩ := SettleClearingRound.aggregateOf_bls hsum
  simp only [SettleClearingRound.blsAuthentication, Except.bind_eq_ok, okOr_eq_ok] at hverify
  obtain ⟨sum, rfl, hverify⟩ := hverify
  refine ⟨c, layout, sum, hc, hread, fun b hb hcount => ?_, map_payingSnapshots layout.blocks ▸ hsum,
    hverify⟩
  obtain ⟨s, hs, -⟩ := hset.known b.participantId (List.mem_map_of_mem hb)
  have hmem : clearingSnapshot s layout.tokenId
      ∈ SettleClearingRound.payingSnapshots env w layout.tokenId layout.blocks := by
    refine List.mem_filterMap.mpr ⟨b, hb, ?_⟩
    rw [if_pos hcount, hs]
    rfl
  obtain ⟨key, hkey, hx⟩ := (keyRecord_of_history r hs).exists_registration (hversion _ hmem)
  exact ⟨s, key, hs, hkey, hx⟩

/-! ### Runs -/

/-- What a history says of its keys. -/
structure KeyBook (env : Env) (h : List (World × Action)) (w : World) : Prop where
  record : ∀ p s, w.slot env p = some s → KeyRecord env h p s
  stays : ∀ a w' p s, Step env w a w' → w.slot env p = some s →
    s.blsSchemeVersion = ParticipantBucketSlot.blsSchemeVersionV1 → ∃ s', w'.slot env p = some s' ∧
      s'.blsSchemeVersion = s.blsSchemeVersion ∧ s'.blsPubkeyCompressed = s.blsPubkeyCompressed
  rounds : ∀ submitter sysvar remaining message signature w',
    Step env w (.call (.settleClearingRound submitter sysvar remaining message signature)) w' →
    RoundSigned env h w message signature

/-- **Keys are registered once, by their owners**: along every run, a participant's key is the one its owner registered with a proof of possession, the only one ever registered for it, and stays; and a round is accepted only under the sum of such keys, those of everybody who pays in it. -/
theorem keys_of_history (r : History env h w) : KeyBook env h w where
  record _ _ hs := keyRecord_of_history r hs
  stays _ _ _ _ hstep hs hv := Reached.keyStays r.reachable hstep hs hv
  rounds _ _ _ _ _ _ hstep := roundSigned_of_history r hstep

open Localnet in
/-- The key that participant 0 pays sixty with. -/
theorem keys_of_round : ∃ h w w' s, History lenient h w ∧ Step lenient w (clearing 60) w' ∧
    w.slot lenient 0 = some s ∧ s.blsSchemeVersion = 1 ∧ KeyBook lenient h w := by
  obtain ⟨w, w', ⟨h, r⟩, hstep, hc⟩ := step_of_runsTo lenient (opening ++ funding ++ [keyRegistration])
    (clearing 60) (fun w _ => (w.slot lenient 0).any fun s => s.blsSchemeVersion = 1) (by decide +kernel)
  obtain ⟨s, hs, hv⟩ := (Option.any_eq_true ..).mp hc
  exact ⟨h, w, w', s, r, hstep, hs, of_decide_eq_true hv, keys_of_history r⟩

end Ryvo
