import Ryvo.Instructions.SettleCommitmentBundle
import Ryvo.Ledger.View

/-!
# Settlement — Deltas

Every settlement ends with its balance changes: one delta for each participant, applied bucket by bucket or participant by participant.  `World.applyDeltas` applies a list of them slot by slot.

* `applyBuckets_eq_ok`: the loop over buckets, each with the deltas of its own participants, is `applyDeltas` of the same deltas in another order.
* `Shifted.of_applyDeltas`: where no participant comes up twice, each slot takes its own delta, and nothing else changes.
* `exists_applyDeltas`: the loop succeeds when each slot can take its delta.
-/

namespace Ryvo

open SettleCommitmentBundle (applyBucket)

variable {env : Env} {w w' : World} {k : Pubkey} {t : U16} {p : U32} {id : U32}
variable {s s' : ParticipantBucketSlot} {d : U32 × Int} {ds ds' : BalanceDeltas}

namespace World

/-- One delta, at its participant's slot. -/
def applyDelta (env : Env) (t : U16) (w : World) (d : U32 × Int) : Result World :=
  if d.2 = 0 then .ok w
  else do
    let s ← okOr (w.slot env d.1) (.vault .participantNotFound)
    let s ← s.withTokenDelta t d.2
    pure (w.writeSlot env d.1 s)

def applyDeltas (env : Env) (t : U16) (ds : BalanceDeltas) (w : World) : Result World :=
  ds.foldlM (applyDelta env t) w

theorem applyDelta_eq_ok : applyDelta env t w d = .ok w' ↔ (d.2 = 0 ∧ w' = w) ∨
    (d.2 ≠ 0 ∧ ∃ s s', w.slot env d.1 = some s ∧ s.withTokenDelta t d.2 = .ok s' ∧
      w' = w.writeSlot env d.1 s') := by
  unfold applyDelta
  split <;> rename_i h
  · simp [h, eq_comm]
  · simp only [Except.bind_eq_ok, okOr_eq_ok, Except.pure_eq_ok, h, false_and, ne_eq,
      not_false_eq_true, true_and, false_or, eq_comm (b := w')]
    constructor
    · rintro ⟨s, hs, s', hd, e⟩
      exact ⟨s, s', hs, hd, e⟩
    · rintro ⟨s, s', hs, hd, e⟩
      exact ⟨s, hs, s', hd, e⟩

theorem applyDelta_zero (h : d.2 = 0) : applyDelta env t w d = .ok w := by
  simp [applyDelta, h]

theorem applyDeltas_cons : applyDeltas env t (d :: ds) w = .ok w' ↔
    ∃ w₁, applyDelta env t w d = .ok w₁ ∧ applyDeltas env t ds w₁ = .ok w' := by
  simp [applyDeltas]

theorem applyDeltas_append : applyDeltas env t (ds ++ ds') w = .ok w' ↔
    ∃ w₁, applyDeltas env t ds w = .ok w₁ ∧ applyDeltas env t ds' w₁ = .ok w' := by
  simp [applyDeltas, List.foldlM_append]

/-- No bucket appears or disappears. -/
theorem isSome_writeSlot : ((w.writeSlot env p s).participantBuckets k).isSome
    = (w.participantBuckets k).isSome := by
  simp only [writeSlot_participantBuckets]
  by_cases h : k = slotKey env p
  · subst h; simp
  · rw [Function.update_of_ne h]

theorem isSome_applyDeltas (h : applyDeltas env t ds w = .ok w') :
    (w'.participantBuckets k).isSome = (w.participantBuckets k).isSome := by
  refine foldlM_inv (P := fun w' => (w'.participantBuckets k).isSome
    = (w.participantBuckets k).isSome) rfl (fun w₁ d w₂ _ h₁ hd => ?_) h
  rcases applyDelta_eq_ok.mp hd with ⟨-, rfl⟩ | ⟨-, s, s', -, -, rfl⟩
  · exact h₁
  · rw [isSome_writeSlot, h₁]

end World

open World

/-! ### What the deltas do -/

/-- Each slot takes the delta `f` has for its participant, and nothing but slots changes. -/
structure Shifted (env : Env) (t : U16) (f : U32 → Int) (w w' : World) : Prop where
  frame : w' = { w with participantBuckets := w'.participantBuckets }
  located : Located env w → Located env w'
  slots : ∀ p s, w.slot env p = some s → ∃ s', w'.slot env p = some s' ∧
    s.withTokenDelta t (f p) = .ok s'
  noSlot : ∀ p, w.slot env p = none → w'.slot env p = none

theorem Shifted.zero (env : Env) (t : U16) (w : World) : Shifted env t (fun _ => 0) w w :=
  ⟨rfl, id, fun _ s hs => ⟨s, hs, rfl⟩, fun _ => id⟩

theorem Shifted.lane {f : U32 → Int} (h : Shifted env t f w w') : w'.lane env = w.lane env := by
  rw [h.frame]; rfl

/-- A delta for one participant. -/
theorem shifted_applyDelta (h : applyDelta env t w d = .ok w') :
    Shifted env t (fun p => if d.1 = p then d.2 else 0) w w' := by
  rcases applyDelta_eq_ok.mp h with ⟨hd, rfl⟩ | ⟨-, s, s', hs, hd, rfl⟩
  · simpa [hd] using Shifted.zero env t w'
  have hprofile := (ParticipantBucketSlot.appliedDelta hd).profile
  obtain ⟨hi, hp⟩ := initialized_of_profile hprofile hs
  have hsome : (w.slot env d.1).isSome := by simp [hs]
  refine ⟨rfl, fun hl => hl.writeSlot hp, fun p r hr => ?_, fun p hp' => ?_⟩
  · by_cases e : d.1 = p
    · subst e
      obtain rfl := Option.some.inj (hs.symm.trans hr)
      exact ⟨s', slot_writeSlot_self hsome hi hp, by simpa using hd⟩
    · exact ⟨r, by rw [slot_writeSlot_ne hsome (Ne.symm e), hr], by simp [e]⟩
  · have e : p ≠ d.1 := by
      rintro rfl
      simp [hs] at hp'
    rw [slot_writeSlot_ne hsome e, hp']

/-- Deltas for different participants. -/
theorem Shifted.of_applyDeltas (hn : (ds.map Prod.fst).Nodup)
    (h : applyDeltas env t ds w = .ok w') : Shifted env t (keyed Prod.fst Prod.snd ds) w w' := by
  induction ds generalizing w with
  | nil =>
      obtain rfl : w = w' := by simpa [applyDeltas] using h
      exact Shifted.zero env t w
  | cons d ds ih =>
      obtain ⟨w₁, hd, h⟩ := applyDeltas_cons.mp h
      simp only [List.map_cons, List.nodup_cons] at hn
      have h₁ := shifted_applyDelta hd
      have h₂ := ih hn.2 h
      have hzero : keyed Prod.fst Prod.snd ds d.1 = 0 :=
        keyed_eq_zero fun a ha e => hn.1 (List.mem_map.mpr ⟨a, ha, e⟩)
      refine ⟨?_, fun hl => h₂.located (h₁.located hl), fun p s hs => ?_,
        fun p hp => h₂.noSlot p (h₁.noSlot p hp)⟩
      · have e₂ := h₂.frame
        rw [h₁.frame] at e₂
        exact e₂
      · obtain ⟨s₁, hs₁, hd₁⟩ := h₁.slots p s hs
        obtain ⟨s₂, hs₂, hd₂⟩ := h₂.slots p s₁ hs₁
        refine ⟨s₂, hs₂, ?_⟩
        by_cases e : d.1 = p
        · subst e
          rw [hzero] at hd₂
          cases hd₂
          simpa [hzero] using hd₁
        · simp only [if_neg e] at hd₁
          cases hd₁
          simpa [e] using hd₂

/-- Deltas that each slot can take are taken. -/
theorem exists_applyDeltas (hn : (ds.map Prod.fst).Nodup)
    (h : ∀ d ∈ ds, d.2 ≠ 0 → ∃ s s', w.slot env d.1 = some s ∧ s.withTokenDelta t d.2 = .ok s') :
    ∃ w', applyDeltas env t ds w = .ok w' := by
  induction ds generalizing w with
  | nil => exact ⟨w, rfl⟩
  | cons d ds ih =>
      simp only [List.map_cons, List.nodup_cons] at hn
      obtain ⟨w₁, hw₁⟩ : ∃ w₁, applyDelta env t w d = .ok w₁ := by
        by_cases hz : d.2 = 0
        · exact ⟨w, applyDelta_zero hz⟩
        · obtain ⟨s, s', hs, hd⟩ := h d (by simp) hz
          exact ⟨_, applyDelta_eq_ok.mpr (.inr ⟨hz, s, s', hs, hd, rfl⟩)⟩
      have hrest : ∀ d' ∈ ds, d'.2 ≠ 0 → ∃ s s', w₁.slot env d'.1 = some s ∧
          s.withTokenDelta t d'.2 = .ok s' := fun d' hd' hz => by
        obtain ⟨s, s', hs, hd⟩ := h d' (List.mem_cons_of_mem _ hd') hz
        obtain ⟨s₁, hs₁, hd₁⟩ := (shifted_applyDelta hw₁).slots d'.1 s hs
        have e : d.1 ≠ d'.1 := fun e => hn.1 (List.mem_map.mpr ⟨d', hd', e.symm⟩)
        simp only [if_neg e] at hd₁
        cases hd₁
        exact ⟨s, s', hs₁, hd⟩
      obtain ⟨w', hw'⟩ := ih hn.2 hrest
      exact ⟨w', applyDeltas_cons.mpr ⟨w₁, hw₁, hw'⟩⟩

/-! ### Bucket by bucket -/

/-- The deltas of a bucket's participants. -/
def inBucket (ds : BalanceDeltas) (id : U32) : BalanceDeltas :=
  ds.filter fun d => ParticipantBucket.bucketIdForParticipantId d.1 = id

/-- The buckets sit at their addresses, and are there. -/
def AreBuckets (env : Env) (w : World) (buckets : List (U32 × Pubkey)) : Prop :=
  ∀ b ∈ buckets, b.2 = env.address (.participantBucket b.1) ∧ (w.participantBuckets b.2).isSome

theorem applyIn_eq_ok {b b' : ParticipantBucket}
    (h : ParticipantBucket.bucketIdForParticipantId d.1 = id) :
    SettleIndividual.applyIn id b d.1 t d.2 = .ok b' ↔ (d.2 = 0 ∧ b' = b) ∨ (d.2 ≠ 0 ∧
      ∃ s s', b.slot? d.1 = some s ∧ s.withTokenDelta t d.2 = .ok s' ∧ b' = b.setSlot d.1 s') := by
  simp only [SettleIndividual.applyIn, h, if_true, Except.bind_eq_ok, Prod.exists,
    Except.pure_eq_ok]
  by_cases hz : d.2 = 0
  · simp [ParticipantBucket.applyTokenDeltaInData, hz, eq_comm]
  · simp [ParticipantBucket.applyTokenDeltaInData_eq_ok hz, hz]

theorem applyIn_other {b : ParticipantBucket}
    (h : ParticipantBucket.bucketIdForParticipantId d.1 ≠ id) :
    SettleIndividual.applyIn id b d.1 t d.2 = .ok b := by
  simp [SettleIndividual.applyIn, h.symm]

/-- The deltas applied in a bucket's data are the bucket's deltas applied slot by slot. -/
theorem foldlM_applyIn {b : ParticipantBucket} (hb : w.participantBuckets k = some b)
    (hk : k = env.address (.participantBucket id)) :
    (∃ b', ds.foldlM (fun data d => SettleIndividual.applyIn id data d.1 t d.2) b = .ok b' ∧
      w' = w.setParticipantBucket k b') ↔ applyDeltas env t (inBucket ds id) w = .ok w' := by
  induction ds generalizing w b with
  | nil =>
      have hself : w.setParticipantBucket k b = w := by
        cases w
        simp only at hb
        simp [World.setParticipantBucket, ← hb]
      simp only [inBucket, List.filter_nil, applyDeltas, foldlM_nil_eq_ok, exists_eq_left', hself,
        eq_comm (b := w)]
  | cons d ds ih =>
      simp only [foldlM_cons_eq_ok]
      by_cases hid : ParticipantBucket.bucketIdForParticipantId d.1 = id
      · have hkey : slotKey env d.1 = k := by rw [slotKey, hid, hk]
        have hslot : w.slot env d.1 = b.slot? d.1 := by simp [World.slot, hkey, hb]
        have hcons : inBucket (d :: ds) id = d :: inBucket ds id := by simp [inBucket, hid]
        have hw : ∀ s b', (w.writeSlot env d.1 s).setParticipantBucket k b'
            = w.setParticipantBucket k b' := fun s b' => by
          simp [World.writeSlot, World.setParticipantBucket, hkey]
        have hih : ∀ s, (∃ b', ds.foldlM (fun data d =>
            SettleIndividual.applyIn id data d.1 t d.2) (b.setSlot d.1 s) = .ok b' ∧
              w' = w.setParticipantBucket k b') ↔
            applyDeltas env t (inBucket ds id) (w.writeSlot env d.1 s) = .ok w' := fun s => by
          rw [← ih (w := w.writeSlot env d.1 s) (b := b.setSlot d.1 s) (by simp [hkey, hb])]
          simp only [hw]
        simp only [hcons, applyDeltas_cons, applyDelta_eq_ok, applyIn_eq_ok hid, hslot]
        constructor
        · rintro ⟨b', ⟨b₁, ⟨hz, rfl⟩ | ⟨hz, s, s', hs, hd, rfl⟩, hf⟩, rfl⟩
          · exact ⟨w, .inl ⟨hz, rfl⟩, (ih hb).mp ⟨b', hf, rfl⟩⟩
          · exact ⟨_, .inr ⟨hz, s, s', hs, hd, rfl⟩, (hih s').mp ⟨b', hf, rfl⟩⟩
        · rintro ⟨w₁, ⟨hz, rfl⟩ | ⟨hz, s, s', hs, hd, rfl⟩, h⟩
          · obtain ⟨b', hf, rfl⟩ := (ih hb).mpr h
            exact ⟨b', ⟨b, .inl ⟨hz, rfl⟩, hf⟩, rfl⟩
          · obtain ⟨b', hf, rfl⟩ := (hih s').mpr h
            exact ⟨b', ⟨_, .inr ⟨hz, s, s', hs, hd, rfl⟩, hf⟩, rfl⟩
      · have hcons : inBucket (d :: ds) id = inBucket ds id := by simp [inBucket, hid]
        simp only [hcons, ← ih hb, applyIn_other hid, Except.ok.injEq, exists_eq_left']

theorem applyBucket_eq_ok {bucket : U32 × Pubkey}
    (hk : bucket.2 = env.address (.participantBucket bucket.1))
    (hs : (w.participantBuckets bucket.2).isSome) :
    applyBucket t ds w bucket = .ok w' ↔ applyDeltas env t (inBucket ds bucket.1) w = .ok w' := by
  obtain ⟨b, hb⟩ := Option.isSome_iff_exists.mp hs
  rw [← foldlM_applyIn hb hk]
  have hedit : ∀ f : ParticipantBucket → Result (ParticipantBucket × Unit),
      w.editParticipantBucket bucket.2 f
        = (fun r => (w.setParticipantBucket bucket.2 r.1, r.2)) <$> f b := fun f => by
    simp only [World.editParticipantBucket, World.getParticipantBucket, hb, okOr, Except.ok_bind]
    cases f b <;> rfl
  simp only [applyBucket, hedit, Except.bind_eq_ok, Except.map_eq_ok, Except.pure_eq_ok,
    Prod.exists, Prod.mk.injEq, eq_comm (a := w')]
  constructor
  · rintro ⟨_, _, ⟨_, _, ⟨b', hf, rfl, -⟩, rfl, -⟩, rfl⟩
    exact ⟨b', hf, rfl⟩
  · rintro ⟨b', hf, rfl⟩
    exact ⟨_, (), ⟨b', (), ⟨b', hf, rfl, trivial⟩, rfl, trivial⟩, rfl⟩

/-- The loop over buckets applies the deltas bucket by bucket. -/
theorem applyBuckets_eq_ok {buckets : List (U32 × Pubkey)} (hb : AreBuckets env w buckets) :
    buckets.foldlM (applyBucket t ds) w = .ok w' ↔
      applyDeltas env t (buckets.flatMap fun b => inBucket ds b.1) w = .ok w' := by
  induction buckets generalizing w with
  | nil => simp [applyDeltas]
  | cons b buckets ih =>
      have h₀ := hb b (by simp)
      simp only [List.foldlM_cons, Except.bind_eq_ok, List.flatMap_cons, applyDeltas_append,
        applyBucket_eq_ok h₀.1 h₀.2]
      refine exists_congr fun w₁ => and_congr_right fun h => ih fun b' hb' => ?_
      rw [isSome_applyDeltas h]
      exact hb b' (List.mem_cons_of_mem _ hb')

theorem inBucket_perm {buckets : List (U32 × Pubkey)} (hn : (buckets.map Prod.fst).Nodup)
    (hc : ∀ d ∈ ds, ParticipantBucket.bucketIdForParticipantId d.1 ∈ buckets.map Prod.fst) :
    (buckets.flatMap fun b => inBucket ds b.1).Perm ds := by
  have := flatMap_filter_perm hn hc
  rwa [List.flatMap_map] at this

/-- The loop over buckets, where no participant comes up twice. -/
theorem Shifted.of_applyBuckets {buckets : List (U32 × Pubkey)} (hb : AreBuckets env w buckets)
    (hn : (buckets.map Prod.fst).Nodup)
    (hc : ∀ d ∈ ds, ParticipantBucket.bucketIdForParticipantId d.1 ∈ buckets.map Prod.fst)
    (hd : (ds.map Prod.fst).Nodup) (h : buckets.foldlM (applyBucket t ds) w = .ok w') :
    Shifted env t (keyed Prod.fst Prod.snd ds) w w' := by
  have hp := inBucket_perm hn hc
  have hs := Shifted.of_applyDeltas ((hp.map Prod.fst).nodup_iff.mpr hd)
    ((applyBuckets_eq_ok hb).mp h)
  rwa [show keyed Prod.fst Prod.snd _ = keyed Prod.fst Prod.snd ds from funext (keyed_perm hp)] at hs

theorem exists_applyBuckets {buckets : List (U32 × Pubkey)} (hb : AreBuckets env w buckets)
    (hn : (buckets.map Prod.fst).Nodup)
    (hc : ∀ d ∈ ds, ParticipantBucket.bucketIdForParticipantId d.1 ∈ buckets.map Prod.fst)
    (hd : (ds.map Prod.fst).Nodup)
    (h : ∀ d ∈ ds, d.2 ≠ 0 → ∃ s s', w.slot env d.1 = some s ∧ s.withTokenDelta t d.2 = .ok s') :
    ∃ w', buckets.foldlM (applyBucket t ds) w = .ok w' := by
  have hp := inBucket_perm hn hc
  obtain ⟨w', hw'⟩ := exists_applyDeltas ((hp.map Prod.fst).nodup_iff.mpr hd)
    fun d hd' => h d (hp.mem_iff.mp hd')
  exact ⟨w', (applyBuckets_eq_ok hb).mpr hw'⟩

end Ryvo
