import Ryvo.Books.Ops
import Ryvo.Instructions.Channels
import Ryvo.Ledger.Changes

/-!
# Actions — Effects

What an action does to a world: operations within its rights, which between them make a list of moves of the ledger.  `Does` composes, and the lemmas here are its parts: operations on accounts that hold no bucket, and the edits of one slot or one lane that handlers are made of.

`authenticated_eq_ok` and `verifyLaneBucket_eq_ok` say what the account checks of a handler establish.
-/

namespace Ryvo

variable {env : Env} {R : Rights env} {w w' w₁ : World} {k k' owner : Pubkey} {t : U16} {p q : U32}
variable {m : Move} {ms ms' : List Move} {s s' : ParticipantBucketSlot} {l l' : DirectionalLaneState}
variable {n : Nat}

theorem Ledger.TakesAll.append {L L₁ L' : Ledger} (h : L.TakesAll ms L₁) (h' : L₁.TakesAll ms' L') :
    L.TakesAll (ms ++ ms') L' := by
  induction ms generalizing L with
  | nil =>
      obtain rfl := h
      exact h'
  | cons m ms ih =>
      obtain ⟨L₂, hm, h⟩ := h
      exact ⟨L₂, hm, ih h⟩

/-- What an action leaves behind: buckets at their addresses, after operations within `R` and the moves `ms`. -/
structure Does (R : Rights env) (ms : List Move) (w w' : World) : Prop where
  located : Located env w'
  ops : Ops R w w'
  takes : (w.ledger env).TakesAll ms (w'.ledger env)

theorem Does.nil (h : Located env w) : Does R [] w w := ⟨h, .refl, rfl⟩

theorem Does.trans (h : Does R ms w w₁) (h' : Does R ms' w₁ w') : Does R (ms ++ ms') w w' :=
  ⟨h'.located, Relation.ReflTransGen.trans h.ops h'.ops, h.takes.append h'.takes⟩

/-- No bucket is written. -/
def SameBuckets (w w' : World) : Prop :=
  w'.participantBuckets = w.participantBuckets ∧ w'.channelBuckets = w.channelBuckets

theorem SameBuckets.slot (h : SameBuckets w w') : w'.slot env = w.slot env := by
  funext p
  rw [World.slot, h.1, World.slot]

theorem SameBuckets.ledger (h : SameBuckets w w') : w'.ledger env = w.ledger env := by
  refine Ledger.ext' (fun p => congrFun h.slot p) fun t p q => ?_
  simp only [World.ledger_lane, World.lane, h.2]

theorem SameBuckets.located (h : SameBuckets w w') (hl : Located env w) : Located env w' :=
  ⟨fun k b hb => hl.participants k b (h.1 ▸ hb), fun k b hb => hl.channels k b (h.2 ▸ hb),
    fun k b i hb => hl.places k b i (h.1 ▸ hb), fun k b off hb => hl.blank k b off (h.2 ▸ hb)⟩

theorem Does.op (h : Op R w w') (hb : SameBuckets w w') (hl : Located env w) : Does R [] w w' :=
  ⟨hb.located hl, .single h, hb.ledger⟩

/-- Buckets alone are written, which makes one move. -/
theorem Does.move (h : BucketsOnly w w') (hl : Located env w')
    (hm : (w.ledger env).Takes m (w'.ledger env)) : Does R [m] w w' :=
  ⟨hl, .single (.books h), Ledger.takesAll_singleton.mpr hm⟩

theorem BucketsOnly.trans (h : BucketsOnly w w₁) (h' : BucketsOnly w₁ w') : BucketsOnly w w' := by
  rw [BucketsOnly] at *
  rw [h', h]

theorem bucketsOnly_writeSlot : BucketsOnly w (w.writeSlot env p s) := rfl

theorem bucketsOnly_writeLane : BucketsOnly w (w.writeLane env t p q l) := by
  unfold World.writeLane
  cases laneKey env t p q <;> rfl

/-! ### Edits -/

/-- A slot rewritten with its profile kept is an edit of the ledger. -/
theorem editSlot_writeSlot {f : ParticipantBucketSlot → ParticipantBucketSlot → Prop}
    (hs : w.slot env p = some s) (hp : ParticipantBucketSlot.SameProfile s s') (hf : f s s') :
    (w.ledger env).EditSlot p f ((w.writeSlot env p s').ledger env) :=
  ⟨s, s', hs, hf, ledger_writeSlot_profile hs hp⟩

/-- A lane rewritten is an edit of the ledger. -/
theorem editLane_writeLane {g : DirectionalLaneState → DirectionalLaneState → Prop}
    (hl : w.lane env t p q = some l) (hi : l'.initialized = true) (hg : g l l') :
    (w.ledger env).EditLane t p q g ((w.writeLane env t p q l').ledger env) :=
  ⟨l, l', hl, hg, ledger_writeLane (by simp [hl]) hi⟩

/-- An edit of a slot that keeps its profile is one move. -/
theorem Does.slot {f : ParticipantBucketSlot → ParticipantBucketSlot → Prop} (hl : Located env w)
    (hm : ∀ L L' : Ledger, L.EditSlot p f L' → L.Takes m L') (hs : w.slot env p = some s)
    (hp : ParticipantBucketSlot.SameProfile s s') (hf : f s s') :
    Does R [m] w (w.writeSlot env p s') :=
  .move bucketsOnly_writeSlot (hl.writeSlot (initialized_of_profile hp hs).2)
    (hm _ _ (editSlot_writeSlot hs hp hf))

/-- An edit of a lane is one move. -/
theorem Does.lane {g : DirectionalLaneState → DirectionalLaneState → Prop} (hl : Located env w)
    (hm : ∀ L L' : Ledger, L.EditLane t p q g L' → L.Takes m L') (h : w.lane env t p q = some l)
    (hi : l'.initialized = l.initialized) (hg : g l l') : Does R [m] w (w.writeLane env t p q l') :=
  .move bucketsOnly_writeLane (hl.writeLane (hi.trans (lane_initialized h)))
    (hm _ _ (editLane_writeLane h (hi.trans (lane_initialized h)) hg))

/-- A positive amount credited in the bucket's account. -/
theorem Does.credit {u : Unit} (hl : Located env w) (hn : 0 < n)
    (h : w.editParticipantBucket (slotKey env p) (·.applyTokenDeltaInData p t n) = .ok (w', u)) :
    Does R [.credit t p n] w w' := by
  obtain ⟨s, s', hs, hd, rfl⟩ := (editDelta_eq_ok (by omega)).mp h
  exact .slot hl (fun _ _ => id) hs (ParticipantBucketSlot.appliedDelta hd).profile hd

theorem Does.debit {m : Nat} (hl : Located env w)
    (h : w.editParticipantBucket (slotKey env p) (·.debitTokenAvailableInData p t n) = .ok (w', m)) :
    Does R [.debit t p n] w w' := by
  obtain ⟨s, s', hs, hd, rfl⟩ := editSlot_eq_ok.mp h
  exact .slot hl (fun _ _ => id) hs (ParticipantBucketSlot.rewrites_debit hd).2.profile ⟨m, hd⟩

theorem Does.request {destination : Pubkey} {unlockAt : Int} {u : Unit} (hl : Located env w)
    (h : w.editParticipantBucket (slotKey env p)
      (·.initiateTokenWithdrawalInData p t n destination unlockAt) = .ok (w', u)) :
    Does R [.request t p n destination unlockAt] w w' := by
  obtain ⟨s, s', hs, hd, rfl⟩ := editSlot_eq_ok.mp h
  exact .slot hl (fun _ _ => id) hs (ParticipantBucketSlot.rewrites_initiate hd).2.2.profile hd

theorem Does.clear {u : Unit} (hl : Located env w)
    (h : w.editParticipantBucket (slotKey env p) (·.clearTokenWithdrawalInData p t) = .ok (w', u)) :
    Does R [.clear t p] w w' := by
  obtain ⟨s, s', hs, hd, rfl⟩ := editSlot_eq_ok.mp h
  exact .slot hl (fun _ _ => id) hs (ParticipantBucketSlot.rewrites_clear hd).profile hd

/-! ### Account checks -/

/-- The signer's participant bucket is the one its slot is in. -/
theorem authenticated_eq_ok (hl : Located env w) :
    w.authenticated env k k' owner = .ok p ↔ w.participantIdForOwner env k owner = .ok p ∧
      k' = slotKey env p ∧ (w.participantBuckets k').isSome := by
  simp only [World.authenticated, Except.bind_eq_ok, Except.pure_eq_ok]
  constructor
  · rintro ⟨_, hp, _, hv, rfl⟩
    exact ⟨hp, (verifyParticipantBucket hl).mp hv⟩
  · rintro ⟨hp, hv⟩
    exact ⟨p, hp, (), (verifyParticipantBucket hl).mpr hv, rfl⟩

/-- A passed channel bucket that is verified is the one the lane is in. -/
theorem verifyLaneBucket_eq_ok (hl : Located env w) (h : w.verifyLaneBucket env k t p q = .ok ()) :
    laneKey env t p q = some k := by
  simp only [World.verifyLaneBucket, Except.bind_eq_ok, Prod.exists] at h
  obtain ⟨lower, higher, sel, hc, id, hid, hv⟩ := h
  exact laneKey_eq_some.mpr ⟨id, laneBucketId_eq_ok.mpr ⟨lower, higher, sel, hc, hid⟩,
    ((verifyChannelBucket hl).mp hv).1.symm⟩

/-- Reading a created lane in its bucket's account. -/
theorem readLaneCore_eq_ok (hk : laneKey env t p q = some k) : (∃ b, w.channelBuckets k = some b ∧
    b.readResolvedLaneCoreFromData p q = .ok l) ∧ l.initialized = true ↔
      w.lane env t p q = some l := by
  simp only [ChannelBucket.readResolvedLaneCoreFromData, Except.bind_eq_ok, Except.pure_eq_ok,
    lane_eq_some, ChannelBucket.lane?_eq_some]
  constructor
  · rintro ⟨⟨b, hb, off, ho, rfl⟩, hi⟩
    exact ⟨k, b, hk, hb, off, ho, rfl, hi⟩
  · rintro ⟨k', b, hk', hb, off, ho, rfl, hi⟩
    obtain rfl : k' = k := Option.some.inj (hk'.symm.trans hk)
    exact ⟨⟨b, hb, off, ho, rfl⟩, hi⟩

end Ryvo
