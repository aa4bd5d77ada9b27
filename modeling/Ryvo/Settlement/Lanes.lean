import Ryvo.Settlement.Deltas

/-!
# Settlement — Lanes

The lanes of a settlement are settled one after another, before any balance moves.  `LanesDone` is what holds in between: the lanes settled so far have reached their targets, and everything else is as it was.  With the deltas that follow (`Shifted`) it gives a settlement of the ledger (`LanesDone.settles`).

`Ledger.CanPay` and `Ledger.CanReceive` are the two conditions a single entry depends on.
-/

namespace Ryvo

variable {env : Env} {w w₀ w' : World} {k : Pubkey} {t : U16} {p q : U32}
variable {s s' : ParticipantBucketSlot} {l l' : DirectionalLaneState}
variable {e : LaneEntry} {es done : List LaneEntry}

namespace Ledger

variable {L L' : Ledger}

/-- The payer of an entry can pay it: its lane is below the target, and collateral and balance cover the difference. -/
structure Covers (L : Ledger) (t : U16) (e : LaneEntry) (l : DirectionalLaneState)
    (s : ParticipantBucketSlot) (row : BucketTokenBalance) : Prop where
  lane : L.lane t e.payer e.payee = some l
  slot : L.slot e.payer = some s
  entry : s.tokenEntry t = some row
  raised : l.settledCumulative < e.target
  bounded : l.lockedBalance + row.total < u64Bound
  covered : e.target - l.settledCumulative ≤ l.lockedBalance + row.total

def CanPay (L : Ledger) (t : U16) (e : LaneEntry) : Prop := ∃ l s row, L.Covers t e l s row

/-- The participant can be credited an amount. -/
def CanReceive (L : Ledger) (t : U16) (p : U32) (n : Nat) : Prop :=
  ∃ s s', L.slot p = some s ∧ s.withTokenDelta t n = .ok s'

theorem delta_of_lane (h : L.lane t e.payer e.payee = some l) :
    L.delta t e = e.target - l.settledCumulative := by
  simp [delta, settledCumulative, h]

theorem used_of_lane (h : L.lane t e.payer e.payee = some l) :
    L.used t e = min l.lockedBalance (e.target - l.settledCumulative) := by
  simp [used, delta_of_lane h, locked_of_lane h]

/-- The nets of a single entry: a debit and a credit. -/
theorem net_single (h : L.lane t e.payer e.payee = some l) (r : U32) : L.net t [e] r =
    (if e.payer = r then -((e.target - l.settledCumulative
        - min l.lockedBalance (e.target - l.settledCumulative) : Nat) : Int) else 0)
      + if e.payee = r then ((e.target - l.settledCumulative : Nat) : Int) else 0 := by
  simp only [net, paidTo, uncoveredBy, keyed_cons, keyed_nil, add_zero, used_of_lane h,
    delta_of_lane h]
  by_cases h₁ : e.payer = r <;> by_cases h₂ : e.payee = r <;>
    simp only [h₁, h₂, if_true, if_false] <;> push_cast <;> ring

/-- What a payer can pay beyond collateral it can be debited. -/
theorem Covers.debit {row : BucketTokenBalance} (h : L.Covers t e l s row) :
    ∃ s', s.withTokenDelta t (-((L.delta t e - L.used t e : Nat) : Int)) = .ok s' := by
  have hb := h.bounded
  have hc := h.covered
  rcases Nat.eq_zero_or_pos (L.delta t e - L.used t e) with h0 | hpos
  · rw [h0]
    exact ⟨s, rfl⟩
  · refine ⟨_, (ParticipantBucketSlot.withTokenDelta_debit hpos).mpr ⟨row, h.entry, by omega, ?_, rfl⟩⟩
    rw [delta_of_lane h.lane, used_of_lane h.lane] at *
    omega

/-- A credit that can be taken can be taken in part. -/
theorem CanReceive.le {n m : Nat} (h : L.CanReceive t p n) (hm : m ≤ n) : L.CanReceive t p m := by
  obtain ⟨s, s', hs, hd⟩ := h
  obtain ⟨r, rfl⟩ := Nat.exists_eq_add_of_le hm
  obtain ⟨s₁, h₁, -⟩ := ParticipantBucketSlot.withTokenDelta_add.mp hd
  exact ⟨s, s₁, hs, h₁⟩

theorem CanReceive.lt {n : Nat} (h : L.CanReceive t p n) (hn : 0 < n) : n < u64Bound := by
  obtain ⟨s, s', -, hd⟩ := h
  obtain ⟨-, hlt, -⟩ := (ParticipantBucketSlot.withTokenDelta_credit hn).mp hd
  omega

end Ledger

/-! ### Reading a lane through its account -/

/-- The account of a lane that exists passes the check for it. -/
theorem laneAccount (hl : Located env w) (h : w.lane env t p q = some l) :
    ∃ lower higher sel id, ChannelBucket.canonicalize p q = .ok (lower, higher, sel) ∧
      ChannelBucket.bucketIdForPair lower higher = .ok id ∧
      laneKey env t p q = some (env.address (.channelBucket t id)) ∧
      ChannelBucket.verifyAccountInfo env w (env.address (.channelBucket t id)) t id = .ok () ∧
      ∃ b off, w.channelBuckets (env.address (.channelBucket t id)) = some b ∧
        b.laneOffset p q = .ok off := by
  obtain ⟨k, b, hk, hb, hlane⟩ := lane_eq_some.mp h
  obtain ⟨id, hid, rfl⟩ := laneKey_eq_some.mp hk
  obtain ⟨lower, higher, sel, hc, hb'⟩ := laneBucketId_eq_ok.mp hid
  obtain ⟨off, ho, -, -⟩ := ChannelBucket.lane?_eq_some.mp hlane
  exact ⟨lower, higher, sel, id, hc, hb', hk, (verifyChannelBucket hl).mpr ⟨rfl, by simp [hb]⟩,
    b, off, hb, ho⟩

/-- What a check of a lane's account says. -/
theorem laneKey_of_verified {lower higher : U32} {sel : LaneSelector} {id : U64}
    (hl : Located env w) (hc : ChannelBucket.canonicalize p q = .ok (lower, higher, sel))
    (hid : ChannelBucket.bucketIdForPair lower higher = .ok id)
    (hv : ChannelBucket.verifyAccountInfo env w k t id = .ok ()) : laneKey env t p q = some k :=
  laneKey_eq_some.mpr ⟨id, laneBucketId_eq_ok.mpr ⟨lower, higher, sel, hc, hid⟩,
    ((verifyChannelBucket hl).mp hv).1.symm⟩

/-- The address of a channel bucket. -/
def channelAddress (env : Env) (t : U16) (id : U64) : Pubkey := env.address (.channelBucket t id)

/-- Check the next account against a lane's bucket. -/
abbrev verifyChannel (env : Env) (w : World) (t : U16) (k : Pubkey) (id : U64) : Result Unit :=
  ChannelBucket.verifyAccountInfo env w k t id

theorem bindLane_spec {lower higher : U32} {sel : LaneSelector} {id : U64} {missing : VaultError}
    {b b' : Bindings U64} (hl : Located env w)
    (hb : Bindings.BoundTo (channelAddress env t) b.bound)
    (hc : ChannelBucket.canonicalize p q = .ok (lower, higher, sel))
    (hid : ChannelBucket.bucketIdForPair lower higher = .ok id)
    (h : b.bind Bindings.insertSorted missing (verifyChannel env w t) id = .ok (b', k)) :
    laneKey env t p q = some k ∧ Bindings.BoundTo (channelAddress env t) b'.bound := by
  obtain ⟨rfl, hb'⟩ := hb.bind Bindings.enters_insertSorted
    (fun k hv => ((verifyChannelBucket hl).mp hv).1) h
  exact ⟨laneKey_eq_some.mpr ⟨id, laneBucketId_eq_ok.mpr ⟨lower, higher, sel, hc, hid⟩, rfl⟩, hb'⟩

/-! ### The loop over lanes -/

/-- The lanes of `done` are settled, and nothing else is changed. -/
structure LanesDone (env : Env) (t : U16) (w₀ : World) (done : List LaneEntry) (w : World) :
    Prop where
  frame : w = { w₀ with channelBuckets := w.channelBuckets }
  located : Located env w
  nodup : (done.map LaneEntry.lane).Nodup
  lanes : ∀ e ∈ done, ∃ l, w₀.lane env t e.payer e.payee = some l ∧
    l.settledCumulative < e.target ∧
    w.lane env t e.payer e.payee = some (Ledger.settledLane l e.target)
  otherLanes : ∀ t' p q, ¬ (t' = t ∧ (p, q) ∈ done.map LaneEntry.lane) →
    w.lane env t' p q = w₀.lane env t' p q

theorem LanesDone.nil (h : Located env w) : LanesDone env t w [] w :=
  ⟨rfl, h, by simp, by simp, fun _ _ _ _ => rfl⟩

theorem LanesDone.slot (h : LanesDone env t w₀ done w) : w.slot env = w₀.slot env := by
  rw [h.frame]; rfl

theorem LanesDone.participantBuckets (h : LanesDone env t w₀ done w) :
    w.participantBuckets = w₀.participantBuckets := by
  rw [h.frame]

/-- A lane not settled yet is as it was. -/
theorem LanesDone.lane_eq (h : LanesDone env t w₀ done w)
    (hn : (p, q) ∉ done.map LaneEntry.lane) : w.lane env t p q = w₀.lane env t p q :=
  h.otherLanes t p q (by tauto)

/-- One more lane. -/
theorem LanesDone.snoc (h : LanesDone env t w₀ done w) (hn : e.lane ∉ done.map LaneEntry.lane)
    (hl : w.lane env t e.payer e.payee = some l) (hlt : l.settledCumulative < e.target) :
    LanesDone env t w₀ (done ++ [e])
      (w.writeLane env t e.payer e.payee (Ledger.settledLane l e.target)) := by
  have hsome : (w.lane env t e.payer e.payee).isSome := by simp [hl]
  have hl₀ : w₀.lane env t e.payer e.payee = some l := by rw [← h.lane_eq hn, hl]
  have hi : (Ledger.settledLane l e.target).initialized = true :=
    show l.initialized = true from lane_initialized hl
  refine ⟨?_, h.located.writeLane hi, ?_, fun e' he' => ?_, fun t' p q hm => ?_⟩
  · have hf : ∀ w₁ : World, w₁.writeLane env t e.payer e.payee (Ledger.settledLane l e.target)
        = { w₁ with channelBuckets :=
            (w₁.writeLane env t e.payer e.payee (Ledger.settledLane l e.target)).channelBuckets } :=
      fun w₁ => by
        unfold World.writeLane
        cases laneKey env t e.payer e.payee <;> rfl
    have := hf w
    rw [h.frame] at this ⊢
    exact this
  · rw [List.map_append, List.nodup_append]
    exact ⟨h.nodup, by simp, by
      rintro a ha b hb rfl
      simp only [List.map_cons, List.map_nil, List.mem_singleton] at hb
      exact hn (hb ▸ ha)⟩
  · rcases List.mem_append.mp he' with he' | he'
    · obtain ⟨l', h₀, hlt', h'⟩ := h.lanes e' he'
      refine ⟨l', h₀, hlt', ?_⟩
      rw [lane_writeLane_ne hsome, h']
      rintro ⟨-, hp, hq⟩
      exact hn (List.mem_map.mpr ⟨e', he', by simp [LaneEntry.lane, hp, hq]⟩)
    · obtain rfl := List.mem_singleton.mp he'
      exact ⟨l, hl₀, hlt, lane_writeLane_self hsome hi⟩
  · rw [lane_writeLane_ne hsome, h.otherLanes]
    · rintro ⟨rfl, hmem⟩
      exact hm ⟨rfl, by simp only [List.map_append, List.mem_append]; exact .inl hmem⟩
    · rintro ⟨rfl, rfl, rfl⟩
      exact hm ⟨rfl, by simp [LaneEntry.lane]⟩

/-- What a settlement changes of the world: buckets, and no other account. -/
def BucketsOnly (w w' : World) : Prop :=
  w' = { w with participantBuckets := w'.participantBuckets, channelBuckets := w'.channelBuckets }

/-- The lanes, then the balances: a settlement. -/
theorem LanesDone.settles {f : U32 → Int} (h : LanesDone env t w₀ es w)
    (hs : Shifted env t f w w')
    (hf : ∀ p, (w₀.slot env p).isSome → f p = (w₀.ledger env).net t es p)
    (known : ∀ e ∈ es, (w₀.slot env e.payer).isSome ∧ (w₀.slot env e.payee).isSome) :
    (w₀.ledger env).Settles t es (w'.ledger env) ∧ Located env w' ∧ BucketsOnly w₀ w' := by
  refine ⟨⟨h.nodup, fun e he => ?_, fun t' p q hm => ?_, fun p s hp => ?_, fun p hp => ?_,
    fun e he => ?_⟩, hs.located h.located, ?_⟩
  · obtain ⟨l, h₀, hlt, h'⟩ := h.lanes e he
    exact ⟨l, h₀, hlt, by rw [World.ledger_lane, hs.lane, h']⟩
  · rw [World.ledger_lane, hs.lane, h.otherLanes t' p q hm, World.ledger_lane]
  · obtain ⟨s', hs', hd⟩ := hs.slots p s (by rw [h.slot]; exact hp)
    exact ⟨s', hs', by rw [← hf p (by simp only [World.ledger_slot] at hp; simp [hp])]; exact hd⟩
  · exact hs.noSlot p (by rw [h.slot]; exact hp)
  · obtain ⟨l, h₀, -, -⟩ := h.lanes e he
    exact ⟨lane_ne h₀, known e he⟩
  · have h₁ := hs.frame
    have h₂ := h.frame
    rw [BucketsOnly, h₁]
    rw [h₂]

end Ryvo
