import Ryvo.Ledger.Moves

/-!
# Ledger — Changes

What a move leaves of a slot and of a lane.

* `Takes.slotChange`: a slot stays, and changes in one of the ways `SlotChange` lists.  So it stays with its owner and its pending withdrawals (`Takes.slot`) and keeps its rows (`Takes.hasRow`).
* `Takes.available_credit`, `Takes.available_debit`: what can be spent after a credit and after a debit.
* `Takes.paired`: the parties of a lane have slots.
* `Takes.lane`: a lane stays, and is touched only by the moves that name it, in the way `LaneChange` lists.  `Takes.newLane`: a lane comes into being empty.
-/

namespace Ryvo.Ledger

variable {L L' L₁ : Ledger} {t t' : U16} {p q p' q' r : U32} {m : Move} {ms : List Move}
variable {s s' : ParticipantBucketSlot} {l l' : DirectionalLaneState}
variable {f : ParticipantBucketSlot → ParticipantBucketSlot → Prop}
variable {g : DirectionalLaneState → DirectionalLaneState → Prop}

/-! ### Slots -/

theorem EditSlot.slot (h : L.EditSlot p f L') (hs : L.slot r = some s) :
    ∃ s', L'.slot r = some s' ∧ (s' = s ∨ p = r ∧ f s s') := by
  obtain ⟨s₀, s', hs₀, hf, rfl⟩ := h
  by_cases hr : r = p
  · subst hr
    obtain rfl := Option.some.inj (hs₀.symm.trans hs)
    exact ⟨s', slot_setSlot_self, .inr ⟨rfl, hf⟩⟩
  · exact ⟨s, by rw [slot_setSlot_ne hr, hs], .inl rfl⟩

theorem EditSlot.lane (h : L.EditSlot p f L') : L'.lane = L.lane := by
  obtain ⟨_, _, -, -, rfl⟩ := h
  rfl

theorem EditSlot.slot_none (h : L.EditSlot p f L') (hs : L.slot r = none) : L'.slot r = none := by
  obtain ⟨s₀, s', hs₀, -, rfl⟩ := h
  have hr : r ≠ p := by
    rintro rfl
    simp [hs] at hs₀
  rw [slot_setSlot_ne hr, hs]

/-- The pending withdrawal of a row: when it may be executed, and where to. -/
def pending (s : ParticipantBucketSlot) (t : U16) : Int × Pubkey :=
  ((s.balance t).withdrawalUnlockAt, (s.balance t).withdrawalDestination)

/-- `s'` has the owner of `s`, and each pending withdrawal of `s` or none. -/
def KeepsPending (s s' : ParticipantBucketSlot) : Prop :=
  s'.owner = s.owner ∧ ∀ t, pending s' t = pending s t ∨ (pending s' t).1 = 0

theorem KeepsPending.refl (s : ParticipantBucketSlot) : KeepsPending s s := ⟨rfl, fun _ => .inl rfl⟩

theorem keepsPending_delta {n : Int} (h : s.withTokenDelta t n = .ok s') : KeepsPending s s' := by
  have hd := ParticipantBucketSlot.appliedDelta h
  refine ⟨hd.profile.owner, fun t' => .inl ?_⟩
  by_cases ht : t' = t
  · subst ht
    rw [pending, hd.unlockAt, hd.destination, pending]
  · rw [pending, hd.balance_ne ht, pending]

theorem keepsPending_rewrite {e' : BucketTokenBalance}
    (h : ParticipantBucketSlot.Rewrites s s' t e')
    (he : (e'.withdrawalUnlockAt, e'.withdrawalDestination) = pending s t ∨ e'.withdrawalUnlockAt = 0) :
    KeepsPending s s' := by
  refine ⟨h.profile.owner, fun t' => ?_⟩
  by_cases ht : t' = t
  · subst ht
    simpa only [pending, h.balance] using he
  · rw [pending, h.other t' ht]
    exact .inl rfl

theorem keepsPending_debit {n k : Nat} (h : s.debitTokenAvailable t n = .ok (s', k)) :
    KeepsPending s s' := by
  obtain ⟨-, hr⟩ := ParticipantBucketSlot.rewrites_debit h
  exact keepsPending_rewrite hr (.inl rfl)

/-- What a move makes of the slot of `r`. -/
inductive SlotChange (r : U32) (s s' : ParticipantBucketSlot) : Move → Prop
  | keep {m : Move} : s' = s → SlotChange r s s' m
  | profile {m : Move} : SameHoldings s s' → SlotChange r s s' m
  | delta {m : Move} {t : U16} {n : Int} : s.withTokenDelta t n = .ok s' → SlotChange r s s' m
  | debit {m : Move} {t : U16} {n k : Nat} : s.debitTokenAvailable t n = .ok (s', k) →
      SlotChange r s s' m
  | request {t : U16} {n : Nat} {destination : Pubkey} {unlockAt : Int} :
      s.initiateTokenWithdrawal t n destination unlockAt = .ok (s', ()) →
      SlotChange r s s' (.request t r n destination unlockAt)
  | cancel {m : Move} {t : U16} {n : Nat} : s.cancelTokenWithdrawal t = .ok (s', n) →
      SlotChange r s s' m
  | clear {m : Move} {t : U16} : s.clearTokenWithdrawal t = .ok (s', ()) → SlotChange r s s' m

theorem EditSlot.slotChange (h : L.EditSlot p f L') (hs : L.slot r = some s)
    (hf : ∀ s s', f s s' → p = r → SlotChange r s s' m) :
    ∃ s', L'.slot r = some s' ∧ SlotChange r s s' m := by
  obtain ⟨s', hs', rfl | ⟨rfl, h⟩⟩ := h.slot hs
  · exact ⟨s', hs', .keep rfl⟩
  · exact ⟨s', hs', hf s s' h rfl⟩

/-- A slot stays, and changes only in the ways listed. -/
theorem Takes.slotChange (h : L.Takes m L') (hs : L.slot r = some s) :
    ∃ s', L'.slot r = some s' ∧ SlotChange r s s' m := by
  have same : ∀ {L₂ : Ledger}, L₂.slot = L.slot → ∃ s', L₂.slot r = some s' ∧ SlotChange r s s' m :=
    fun e => ⟨s, by rw [e, hs], .keep rfl⟩
  cases m with
  | join p owner =>
      obtain ⟨hn, rfl⟩ := h
      have hr : r ≠ p := by
        rintro rfl
        simp [hn] at hs
      exact ⟨s, by rw [slot_setSlot_ne hr, hs], .keep rfl⟩
  | profile p s₁ => exact EditSlot.slotChange h hs fun _ _ hd _ => .profile hd.2
  | credit t p n => exact EditSlot.slotChange h hs fun _ _ hd _ => .delta hd
  | debit t p n => exact EditSlot.slotChange h hs fun _ _ ⟨_, hd⟩ _ => .debit hd
  | request t p n destination unlockAt =>
      exact EditSlot.slotChange h hs fun _ _ hd hp => hp ▸ .request hd
  | cancel t p => exact EditSlot.slotChange h hs fun _ _ ⟨_, hd⟩ _ => .cancel hd
  | clear t p => exact EditSlot.slotChange h hs fun _ _ hd _ => .clear hd
  | openLane t p q signer =>
      obtain ⟨-, -, -, -, rfl⟩ := h
      exact same rfl
  | lock t p q n =>
      obtain ⟨L₁, hd, l, l', -, -, rfl⟩ := h
      exact hd.slotChange hs fun _ _ ⟨_, hd⟩ _ => .debit hd
  | executeUnlock t p q =>
      obtain ⟨L₁, n, ⟨l, l', -, -, rfl⟩, hd⟩ := h
      exact hd.slotChange hs fun _ _ hd _ => .delta hd
  | cooperativeUnlock t p q n =>
      obtain ⟨L₁, ⟨l, l', -, -, rfl⟩, hd⟩ := h
      exact hd.slotChange hs fun _ _ hd _ => .delta hd
  | settle t es =>
      obtain ⟨s', hs', hd⟩ := h.slots r s hs
      exact ⟨s', hs', .delta hd⟩
  | _ =>
      obtain ⟨l, l', -, -, rfl⟩ := h
      exact same rfl

/-- A slot stays with its owner; a withdrawal that is pending on it was pending, or is requested. -/
theorem Takes.slot (h : L.Takes m L') (hs : L.slot r = some s) : ∃ s', L'.slot r = some s' ∧
    s'.owner = s.owner ∧ ∀ t, pending s' t = pending s t ∨ (pending s' t).1 = 0 ∨
      ∃ n destination unlockAt, m = .request t r n destination unlockAt ∧
        pending s' t = (unlockAt, destination) := by
  obtain ⟨s', hs', hc⟩ := h.slotChange hs
  clear h
  refine ⟨s', hs', ?_⟩
  -- All changes but a request keep what is pending.
  have weaken : KeepsPending s s' → s'.owner = s.owner ∧ ∀ t, pending s' t = pending s t ∨
      (pending s' t).1 = 0 ∨ ∃ n destination unlockAt, m = .request t r n destination unlockAt ∧
        pending s' t = (unlockAt, destination) :=
    fun ⟨ho, hp⟩ => ⟨ho, fun t => (hp t).imp_right .inl⟩
  cases hc with
  | keep h => exact weaken (h ▸ .refl s)
  | profile h =>
      obtain ⟨hb, ho, -⟩ := h
      refine weaken ⟨ho, fun t => .inl ?_⟩
      simp only [pending, ParticipantBucketSlot.balance, ParticipantBucketSlot.tokenEntry, hb]
  | delta h => exact weaken (keepsPending_delta h)
  | debit h => exact weaken (keepsPending_debit h)
  | request h =>
      obtain ⟨-, -, hr⟩ := ParticipantBucketSlot.rewrites_initiate h
      refine ⟨hr.profile.owner, fun t' => ?_⟩
      rename_i t n destination unlockAt
      by_cases ht : t' = t
      · subst ht
        exact .inr (.inr ⟨n, destination, unlockAt, rfl, by rw [pending, hr.balance]⟩)
      · rw [pending, hr.other t' ht]
        exact .inl rfl
  | cancel h => exact weaken (keepsPending_rewrite (ParticipantBucketSlot.rewrites_cancel h) (.inr rfl))
  | clear h => exact weaken (keepsPending_rewrite (ParticipantBucketSlot.rewrites_clear h) (.inr rfl))

/-! ### Rows -/

theorem isSome_tokenEntry_put {e e' : BucketTokenBalance} (h : s.tokenEntry t = some e)
    (hi : e'.initialized = e.initialized) (ht : e'.tokenId = e.tokenId)
    (hs : (s.tokenEntry t').isSome) : ((s.put t e').tokenEntry t').isSome := by
  have ht := ht.trans (ParticipantBucketSlot.tokenEntry_tokenId h)
  by_cases he : t' = t
  · subst he
    rw [ParticipantBucketSlot.tokenEntry_put_self (ParticipantBucketSlot.hasRoom_of_tokenEntry h)
      (hi.trans (ParticipantBucketSlot.tokenEntry_initialized h)) ht]
    rfl
  · rwa [ParticipantBucketSlot.tokenEntry_put_ne ht he]

theorem isSome_tokenEntry_delta {n : Int} (h : s.withTokenDelta t n = .ok s')
    (hs : (s.tokenEntry t').isSome) : ((s'.tokenEntry t').isSome) := by
  rcases ParticipantBucketSlot.delta_cases n with rfl | ⟨n, hn, rfl⟩ | ⟨n, hn, rfl⟩
  · cases h
    exact hs
  · obtain ⟨hr, -, rfl⟩ := (ParticipantBucketSlot.withTokenDelta_credit hn).mp h
    by_cases he : t' = t
    · subst he
      rw [ParticipantBucketSlot.tokenEntry_put_self hr (by simp [BucketTokenBalance.credit])
        (by simp [BucketTokenBalance.credit])]
      rfl
    · rwa [ParticipantBucketSlot.tokenEntry_put_ne (by simp [BucketTokenBalance.credit]) he]
  · obtain ⟨e, he, -, -, rfl⟩ := (ParticipantBucketSlot.withTokenDelta_debit hn).mp h
    exact isSome_tokenEntry_put he (BucketTokenBalance.drain_initialized _ _)
      (BucketTokenBalance.drain_tokenId _ _) hs

/-- A token's row is never removed. -/
theorem SlotChange.row (h : SlotChange r s s' m) (hs : (s.tokenEntry t).isSome) :
    (s'.tokenEntry t).isSome := by
  cases h with
  | keep h => exact h ▸ hs
  | profile h => rwa [ParticipantBucketSlot.tokenEntry, h.1, ← ParticipantBucketSlot.tokenEntry]
  | delta h => exact isSome_tokenEntry_delta h hs
  | debit h =>
      obtain ⟨e, he, -, -, rfl⟩ := ParticipantBucketSlot.debitTokenAvailable_eq_ok.mp h
      exact isSome_tokenEntry_put he rfl rfl hs
  | request h =>
      obtain ⟨e, he, -, -, -, rfl⟩ := ParticipantBucketSlot.initiateTokenWithdrawal_eq_ok.mp h
      exact isSome_tokenEntry_put he rfl rfl hs
  | cancel h =>
      obtain ⟨e, he, -, -, -, rfl⟩ := ParticipantBucketSlot.cancelTokenWithdrawal_eq_ok.mp h
      exact isSome_tokenEntry_put he rfl rfl hs
  | clear h =>
      obtain ⟨e, he, rfl⟩ := ParticipantBucketSlot.clearTokenWithdrawal_eq_ok.mp h
      exact isSome_tokenEntry_put he rfl rfl hs

/-- The participant's slot has a row for the token. -/
def HasRow (L : Ledger) (t : U16) (p : U32) : Prop :=
  ∃ s, L.slot p = some s ∧ (s.tokenEntry t).isSome

theorem Takes.hasRow (h : L.Takes m L') (hr : L.HasRow t p) : L'.HasRow t p := by
  obtain ⟨s, hs, he⟩ := hr
  obtain ⟨s', hs', hc⟩ := h.slotChange hs
  exact ⟨s', hs', hc.row he⟩

theorem TakesAll.hasRow (h : L.TakesAll ms L') (hr : L.HasRow t p) : L'.HasRow t p := by
  induction ms generalizing L with
  | nil => exact h ▸ hr
  | cons m ms ih =>
      obtain ⟨L₁, hm, h⟩ := h
      exact ih h (hm.hasRow hr)

/-! ### Available balances -/

/-- What a participant can spend; a participant without a slot has nothing. -/
def available (L : Ledger) (t : U16) (p : U32) : Nat :=
  (L.slot p).elim 0 fun s => (s.balance t).availableBalance

/-- An edit of one token's balance of one participant. -/
theorem EditSlot.available (h : L.EditSlot p f L') (x : Int)
    (hf : ∀ s s', f s s' → ((s'.balance t).availableBalance : Int)
      = (s.balance t).availableBalance + if t' = t then x else 0) (q : U32) :
    (L'.available t q : Int) = L.available t q + if t' = t ∧ p = q then x else 0 := by
  obtain ⟨s, s', hs, hfs, rfl⟩ := h
  by_cases hq : q = p
  · subst hq
    simpa [Ledger.available, hs] using hf s s' hfs
  · simp [Ledger.available, slot_setSlot_ne hq, Ne.symm hq]

theorem Takes.available_credit {n : Nat} (h : L.Takes (.credit t' p n) L') (t : U16) (q : U32) :
    (L'.available t q : Int) = L.available t q + if t' = t ∧ p = q then (n : Int) else 0 := by
  refine EditSlot.available h n (fun s s' hd => ?_) q
  by_cases ht : t' = t
  · subst ht
    rw [ParticipantBucketSlot.balance_of_credit hd, if_pos rfl]
    rfl
  · rw [(ParticipantBucketSlot.appliedDelta hd).balance_ne (Ne.symm ht), if_neg ht, add_zero]

theorem Takes.available_debit {n : Nat} (h : L.Takes (.debit t' p n) L') (t : U16) (q : U32) :
    (L'.available t q : Int) = L.available t q + if t' = t ∧ p = q then -(n : Int) else 0 := by
  refine EditSlot.available h (-n) (fun s s' ⟨_, hd⟩ => ?_) q
  obtain ⟨hle, hr⟩ := ParticipantBucketSlot.rewrites_debit hd
  by_cases ht : t' = t
  · subst ht
    rw [hr.balance, if_pos rfl]
    simp only
    omega
  · rw [hr.other t (Ne.symm ht), if_neg ht, add_zero]

/-- A slot that was not there is a new participant's. -/
theorem Takes.newSlot (h : L.Takes m L') (hn : L.slot r = none) (hs : L'.slot r = some s) :
    ∃ owner, m = .join r owner ∧ s = .fresh r owner := by
  have absurd' : ∀ {L₂ : Ledger}, L₂.slot r = none → L₂.slot r ≠ some s := fun e => by simp [e]
  cases m with
  | join p owner =>
      obtain ⟨-, rfl⟩ := h
      by_cases hr : r = p
      · subst hr
        rw [slot_setSlot_self, Option.some.injEq] at hs
        exact ⟨owner, rfl, hs.symm⟩
      · exact absurd hs (absurd' (by rw [slot_setSlot_ne hr, hn]))
  | openLane t p q signer =>
      obtain ⟨-, -, -, -, rfl⟩ := h
      exact absurd hs (absurd' hn)
  | lock t p q n =>
      obtain ⟨L₁, hd, l, l', -, -, rfl⟩ := h
      exact absurd hs (absurd' (hd.slot_none hn))
  | executeUnlock t p q =>
      obtain ⟨L₁, n, ⟨l, l', -, -, rfl⟩, hd⟩ := h
      exact absurd hs (absurd' (hd.slot_none hn))
  | cooperativeUnlock t p q n =>
      obtain ⟨L₁, ⟨l, l', -, -, rfl⟩, hd⟩ := h
      exact absurd hs (absurd' (hd.slot_none hn))
  | settle t es => exact absurd hs (absurd' (h.noSlot r hn))
  | requestUnlock t p q n requestedAt =>
      obtain ⟨l, l', -, -, rfl⟩ := h
      exact absurd hs (absurd' hn)
  | requestSigner t p q newSigner requestedAt =>
      obtain ⟨l, l', -, -, rfl⟩ := h
      exact absurd hs (absurd' hn)
  | executeSigner t p q =>
      obtain ⟨l, l', -, -, rfl⟩ := h
      exact absurd hs (absurd' hn)
  | _ => exact absurd hs (absurd' (EditSlot.slot_none h hn))

/-! ### Lanes -/

/-- What a move makes of the lane from `p` to `q` in token `t`. -/
inductive LaneChange (t : U16) (p q : U32) (l : DirectionalLaneState) :
    Move → DirectionalLaneState → Prop
  | keep {m : Move} : LaneChange t p q l m l
  | lock (n : Nat) :
      LaneChange t p q l (.lock t p q n) { l with lockedBalance := l.lockedBalance + n }
  | requestUnlock (n : Nat) (requestedAt : Int) : n ≤ l.lockedBalance →
      LaneChange t p q l (.requestUnlock t p q n requestedAt)
        { l with pendingUnlockAmount := n, unlockRequestedAt := requestedAt }
  | executeUnlock : 0 < l.pendingUnlockAmount → l.unlockRequestedAt ≠ 0 →
      LaneChange t p q l (.executeUnlock t p q) l.unlocked
  | cooperativeUnlock (n : Nat) : n ≤ l.lockedBalance →
      LaneChange t p q l (.cooperativeUnlock t p q n) (l.cooperativelyUnlocked n)
  | requestSigner (newSigner : Pubkey) (requestedAt : Int) : newSigner ≠ Pubkey.default →
      newSigner ≠ l.authorizedSigner → LaneChange t p q l (.requestSigner t p q newSigner requestedAt)
        { l with pendingAuthorizedSigner := newSigner, authorizedSignerUpdateRequestedAt := requestedAt }
  | executeSigner : l.pendingAuthorizedSigner ≠ Pubkey.default →
      l.authorizedSignerUpdateRequestedAt ≠ 0 → LaneChange t p q l (.executeSigner t p q)
        { l with
          authorizedSigner := l.pendingAuthorizedSigner
          pendingAuthorizedSigner := Pubkey.default
          authorizedSignerUpdateRequestedAt := 0 }
  | settle (es : List LaneEntry) (e : LaneEntry) : e ∈ es → e.payer = p → e.payee = q →
      (es.map LaneEntry.lane).Nodup → l.settledCumulative < e.target →
      LaneChange t p q l (.settle t es) (settledLane l e.target)

theorem EditLane.lane (h : L.EditLane t' p' q' g L') (hl : L.lane t p q = some l) :
    ∃ l', L'.lane t p q = some l' ∧ (l' = l ∨ (t' = t ∧ p' = p ∧ q' = q) ∧ g l l') := by
  obtain ⟨l₀, l', hl₀, hg, rfl⟩ := h
  by_cases hm : t = t' ∧ p = p' ∧ q = q'
  · obtain ⟨rfl, rfl, rfl⟩ := hm
    obtain rfl := Option.some.inj (hl₀.symm.trans hl)
    exact ⟨l', lane_setLane_self, .inr ⟨⟨rfl, rfl, rfl⟩, hg⟩⟩
  · exact ⟨l, by rw [lane_setLane_ne hm, hl], .inl rfl⟩

/-- A lane stays, and changes only in the ways listed. -/
theorem Takes.lane (h : L.Takes m L') (hl : L.lane t p q = some l) :
    ∃ l', L'.lane t p q = some l' ∧ LaneChange t p q l m l' := by
  have same : ∀ {L₂ : Ledger}, L₂.lane = L.lane → ∃ l', L₂.lane t p q = some l' ∧
      LaneChange t p q l m l' := fun e => ⟨l, by rw [e, hl], .keep⟩
  cases m with
  | join p owner =>
      obtain ⟨-, rfl⟩ := h
      exact same rfl
  | openLane t' p' q' signer =>
      obtain ⟨-, hn, -, -, rfl⟩ := h
      refine ⟨l, ?_, .keep⟩
      rw [lane_setLane_ne, hl]
      rintro ⟨rfl, rfl, rfl⟩
      simp [hn] at hl
  | lock t' p' q' n =>
      obtain ⟨L₁, hs, hd⟩ := h
      obtain ⟨l', hl', rfl | ⟨⟨rfl, rfl, rfl⟩, _, hd⟩⟩ := hd.lane (hs.lane ▸ hl)
      · exact ⟨l', hl', .keep⟩
      · obtain ⟨-, -, rfl⟩ := DirectionalLaneState.addLockedBalance_eq_ok.mp hd
        exact ⟨_, hl', .lock n⟩
  | requestUnlock t' p' q' n requestedAt =>
      obtain ⟨l', hl', rfl | ⟨⟨rfl, rfl, rfl⟩, hd⟩⟩ := EditLane.lane h hl
      · exact ⟨l', hl', .keep⟩
      · obtain ⟨hle, rfl⟩ := DirectionalLaneState.requestUnlock_eq_ok.mp hd
        exact ⟨_, hl', .requestUnlock n requestedAt hle⟩
  | executeUnlock t' p' q' =>
      obtain ⟨L₁, n, hd, hs⟩ := h
      obtain ⟨l', hl', rfl | ⟨⟨rfl, rfl, rfl⟩, _, hd⟩⟩ := hd.lane hl
      · exact ⟨l', hs.lane ▸ hl', .keep⟩
      · obtain ⟨h₁, h₂, -, -, rfl⟩ := DirectionalLaneState.executeUnlock_eq_ok.mp hd
        exact ⟨_, hs.lane ▸ hl', .executeUnlock h₁ h₂⟩
  | cooperativeUnlock t' p' q' n =>
      obtain ⟨L₁, hd, hs⟩ := h
      obtain ⟨l', hl', rfl | ⟨⟨rfl, rfl, rfl⟩, _, hd⟩⟩ := hd.lane hl
      · exact ⟨l', hs.lane ▸ hl', .keep⟩
      · obtain ⟨hle, -, -, rfl⟩ := DirectionalLaneState.cooperativeUnlock_eq_ok.mp hd
        exact ⟨_, hs.lane ▸ hl', .cooperativeUnlock n hle⟩
  | requestSigner t' p' q' newSigner requestedAt =>
      obtain ⟨l', hl', rfl | ⟨⟨rfl, rfl, rfl⟩, _, hd⟩⟩ := EditLane.lane h hl
      · exact ⟨l', hl', .keep⟩
      · obtain ⟨h₁, h₂, -, rfl⟩ := DirectionalLaneState.requestAuthorizedSignerUpdate_eq_ok.mp hd
        exact ⟨_, hl', .requestSigner newSigner requestedAt h₁ h₂⟩
  | executeSigner t' p' q' =>
      obtain ⟨l', hl', rfl | ⟨⟨rfl, rfl, rfl⟩, _, _, hd⟩⟩ := EditLane.lane h hl
      · exact ⟨l', hl', .keep⟩
      · obtain ⟨h₁, h₂, -, -, rfl⟩ := DirectionalLaneState.executeAuthorizedSignerUpdate_eq_ok.mp hd
        exact ⟨_, hl', .executeSigner h₁ h₂⟩
  | settle t' es =>
      rcases Settles.lane_cases h t p q with hk | ⟨e, he, rfl, rfl, rfl⟩
      · exact ⟨l, by rw [hk, hl], .keep⟩
      · obtain ⟨l₀, hl₀, hlt, hl'⟩ := h.lanes e he
        obtain rfl := Option.some.inj (hl₀.symm.trans hl)
        exact ⟨_, hl', .settle es e he rfl rfl h.nodup hlt⟩
  | _ => exact same (EditSlot.lane h)

/-- A lane that was not there is opened, with nothing settled and nothing locked. -/
theorem Takes.newLane (h : L.Takes m L') (hn : L.lane t p q = none) (hl : L'.lane t p q = some l) :
    ∃ signer, m = .openLane t p q signer ∧ l = .fresh signer := by
  have same : ∀ {L₂ : Ledger}, L₂.lane = L.lane → L₂.lane t p q ≠ some l := fun e => by simp [e, hn]
  have edited : ∀ {L₁ L₂ : Ledger} {t' p' q'} {g : DirectionalLaneState → DirectionalLaneState → Prop},
      L₁.lane = L.lane → L₁.EditLane t' p' q' g L₂ → L₂.lane t p q ≠ some l := by
    rintro L₁ L₂ t' p' q' g e ⟨l₀, l', hl₀, -, rfl⟩
    rw [lane_setLane_ne, e]
    · simp [hn]
    · rintro ⟨rfl, rfl, rfl⟩
      simp [e, hn] at hl₀
  cases m with
  | join p owner =>
      obtain ⟨-, rfl⟩ := h
      exact absurd hl (same rfl)
  | openLane t' p' q' signer =>
      obtain ⟨-, -, -, -, rfl⟩ := h
      by_cases hm : t = t' ∧ p = p' ∧ q = q'
      · obtain ⟨rfl, rfl, rfl⟩ := hm
        rw [lane_setLane_self, Option.some.injEq] at hl
        exact ⟨signer, rfl, hl.symm⟩
      · rw [lane_setLane_ne hm, hn] at hl
        cases hl
  | lock t' p' q' n =>
      obtain ⟨L₁, hs, hd⟩ := h
      exact absurd hl (edited hs.lane hd)
  | executeUnlock t' p' q' =>
      obtain ⟨L₁, n, hd, hs⟩ := h
      rw [hs.lane] at hl
      exact absurd hl (edited rfl hd)
  | cooperativeUnlock t' p' q' n =>
      obtain ⟨L₁, hd, hs⟩ := h
      rw [hs.lane] at hl
      exact absurd hl (edited rfl hd)
  | requestUnlock t' p' q' n requestedAt => exact absurd hl (edited rfl h)
  | requestSigner t' p' q' newSigner requestedAt => exact absurd hl (edited rfl h)
  | executeSigner t' p' q' => exact absurd hl (edited rfl h)
  | settle t' es =>
      rcases Settles.lane_cases h t p q with hk | ⟨e, he, rfl, rfl, rfl⟩
      · rw [hk, hn] at hl
        cases hl
      · obtain ⟨l₀, hl₀, -⟩ := h.lanes e he
        simp [hn] at hl₀
  | _ => exact absurd hl (same (EditSlot.lane h))

/-! ### Lanes and slots -/

/-- The two parties of a lane have slots. -/
def Paired (L : Ledger) : Prop :=
  ∀ t p q, (L.lane t p q).isSome → (L.slot p).isSome ∧ (L.slot q).isSome

theorem Takes.slot_isSome (h : L.Takes m L') (hs : (L.slot r).isSome) : (L'.slot r).isSome := by
  obtain ⟨s, hs⟩ := Option.isSome_iff_exists.mp hs
  obtain ⟨s', hs', -⟩ := h.slot hs
  simp [hs']

theorem Takes.paired (h : L.Takes m L') (hL : L.Paired) : L'.Paired := by
  intro t p q hl'
  cases hl : L.lane t p q with
  | some l => exact (hL t p q (by simp [hl])).imp h.slot_isSome h.slot_isSome
  | none =>
      obtain ⟨l', hl'⟩ := Option.isSome_iff_exists.mp hl'
      obtain ⟨signer, rfl, -⟩ := h.newLane hl hl'
      obtain ⟨-, -, hp, hq, -⟩ := id h
      exact ⟨h.slot_isSome hp, h.slot_isSome hq⟩

end Ryvo.Ledger
