import Ryvo.Layout.ClientReads
import Ryvo.Layout.LaneCalls
import Ryvo.Messages.Ed25519Codec
import Ryvo.Runs.Collateral
import Ryvo.Runs.Fields

/-!
# Runs — Clients

A client fetches an account, takes its bytes apart, and builds its next message on what it read.  By the time the message is settled, anything may have happened.

* `clientView_of_reached`: what a client reads is what the program holds.
* `nextCommitment_settles`: a commitment built on a reading pays, since that reading, what the client meant it to.
-/

namespace Ryvo

open Client

variable {env : Env} {w w₀ : World} {t : U16} {p q lower higher : U32} {sel : LaneSelector}
variable {s : ParticipantBucketSlot} {l : DirectionalLaneState}

/-- The data of a bucket account. -/
def World.bucketData (w : World) (k : Pubkey) : Option (List UInt8) :=
  ((w.participantBuckets k).map (·.bytes)).or ((w.channelBuckets k).map (·.bytes))

namespace Client

def fetchAccountData (w : World) (pubkey : Pubkey) : Except ClientError (List UInt8) :=
  okOr (w.bucketData pubkey) (.accountNotFound pubkey)

def fetchParticipantById (env : Env) (w : World) (participantId : U32) :
    Except ClientError Participant := do
  let data ← fetchAccountData w (findParticipantBucketPdaById env participantId)
  let slot ← readRawParticipantBucketSlot data participantId
  pure (normalizeParticipantBucketSlot slot)

def fetchDirectionalChannelState (w : World) (channelPda : Pubkey) (payerId payeeId : U32) :
    Except ClientError DirectionalChannel := do
  let data ← fetchAccountData w channelPda
  let pairChannel ← readRawChannelBucketState data payerId payeeId
  normalizeDirectionalChannelState pairChannel payerId payeeId

end Client

/-! ### Accounts -/

theorem Located.fetch_participantBucket (h : Located env w) (id : U32) :
    fetchAccountData w (env.address (.participantBucket id))
      = okOr ((w.participantBuckets (env.address (.participantBucket id))).map (·.bytes))
          (.accountNotFound (env.address (.participantBucket id))) := by
  have hno : w.channelBuckets (env.address (.participantBucket id)) = none := by
    rw [Option.eq_none_iff_forall_not_mem]
    intro b hb
    exact absurd (Env.address_inj.mp (h.channels _ b hb).1) (by simp)
  rw [fetchAccountData, World.bucketData, hno, Option.map_none, Option.or_none]

theorem Located.fetch_channelBucket (h : Located env w) (id : U64) :
    fetchAccountData w (env.address (.channelBucket t id))
      = okOr ((w.channelBuckets (env.address (.channelBucket t id))).map (·.bytes))
          (.accountNotFound (env.address (.channelBucket t id))) := by
  have hno : w.participantBuckets (env.address (.channelBucket t id)) = none := by
    rw [Option.eq_none_iff_forall_not_mem]
    intro b hb
    exact absurd (Env.address_inj.mp (h.participants _ b hb).1) (by simp)
  rw [fetchAccountData, World.bucketData, hno, Option.map_none, Option.none_or]

/-! ### Reading participants -/

/-- A participant's slot is read back. -/
theorem Reached.fetchParticipant (hw : Reached env w) (hclock : w.clock < 2 ^ 63)
    (hs : w.slot env p = some s) :
    fetchParticipantById env w p = .ok (normalizeParticipantBucketSlot (.ofSlot s)) := by
  obtain ⟨b, hb, hslot⟩ := slot_eq_some.mp hs
  obtain ⟨-, hat, hi, hp⟩ :=
    ParticipantBucket.slotForParticipant_eq_ok.mp (ParticipantBucket.slot?_eq_some.mp hslot)
  have hdata : fetchAccountData w (findParticipantBucketPdaById env p) = .ok b.bytes := by
    refine (hw.located.fetch_participantBucket _).trans (okOr_eq_ok.mpr ?_)
    rw [Option.map_eq_some_iff]
    exact ⟨b, hb, rfl⟩
  have hread := readRawParticipantBucketSlot_bytes hat
    fun _ _ => (hw.slot_sound hclock hs).wellTyped
  rw [require_of ⟨hi, hp⟩, Except.ok_bind] at hread
  rw [fetchParticipantById, hdata, Except.ok_bind, hread]
  rfl

/-- Where there is no slot, nothing is read. -/
theorem Reached.fetchParticipant_none (hw : Reached env w) (hn : w.slot env p = none) :
    fetchParticipantById env w p = .error (.accountNotFound (slotKey env p)) ∨
      fetchParticipantById env w p = .error (.participantSlotNotInitialized p) := by
  have hfetch : fetchAccountData w (findParticipantBucketPdaById env p)
      = okOr ((w.participantBuckets (slotKey env p)).map (·.bytes)) (.accountNotFound (slotKey env p)) :=
    hw.located.fetch_participantBucket _
  rw [fetchParticipantById, hfetch]
  cases hb : w.participantBuckets (slotKey env p) with
  | none => exact .inl rfl
  | some b =>
      have hid : b.bucketId = ParticipantBucket.bucketIdForParticipantId p := by
        have hk := Env.address_inj.mp (hw.located.participants _ b hb).1
        simpa using hk.symm
      -- An initialised slot that carries the id would be the participant's.
      have hne : ¬ ((b.slots (ParticipantBucket.slotIndexForParticipantId p)).initialized = true ∧
          (b.slots (ParticipantBucket.slotIndexForParticipantId p)).participantId = p) := by
        rintro ⟨hi, hp⟩
        have hslot : w.slot env p = some _ := slot_eq_some.mpr ⟨b, hb,
          ParticipantBucket.slot?_eq_some.mpr
            (ParticipantBucket.slotForParticipant_eq_ok.mpr ⟨hid, rfl, hi, hp⟩)⟩
        rw [hn] at hslot
        cases hslot
      right
      rw [Option.map_some, okOr, Except.ok_bind,
        readRawParticipantBucketSlot_bytes rfl fun hi hp => absurd ⟨hi, hp⟩ hne, require, if_neg hne]
      rfl

/-! ### Reading channels -/

theorem findChannelBucketPda_eq {id : U64}
    (hc : ChannelBucket.canonicalize p q = .ok (lower, higher, sel))
    (hid : ChannelBucket.bucketIdForPair lower higher = .ok id) (hsafe : SafePair p q) :
    findChannelBucketPda env p q t = env.address (.channelBucket t id) := by
  obtain ⟨hpair, -, -⟩ := getCanonicalChannelParticipants_of hc
  obtain ⟨-, hval⟩ := ChannelBucket.bucketIdForPair_eq_ok.mp hid
  have hvalue : pairOrdinal lower higher / channelBucketSlotCount = id.val := hval.symm
  rw [SafePair, hpair] at hsafe
  dsimp only at hsafe
  rw [findChannelBucketPda, channelBucketIdForPair, hpair]
  dsimp only
  rw [toNumber_of_lt hsafe, spelled_of_lt hsafe, hvalue, Fin.ofNat_val_eq_self]

/-- Each direction of a pair is somebody's lane. -/
theorem exists_canonicalize (h : lower < higher) (sel : LaneSelector) :
    ∃ p q, ChannelBucket.canonicalize p q = .ok (lower, higher, sel) := by
  cases sel with
  | lowerToHigher => exact ⟨lower, higher, ChannelBucket.canonicalize_eq_ok.mpr (.inl ⟨h, rfl, rfl, rfl⟩)⟩
  | higherToLower => exact ⟨higher, lower, ChannelBucket.canonicalize_eq_ok.mpr (.inr ⟨h, rfl, rfl, rfl⟩)⟩

/-- Both lanes of a pair that has a slot fit their fields. -/
theorem Reached.pair_wellTyped (hw : Reached env w) (hclock : w.clock < 2 ^ 63) {c : ChannelBucket}
    {id : U64} {i : Fin channelBucketSlotCount}
    (hb : w.channelBuckets (env.address (.channelBucket t id)) = some c) (hid : c.bucketId = id)
    (hs : c.slotOffsetForPair lower higher = .ok i) : (c.slots i).WellTyped := by
  obtain ⟨hbid, hi, -, -, -⟩ := ChannelBucket.slotOffsetForPair_eq_ok.mp hs
  intro sel
  cases hinit : (c.laneAt (i, sel)).initialized with
  | false =>
      have hblank := hw.located.blank _ _ _ hb hinit
      rw [show (c.slots i).lane sel = _ from hblank]
      exact ChannelBucket.wellTyped_uninitialized
  | true =>
      obtain ⟨p, q, hc⟩ := exists_canonicalize (ChannelBucket.slotIndexForPair_eq_ok.mp hi).1 sel
      have hkey : laneKey env t p q = some (env.address (.channelBucket t id)) :=
        laneKey_eq_some.mpr ⟨id, laneBucketId_eq_ok.mpr ⟨_, _, _, hc, hid ▸ hbid⟩, rfl⟩
      have hlane : w.lane env t p q = some (c.laneAt (i, sel)) := lane_eq_some.mpr ⟨_, _, hkey, hb,
        ChannelBucket.lane?_eq_some.mpr
          ⟨(i, sel), ChannelBucket.laneOffset_eq_ok.mpr ⟨_, _, hc, hs⟩, rfl, hinit⟩⟩
      exact hw.lane_wellTyped hclock hlane

/-- What a client reads of a bucket it finds. -/
theorem Reached.fetchChannel (hw : Reached env w) (hclock : w.clock < 2 ^ 63) {c : ChannelBucket}
    {id : U64} (hc : ChannelBucket.canonicalize p q = .ok (lower, higher, sel))
    (hid : ChannelBucket.bucketIdForPair lower higher = .ok id) (hsafe : SafePair p q)
    (hb : w.channelBuckets (env.address (.channelBucket t id)) = some c) :
    c.tokenId = t ∧ fetchDirectionalChannelState w (findChannelBucketPda env p q t) p q
      = DirectionalChannel.ofBucket c p q := by
  obtain ⟨htoken, hbid⟩ : t = c.tokenId ∧ id = c.bucketId := by
    simpa using Env.address_inj.mp (hw.located.channels _ _ hb).1
  have hdata : fetchAccountData w (findChannelBucketPda env p q t) = .ok c.bytes := by
    rw [findChannelBucketPda_eq hc hid hsafe, hw.located.fetch_channelBucket, hb]
    rfl
  have hread : readRawChannelBucketState c.bytes p q = normalizeChannelBucketState c p q := by
    refine readRawChannelBucketState_bytes fun pair hpair => ?_
    rw [normalizeChannelBucketState, (getCanonicalChannelParticipants_of hc).1] at hpair
    simp only [Except.bind_eq_ok, require_eq_ok, exists_const] at hpair
    exact hw.pair_wellTyped hclock hb hbid.symm (ChannelBucket.slotOffsetForPair_eq_ok.mpr
      ⟨hbid ▸ hid, slotIndexForPair_of hc, hpair.1⟩)
  rw [fetchDirectionalChannelState, hdata, Except.ok_bind, hread]
  exact ⟨htoken.symm, normalizeChannel_eq hc (hbid ▸ hid)⟩

/-- A pair in order, with its bucket. -/
theorem exists_bucketId (hne : p ≠ q) : ∃ lower higher sel id,
    ChannelBucket.canonicalize p q = .ok (lower, higher, sel) ∧
      ChannelBucket.bucketIdForPair lower higher = .ok id := by
  rcases lt_or_gt_of_ne hne with hlt | hlt
  · obtain ⟨id, -, hid, -⟩ := ChannelBucket.placedAt_of_lt hlt
    exact ⟨p, q, _, id, ChannelBucket.canonicalize_eq_ok.mpr (.inl ⟨hlt, rfl, rfl, rfl⟩), hid⟩
  · obtain ⟨id, -, hid, -⟩ := ChannelBucket.placedAt_of_lt hlt
    exact ⟨q, p, _, id, ChannelBucket.canonicalize_eq_ok.mpr (.inr ⟨hlt, rfl, rfl, rfl⟩), hid⟩

/-- The two directions of a pair have one slot. -/
theorem canonicalize_reverse (h : ChannelBucket.canonicalize q p = .ok (lower, higher, sel)) :
    ∃ sel', ChannelBucket.canonicalize p q = .ok (lower, higher, sel') := by
  rcases ChannelBucket.canonicalize_eq_ok.mp h with ⟨hlt, rfl, rfl, -⟩ | ⟨hlt, rfl, rfl, -⟩
  · exact ⟨_, ChannelBucket.canonicalize_eq_ok.mpr (.inr ⟨hlt, rfl, rfl, rfl⟩)⟩
  · exact ⟨_, ChannelBucket.canonicalize_eq_ok.mpr (.inl ⟨hlt, rfl, rfl, rfl⟩)⟩

/-- The slot of a lane. -/
theorem slotOffset_of_lane (hl : w.lane env t p q = some l) : ∃ lower higher sel id c i,
    ChannelBucket.canonicalize p q = .ok (lower, higher, sel) ∧
      ChannelBucket.bucketIdForPair lower higher = .ok id ∧
      w.channelBuckets (env.address (.channelBucket t id)) = some c ∧
      c.slotOffsetForPair lower higher = .ok i := by
  obtain ⟨k, c, hk, hb, hlane⟩ := lane_eq_some.mp hl
  obtain ⟨off, hoff, -, -⟩ := ChannelBucket.lane?_eq_some.mp hlane
  obtain ⟨lower, higher, hc, hs⟩ := ChannelBucket.laneOffset_eq_ok.mp hoff
  obtain ⟨id, hid, rfl⟩ := laneKey_eq_some.mp hk
  obtain ⟨lower', higher', sel, hc', hbid⟩ := laneBucketId_eq_ok.mp hid
  obtain ⟨rfl, rfl, -⟩ : lower' = lower ∧ higher' = higher ∧ sel = off.2 := by
    simpa using hc'.symm.trans hc
  exact ⟨lower', higher', _, id, c, off.1, hc, hbid, hb, hs⟩

/-- A pair with a lane in either direction can be read. -/
theorem Reached.exists_fetchChannel (hw : Reached env w) (hclock : w.clock < 2 ^ 63)
    (hsafe : SafePair p q) (hl : (w.lane env t p q).isSome ∨ (w.lane env t q p).isSome) :
    ∃ ch, fetchDirectionalChannelState w (findChannelBucketPda env p q t) p q = .ok ch := by
  obtain ⟨lower, higher, sel, id, c, i, hc, hid, hb, hs⟩ : ∃ lower higher sel id c i,
      ChannelBucket.canonicalize p q = .ok (lower, higher, sel) ∧
        ChannelBucket.bucketIdForPair lower higher = .ok id ∧
        w.channelBuckets (env.address (.channelBucket t id)) = some c ∧
        c.slotOffsetForPair lower higher = .ok i := by
    rcases hl with hl | hl <;> obtain ⟨l, hl⟩ := Option.isSome_iff_exists.mp hl <;>
      obtain ⟨lower, higher, sel, id, c, i, hc, h⟩ := slotOffset_of_lane hl
    · exact ⟨lower, higher, sel, id, c, i, hc, h⟩
    · obtain ⟨sel', hc'⟩ := canonicalize_reverse hc
      exact ⟨lower, higher, sel', id, c, i, hc', h⟩
  have hoff : c.laneOffset p q = .ok (i, sel) :=
    ChannelBucket.laneOffset_eq_ok.mpr ⟨lower, higher, hc, hs⟩
  exact ⟨_, (hw.fetchChannel hclock hc hid hsafe hb).2.trans
    (by rw [DirectionalChannel.ofBucket, hoff])⟩

/-- What is read is the lane, or none where it was not created. -/
theorem Reached.fetchChannel_sound (hw : Reached env w) (hclock : w.clock < 2 ^ 63) (hne : p ≠ q)
    (hsafe : SafePair p q) {ch : DirectionalChannel}
    (h : fetchDirectionalChannelState w (findChannelBucketPda env p q t) p q = .ok ch) :
    ch = .ofLane ((w.lane env t p q).getD .uninitialized) p q t := by
  obtain ⟨lower, higher, sel, id, hc, hid⟩ := exists_bucketId hne
  have hkey : laneKey env t p q = some (env.address (.channelBucket t id)) :=
    laneKey_eq_some.mpr ⟨id, laneBucketId_eq_ok.mpr ⟨_, _, _, hc, hid⟩, rfl⟩
  cases hb : w.channelBuckets (env.address (.channelBucket t id)) with
  | none =>
      rw [fetchDirectionalChannelState, findChannelBucketPda_eq hc hid hsafe,
        hw.located.fetch_channelBucket, hb] at h
      cases h
  | some c =>
      obtain ⟨htoken, hread⟩ := hw.fetchChannel hclock hc hid hsafe hb
      rw [hread, DirectionalChannel.ofBucket] at h
      cases hoff : c.laneOffset p q with
      | error e => simp [hoff] at h
      | ok off =>
          rw [hoff] at h
          obtain rfl := Except.ok.inj h
          rw [htoken]
          refine congrArg (DirectionalChannel.ofLane · p q t) ?_
          cases hinit : (c.laneAt off).initialized with
          | true =>
              have hl : w.lane env t p q = some (c.laneAt off) := lane_eq_some.mpr
                ⟨_, c, hkey, hb, ChannelBucket.lane?_eq_some.mpr ⟨off, hoff, rfl, hinit⟩⟩
              rw [hl, Option.getD_some]
          | false =>
              have hl : w.lane env t p q = none := by
                rw [Option.eq_none_iff_forall_not_mem]
                intro l hl
                obtain ⟨k, c', hk, hb', hlane⟩ := lane_eq_some.mp hl
                obtain rfl := Option.some.inj (hk.symm.trans hkey)
                obtain rfl := Option.some.inj (hb'.symm.trans hb)
                obtain ⟨off', hoff', rfl, hi⟩ := ChannelBucket.lane?_eq_some.mp hlane
                obtain rfl := Except.ok.inj (hoff'.symm.trans hoff)
                exact Bool.false_ne_true (hinit.symm.trans hi)
              rw [hl, Option.getD_none]
              exact hw.located.blank _ _ _ hb hinit

/-- What clients read is what the program holds: of a participant its profile and the balance of every token, of a lane all of it; and nothing that is not there. -/
structure ClientView (env : Env) (w : World) : Prop where
  participant : ∀ p s, w.slot env p = some s → ∃ v, fetchParticipantById env w p = .ok v ∧
    v.owner = s.owner ∧ v.participantId = p ∧ v.inboundChannelPolicy = s.inboundChannelPolicy ∧
    v.blsSchemeVersion = s.blsSchemeVersion ∧ v.blsPubkeyCompressed = s.blsPubkeyCompressed ∧
    ∀ t, getTokenBalance v t = .ofEntry (s.balance t)
  noParticipant : ∀ p, w.slot env p = none →
    fetchParticipantById env w p = .error (.accountNotFound (slotKey env p)) ∨
      fetchParticipantById env w p = .error (.participantSlotNotInitialized p)
  channel : ∀ t p q, SafePair p q → (w.lane env t p q).isSome ∨ (w.lane env t q p).isSome →
    fetchDirectionalChannelState w (findChannelBucketPda env p q t) p q
      = .ok (.ofLane ((w.lane env t p q).getD .uninitialized) p q t)
  onlyChannels : ∀ t p q ch, p ≠ q → SafePair p q →
    fetchDirectionalChannelState w (findChannelBucketPda env p q t) p q = .ok ch →
      (ch.initialized = true ↔ (w.lane env t p q).isSome)

/-- **What a client reads is what the program holds.**  As long as the clock is a time an `i64` can hold, whatever has happened. -/
theorem clientView_of_reached (hw : Reached env w) (hclock : w.clock < 2 ^ 63) : ClientView env w where
  participant p s hs := by
    refine ⟨_, hw.fetchParticipant hclock hs, rfl, slot_participantId hs, rfl, rfl, rfl, ?_⟩
    exact getTokenBalance_normalize s
  noParticipant _ hn := hw.fetchParticipant_none hn
  channel t p q hsafe hl := by
    have hne : p ≠ q := by
      rcases hl with hl | hl <;> obtain ⟨l, hl⟩ := Option.isSome_iff_exists.mp hl
      · exact lane_ne hl
      · exact (lane_ne hl).symm
    obtain ⟨ch, hread⟩ := hw.exists_fetchChannel hclock hsafe hl
    rw [hread, hw.fetchChannel_sound hclock hne hsafe hread]
  onlyChannels t p q ch hne hsafe hread := by
    rw [hw.fetchChannel_sound hclock hne hsafe hread]
    cases hl : w.lane env t p q with
    | none => simp [DirectionalChannel.ofLane, DirectionalLaneState.uninitialized]
    | some l => simp [DirectionalChannel.ofLane, lane_initialized hl]

open Localnet in
/-- The lane with forty locked, as its payee reads it. -/
theorem clientView_of_funding : ∃ w ch, ClientView localnet w ∧
    fetchDirectionalChannelState w (findChannelBucketPda localnet 0 1 1) 0 1 = .ok ch ∧
    ch.lockedBalance = 40 ∧ ch.authorizedSigner = key 33 := by
  obtain ⟨w, hw, hc⟩ := reached_of_runsTo localnet (opening ++ funding)
    (fun w => decide (w.clock < 2 ^ 63) &&
      (w.lane localnet 1 0 1).any (fun l : DirectionalLaneState => decide
        (l.lockedBalance = 40 ∧ l.authorizedSigner = Localnet.key 33))) (by decide +kernel)
  simp only [Bool.and_eq_true, Option.any_eq_true, decide_eq_true_eq] at hc
  obtain ⟨hclock, l, hl, hlocked, hsigner⟩ := hc
  have hview := clientView_of_reached hw hclock
  have hread := hview.channel 1 0 1 (safePair_of_lt (by decide) (by decide)) (.inl (by rw [hl]; rfl))
  rw [hl] at hread
  exact ⟨w, _, hview, hread, hlocked, hsigner⟩

/-! ### Acting on what was read -/

namespace Client

/-- Each key once, but for those seen before. -/
def uniqueWritableMetas (seen : List Pubkey) : List Pubkey → List Pubkey
  | [] => []
  | pubkey :: pubkeys =>
      if pubkey ∈ seen then uniqueWritableMetas seen pubkeys
      else pubkey :: uniqueWritableMetas (pubkey :: seen) pubkeys

/-- All of them writable, and none a signer. -/
def uniqueWritableMetasForPubkeys (pubkeys : List Pubkey) : List Pubkey :=
  uniqueWritableMetas [] pubkeys

def individualSettlementRemainingAccounts
    (payerParticipantPda payeeParticipantPda channelPda : Pubkey) : List Pubkey :=
  uniqueWritableMetasForPubkeys [payerParticipantPda, payeeParticipantPda] ++ [channelPda]

end Client

/-- The accounts a client brings are the ones the program wants. -/
theorem remainingAccounts_eq (parsed : ParsedCommitmentMessage) (hne : parsed.payerId ≠ parsed.payeeId)
    (hsafe : SafePair parsed.payerId parsed.payeeId) :
    individualSettlementRemainingAccounts (findParticipantBucketPdaById env parsed.payerId)
      (findParticipantBucketPdaById env parsed.payeeId)
      (findChannelBucketPda env parsed.payerId parsed.payeeId parsed.tokenId)
        = SettleIndividual.accounts env parsed := by
  obtain ⟨lower, higher, sel, id, hc, hid⟩ := exists_bucketId hne
  have hkey : laneKey env parsed.tokenId parsed.payerId parsed.payeeId
      = some (env.address (.channelBucket parsed.tokenId id)) :=
    laneKey_eq_some.mpr ⟨id, laneBucketId_eq_ok.mpr ⟨_, _, _, hc, hid⟩, rfl⟩
  rw [individualSettlementRemainingAccounts, SettleIndividual.accounts, hkey,
    findChannelBucketPda_eq hc hid hsafe]
  refine congrArg (· ++ [_]) ?_
  rw [uniqueWritableMetasForPubkeys, SettleIndividual.participantBucketIds]
  by_cases h : ParticipantBucket.bucketIdForParticipantId parsed.payeeId
      = ParticipantBucket.bucketIdForParticipantId parsed.payerId
  · have hsame : findParticipantBucketPdaById env parsed.payeeId
        = findParticipantBucketPdaById env parsed.payerId :=
      congrArg (fun id => env.address (.participantBucket id)) h
    simp only [uniqueWritableMetas, List.not_mem_nil, if_false, hsame, List.mem_singleton, if_true, h,
      ne_eq, not_true_eq_false, bucketAddresses, List.map_cons, List.map_nil]
    rfl
  · have hother : findParticipantBucketPdaById env parsed.payeeId
        ≠ findParticipantBucketPdaById env parsed.payerId := by
      intro he
      exact h (Seeds.participantBucket.inj (Env.address_inj.mp he))
    simp only [uniqueWritableMetas, List.not_mem_nil, if_false, hother, List.mem_singleton, if_true, h,
      ne_eq, not_false_eq_true, bucketAddresses, List.map_cons, List.map_nil]
    rfl

/-- A run from a reached world pays on a lane what is settled more at its end. -/
theorem Reached.settled_run {h : List (World × Action)} (hw : Reached env w₀)
    (r : Run (· = w₀) (Step env) h w) (t : U16) (p q : U32) : Reached env w ∧
      w.settled env t p q = w₀.settled env t p q + (h.map (paid env t p q)).sum := by
  refine Run.history (P := fun h w => Reached env w ∧
    w.settled env t p q = w₀.settled env t p q + (h.map (paid env t p q)).sum) ?_ ?_ r
  · rintro w rfl
    exact ⟨hw, rfl⟩
  · rintro h w a w' - ⟨hw, ih⟩ hstep
    refine ⟨hw.next hstep, ?_⟩
    rw [hw.settled_eq hstep, ih, List.map_cons, List.sum_cons]
    ring

/-- The transaction a client submits: the signature of one commitment, then the settlement. -/
def settlementSysvar (env : Env) (ed25519Ix settleIx : List UInt8) : InstructionsSysvar :=
  ⟨[(Ed25519.programId, ed25519Ix), (env.programId, settleIx)], 1⟩

open Ed25519 in
/-- The program finds in it the commitment that was signed. -/
theorem readCommitment_build {config : GlobalConfig} {parsed : ParsedCommitmentMessage}
    {keypair : Keypair} {ed25519Ix : List UInt8} (settleIx : List UInt8)
    (hd : config.messageDomain.length = 16) (ha : parsed.committedAmount < u64Bound)
    (hix : createMultiMessageEd25519Instruction
      [(keypair, buildCommitmentMessageBytes config.messageDomain parsed)] = some ed25519Ix) :
    SettleIndividual.readCommitment (settlementSysvar env ed25519Ix settleIx) config
      = .ok (keypair.publicKey, parsed) := by
  have hsigned := signedMessage_multiMessage (i := 0) hix (show 1 ≤ 255 by decide) rfl
  obtain ⟨-, hdata⟩ := writeInstruction_eq_some.mp hix
  have hhead : ed25519Ix.head? = some 1 := by rw [hdata]; rfl
  have hverify : verifyEd25519Ix (settlementSysvar env ed25519Ix settleIx) 0 = .ok ed25519Ix := rfl
  rw [SettleIndividual.readCommitment, hverify, Except.ok_bind, require_of hhead, Except.ok_bind,
    hsigned, Except.ok_bind, parse_build hd ha]
  rfl

theorem Reached.messageDomain_length (hw : Reached env w) {c : GlobalConfig}
    (hc : w.globalConfig = some c) : c.messageDomain.length = 16 := by
  rw [(hw.withinBounds hc).messageDomain, GlobalConfig.deriveMessageDomain, List.length_take,
    env.length_sha256]
  rfl

open Ed25519 in
/-- **A commitment built on a reading pays what it was meant to.**  A client reads a lane, commits to so much more than it found settled, and the payee submits the commitment later on, whatever has happened in between, unless it has been overtaken or the collateral is gone.  Then it is settled with the accounts the client names, and in all exactly the amount meant has been paid on the lane since the reading; the payer's own balance is not touched. -/
theorem nextCommitment_settles {h : List (World × Action)} (hw₀ : Reached env w₀)
    (hclock : w₀.clock < 2 ^ 63) (hsafe : SafePair p q) (hne : p ≠ q) {ch : DirectionalChannel}
    (hread : fetchDirectionalChannelState w₀ (findChannelBucketPda env p q t) p q = .ok ch)
    (r : Run (· = w₀) (Step env) h w) {delta : Nat} {settler : Option Pubkey} {submitter : Pubkey}
    {keypair : Keypair} {config : GlobalConfig} {ed25519Ix : List UInt8} (settleIx : List UInt8)
    (hconfig : w.globalConfig = some config) (hamount : nextCommitmentAmount ch delta < u64Bound)
    (hix : createMultiMessageEd25519Instruction [(keypair, buildCommitmentMessageBytes
      config.messageDomain ⟨p, q, t, nextCommitmentAmount ch delta, settler⟩)] = some ed25519Ix)
    (hl : w.lane env t p q = some l) (hsigner : l.authorizedSigner = keypair.publicKey)
    (hraised : l.settledCumulative < nextCommitmentAmount ch delta)
    (hcovered : nextCommitmentAmount ch delta ≤ l.settledCumulative + l.lockedBalance)
    (hs : w.slot env q = some s) (hroom : s.HasRoom t)
    (hsubmitter : submitter = s.owner ∨ settler = some submitter)
    (hsigns : env.canSign submitter = true) :
    ∃ w' s', let settlement := Action.call (.settleIndividual submitter
        (settlementSysvar env ed25519Ix settleIx) (individualSettlementRemainingAccounts
          (findParticipantBucketPdaById env p) (findParticipantBucketPdaById env q)
          (findChannelBucketPda env p q t)))
      Step env w settlement w' ∧
      w'.settled env t p q = nextCommitmentAmount ch delta ∧
      (((w, settlement) :: h).map (paid env t p q)).sum = delta ∧
      w'.slot env p = w.slot env p ∧ w'.slot env q = some s' ∧
      s'.balance t = (s.balance t).credit (nextCommitmentAmount ch delta - l.settledCumulative) := by
  obtain ⟨hw, hrun⟩ := hw₀.settled_run r t p q
  have hfound : ch.settledCumulative = w₀.settled env t p q := by
    rw [hw₀.fetchChannel_sound hclock hne hsafe hread]
    cases hl₀ : w₀.lane env t p q with
    | none => exact (settled_of_none hl₀).symm
    | some l₀ => exact (settled_of_lane hl₀).symm
  let parsed : ParsedCommitmentMessage := ⟨p, q, t, nextCommitmentAmount ch delta, settler⟩
  have hraised' : l.settledCumulative < parsed.committedAmount := hraised
  obtain ⟨hpay, hreceive, hnet⟩ := hw.collateral_covers hl hraised' hcovered hs hroom
  have haccepts : SettleIndividual.Accepts env w
      (SettleIndividual.authority submitter keypair.publicKey parsed) parsed := by
    refine ⟨hpay, fun l' hl' => ?_, s, hs, by simpa [SettleIndividual.authority] using hsubmitter⟩
    obtain rfl := Option.some.inj (hl.symm.trans hl')
    exact beq_iff_eq.mpr hsigner.symm
  obtain ⟨w', hsettle⟩ := SettleIndividual.exists_settle hw.located haccepts hreceive
  have hran : SettleIndividual.handler env w submitter (settlementSysvar env ed25519Ix settleIx)
      (SettleIndividual.accounts env parsed) = .ok w' := by
    simp only [SettleIndividual.handler, World.getGlobalConfig, Except.bind_eq_ok, okOr_eq_ok,
      requireToken_eq_ok, Prod.exists]
    exact ⟨config, hconfig, (), require_of rfl, _, parsed,
      readCommitment_build settleIx (hw.messageDomain_length hconfig) hamount hix, (),
      hw.lane_registered hl, hsettle⟩
  rw [remainingAccounts_eq parsed hne hsafe]
  have hstep : Step env w (.call (.settleIndividual submitter (settlementSysvar env ed25519Ix settleIx)
      (SettleIndividual.accounts env parsed))) w' :=
    ⟨fun k hk => by rwa [List.mem_singleton.mp hk], hran⟩
  obtain ⟨-, hset, -, -⟩ := SettleIndividual.settle_spec hw.located hsettle
  obtain ⟨l₁, hl₁, -, hl'⟩ := hset.lanes parsed.entry (.head _)
  have hsettled : w'.settled env t p q = nextCommitmentAmount ch delta := settled_of_lane hl'
  -- The payer's net is nothing, and the payee's is the whole step.
  obtain ⟨sp, hsp⟩ := Option.isSome_iff_exists.mp (hset.known _ (.head _)).2.1
  obtain ⟨sp', hsp', hdebit⟩ := hset.slots p sp hsp
  rw [show (w.ledger env).net _ _ p = 0 from hnet] at hdebit
  obtain ⟨s', hs', hcredit⟩ := hset.slots q s hs
  have hother : parsed.entry.payer ≠ q := hne
  have hself : parsed.entry.payee = q := rfl
  rw [Ledger.net_single (e := parsed.entry) hl, if_neg hother, if_pos hself, zero_add] at hcredit
  refine ⟨w', s', hstep, hsettled, ?_, ?_, hs', ParticipantBucketSlot.balance_of_credit hcredit⟩
  · have hpaid := hw.settled_eq hstep t p q
    rw [hsettled, nextCommitmentAmount, hfound, hrun] at hpaid
    rw [List.map_cons, List.sum_cons]
    omega
  · cases hdebit
    exact hsp'.trans hsp.symm

open Localnet in
/-- Read before the payer asks for the rest of its balance, and settled after. -/
theorem nextCommitment_settles_withdrawing : ∃ w₀ w w' a settlement,
    Step localnet w₀ a w ∧ Step localnet w settlement w' ∧ w'.settled localnet 1 0 1 = 25 ∧
    w'.slot localnet 0 = w.slot localnet 0 := by
  let keypair := SettleCommitmentBundle.localKeypair 33
  obtain ⟨w₀, w, hw₀, hstep, hc⟩ := step_of_runsTo localnet (opening ++ funding ++
      [.outside (.createTokenAccount (Localnet.key 70) usd (Localnet.key 10))])
    (.call (.requestWithdrawal (Localnet.key 10) indexBucket bucket (Localnet.key 70) 1 30 (Localnet.key 70)))
    (fun w₀ w => decide (w₀.clock < 2 ^ 63) &&
      (w₀.lane localnet 1 0 1).any (fun l : DirectionalLaneState => decide (l.settledCumulative = 0)) &&
      (w.lane localnet 1 0 1).any (fun l : DirectionalLaneState => decide
        (l.authorizedSigner = keypair.publicKey ∧ l.settledCumulative = 0 ∧ l.lockedBalance = 40)) &&
      (w.slot localnet 1).any (fun s : ParticipantBucketSlot => decide (s.owner = Localnet.key 11 ∧
        (Table.free (fun e : BucketTokenBalance => e.initialized) s.tokenBalances).isSome)) &&
      w.globalConfig.any (fun c : GlobalConfig => (Ed25519.createMultiMessageEd25519Instruction
        [(keypair, buildCommitmentMessageBytes c.messageDomain ⟨0, 1, 1, 25, none⟩)]).isSome))
    (by decide +kernel)
  simp only [Bool.and_eq_true, Option.any_eq_true, decide_eq_true_eq] at hc
  obtain ⟨⟨⟨⟨hclock, l₀, hl₀, hzero⟩, l, hl, hsigner, hsettled, hlocked⟩, s, hs, howner, hfree⟩, c,
    hconfig, hix⟩ := hc
  obtain ⟨ix, hix⟩ := Option.isSome_iff_exists.mp hix
  have hsafe : SafePair 0 1 := safePair_of_lt (by decide) (by decide)
  obtain ⟨ch, hread⟩ := hw₀.exists_fetchChannel hclock hsafe (.inl (by rw [hl₀]; rfl))
  have hamount : nextCommitmentAmount ch 25 = 25 := by
    rw [hw₀.fetchChannel_sound hclock (by decide) hsafe hread, hl₀, nextCommitmentAmount]
    exact congrArg (· + 25) hzero
  have hix : Ed25519.createMultiMessageEd25519Instruction [(keypair, buildCommitmentMessageBytes
      c.messageDomain ⟨0, 1, 1, nextCommitmentAmount ch 25, none⟩)] = some ix := by
    rw [hamount]
    exact hix
  obtain ⟨w', s', hstep', hpaid, -, hslot, -⟩ := nextCommitment_settles hw₀ hclock hsafe
    (by decide) hread (.next (.start rfl) hstep) [] hconfig (by rw [hamount]; decide)
    hix hl hsigner (by rw [hamount, hsettled]; decide)
    (by rw [hamount, hsettled, hlocked]; decide) hs (.inr hfree) (.inl howner.symm) (by decide)
  exact ⟨w₀, w, w', _, _, hstep, hstep', hpaid.trans hamount, hslot⟩

end Ryvo
