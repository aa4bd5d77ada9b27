import Ryvo.Settlement.ByIndex
import Ryvo.Settlement.Round

/-!
# Settlement — By address

What the batch instructions are for: each participant's bucket and each pair's channel bucket read and written at its own address.  These handlers take no remaining accounts and verify none.

* `ParticipantBucket`s are at `slotKey`, `ChannelBucket`s at `channelAddress`; no other account is named below.
* `…_placed` follows an accepted run of a handler that keeps indices: its vectors are in place (`IndexBindings.Exact`), and it is the run of the handler that goes by address.
-/

namespace Ryvo

variable (env : Env) (w : World)

/-- The address of a participant bucket. -/
def bucketAddress (env : Env) (id : U32) : Pubkey := env.address (.participantBucket id)

namespace SettleClearingRound.ByAddress

structure Roster (α : Type) where
  seenParticipantIds : List U32
  states : List ParticipantRoundState
  aggregate : Option α

variable {α : Type} (auth : Authentication α)

def openBlock (tokenId : U16) (r : Roster α) (block : ParticipantBlockMeta) :
    Result (Roster α) := do
  let seenParticipantIds ←
    insertUnique .invalidClearingRoundMessage r.seenParticipantIds block.participantId
  let data ← w.getParticipantBucket (slotKey env block.participantId)
  let snapshot ← data.readClearingSnapshotFromData block.participantId tokenId
  require (snapshot.owner ≠ Pubkey.default) (.vault .participantNotFound)
  let aggregate ← foldIfPaying auth r.aggregate snapshot block.entryCount
  pure { seenParticipantIds
         states := r.states ++ [⟨block.participantId, slotKey env block.participantId,
           snapshot.tokenTotalBalance, 0⟩]
         aggregate }

structure Progress where
  world : World
  states : List ParticipantRoundState
  totalGross : Nat

def settleLane (tokenId : U16) (blockIndex : Nat) (p : Progress) (entry : ChannelEntry) :
    Result Progress := do
  let payer ← okOr p.states[blockIndex]? (.vault .invalidClearingRoundMessage)
  let payee ← okOr p.states[entry.payeeRef]? (.vault .invalidClearingRoundMessage)
  let (lower, higher, selector) ←
    ChannelBucket.canonicalize payer.participantId payee.participantId
  let channelBucketId ← ChannelBucket.bucketIdForPair lower higher
  let channel := channelAddress env tokenId channelBucketId
  let channelData ← p.world.getChannelBucket channel
  let (laneOffset, lane) ← channelData.readLaneForSelectorFromData lower higher selector
  require (lane.settledCumulative < entry.targetCumulative) (.vault .commitmentAmountMustIncrease)
  let delta ← subU64 entry.targetCumulative lane.settledCumulative
  let totalGross ← addU64 p.totalGross delta
  let lockedConsumed := min lane.lockedBalance delta
  let uncoveredDelta ← subU64 delta lockedConsumed
  let states ← addPosition p.states blockIndex (-uncoveredDelta)
  let states ← addPosition states entry.payeeRef delta
  let (world, _) ← p.world.editChannelBucket channel
    (·.applyLaneSettlementAtOffsetInData laneOffset entry.targetCumulative lockedConsumed)
  pure ⟨world, states, totalGross⟩

def settleEntries (tokenId : U16) (blockIndex : Nat) :
    Nat → List UInt8 → Nat → Progress → Result Progress
  | 0, _, _, p => .ok p
  | n + 1, msg, seen, p => do
      let (entry, rest) ← parseChannelEntry msg
      require (entry.payeeRef < p.states.length) (.vault .invalidClearingRoundMessage)
      require (seen.testBit entry.payeeRef = false) (.vault .invalidClearingRoundMessage)
      let p ← settleLane env tokenId blockIndex p entry
      settleEntries tokenId blockIndex n rest (seen ||| 1 <<< entry.payeeRef) p

def settleBlock (tokenId : U16) (p : Progress) (block : ParticipantBlockMeta × Nat) :
    Result Progress :=
  settleEntries env tokenId block.2 block.1.entryCount block.1.entries 0 p

def settle (layout : ParsedClearingRoundLayout) : Result World := do
  let roster ← layout.blocks.foldlM (openBlock env w auth layout.tokenId) ⟨[], [], none⟩
  auth.verify roster.aggregate
  let p ← layout.blocks.zipIdx.foldlM (settleBlock env layout.tokenId) ⟨w, roster.states, 0⟩
  let _ ← p.states.foldlM checkPosition 0
  let w ← p.states.foldlM (applyPosition layout.tokenId) p.world
  let _ ← tryFrom (2 ^ 16) layout.blocks.length (Error.vault .mathOverflow)
  let _ ← tryFrom (2 ^ 16) layout.channelCount (Error.vault .mathOverflow)
  pure w

end SettleClearingRound.ByAddress

namespace SettleCommitmentBundle.ByAddress

structure Progress where
  world : World
  seenLaneKeys : List Nat
  deltas : BalanceDeltas
  total : Nat

def settleCommitment (auth : Authorities) (payeeOwner : Pubkey) (p : Progress)
    (commitment : ParsedBundleCommitment) : Result Progress := do
  let parsed := commitment.parsed
  require ((auth commitment).submitter payeeOwner = true) (.vault .unauthorizedSettler)
  let seenLaneKeys ← insertUnique .invalidCommitmentMessage p.seenLaneKeys
    (laneKey parsed.payerId parsed.payeeId)
  let (lower, higher, selector) ← ChannelBucket.canonicalize parsed.payerId parsed.payeeId
  let channelBucketId ← ChannelBucket.bucketIdForPair lower higher
  let channel := channelAddress env parsed.tokenId channelBucketId
  let channelData ← p.world.getChannelBucket channel
  let (laneOffset, lane) ← channelData.readLaneForSelectorFromData lower higher selector
  require ((auth commitment).signer lane.authorizedSigner = true) (.vault .invalidSignature)
  require (lane.settledCumulative < parsed.committedAmount) (.vault .commitmentAmountMustIncrease)
  let amount ← subU64 parsed.committedAmount lane.settledCumulative
  let lockedConsumed := min lane.lockedBalance amount
  let payerData ← p.world.getParticipantBucket (slotKey env parsed.payerId)
  let payerTokenBalance ← payerData.readTokenTotalBalanceFromData parsed.payerId parsed.tokenId
  let totalAvailable ← addU64 lane.lockedBalance payerTokenBalance
  require (amount ≤ totalAvailable) (.vault .insufficientBalance)
  let sharedDebit ← subU64 amount lockedConsumed
  let total ← addU64 p.total amount
  let deltas ← addBalanceDelta p.deltas parsed.payerId (-sharedDebit)
  let deltas ← addBalanceDelta deltas parsed.payeeId amount
  let (world, _) ← p.world.editChannelBucket channel
    (·.applyLaneSettlementAtOffsetInData laneOffset parsed.committedAmount lockedConsumed)
  pure ⟨world, seenLaneKeys, deltas, total⟩

def applyBucket (tokenId : U16) (deltas : BalanceDeltas) (w : World) (bucketId : U32) :
    Result World := do
  let (w, _) ← w.editParticipantBucket (bucketAddress env bucketId) fun data => do
    let data ← deltas.foldlM (fun data delta =>
      SettleIndividual.applyIn bucketId data delta.1 tokenId delta.2) data
    pure (data, ())
  pure w

def settle (auth : Authorities) (tokenId : U16) (payeeId : U32)
    (commitments : List ParsedBundleCommitment) : Result World := do
  let payeeData ← w.getParticipantBucket (slotKey env payeeId)
  let payeeOwner ← payeeData.readSlotOwnerFromData payeeId
  let p ← commitments.foldlM (settleCommitment env auth payeeOwner) ⟨w, [], [], 0⟩
  (participantBucketIds payeeId (commitments.map (·.parsed.payerId))).foldlM
    (applyBucket env tokenId p.deltas) p.world

end SettleCommitmentBundle.ByAddress

namespace DepositFor.ByAddress

def creditOne (tokenId : U16) (w : World) (recipient : U32 × Nat) : Result World := do
  require (0 < recipient.2) (.vault .amountMustBePositive)
  let (w, _) ← w.editParticipantBucket (slotKey env recipient.1)
    (·.applyTokenDeltaInData recipient.1 tokenId recipient.2)
  pure w

end DepositFor.ByAddress

/-! ### Opening the blocks -/

open IndexBindings

variable {env w} {remaining : List Pubkey} {t : U16}

theorem remainingAccount_eq_ok {index : Nat} {k : Pubkey} :
    remainingAccount remaining index = .ok k ↔ remaining[index]? = some k := okOr_eq_ok

theorem getD_of_getElem? {index : Nat} {k : Pubkey} (h : remaining[index]? = some k) :
    remaining.getD index Pubkey.default = k := by
  rw [List.getD_eq_getElem?_getD, h, Option.getD_some]

/-- The id a participant's bucket account is verified for. -/
theorem bucket_verified (hl : Located env w) {id : U32} {k : Pubkey}
    (h : ParticipantBucket.verifyAccountInfo env w k id = .ok ()) : k = bucketAddress env id :=
  ((verifyParticipantBucket hl).mp h).1

/-- A lane read and settled at its channel bucket's address. -/
theorem Located.settled {w₁ : World} {p q lower higher : U32} {sel : LaneSelector} {id : U64}
    {off : LaneOffset} {l : DirectionalLaneState} {data : ChannelBucket} {target used : Nat} {u : Unit}
    (hl : Located env w) (hc : ChannelBucket.canonicalize p q = .ok (lower, higher, sel))
    (hid : ChannelBucket.bucketIdForPair lower higher = .ok id)
    (hdata : w.getChannelBucket (channelAddress env t id) = .ok data)
    (hread : data.readLaneForSelectorFromData lower higher sel = .ok (off, l))
    (hedit : w.editChannelBucket (channelAddress env t id)
      (·.applyLaneSettlementAtOffsetInData off target used) = .ok (w₁, u)) : Located env w₁ := by
  have hkey : laneKey env t p q = some (channelAddress env t id) :=
    laneKey_eq_some.mpr ⟨id, laneBucketId_eq_ok.mpr ⟨lower, higher, sel, hc, hid⟩, rfl⟩
  obtain ⟨-, hlane, -, rfl⟩ := (settleLane_eq_ok _ _ hkey hc).mp
    ⟨⟨data, by simpa [World.getChannelBucket] using hdata, hread⟩, hedit⟩
  exact hl.writeLane (show l.initialized = true from lane_initialized hlane)

/-- Different buckets are at different addresses. -/
theorem nodup_bucketAddresses {ids : List U32} (h : ids.Nodup) :
    (ids.map (bucketAddress env)).Nodup :=
  h.map fun a b e => by simpa [bucketAddress] using e

theorem nodup_addresses {ids : List U32} {channelIds : List U64} (h : ids.Nodup)
    (h' : channelIds.Nodup) :
    (ids.map (bucketAddress env) ++ channelIds.map (channelAddress env t)).Nodup := by
  rw [List.nodup_append]
  refine ⟨nodup_bucketAddresses h, h'.map fun a b e => by simpa [channelAddress] using e, ?_⟩
  rintro k hk k' hk' rfl
  obtain ⟨a, -, rfl⟩ := List.mem_map.mp hk
  obtain ⟨b, -, hb⟩ := List.mem_map.mp hk'
  simp [bucketAddress, channelAddress] at hb

/-- The channel buckets of a list of lanes, one for each lane. -/
def channelBucketIds (es : List LaneEntry) : List U64 :=
  es.filterMap fun e => (laneBucketId e.payer e.payee).toOption

theorem channelBucketIds_snoc {done : List LaneEntry} {e : LaneEntry} {id : U64}
    (h : laneBucketId e.payer e.payee = .ok id) :
    channelBucketIds (done ++ [e]) = channelBucketIds done ++ [id] := by
  simp [channelBucketIds, h, Except.toOption]

namespace SettleClearingRound

variable {α : Type} {auth : Authentication α} {block : ParticipantBlockMeta}
variable {opened : List ParticipantBlockMeta} {r r' : ByIndex.Roster α}

/-- A participant and the index kept with it. -/
def holder (s : ByIndex.ParticipantRoundState) : U32 × Nat := (s.participantId, s.bucketAccount)

/-- Each index is the one of its participant's own bucket account. -/
def Held (env : Env) (remaining : List Pubkey) (holders : List (U32 × Nat)) : Prop :=
  ∀ x ∈ holders, remaining[x.2]? = some (slotKey env x.1)

/-- The buckets of a list of blocks, one for each block. -/
def bucketIds (blocks : List ParticipantBlockMeta) : List U32 :=
  blocks.map fun b => ParticipantBucket.bucketIdForParticipantId b.participantId

/-- What holds of the indices after the blocks of `opened`. -/
structure RosterPlaced (env : Env) (remaining : List Pubkey) (opened : List ParticipantBlockMeta)
    (r : ByIndex.Roster α) : Prop where
  places : Places remaining (bucketAddress env) 0 (firsts (bucketIds opened))
    r.participantBucketBindings
  sorted : SortedBy Prod.fst r.participantBucketBindings
  next : r.nextParticipantBucketAccountIndex = r.participantBucketBindings.length
  held : Held env remaining (r.states.map holder)
  roster : r.states.map (·.participantId) = opened.map (·.participantId)

/-- The state without its bookkeeping. -/
def ByIndex.Roster.forget (remaining : List Pubkey) (r : ByIndex.Roster α) : ByAddress.Roster α :=
  ⟨r.seenParticipantIds, r.states.map (resolve remaining), r.aggregate⟩

theorem RosterPlaced.nil : RosterPlaced env remaining [] (⟨[], [], 0, [], none⟩ : ByIndex.Roster α) :=
  ⟨.nil, List.Pairwise.nil, rfl, by simp [Held], rfl⟩

/-- One more block. -/
theorem openBlock_placed (hl : Located env w) (ho : RosterPlaced env remaining opened r)
    (h : ByIndex.openBlock env w auth remaining t r block = .ok r') :
    RosterPlaced env remaining (opened ++ [block]) r' ∧
      ByAddress.openBlock env w auth t (r.forget remaining) block = .ok (r'.forget remaining) := by
  simp only [ByIndex.openBlock, Except.bind_eq_ok, require_eq_ok, exists_const, Prod.exists,
    remainingAccount_eq_ok, Except.pure_eq_ok] at h
  obtain ⟨seen, hseen, bindings, next, index, hbind, account, hacc, data, hdata, snapshot, hsnap,
    howner, aggregate, hagg, rfl⟩ := h
  rw [ho.next, ← Nat.zero_add r.participantBucketBindings.length] at hbind
  obtain ⟨hplaces, hsorted, hnext, hmem⟩ :=
    ho.places.bind searches_sorted ho.sorted (fun _ hv => bucket_verified hl hv) hbind
  have hown := hplaces.account_of_mem hmem
  obtain rfl : account = slotKey env block.participantId := Option.some.inj (hacc.symm.trans hown)
  refine ⟨⟨?_, hsorted, ?_, ?_, ?_⟩, ?_⟩
  · rw [bucketIds, List.map_append, List.map_singleton, firsts_snoc]
    exact hplaces
  · rw [hnext, Nat.zero_add]
  · rw [List.map_append, List.map_singleton]
    intro x hx
    rcases List.mem_append.mp hx with hx | hx
    · exact ho.held x hx
    · obtain rfl := List.mem_singleton.mp hx
      exact hacc
  · simp only [List.map_append, List.map_singleton, ho.roster]
  · simp only [ByAddress.openBlock, Except.bind_eq_ok, require_eq_ok, exists_const,
      Except.pure_eq_ok]
    refine ⟨seen, hseen, data, hdata, snapshot, hsnap, howner, aggregate, hagg, ?_⟩
    simp only [ByIndex.Roster.forget, List.map_append, List.map_singleton, resolve,
      getD_of_getElem? hacc]

theorem openBlocks_placed {blocks : List ParticipantBlockMeta} (hl : Located env w)
    (h : blocks.foldlM (ByIndex.openBlock env w auth remaining t) ⟨[], [], 0, [], none⟩ = .ok r) :
    RosterPlaced env remaining blocks r ∧
      blocks.foldlM (ByAddress.openBlock env w auth t) ⟨[], [], none⟩ = .ok (r.forget remaining) :=
  foldlM_snoc (d := []) (P := fun done r => RosterPlaced env remaining done r ∧
      done.foldlM (ByAddress.openBlock env w auth t) ⟨[], [], none⟩ = .ok (r.forget remaining))
    ⟨.nil, rfl⟩ (fun done b r r' ⟨hp, hr⟩ hb => by
      obtain ⟨hp', hr'⟩ := openBlock_placed hl hp hb
      exact ⟨hp', foldlM_snoc_eq_ok.mpr ⟨_, hr, hr'⟩⟩) h

/-! ### The lanes -/

variable {ids : List U32} {done : List LaneEntry} {holders : List (U32 × Nat)} {next : Nat}
variable {p p' : ByIndex.Progress}

/-- What holds of the indices after the lanes of `done`. -/
structure LanesPlaced (env : Env) (t : U16) (remaining : List Pubkey) (next : Nat)
    (holders : List (U32 × Nat)) (done : List LaneEntry) (p : ByIndex.Progress) : Prop where
  located : Located env p.world
  places : Places remaining (channelAddress env t) next (firsts (channelBucketIds done))
    p.channelBucketBindings
  sorted : SortedBy Prod.fst p.channelBucketBindings
  holders : p.states.map holder = holders

/-- The state without its bookkeeping. -/
def ByIndex.Progress.forget (remaining : List Pubkey) (p : ByIndex.Progress) : ByAddress.Progress :=
  ⟨p.world, p.states.map (resolve remaining), p.totalGross⟩

/-- The participant at a position of the roster. -/
theorem getElem?_holders {s : List ByIndex.ParticipantRoundState} {i : Nat}
    {x : ByIndex.ParticipantRoundState} (hx : s[i]? = some x) :
    (s.map holder)[i]? = some (x.participantId, x.bucketAccount) := by
  rw [List.getElem?_map, hx]
  rfl

theorem addPosition_placed (remaining : List Pubkey) {s s' : List ByIndex.ParticipantRoundState} {i : Nat} {delta : Int}
    (h : addPosition s i delta = .ok s') : s'.map holder = s.map holder ∧
      addPosition (s.map (resolve remaining)) i delta = .ok (s'.map (resolve remaining)) := by
  simp only [addPosition, Except.bind_eq_ok, okOr_eq_ok, Except.pure_eq_ok] at h
  obtain ⟨x, hx, net, hnet, rfl⟩ := h
  obtain ⟨hlt, rfl⟩ := List.getElem?_eq_some_iff.mp hx
  refine ⟨?_, ?_⟩
  · rw [List.map_set]
    refine List.ext_getElem? fun j => ?_
    by_cases hj : i = j
    · subst hj
      simp [hlt, holder]
    · simp [hj]
  · simp only [addPosition, List.getElem?_map, hx, Option.map_some, okOr, Except.ok_bind,
      Except.bind_eq_ok, Except.pure_eq_ok]
    exact ⟨net, hnet, by rw [List.map_set]; rfl⟩

/-- One more lane. -/
theorem settleLane_placed {i : Nat} {entry : ChannelEntry} {payer : U32 × Nat}
    (hp : LanesPlaced env t remaining next holders done p) (hi : holders[i]? = some payer)
    (h : ByIndex.settleLane env remaining next t i p entry = .ok p') :
    ∃ payee, (holders.map Prod.fst)[entry.payeeRef]? = some payee ∧
      LanesPlaced env t remaining next holders
        (done ++ [⟨payer.1, payee, entry.targetCumulative⟩]) p' ∧
      ByAddress.settleLane env t i (p.forget remaining) entry = .ok (p'.forget remaining) := by
  simp only [ByIndex.settleLane, Except.bind_eq_ok, require_eq_ok, exists_const, Prod.exists,
    okOr_eq_ok, remainingAccount_eq_ok, Except.pure_eq_ok] at h
  obtain ⟨x, hx, y, hy, lower, higher, sel, hc, id, hid, bindings, next', index, hbind, channel,
    hacc, data, hdata, i', sel', l, hread, hlt, delta, hdelta, gross, hgross, uncovered, hunc,
    states₁, h₁, states₂, h₂, w₁, u, hedit, rfl⟩ := h
  obtain ⟨hplaces, hsorted, -, hmem⟩ := hp.places.bind searches_sorted hp.sorted
    (fun _ hv => ((verifyChannelBucket hp.located).mp hv).1) hbind
  have hown := hplaces.account_of_mem hmem
  obtain rfl : channel = channelAddress env t id := Option.some.inj (hacc.symm.trans hown)
  obtain rfl : payer = (x.participantId, x.bucketAccount) :=
    Option.some.inj (hi.symm.trans (hp.holders ▸ getElem?_holders hx))
  have hbucket : laneBucketId x.participantId y.participantId = .ok id :=
    laneBucketId_eq_ok.mpr ⟨lower, higher, sel, hc, hid⟩
  obtain ⟨hh₁, hs₁⟩ := addPosition_placed remaining h₁
  obtain ⟨hh₂, hs₂⟩ := addPosition_placed remaining h₂
  refine ⟨y.participantId, ?_, ⟨?_, ?_, hsorted, ?_⟩, ?_⟩
  · rw [List.getElem?_map, ← hp.holders, getElem?_holders hy]
    rfl
  · exact hp.located.settled hc hid hdata hread hedit
  · rw [channelBucketIds_snoc hbucket, firsts_snoc]
    exact hplaces
  · rw [hh₂, hh₁, hp.holders]
  · simp only [ByAddress.settleLane, ByIndex.Progress.forget, List.getElem?_map, hx, hy,
      Option.map_some, Except.bind_eq_ok, require_eq_ok, exists_const, Prod.exists, okOr_eq_ok,
      Except.pure_eq_ok]
    exact ⟨_, rfl, _, rfl, lower, higher, sel, hc, id, hid, data, hdata, i', sel', l, hread, hlt, delta,
      hdelta, gross, hgross, uncovered, hunc, _, hs₁, _, hs₂, _, u, hedit, rfl⟩

/-- The entries of a block. -/
theorem settleEntries_placed {i n seen : Nat} {msg : List UInt8} {payer : U32 × Nat}
    (hp : LanesPlaced env t remaining next holders done p) (hi : holders[i]? = some payer)
    (h : ByIndex.settleEntries env remaining next t i n msg seen p = .ok p') :
    ∃ entries rest es, parseChannelEntries n msg = .ok (entries, rest) ∧
      entries.mapM (·.laneEntry (holders.map Prod.fst) payer.1) = .ok es ∧
      LanesPlaced env t remaining next holders (done ++ es) p' ∧
      ByAddress.settleEntries env t i n msg seen (p.forget remaining) = .ok (p'.forget remaining) := by
  induction n generalizing msg seen p done with
  | zero =>
      obtain rfl := Except.ok.inj h
      exact ⟨[], msg, [], rfl, rfl, by rwa [List.append_nil], rfl⟩
  | succ n ih =>
      simp only [ByIndex.settleEntries, Except.bind_eq_ok, require_eq_ok, exists_const,
        Prod.exists] at h
      obtain ⟨entry, rest, hparse, hlt, hunseen, p₁, hlane, h⟩ := h
      obtain ⟨payee, hpayee, hp₁, hdirect⟩ := settleLane_placed hp hi hlane
      obtain ⟨entries, rest', es, hentries, hes, hp', hdirect'⟩ := ih hp₁ h
      rw [List.append_assoc, List.singleton_append] at hp'
      refine ⟨entry :: entries, rest', _, ?_, ?_, hp', ?_⟩
      · simp only [parseChannelEntries, hparse, hentries, Except.ok_bind, Except.pure_eq_ok]
      · exact mapM_cons_eq_ok.mpr ⟨_, es, laneEntry_eq_ok.mpr ⟨payee, hpayee, rfl⟩, hes, rfl⟩
      · simp only [ByAddress.settleEntries, Except.bind_eq_ok, require_eq_ok, exists_const,
          Prod.exists]
        refine ⟨entry, rest, hparse, ?_, hunseen, _, hdirect, hdirect'⟩
        simpa only [ByIndex.Progress.forget, List.length_map] using hlt

/-- The blocks from position `i` on. -/
theorem settleBlocks_placed {i : Nat} {blocks : List ParticipantBlockMeta}
    (hp : LanesPlaced env t remaining next holders done p)
    (hi : blocks.map (·.participantId) <+: (holders.map Prod.fst).drop i)
    (h : (blocks.zipIdx i).foldlM (ByIndex.settleBlock env remaining next t) p = .ok p') :
    ∃ lists, blocks.mapM (·.laneEntries (holders.map Prod.fst)) = .ok lists ∧
      LanesPlaced env t remaining next holders (done ++ lists.flatten) p' ∧
      (blocks.zipIdx i).foldlM (ByAddress.settleBlock env t) (p.forget remaining)
        = .ok (p'.forget remaining) := by
  induction blocks generalizing i p done with
  | nil =>
      obtain rfl := foldlM_nil_eq_ok.mp h
      exact ⟨[], rfl, by simpa using hp, rfl⟩
  | cons block blocks ih =>
      rw [List.zipIdx_cons] at h ⊢
      obtain ⟨p₁, h₁, h⟩ := foldlM_cons_eq_ok.mp h
      obtain ⟨more, hmore⟩ := hi
      rw [List.map_cons, List.cons_append] at hmore
      have hpayer : (holders.map Prod.fst)[i]? = some block.participantId := by
        rw [← List.head?_drop, ← hmore]
        rfl
      have hrest : blocks.map (·.participantId) <+: (holders.map Prod.fst).drop (i + 1) :=
        ⟨more, by rw [← List.tail_drop, ← hmore]; rfl⟩
      rw [List.getElem?_map, Option.map_eq_some_iff] at hpayer
      obtain ⟨payer, hpayer, hid⟩ := hpayer
      obtain ⟨entries, rest, es, hentries, hes, hp₁, hdirect⟩ := settleEntries_placed hp hpayer h₁
      obtain ⟨lists, hlists, hp', hdirect'⟩ := ih hp₁ hrest h
      rw [hid] at hes
      refine ⟨es :: lists, mapM_cons_eq_ok.mpr ⟨es, lists, ?_, hlists, rfl⟩, ?_, ?_⟩
      · simp only [ParticipantBlockMeta.laneEntries, ParticipantBlockMeta.readEntries, hentries,
          Except.ok_bind]
        exact hes
      · rwa [List.flatten_cons, ← List.append_assoc]
      · exact foldlM_cons_eq_ok.mpr ⟨_, hdirect, hdirect'⟩

/-- What settles a block settles its first entries. -/
theorem settleEntries_take {i n m seen : Nat} {msg : List UInt8} (hm : m ≤ n)
    (h : ByIndex.settleEntries env remaining next t i n msg seen p = .ok p') :
    ∃ p₁, ByIndex.settleEntries env remaining next t i m msg seen p = .ok p₁ := by
  induction m generalizing n msg seen p with
  | zero => exact ⟨p, rfl⟩
  | succ m ih =>
      obtain ⟨n, rfl⟩ : ∃ k, n = k + 1 := ⟨n - 1, by omega⟩
      simp only [ByIndex.settleEntries, Except.bind_eq_ok, require_eq_ok, exists_const,
        Prod.exists] at h ⊢
      obtain ⟨entry, rest, hparse, hlt, hunseen, p₁, hlane, h⟩ := h
      obtain ⟨p₂, h₂⟩ := ih (Nat.le_of_succ_le_succ hm) h
      exact ⟨p₂, entry, rest, hparse, hlt, hunseen, p₁, hlane, h₂⟩

/-- The round as far as the first `n` entries of a block. -/
def upTo (before : List ParticipantBlockMeta) (block : ParticipantBlockMeta) (n : Nat) :
    List ParticipantBlockMeta :=
  before ++ [{ block with entryCount := n }]

/-- What an accepted round does with its remaining accounts. -/
structure AccountsBound (env : Env) (w : World) (auth : Authentication α) (remaining : List Pubkey)
    (layout : ParsedClearingRoundLayout) (w' : World) : Prop where
  participants : ∀ opened rest, layout.blocks = opened ++ rest → ∃ r : ByIndex.Roster α,
    opened.foldlM (ByIndex.openBlock env w auth remaining layout.tokenId) ⟨[], [], 0, [], none⟩
        = .ok r ∧
      SortedBy Prod.fst r.participantBucketBindings ∧
      Exact searchSorted remaining (bucketAddress env) 0 (firsts (bucketIds opened))
        r.participantBucketBindings ∧
      Held env remaining (r.states.map holder)
  channels : ∃ r, ByIndex.openBlocks env w auth remaining layout = .ok r ∧
    ∀ before block rest n, layout.blocks = before ++ block :: rest → n ≤ block.entryCount →
      ∃ lists p, (upTo before block n).mapM (·.laneEntries layout.roster) = .ok lists ∧
        (upTo before block n).zipIdx.foldlM (ByIndex.settleBlock env remaining
          r.nextParticipantBucketAccountIndex layout.tokenId) ⟨w, [], r.states, 0⟩ = .ok p ∧
        SortedBy Prod.fst p.channelBucketBindings ∧
        Exact searchSorted remaining (channelAddress env layout.tokenId)
          (firsts (bucketIds layout.blocks)).length (firsts (channelBucketIds lists.flatten))
          p.channelBucketBindings ∧
        Held env remaining (p.states.map holder)
  accounts : ∃ es, layout.entries = .ok es ∧
    remaining = (firsts (bucketIds layout.blocks)).map (bucketAddress env) ++
      (firsts (channelBucketIds es)).map (channelAddress env layout.tokenId)
  once : remaining.Nodup
  byAddress : ByAddress.settle env w auth layout = .ok w'

theorem settle_placed {layout : ParsedClearingRoundLayout} {w' : World} (hl : Located env w)
    (h : ByIndex.settle env w auth remaining layout = .ok w') :
    AccountsBound env w auth remaining layout w' := by
  simp only [ByIndex.settle, Except.bind_eq_ok, require_eq_ok, exists_const, Except.pure_eq_ok] at h
  obtain ⟨r, hopen, u, hverify, p, hlanes, hall, net, hcheck, w₁, happly, n₁, h₁, n₂, h₂, rfl⟩ := h
  obtain ⟨hr, hdirect⟩ := openBlocks_placed hl hopen
  have hroster : (r.states.map holder).map Prod.fst = layout.roster := by
    rw [List.map_map]
    exact hr.roster
  have hnext : r.nextParticipantBucketAccountIndex = (firsts (bucketIds layout.blocks)).length := by
    rw [hr.next, hr.places.length]
  have hstart : LanesPlaced env layout.tokenId remaining r.nextParticipantBucketAccountIndex
      (r.states.map holder) [] ⟨w, [], r.states, 0⟩ := ⟨hl, .nil, List.Pairwise.nil, rfl⟩
  obtain ⟨lists, hlists, hp, hdirect'⟩ := settleBlocks_placed hstart
    (by rw [hroster]; exact List.prefix_refl _) hlanes
  rw [hroster] at hlists
  have haccounts : remaining = (firsts (bucketIds layout.blocks)).map (bucketAddress env) ++
      (firsts (channelBucketIds lists.flatten)).map (channelAddress env layout.tokenId) := by
    have hp' := hp.places
    rw [List.nil_append, hr.next] at hp'
    exact hr.places.accounts_append hp' (hr.next ▸ hall)
  have hentries : layout.entries = .ok lists.flatten := by
    rw [ParsedClearingRoundLayout.entries, hlists]
    rfl
  refine ⟨fun opened rest hblocks => ?_, ⟨r, hopen, fun before block rest n hblocks hn => ?_⟩,
    ⟨lists.flatten, hentries, haccounts⟩, ?_, ?_⟩
  · rw [ByIndex.openBlocks, hblocks, List.foldlM_append, Except.bind_eq_ok] at hopen
    obtain ⟨r₁, h₁, -⟩ := hopen
    obtain ⟨hr₁, -⟩ := openBlocks_placed hl h₁
    exact ⟨r₁, h₁, hr₁.sorted, hr₁.places.exact searches_sorted hr₁.sorted, hr₁.held⟩
  · rw [ByIndex.settleBlocks, hblocks, List.zipIdx_append, List.foldlM_append,
      Except.bind_eq_ok] at hlanes
    obtain ⟨p₀, hp₀, hlanes⟩ := hlanes
    rw [List.zipIdx_cons] at hlanes
    obtain ⟨p₁, hp₁, -⟩ := foldlM_cons_eq_ok.mp hlanes
    obtain ⟨p₂, hp₂⟩ := settleEntries_take hn hp₁
    have hrun : (upTo before block n).zipIdx.foldlM (ByIndex.settleBlock env remaining
        r.nextParticipantBucketAccountIndex layout.tokenId) ⟨w, [], r.states, 0⟩ = .ok p₂ := by
      rw [upTo, List.zipIdx_append, List.foldlM_append, hp₀]
      exact foldlM_cons_eq_ok.mpr ⟨p₂, hp₂, rfl⟩
    have hprefix : (upTo before block n).map (·.participantId) <+:
        ((r.states.map holder).map Prod.fst).drop 0 := by
      rw [hroster, List.drop_zero, ParsedClearingRoundLayout.roster, hblocks]
      exact ⟨rest.map (·.participantId), by simp [upTo]⟩
    obtain ⟨lists, hlists, hp, -⟩ := settleBlocks_placed hstart hprefix hrun
    rw [hroster] at hlists
    rw [List.nil_append, hnext] at hp
    refine ⟨lists, p₂, hlists, hrun, hp.sorted, hp.places.exact searches_sorted hp.sorted, ?_⟩
    rw [hp.holders]
    exact hr.held
  · rw [haccounts]
    exact nodup_addresses nodup_firsts nodup_firsts
  · -- No participant's account is out of range.
    have hrange : ∀ x ∈ p.states, x.bucketAccount < remaining.length := fun x hx => by
      have hheld := hr.held (holder x) (hp.holders ▸ List.mem_map.mpr ⟨x, hx, rfl⟩)
      exact (List.getElem?_eq_some_iff.mp hheld).1
    simp only [ByAddress.settle, Except.bind_eq_ok, Except.pure_eq_ok]
    refine ⟨_, hdirect, u, hverify, p.forget remaining, hdirect', net, ?_, w₁, ?_, n₁, h₁, n₂, h₂, rfl⟩
    · rw [ByIndex.Progress.forget, List.foldlM_map]
      exact hcheck
    · rw [ByIndex.Progress.forget, applyPositions_resolve hrange]
      exact happly

end SettleClearingRound

namespace SettleCommitmentBundle

variable {auth : Authorities} {buckets bound bound' : IndexBindings U32} {payeeOwner : Pubkey}
variable {c : ParsedBundleCommitment} {cs done : List ParsedBundleCommitment} {q id : U32}
variable {seen l : List U32} {p p' : ByIndex.Progress} {start index : Nat}

/-- The buckets of a bundle's participants: the payee's, and one for each payer. -/
def bucketIds (payeeId : U32) (commitments : List ParsedBundleCommitment) : List U32 :=
  ParticipantBucket.bucketIdForParticipantId payeeId ::
    commitments.map fun c => ParticipantBucket.bucketIdForParticipantId c.parsed.payerId

theorem participantBucketIds_eq_firsts :
    participantBucketIds q (cs.map (·.parsed.payerId)) = firsts (bucketIds q cs) := by
  simp only [participantBucketIds, List.map_map]
  rfl

/-! ### Binding the participant buckets -/

theorem bindBucket_placed (hl : Located env w)
    (hp : Places remaining (bucketAddress env) 0 seen bound) (hs : SortedBy Prod.fst bound)
    (h : ByIndex.bindBucket env w remaining bound (id, bound.length) = .ok bound') :
    Places remaining (bucketAddress env) 0 (seen ++ [id]) bound' ∧ SortedBy Prod.fst bound' ∧
      bound'.length = bound.length + 1 := by
  simp only [ByIndex.bindBucket, Except.bind_eq_ok, remainingAccount_eq_ok] at h
  obtain ⟨account, hacc, _, hver, h⟩ := h
  obtain rfl := bucket_verified hl hver
  cases hsearch : searchSorted bound id with
  | ok position => simp [hsearch] at h
  | error position =>
      simp only [hsearch, Except.ok.injEq] at h
      subst h
      obtain ⟨hle, hnew⟩ := searches_sorted.missing _ _ _ hs hsearch
      rw [← Nat.zero_add bound.length] at hacc
      have hp' := hp.insertIdx hle hnew hacc
      rw [Nat.zero_add] at hp'
      exact ⟨hp', searches_sorted.inserts _ _ _ _ hs hsearch,
        List.length_insertIdx_of_le_length hle _⟩

theorem bindBuckets_placed (hl : Located env w)
    (hp : Places remaining (bucketAddress env) 0 seen bound) (hs : SortedBy Prod.fst bound)
    (h : (l.zipIdx bound.length).foldlM (ByIndex.bindBucket env w remaining) bound = .ok bound') :
    Places remaining (bucketAddress env) 0 (seen ++ l) bound' ∧ SortedBy Prod.fst bound' := by
  induction l generalizing seen bound with
  | nil =>
      obtain rfl := foldlM_nil_eq_ok.mp h
      exact ⟨by rwa [List.append_nil], hs⟩
  | cons id l ih =>
      rw [List.zipIdx_cons] at h
      obtain ⟨bound₁, h₁, h⟩ := foldlM_cons_eq_ok.mp h
      obtain ⟨hp₁, hs₁, hlen⟩ := bindBucket_placed hl hp hs h₁
      rw [← hlen] at h
      have := ih hp₁ hs₁ h
      rwa [List.append_assoc, List.singleton_append] at this

/-- The index found for a bucket is the one of its account. -/
theorem findBucketAccountIndex_placed {k : Pubkey}
    (hp : Places remaining (bucketAddress env) 0 seen buckets)
    (h : ByIndex.findBucketAccountIndex buckets id = .ok index)
    (hk : remaining[index]? = some k) : k = bucketAddress env id := by
  unfold ByIndex.findBucketAccountIndex at h
  cases hsearch : searchSorted buckets id with
  | error position => simp [hsearch] at h
  | ok position =>
      obtain ⟨n, hn⟩ := searches_sorted.found _ _ _ hsearch
      simp only [hsearch, hn, okOr, Except.ok_bind, Except.pure_eq_ok] at h
      subst h
      exact Option.some.inj (hk.symm.trans (hp.account_of_mem (List.mem_of_getElem? hn)))

/-! ### The commitments -/

/-- What holds of the indices after the commitments of `done`. -/
structure CommitmentsPlaced (env : Env) (t : U16) (remaining : List Pubkey) (start : Nat)
    (done : List ParsedBundleCommitment) (p : ByIndex.Progress) : Prop where
  located : Located env p.world
  places : Places remaining (channelAddress env t) start (firsts (channelBucketIds (entries done)))
    p.channelBucketBindings
  sorted : SortedBy Prod.fst p.channelBucketBindings
  next : p.nextChannelBucketAccountIndex = start + p.channelBucketBindings.length

/-- The state without its bookkeeping. -/
def ByIndex.Progress.forget (p : ByIndex.Progress) : ByAddress.Progress :=
  ⟨p.world, p.seenLaneKeys, p.deltas, p.total⟩

/-- One more commitment. -/
theorem settleCommitment_placed (hb : Places remaining (bucketAddress env) 0 seen buckets)
    (hp : CommitmentsPlaced env t remaining start done p) (ht : c.parsed.tokenId = t)
    (h : ByIndex.settleCommitment env remaining auth buckets payeeOwner p c = .ok p') :
    CommitmentsPlaced env t remaining start (done ++ [c]) p' ∧
      ByAddress.settleCommitment env auth payeeOwner p.forget c = .ok p'.forget := by
  subst ht
  simp only [ByIndex.settleCommitment, Except.bind_eq_ok, require_eq_ok, exists_const, Prod.exists,
    remainingAccount_eq_ok, Except.pure_eq_ok] at h
  obtain ⟨hsub, keys, hkeys, lower, higher, sel, hc, id, hid, bindings, next, index, hbind, channel,
    hacc, data, hdata, i, sel', l, hread, hsig, hlt, amount, hamount, payerIndex, hfind, payerKey,
    hpk, payerData, hpd, balance, hbal, available, havail, hle, debit, hdebit, total, htotal, ds₁,
    hds₁, ds₂, hds₂, w₁, u, hedit, rfl⟩ := h
  rw [hp.next] at hbind
  obtain ⟨hplaces, hsorted, hnext, hmem⟩ := hp.places.bind searches_sorted hp.sorted
    (fun _ hv => ((verifyChannelBucket hp.located).mp hv).1) hbind
  have hown := hplaces.account_of_mem hmem
  obtain rfl : channel = channelAddress env c.parsed.tokenId id :=
    Option.some.inj (hacc.symm.trans hown)
  obtain rfl : payerKey = slotKey env c.parsed.payerId := findBucketAccountIndex_placed hb hfind hpk
  have hbucket : laneBucketId c.parsed.payerId c.parsed.payeeId = .ok id :=
    laneBucketId_eq_ok.mpr ⟨lower, higher, sel, hc, hid⟩
  refine ⟨⟨?_, ?_, hsorted, hnext⟩, ?_⟩
  · exact hp.located.settled hc hid hdata hread hedit
  · rw [entries_snoc, channelBucketIds_snoc hbucket, firsts_snoc]
    exact hplaces
  · simp only [ByAddress.settleCommitment, ByIndex.Progress.forget, Except.bind_eq_ok, require_eq_ok,
      exists_const, Prod.exists, Except.pure_eq_ok]
    exact ⟨hsub, keys, hkeys, lower, higher, sel, hc, id, hid, data, hdata, i, sel', l, hread, hsig,
      hlt, amount, hamount, payerData, hpd, balance, hbal, available, havail, hle, debit, hdebit,
      total, htotal, ds₁, hds₁, ds₂, hds₂, _, u, hedit, rfl⟩

theorem settleCommitments_placed (hb : Places remaining (bucketAddress env) 0 seen buckets)
    (hl : Located env w) (ht : ∀ c ∈ cs, c.parsed.tokenId = t)
    (h : cs.foldlM (ByIndex.settleCommitment env remaining auth buckets payeeOwner)
      ⟨w, [], start, [], [], 0⟩ = .ok p) :
    CommitmentsPlaced env t remaining start cs p ∧
      cs.foldlM (ByAddress.settleCommitment env auth payeeOwner) ⟨w, [], [], 0⟩ = .ok p.forget := by
  induction cs using List.reverseRecOn generalizing p with
  | nil =>
      obtain rfl := foldlM_nil_eq_ok.mp h
      exact ⟨⟨hl, .nil, List.Pairwise.nil, rfl⟩, rfl⟩
  | append_singleton cs c ih =>
      obtain ⟨p₁, h, h₁⟩ := foldlM_snoc_eq_ok.mp h
      obtain ⟨hp, hdirect⟩ := ih (fun c hc => ht c (List.mem_append_left _ hc)) h
      obtain ⟨hp', hdirect'⟩ := settleCommitment_placed hb hp (ht c (by simp)) h₁
      exact ⟨hp', foldlM_snoc_eq_ok.mpr ⟨_, hdirect, hdirect'⟩⟩

/-- The buckets from position `n` on. -/
theorem applyBuckets_placed {deltas : BalanceDeltas} {n : Nat}
    (hl : ∀ j id, l[j]? = some id → remaining[n + j]? = some (bucketAddress env id)) :
    (l.zipIdx n).foldlM (ByIndex.applyBucket remaining t deltas) w =
      l.foldlM (ByAddress.applyBucket env t deltas) w := by
  induction l generalizing n w with
  | nil => rfl
  | cons id l ih =>
      rw [List.zipIdx_cons, List.foldlM_cons, List.foldlM_cons]
      have hround : ByIndex.applyBucket remaining t deltas w (id, n) =
          ByAddress.applyBucket env t deltas w id := by
        have hacc := remainingAccount_eq_ok.mpr (hl 0 id rfl)
        simp only [ByIndex.applyBucket, ByAddress.applyBucket, Nat.add_zero] at hacc ⊢
        rw [hacc, Except.ok_bind]
      rw [hround]
      refine bind_congr fun w => ih fun j id hj => ?_
      rw [Nat.add_assoc, Nat.add_comm 1]
      exact hl (j + 1) id hj

/-- What an accepted bundle does with its remaining accounts. -/
structure AccountsBound (env : Env) (w : World) (auth : Authorities) (remaining : List Pubkey)
    (t : U16) (q : U32) (cs : List ParsedBundleCommitment) (w' : World) : Prop where
  participants : ∀ opened rest, firsts (bucketIds q cs) = opened ++ rest →
    ∃ bound, opened.zipIdx.foldlM (ByIndex.bindBucket env w remaining) [] = .ok bound ∧
      SortedBy Prod.fst bound ∧
      Exact searchSorted remaining (bucketAddress env) 0 opened bound
  channels : ∃ buckets payeeOwner,
    (firsts (bucketIds q cs)).zipIdx.foldlM (ByIndex.bindBucket env w remaining) [] = .ok buckets ∧
    (∃ s, w.slot env q = some s ∧ s.owner = payeeOwner) ∧
    ∀ done rest, cs = done ++ rest →
      ∃ p, done.foldlM (ByIndex.settleCommitment env remaining auth buckets payeeOwner)
          ⟨w, [], (firsts (bucketIds q cs)).length, [], [], 0⟩ = .ok p ∧
        SortedBy Prod.fst p.channelBucketBindings ∧
        Exact searchSorted remaining (channelAddress env t) (firsts (bucketIds q cs)).length
          (firsts (channelBucketIds (entries done))) p.channelBucketBindings
  accounts : remaining = (firsts (bucketIds q cs)).map (bucketAddress env) ++
    (firsts (channelBucketIds (entries cs))).map (channelAddress env t)
  once : remaining.Nodup
  byAddress : ByAddress.settle env w auth t q cs = .ok w'

theorem settle_placed {w' : World} (hl : Located env w)
    (hcs : ∀ c ∈ cs, c.parsed.tokenId = t)
    (h : ByIndex.settle env w remaining auth t q cs = .ok w') :
    AccountsBound env w auth remaining t q cs w' := by
  simp only [ByIndex.settle, participantBucketIds_eq, participantBucketIds_eq_firsts,
    Except.bind_eq_ok, require_eq_ok, exists_const, remainingAccount_eq_ok] at h
  obtain ⟨hlen, buckets, hbind, payeeIndex, hfind, payeeKey, hpk, payeeData, hpd, payeeOwner, howner,
    p, hloop, hall, happly⟩ := h
  obtain ⟨hb, hbs⟩ := bindBuckets_placed hl .nil List.Pairwise.nil hbind
  rw [List.nil_append] at hb
  obtain rfl : payeeKey = slotKey env q := findBucketAccountIndex_placed hb hfind hpk
  obtain ⟨hp, hdirect⟩ := settleCommitments_placed hb hl hcs hloop
  have haccounts : remaining = (firsts (bucketIds q cs)).map (bucketAddress env) ++
      (firsts (channelBucketIds (entries cs))).map (channelAddress env t) := by
    have hplaces := hp.places
    rw [← hb.length] at hplaces
    exact hb.accounts_append hplaces (by rw [hb.length, ← hp.next, hall])
  refine ⟨fun opened rest hids => ?_, ⟨buckets, payeeOwner, hbind,
    readOwner_eq_ok.mp ⟨payeeData, hpd, howner⟩, fun done rest hdone => ?_⟩, haccounts, ?_, ?_⟩
  · rw [hids, List.zipIdx_append, List.foldlM_append, Except.bind_eq_ok] at hbind
    obtain ⟨bound, h₁, -⟩ := hbind
    obtain ⟨hb₁, hs₁⟩ := bindBuckets_placed hl .nil List.Pairwise.nil h₁
    exact ⟨bound, h₁, hs₁, hb₁.exact searches_sorted hs₁⟩
  · rw [hdone, List.foldlM_append, Except.bind_eq_ok] at hloop
    obtain ⟨p₁, h₁, -⟩ := hloop
    obtain ⟨hp₁, -⟩ := settleCommitments_placed hb hl
      (fun c hc => hcs c (hdone ▸ List.mem_append_left _ hc)) h₁
    rw [← hdone] at h₁ hp₁
    exact ⟨p₁, h₁, hp₁.sorted, hp₁.places.exact searches_sorted hp₁.sorted⟩
  · rw [haccounts]
    exact nodup_addresses nodup_firsts nodup_firsts
  · simp only [ByAddress.settle, participantBucketIds_eq_firsts, Except.bind_eq_ok]
    refine ⟨payeeData, hpd, payeeOwner, howner, p.forget, hdirect, ?_⟩
    rw [← happly]
    refine (applyBuckets_placed fun j id hj => ?_).symm
    exact hb.account j id hj

end SettleCommitmentBundle

namespace DepositFor

variable {done l : List (U32 × Nat)} {x : U32 × Nat} {p p' : ByIndex.Progress}

/-- The buckets of a list of recipients, one for each recipient. -/
def bucketIds (recipients : List (U32 × Nat)) : List U32 :=
  recipients.map fun x => ParticipantBucket.bucketIdForParticipantId x.1

/-- What holds of the indices after the recipients of `done`. -/
structure CreditsPlaced (env : Env) (remaining : List Pubkey) (done : List (U32 × Nat))
    (p : ByIndex.Progress) : Prop where
  located : Located env p.world
  places : Places remaining (bucketAddress env) 0 (firsts (bucketIds done)) p.bucketBindings
  nodup : (p.bucketBindings.map Prod.fst).Nodup
  next : p.nextBucketAccountIndex = p.bucketBindings.length

/-- One more recipient. -/
theorem creditOne_placed (hp : CreditsPlaced env remaining done p)
    (h : ByIndex.creditOne env remaining t p x = .ok p') :
    CreditsPlaced env remaining (done ++ [x]) p' ∧
      ByAddress.creditOne env t p.world x = .ok p'.world := by
  obtain ⟨participantId, amount⟩ := x
  simp only [ByIndex.creditOne, Except.bind_eq_ok, require_eq_ok, exists_const, Prod.exists,
    remainingAccount_eq_ok, Except.pure_eq_ok] at h
  obtain ⟨hpos, bindings, next, index, hbind, account, hacc, w₁, u, hedit, rfl⟩ := h
  rw [hp.next, ← Nat.zero_add p.bucketBindings.length] at hbind
  obtain ⟨hplaces, hnodup, hnext, hmem⟩ := hp.places.bind searches_front hp.nodup
    (fun _ hv => bucket_verified hp.located hv) hbind
  have hown := hplaces.account_of_mem hmem
  obtain rfl : account = slotKey env participantId := Option.some.inj (hacc.symm.trans hown)
  refine ⟨⟨?_, ?_, hnodup, by rw [hnext, Nat.zero_add]⟩, ?_⟩
  · obtain ⟨s, s', hs, hdelta, rfl⟩ := (editDelta_eq_ok (by exact_mod_cast hpos.ne')).mp hedit
    have hprofile := (ParticipantBucketSlot.appliedDelta hdelta).profile
    exact hp.located.writeSlot (initialized_of_profile hprofile hs).2
  · rw [bucketIds, List.map_append, List.map_singleton, firsts_snoc]
    exact hplaces
  · simp only [ByAddress.creditOne, Except.bind_eq_ok, require_eq_ok, exists_const, Prod.exists,
      Except.pure_eq_ok]
    exact ⟨hpos, w₁, u, hedit, rfl⟩

theorem credits_placed (hl : Located env w)
    (h : l.foldlM (ByIndex.creditOne env remaining t) ⟨w, [], 0⟩ = .ok p) :
    CreditsPlaced env remaining l p ∧ l.foldlM (ByAddress.creditOne env t) w = .ok p.world := by
  induction l using List.reverseRecOn generalizing p with
  | nil =>
      obtain rfl := foldlM_nil_eq_ok.mp h
      exact ⟨⟨hl, .nil, List.nodup_nil, rfl⟩, rfl⟩
  | append_singleton l x ih =>
      obtain ⟨p₁, h, h₁⟩ := foldlM_snoc_eq_ok.mp h
      obtain ⟨hp, hdirect⟩ := ih h
      obtain ⟨hp', hdirect'⟩ := creditOne_placed hp h₁
      exact ⟨hp', foldlM_snoc_eq_ok.mpr ⟨_, hdirect, hdirect'⟩⟩

/-- What an accepted deposit does with its remaining accounts, after the transfer. -/
structure AccountsBound (env : Env) (w : World) (remaining : List Pubkey) (t : U16)
    (recipients : List (U32 × Nat)) (w' : World) : Prop where
  participants : ∀ done rest, recipients = done ++ rest →
    ∃ p, done.foldlM (ByIndex.creditOne env remaining t) ⟨w, [], 0⟩ = .ok p ∧
      Exact searchFront remaining (bucketAddress env) 0 (firsts (bucketIds done)) p.bucketBindings
  accounts : remaining = (firsts (bucketIds recipients)).map (bucketAddress env)
  once : remaining.Nodup
  byAddress : recipients.foldlM (ByAddress.creditOne env t) w = .ok w'

theorem credits_bound (hl : Located env w)
    (h : l.foldlM (ByIndex.creditOne env remaining t) ⟨w, [], 0⟩ = .ok p)
    (hall : p.nextBucketAccountIndex = remaining.length) :
    AccountsBound env w remaining t l p.world := by
  obtain ⟨hp, hdirect⟩ := credits_placed hl h
  have haccounts : remaining = (firsts (bucketIds l)).map (bucketAddress env) :=
    hp.places.accounts (hp.next ▸ hall)
  refine ⟨fun done rest hdone => ?_, haccounts, ?_, hdirect⟩
  · rw [hdone, List.foldlM_append, Except.bind_eq_ok] at h
    obtain ⟨p₁, h₁, -⟩ := h
    obtain ⟨hp₁, -⟩ := credits_placed hl h₁
    exact ⟨p₁, h₁, hp₁.places.exact searches_front hp₁.nodup⟩
  · rw [haccounts]
    exact nodup_bucketAddresses nodup_firsts

end DepositFor

end Ryvo
