import Ryvo.Messages.Varint
import Ryvo.State.Config

/-!
# Messages — Clearing rounds

A clearing round lists its participants in blocks, and in each block the lanes its participant pays on: an index into the list of blocks for the payee, and the cumulative amount.  The message is read twice.  `parse_clearing_round_layout_with_version` checks the framing and remembers where each block's entries start; the handler then reads the entries again from there.

The source remembers an offset; a block here keeps the bytes from that offset on.
-/

namespace Ryvo

namespace ClearingRound

def messageKind : UInt8 := 0x02
def fixedHeaderSize : Nat := 21

end ClearingRound

structure ParticipantBlockMeta where
  participantId : U32
  entryCount : Nat
  /-- The message from `entries_offset` on. -/
  entries : List UInt8
  deriving DecidableEq

structure ChannelEntry where
  payeeRef : Nat
  targetCumulative : Nat
  deriving DecidableEq

structure ParsedClearingRoundLayout where
  tokenId : U16
  blocks : List ParticipantBlockMeta
  channelCount : Nat
  deriving DecidableEq

open ClearingRound in
/-- The token, the number of participants, and the message past the header. -/
def parseClearingRoundHeaderWithVersion (msg : List UInt8) (config : GlobalConfig)
    (expectedVersion : UInt8) : Result (U16 × Nat × List UInt8) := do
  require (fixedHeaderSize ≤ msg.length) (.vault .invalidClearingRoundMessage)
  let (kind, rest) ← takeByte .invalidClearingRoundMessage msg
  let (version, rest) ← takeByte .invalidClearingRoundMessage rest
  require (kind = messageKind ∧ version = expectedVersion) (.vault .invalidClearingRoundMessage)
  let (domain, rest) ← takeBytes .invalidClearingRoundMessage 16 rest
  require (domain = config.messageDomain) (.vault .invalidMessageDomain)
  let (token, rest) ← takeBytes .invalidClearingRoundMessage 2 rest
  let (participantCount, rest) ← takeByte .invalidClearingRoundMessage rest
  require (0 < participantCount.toNat) (.vault .invalidClearingRoundMessage)
  pure (Fin.ofNat _ (leNat token), participantCount.toNat, rest)

def parseChannelEntry (msg : List UInt8) : Result (ChannelEntry × List UInt8) := do
  let (payeeRef, rest) ← takeByte .invalidClearingRoundMessage msg
  let (targetCumulative, rest) ← readVarintU64 .invalidClearingRoundMessage rest
  pure (⟨payeeRef.toNat, targetCumulative⟩, rest)

/-- `n` entries and what follows them. -/
def parseChannelEntries : Nat → List UInt8 → Result (List ChannelEntry × List UInt8)
  | 0, msg => .ok ([], msg)
  | n + 1, msg => do
      let (entry, rest) ← parseChannelEntry msg
      let (entries, rest) ← parseChannelEntries n rest
      pure (entry :: entries, rest)

/-- `n` blocks and what follows them. -/
def parseParticipantBlocks : Nat → List UInt8 → Result (List ParticipantBlockMeta × List UInt8)
  | 0, msg => .ok ([], msg)
  | n + 1, msg => do
      let (participantId, rest) ← readVarintU32 .invalidClearingRoundMessage msg
      let (entryCount, entries) ← takeByte .invalidClearingRoundMessage rest
      let (_, rest) ← parseChannelEntries entryCount.toNat entries
      let (blocks, rest) ← parseParticipantBlocks n rest
      pure (⟨participantId, entryCount.toNat, entries⟩ :: blocks, rest)

def parseClearingRoundLayoutWithVersion (msg : List UInt8) (config : GlobalConfig)
    (expectedVersion : UInt8) : Result ParsedClearingRoundLayout := do
  let (tokenId, participantCount, rest) ←
    parseClearingRoundHeaderWithVersion msg config expectedVersion
  let (blocks, rest) ← parseParticipantBlocks participantCount rest
  require (rest = []) (.vault .invalidClearingRoundMessage)
  pure { tokenId, blocks, channelCount := (blocks.map (·.entryCount)).sum }

/-- The second reading of a block's entries. -/
def ParticipantBlockMeta.readEntries (block : ParticipantBlockMeta) : Result (List ChannelEntry) := do
  let (entries, _) ← parseChannelEntries block.entryCount block.entries
  pure entries

/-- A round that parses carries this deployment's domain. -/
theorem parseClearingRoundLayout_domain {msg : List UInt8} {config : GlobalConfig}
    {version : UInt8} {layout : ParsedClearingRoundLayout}
    (h : parseClearingRoundLayoutWithVersion msg config version = .ok layout) :
    (msg.drop 2).take 16 = config.messageDomain := by
  rcases msg with _ | ⟨kind, _ | ⟨version, rest⟩⟩
  · simp [parseClearingRoundLayoutWithVersion, parseClearingRoundHeaderWithVersion,
      ClearingRound.fixedHeaderSize] at h
  · simp [parseClearingRoundLayoutWithVersion, parseClearingRoundHeaderWithVersion,
      ClearingRound.fixedHeaderSize] at h
  · simp only [parseClearingRoundLayoutWithVersion, parseClearingRoundHeaderWithVersion, takeByte,
      takeBytes, Except.bind_eq_ok, require_eq_ok, exists_const, Except.ok_bind, Except.pure_eq_ok,
      Prod.exists, Prod.mk.injEq] at h
    obtain ⟨_, _, _, ⟨-, -, domain, rest', ⟨-, rfl, rfl⟩, hd, -⟩, -⟩ := h
    simpa using hd

theorem parseChannelEntries_length {n : Nat} {msg rest : List UInt8} {entries : List ChannelEntry}
    (h : parseChannelEntries n msg = .ok (entries, rest)) : entries.length = n := by
  induction n generalizing msg entries with
  | zero => cases h; rfl
  | succ n ih =>
      simp only [parseChannelEntries, Except.bind_eq_ok, Prod.exists, Except.pure_eq_ok,
        Prod.mk.injEq] at h
      obtain ⟨_, _, -, _, _, hrec, rfl, rfl⟩ := h
      simp [ih hrec]

theorem parseChannelEntries_target_lt {n : Nat} {msg rest : List UInt8}
    {entries : List ChannelEntry} (h : parseChannelEntries n msg = .ok (entries, rest)) :
    ∀ e ∈ entries, e.targetCumulative < u64Bound := by
  induction n generalizing msg entries with
  | zero => cases h; simp
  | succ n ih =>
      simp only [parseChannelEntries, parseChannelEntry, Except.bind_eq_ok, Prod.exists,
        Except.pure_eq_ok, Prod.mk.injEq] at h
      obtain ⟨_, _, ⟨_, _, -, _, _, hv, rfl, rfl⟩, _, _, hrec, rfl, rfl⟩ := h
      intro e he
      rcases List.mem_cons.mp he with rfl | he
      · exact readVarintU64_lt hv
      · exact ih hrec e he

/-- The second reading of a block that was parsed succeeds. -/
theorem readEntries_of_mem {n : Nat} {msg rest : List UInt8} {blocks : List ParticipantBlockMeta}
    (h : parseParticipantBlocks n msg = .ok (blocks, rest)) :
    ∀ b ∈ blocks, ∃ entries, b.readEntries = .ok entries ∧ entries.length = b.entryCount := by
  induction n generalizing msg blocks with
  | zero => cases h; simp
  | succ n ih =>
      simp only [parseParticipantBlocks, Except.bind_eq_ok, Prod.exists, Except.pure_eq_ok,
        Prod.mk.injEq] at h
      obtain ⟨_, _, -, _, _, -, entries, _, hentries, _, _, hrec, rfl, rfl⟩ := h
      intro b hb
      rcases List.mem_cons.mp hb with rfl | hb
      · refine ⟨entries, ?_, parseChannelEntries_length hentries⟩
        simp [ParticipantBlockMeta.readEntries, hentries]
      · exact ih hrec b hb

end Ryvo
