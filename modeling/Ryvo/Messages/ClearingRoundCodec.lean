import Ryvo.Messages.ClearingRound
import Ryvo.Messages.VarintCodec

/-!
# Messages — Encoding of clearing rounds

An accepted round is a header followed by blocks, each a head and its entries, laid end to end (`parseClearingRoundLayout_eq_ok`).  A block of the layout points at the bytes from its own first entry on, so the second reading sees the very entries the first one skipped over (`readEntries_blockOf`), and no accepted message is the start of another.
-/

namespace Ryvo

open ClearingRound

variable {bs bs' msg rest rest' : List UInt8} {entries entries' : List ChannelEntry}
variable {entry : ChannelEntry} {config : GlobalConfig} {version : UInt8} {n : Nat}

/-! ### Entries -/

/-- The bytes of one entry: the payee's index and the cumulative amount. -/
def IsEntry (bs : List UInt8) (entry : ChannelEntry) : Prop :=
  ∃ ref amount, bs = ref :: amount ∧ entry.payeeRef = ref.toNat ∧
    IsVarintU64 amount entry.targetCumulative

/-- The bytes of entries one after another. -/
inductive AreEntries : List UInt8 → List ChannelEntry → Prop
  | nil : AreEntries [] []
  | cons {bs bs' : List UInt8} {entry : ChannelEntry} {entries : List ChannelEntry} :
      IsEntry bs entry → AreEntries bs' entries → AreEntries (bs ++ bs') (entry :: entries)

theorem parseChannelEntry_eq_ok : parseChannelEntry msg = .ok (entry, rest) ↔
    ∃ bs, msg = bs ++ rest ∧ IsEntry bs entry := by
  simp only [parseChannelEntry, Except.bind_eq_ok, Prod.exists, takeByte_eq_ok, readVarintU64_eq_ok,
    Except.pure_eq_ok, Prod.mk.injEq]
  constructor
  · rintro ⟨ref, r, rfl, amount, r', ⟨bs, rfl, hv⟩, rfl, rfl⟩
    exact ⟨ref :: bs, rfl, ref, bs, rfl, rfl, hv⟩
  · rintro ⟨_, rfl, ref, bs, rfl, href, hv⟩
    refine ⟨ref, bs ++ rest, rfl, _, rest, ⟨bs, rfl, hv⟩, ?_, rfl⟩
    rw [← href]

theorem parseChannelEntries_eq_ok : parseChannelEntries n msg = .ok (entries, rest) ↔
    ∃ bs, msg = bs ++ rest ∧ AreEntries bs entries ∧ entries.length = n := by
  induction n generalizing msg entries rest with
  | zero =>
      simp only [parseChannelEntries, Except.ok.injEq, Prod.mk.injEq]
      constructor
      · rintro ⟨rfl, rfl⟩
        exact ⟨[], rfl, .nil, rfl⟩
      · rintro ⟨bs, rfl, h, hn⟩
        cases h with
        | nil => exact ⟨rfl, rfl⟩
        | cons _ _ => simp at hn
  | succ n ih =>
      simp only [parseChannelEntries, Except.bind_eq_ok, Prod.exists, parseChannelEntry_eq_ok, ih,
        Except.pure_eq_ok, Prod.mk.injEq]
      constructor
      · rintro ⟨entry, r, ⟨b, rfl, hb⟩, entries, r', ⟨bs, rfl, hbs, hn⟩, rfl, rfl⟩
        exact ⟨b ++ bs, (List.append_assoc _ _ _).symm, .cons hb hbs, by simp [hn]⟩
      · rintro ⟨bs, rfl, h, hn⟩
        cases h with
        | nil => simp at hn
        | cons hb hbs =>
            exact ⟨_, _, ⟨_, List.append_assoc _ _ _, hb⟩, _, _, ⟨_, rfl, hbs, by simpa using hn⟩,
              rfl, rfl⟩

/-! ### Blocks -/

/-- One block of a message: the bytes of its head, and of its entries. -/
structure RoundTile where
  participantId : U32
  idBytes : List UInt8
  count : UInt8
  entryBytes : List UInt8
  entries : List ChannelEntry

namespace RoundTile

def bytes (tile : RoundTile) : List UInt8 := tile.idBytes ++ tile.count :: tile.entryBytes

/-- The bytes of blocks laid end to end. -/
def tiled (tiles : List RoundTile) : List UInt8 := tiles.flatMap bytes

/-- The bytes spell the block. -/
structure Spells (tile : RoundTile) : Prop where
  id : IsVarintU64 tile.idBytes tile.participantId.val
  count : tile.entries.length = tile.count.toNat
  entries : AreEntries tile.entryBytes tile.entries

/-- The block as the layout has it, with everything from its first entry on. -/
def blockOf (tile : RoundTile) (after : List UInt8) : ParticipantBlockMeta :=
  ⟨tile.participantId, tile.count.toNat, tile.entryBytes ++ after⟩

/-- The blocks of the layout, each with what follows it. -/
def blocksOf : List RoundTile → List UInt8 → List ParticipantBlockMeta
  | [], _ => []
  | tile :: tiles, after => tile.blockOf (tiled tiles ++ after) :: blocksOf tiles after

end RoundTile

variable {tile : RoundTile} {tiles tiles' : List RoundTile} {blocks : List ParticipantBlockMeta}

open RoundTile

@[simp] theorem tiled_nil : tiled [] = [] := rfl

@[simp] theorem tiled_cons : tiled (tile :: tiles) = tile.bytes ++ tiled tiles := rfl

theorem parseParticipantBlocks_eq_ok : parseParticipantBlocks n msg = .ok (blocks, rest) ↔
    ∃ tiles : List RoundTile, (∀ tile ∈ tiles, tile.Spells) ∧ tiles.length = n ∧
      msg = tiled tiles ++ rest ∧ blocks = blocksOf tiles rest := by
  induction n generalizing msg blocks rest with
  | zero =>
      simp only [parseParticipantBlocks, Except.ok.injEq, Prod.mk.injEq, List.length_eq_zero_iff]
      constructor
      · rintro ⟨rfl, rfl⟩
        exact ⟨[], by simp, rfl, rfl, rfl⟩
      · rintro ⟨_, -, rfl, rfl, rfl⟩
        exact ⟨rfl, rfl⟩
  | succ n ih =>
      simp only [parseParticipantBlocks, Except.bind_eq_ok, Prod.exists, readVarintU32_eq_ok,
        takeByte_eq_ok, parseChannelEntries_eq_ok, ih, Except.pure_eq_ok, Prod.mk.injEq]
      constructor
      · rintro ⟨id, r, ⟨idBytes, rfl, hid⟩, count, r', rfl, entries, r'', ⟨bs, rfl, hes, hn⟩,
          blocks, r₃, ⟨tiles, htiles, hlen, rfl, rfl⟩, rfl, rfl⟩
        refine ⟨⟨id, idBytes, count, bs, entries⟩ :: tiles, ?_, by simp [hlen], ?_, rfl⟩
        · intro tile hm
          rcases List.mem_cons.mp hm with rfl | hm
          · exact ⟨hid, hn, hes⟩
          · exact htiles tile hm
        · simp [tiled_cons, RoundTile.bytes]
      · rintro ⟨tiles, htiles, hlen, rfl, rfl⟩
        rcases tiles with _ | ⟨tile, tiles⟩
        · simp at hlen
        have ht := htiles tile (by simp)
        exact ⟨tile.participantId, _, ⟨tile.idBytes, by simp [RoundTile.bytes], ht.id⟩, tile.count, _,
          rfl, tile.entries, _, ⟨tile.entryBytes, by simp, ht.entries, ht.count⟩, _, _,
          ⟨tiles, fun tile hm => htiles tile (List.mem_cons_of_mem _ hm), by simpa using hlen, rfl,
            rfl⟩, rfl, rfl⟩

/-- The second reading of a block sees its entries. -/
theorem readEntries_blockOf (h : tile.Spells) (after : List UInt8) :
    (tile.blockOf after).readEntries = .ok tile.entries := by
  have hread : parseChannelEntries tile.count.toNat (tile.entryBytes ++ after)
      = .ok (tile.entries, after) :=
    parseChannelEntries_eq_ok.mpr ⟨tile.entryBytes, rfl, h.entries, h.count⟩
  simp [ParticipantBlockMeta.readEntries, blockOf, hread]

/-- Two tilings of the same number of blocks, one followed by something, leave the same. -/
theorem tiled_unique (h : ∀ tile ∈ tiles, tile.Spells) (h' : ∀ tile ∈ tiles', tile.Spells)
    (hn : tiles.length = tiles'.length) (hb : tiled tiles ++ rest = tiled tiles') : rest = [] := by
  have h₁ : parseParticipantBlocks tiles.length (tiled tiles ++ rest) = .ok (_, rest) :=
    parseParticipantBlocks_eq_ok.mpr ⟨tiles, h, rfl, rfl, rfl⟩
  have h₂ : parseParticipantBlocks tiles.length (tiled tiles ++ rest) = .ok (_, []) :=
    parseParticipantBlocks_eq_ok.mpr ⟨tiles', h', hn.symm, hb.trans (List.append_nil _).symm, rfl⟩
  exact (Prod.mk.inj (Except.ok.inj (h₁.symm.trans h₂))).2

/-! ### Messages -/

/-- The bytes of a round. -/
def roundBytes (version : UInt8) (domain : List UInt8) (tokenId : U16) (tiles : List RoundTile) :
    List UInt8 :=
  messageKind :: version :: (domain ++ (leBytes 2 tokenId.val ++
    UInt8.ofNat tiles.length :: tiled tiles))

/-- A number of blocks the header can announce. -/
def RoundSize (tiles : List RoundTile) : Prop := 1 ≤ tiles.length ∧ tiles.length ≤ 255

theorem RoundSize.toNat (h : RoundSize tiles) : (UInt8.ofNat tiles.length).toNat = tiles.length := by
  have := h.2
  simp
  omega

/-- **What the layout parser accepts**: a header with the config's domain, and the announced number of blocks laid end to end; nothing else. -/
theorem parseClearingRoundLayout_eq_ok {layout : ParsedClearingRoundLayout} :
    parseClearingRoundLayoutWithVersion msg config version = .ok layout ↔
      config.messageDomain.length = 16 ∧ ∃ tiles : List RoundTile, RoundSize tiles ∧
        (∀ tile ∈ tiles, tile.Spells) ∧
        msg = roundBytes version config.messageDomain layout.tokenId tiles ∧
        layout.blocks = blocksOf tiles [] ∧
        layout.channelCount = (layout.blocks.map (·.entryCount)).sum := by
  have htoken : ∀ bs : List UInt8, bs.length = 2 → leBytes 2 (Fin.ofNat (2 ^ 16) (leNat bs)).val = bs :=
    fun bs h => by
      have hlt := leNat_lt bs
      rw [h] at hlt
      have hv : (Fin.ofNat (2 ^ 16) (leNat bs)).val = leNat bs := Nat.mod_eq_of_lt hlt
      conv_lhs => rw [hv, ← h, leBytes_leNat]
  simp only [parseClearingRoundLayoutWithVersion, parseClearingRoundHeaderWithVersion,
    Except.bind_eq_ok, require_eq_ok, exists_const, Prod.exists, takeByte_eq_ok, takeBytes_eq_ok,
    Except.pure_eq_ok, Prod.mk.injEq, parseParticipantBlocks_eq_ok]
  constructor
  · rintro ⟨_, _, _, ⟨-, kind, r₁, rfl, v, r₂, rfl, ⟨rfl, rfl⟩, d, r₃, ⟨rfl, hd⟩, rfl, token, r₄,
      ⟨rfl, ht⟩, count, r₅, rfl, hpos, rfl, rfl, rfl⟩, blocks, r₆, ⟨tiles, htiles, hn, rfl, rfl⟩, rfl,
      rfl⟩
    have hlt := count.toNat_lt
    refine ⟨hd, tiles, ⟨by omega, by omega⟩, htiles, ?_, rfl, rfl⟩
    have hcount : UInt8.ofNat tiles.length = count := by rw [hn]; simp
    simp only [roundBytes, htoken token ht, hcount, List.append_nil]
  · rintro ⟨hd, tiles, hsize, htiles, rfl, hblocks, hcount⟩
    have hpos := hsize.1
    refine ⟨layout.tokenId, tiles.length, tiled tiles, ⟨?_, _, _, rfl, _, _, rfl, ⟨rfl, rfl⟩, _, _,
      ⟨rfl, hd⟩, rfl, leBytes 2 layout.tokenId.val, _, ⟨rfl, by simp⟩, _, _, rfl, ?_, ?_, hsize.toNat,
      rfl⟩, blocksOf tiles [], [], ⟨tiles, htiles, rfl, by simp, rfl⟩, rfl, ?_⟩
    · simp only [roundBytes, fixedHeaderSize, List.length_cons, List.length_append, hd, length_leBytes]
      omega
    · rw [hsize.toNat]; omega
    · rw [leNat_leBytes_of_lt layout.tokenId.isLt]
      exact Fin.ext (Nat.mod_eq_of_lt layout.tokenId.isLt)
    · cases layout
      simp_all

/-- An accepted round is neither the start of another accepted one nor an extension of one. -/
theorem layout_of_append {msg' : List UInt8} {config' : GlobalConfig} {version' : UInt8}
    {layout layout' : ParsedClearingRoundLayout}
    (h : parseClearingRoundLayoutWithVersion msg config version = .ok layout)
    (h' : parseClearingRoundLayoutWithVersion msg' config' version' = .ok layout')
    (hp : msg <+: msg') : msg' = msg := by
  obtain ⟨hd, tiles, hsize, ht, rfl, -⟩ := parseClearingRoundLayout_eq_ok.mp h
  obtain ⟨hd', tiles', hsize', ht', rfl, -⟩ := parseClearingRoundLayout_eq_ok.mp h'
  obtain ⟨rest, hb⟩ := hp
  have hb₀ := hb
  simp only [roundBytes, List.cons_append, List.append_assoc, List.cons.injEq, true_and] at hb
  obtain ⟨-, hb₁⟩ := hb
  obtain ⟨-, hb₂⟩ := List.append_inj hb₁ (hd.trans hd'.symm)
  obtain ⟨-, hb₃⟩ := List.append_inj hb₂ (by simp)
  obtain ⟨hn, hb₄⟩ := List.cons.inj hb₃
  have hlen : tiles.length = tiles'.length := by rw [← hsize.toNat, ← hsize'.toNat, hn]
  rw [← hb₀, tiled_unique ht ht' hlen hb₄, List.append_nil]

/-- The second reading of every block of an accepted round succeeds. -/
theorem readEntries_blocksOf (h : ∀ tile ∈ tiles, tile.Spells) (after : List UInt8) :
    (blocksOf tiles after).mapM (·.readEntries) = .ok (tiles.map (·.entries)) := by
  induction tiles with
  | nil => rfl
  | cons tile tiles ih =>
      exact mapM_cons_eq_ok.mpr ⟨_, _, readEntries_blockOf (h tile (by simp)) _,
        ih fun tile hm => h tile (List.mem_cons_of_mem _ hm), rfl⟩

theorem map_participantId_blocksOf (tiles : List RoundTile) (after : List UInt8) :
    (blocksOf tiles after).map (·.participantId) = tiles.map (·.participantId) := by
  induction tiles with
  | nil => rfl
  | cons tile tiles ih => simp [blocksOf, blockOf, ih]

theorem map_entryCount_blocksOf (h : ∀ tile ∈ tiles, tile.Spells) (after : List UInt8) :
    (blocksOf tiles after).map (·.entryCount) = tiles.map (·.entries.length) := by
  induction tiles with
  | nil => rfl
  | cons tile tiles ih =>
      simp [blocksOf, blockOf, (h tile (by simp)).count,
        ih fun tile hm => h tile (List.mem_cons_of_mem _ hm)]

/-! ### What clients write -/

/-- A block as a client lists it. -/
structure RoundBlock where
  participantId : U32
  entries : List (UInt8 × U64)

namespace RoundBlock

def encodeEntry (entry : UInt8 × U64) : List UInt8 := entry.1 :: encodeVarintU64 entry.2.val

def encode (block : RoundBlock) : List UInt8 :=
  encodeVarintU64 block.participantId.val ++
    UInt8.ofNat block.entries.length :: block.entries.flatMap encodeEntry

/-- The entries as the parser returns them. -/
def channelEntries (block : RoundBlock) : List ChannelEntry :=
  block.entries.map fun entry => ⟨entry.1.toNat, entry.2.val⟩

def toTile (block : RoundBlock) : RoundTile :=
  ⟨block.participantId, encodeVarintU64 block.participantId.val, UInt8.ofNat block.entries.length,
    block.entries.flatMap encodeEntry, block.channelEntries⟩

theorem spells_toTile {block : RoundBlock} (h : block.entries.length ≤ 255) : block.toTile.Spells where
  id := isVarintU64_encode_u32 _
  count := by simp [toTile, channelEntries]; omega
  entries := by
    simp only [toTile, channelEntries]
    induction block.entries with
    | nil => exact .nil
    | cons entry entries ih => exact .cons ⟨_, _, rfl, rfl, isVarintU64_encode _⟩ ih

end RoundBlock

/-- `build_clearing_round_message_bytes`, with the version a parameter. -/
def buildClearingRoundMessageBytes (version : UInt8) (domain : List UInt8) (tokenId : U16)
    (blocks : List RoundBlock) : List UInt8 :=
  [messageKind, version] ++ domain ++ leBytes 2 tokenId.val ++ [UInt8.ofNat blocks.length]
    ++ blocks.flatMap RoundBlock.encode

theorem build_eq_roundBytes (version : UInt8) (domain : List UInt8) (tokenId : U16)
    (blocks : List RoundBlock) : buildClearingRoundMessageBytes version domain tokenId blocks
      = roundBytes version domain tokenId (blocks.map RoundBlock.toTile) := by
  have htiled : blocks.flatMap RoundBlock.encode = tiled (blocks.map RoundBlock.toTile) := by
    simp only [tiled, List.flatMap_map]
    rfl
  simp [buildClearingRoundMessageBytes, roundBytes, htiled]

/-- What is encoded is accepted, and read back by the two passes. -/
theorem parse_buildClearingRound {tokenId : U16} {blocks : List RoundBlock}
    (hd : config.messageDomain.length = 16) (hn : 1 ≤ blocks.length ∧ blocks.length ≤ 255)
    (he : ∀ block ∈ blocks, block.entries.length ≤ 255) : ∃ layout,
      parseClearingRoundLayoutWithVersion
        (buildClearingRoundMessageBytes version config.messageDomain tokenId blocks) config version
          = .ok layout ∧
      layout.tokenId = tokenId ∧
      layout.blocks.map (·.participantId) = blocks.map (·.participantId) ∧
      layout.blocks.mapM (·.readEntries) = .ok (blocks.map (·.channelEntries)) ∧
      layout.channelCount = (blocks.map (·.entries.length)).sum := by
  have ht : ∀ tile ∈ blocks.map RoundBlock.toTile, tile.Spells := by
    intro tile hm
    obtain ⟨block, hb, rfl⟩ := List.mem_map.mp hm
    exact RoundBlock.spells_toTile (he block hb)
  have hsize : RoundSize (blocks.map RoundBlock.toTile) := by simpa [RoundSize] using hn
  refine ⟨⟨tokenId, blocksOf (blocks.map RoundBlock.toTile) [],
      ((blocksOf (blocks.map RoundBlock.toTile) []).map (·.entryCount)).sum⟩,
    parseClearingRoundLayout_eq_ok.mpr ⟨hd, _, hsize, ht, build_eq_roundBytes _ _ _ _, rfl, rfl⟩, rfl,
    ?_, ?_, ?_⟩
  · simp [map_participantId_blocksOf, RoundBlock.toTile]
  · rw [readEntries_blocksOf ht]
    simp [RoundBlock.toTile, Function.comp_def]
  · rw [map_entryCount_blocksOf ht]
    simp [RoundBlock.toTile, RoundBlock.channelEntries, Function.comp_def]

/-- **Round trip of clearing rounds.** What is encoded is accepted by the layout parser and read back entry for entry by the second pass.  Conversely an accepted message is a header and blocks laid end to end, the second pass reads exactly the entries between them, and no accepted message is a proper prefix of another. -/
theorem clearingRound_roundTrip :
    (∀ (domain : Bytes 16) (tokenId : U16) (version : UInt8) (blocks : List RoundBlock)
      (config : GlobalConfig), config.messageDomain = domain.val →
      1 ≤ blocks.length → blocks.length ≤ 255 → (∀ block ∈ blocks, block.entries.length ≤ 255) →
      ∃ layout, parseClearingRoundLayoutWithVersion
          (buildClearingRoundMessageBytes version domain.val tokenId blocks) config version
            = .ok layout ∧
        layout.tokenId = tokenId ∧
        layout.blocks.map (·.participantId) = blocks.map (·.participantId) ∧
        layout.blocks.mapM (·.readEntries) = .ok (blocks.map (·.channelEntries)) ∧
        layout.channelCount = (blocks.map (·.entries.length)).sum) ∧
    (∀ msg config version layout, parseClearingRoundLayoutWithVersion msg config version = .ok layout →
      (∃ tiles : List RoundTile, (∀ tile ∈ tiles, tile.Spells) ∧
        msg = roundBytes version config.messageDomain layout.tokenId tiles ∧
        layout.blocks = blocksOf tiles [] ∧
        layout.blocks.mapM (·.readEntries) = .ok (tiles.map (·.entries)) ∧
        layout.channelCount = (tiles.map (·.entries.length)).sum) ∧
      ∀ msg' config' version' layout',
        parseClearingRoundLayoutWithVersion msg' config' version' = .ok layout' →
          msg <+: msg' ∨ msg' <+: msg → msg' = msg) := by
  refine ⟨fun domain tokenId version blocks config hd h₁ h₂ he => ?_,
    fun msg config version layout h => ⟨?_, ?_⟩⟩
  · rw [← hd]
    exact parse_buildClearingRound (by rw [hd, domain.property]) ⟨h₁, h₂⟩ he
  · obtain ⟨-, tiles, -, ht, hmsg, hblocks, hcount⟩ := parseClearingRoundLayout_eq_ok.mp h
    refine ⟨tiles, ht, hmsg, hblocks, ?_, ?_⟩
    · rw [hblocks, readEntries_blocksOf ht]
    · rw [hcount, hblocks, map_entryCount_blocksOf ht]
  · rintro msg' config' version' layout' h' (hp | hp)
    · exact layout_of_append h h' hp
    · exact (layout_of_append h' h hp).symm

end Ryvo
