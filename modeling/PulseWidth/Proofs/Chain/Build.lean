import PulseWidth.Proofs.Lists
import PulseWidth.Proofs.Memory.Arena

/-!
# Chains that have been written

A plan has two control blocks per slot, with the addresses that the page table gives (`Chain.Serves`); there is one if
and only if every offset that a chain uses has a bus address (`Chain.plan_ok`, `Chain.plan_eq_error`).  The words of the
blocks are written behind the sample words, no two at the same place, so that each is read back, and whatever happens to
the sample words afterwards does not touch them.
-/

namespace PulseWidth

/-! ### Places -/

namespace ChainLayout

variable {l : ChainLayout}

/-- The offset of a word of a control block. -/
def wordOffset (l : ChainLayout) (index word : Nat) : ArenaOffset :=
  (l.blockOffset (UInt64.ofNat index)).advance (UInt64.ofNat word * 4)

theorem toNat_ofNat_index {index : Nat} (h : index ≤ 2 * l.nrSamples.toNat) : (UInt64.ofNat index).toNat = index := by
  have hn := l.nrSamples.toNat_lt
  exact UInt64.toNat_ofNat_of_lt' (by rw [UInt64.size]; omega)

theorem toNat_blockOffset_ofNat {index : Nat} (h : index ≤ 2 * l.nrSamples.toNat) :
    (l.blockOffset (UInt64.ofNat index)).value.toNat = l.blocksOffset.value.toNat + 32 * index := by
  have hn := l.nrSamples.toNat_lt
  have hindex := toNat_ofNat_index h
  rw [l.toNat_blockOffset, hindex]
  rw [hindex, UInt32.size]
  omega

theorem toNat_wordOffset {index word : Nat} (hindex : index < 2 * l.nrSamples.toNat) (hword : word < 8) :
    (l.wordOffset index word).value.toNat = l.blocksOffset.value.toNat + 32 * index + 4 * word := by
  have hn := l.nrSamples.toNat_lt
  have hblock := toNat_blockOffset_ofNat (Nat.le_of_lt hindex)
  have hblocks := l.toNat_blocksOffset
  have hw : (UInt64.ofNat word).toNat = word := UInt64.toNat_ofNat_of_lt' (by rw [UInt64.size]; omega)
  show ((l.blockOffset (UInt64.ofNat index)).value + UInt64.ofNat word * 4).toNat = _
  rw [UInt64.toNat_add, UInt64.toNat_mul, hblock, hw]
  simp
  omega

theorem word_end {index word : Nat} (hindex : index < 2 * l.nrSamples.toNat) (hword : word < 8) :
    (l.wordOffset index word).value.toNat + 4 ≤ l.lengthBytes.toNat := by
  rw [toNat_wordOffset hindex hword, l.toNat_lengthBytes]
  omega

theorem word_aligned {index word : Nat} (hindex : index < 2 * l.nrSamples.toNat) (hword : word < 8) :
    (l.wordOffset index word).value.toNat % 4 = 0 := by
  rw [toNat_wordOffset hindex hword, l.toNat_blocksOffset]
  omega

/-- The words of the control blocks lie behind the sample words. -/
theorem nrSamples_le_position {index word : Nat} (hindex : index < 2 * l.nrSamples.toNat) (hword : word < 8) :
    l.nrSamples.toNat ≤ Arena.position (l.wordOffset index word) := by
  rw [Arena.toNat_position, toNat_wordOffset hindex hword, l.toNat_blocksOffset]
  omega

theorem position_wordOffset_inj {index word index' word' : Nat} (hindex : index < 2 * l.nrSamples.toNat)
    (hword : word < 8) (hindex' : index' < 2 * l.nrSamples.toNat) (hword' : word' < 8)
    (h : Arena.position (l.wordOffset index word) = Arena.position (l.wordOffset index' word')) :
    index = index' ∧ word = word' := by
  rw [Arena.toNat_position, Arena.toNat_position, toNat_wordOffset hindex hword, toNat_wordOffset hindex' hword',
    l.toNat_blocksOffset] at h
  omega

/-- The slot of a position in the chain. -/
theorem toNat_slot {k : Nat} (h : k < 2 * l.nrSamples.toNat) : (UInt32.ofNat (k / 2)).toNat = k / 2 := by
  have hn := l.nrSamples.toNat_lt
  exact UInt32.toNat_ofNat_of_lt' (by rw [UInt32.size]; omega)

theorem slot_eq_zero_iff {k : Nat} (h : k < 2 * l.nrSamples.toNat) (heven : k % 2 = 0) :
    UInt32.ofNat (k / 2) = 0 ↔ k = 0 := by
  rw [← UInt32.toNat_inj, toNat_slot h, UInt32.toNat_zero]
  omega

/-- The index of the block that paces a slot. -/
theorem toNat_paceIndex (slot : UInt32) : (2 * slot.toUInt64 + 1).toNat = 2 * slot.toNat + 1 := by
  have hslot := slot.toNat_lt
  rw [UInt64.toNat_add, UInt64.toNat_mul, UInt32.toNat_toUInt64]
  simp
  omega

/-- The index of the block behind it, which after the last slot is the first. -/
theorem toNat_nextIndex (l : ChainLayout) (slot : UInt32) :
    ((2 * slot.toUInt64 + 2) % l.blockCount).toNat = (2 * slot.toNat + 2) % (2 * l.nrSamples.toNat) := by
  have hslot := slot.toNat_lt
  have hsum : (2 * slot.toUInt64 + 2).toNat = 2 * slot.toNat + 2 := by
    rw [UInt64.toNat_add, UInt64.toNat_mul, UInt32.toNat_toUInt64]
    simp
    omega
  rw [UInt64.toNat_mod, hsum, l.toNat_blockCount]

/-- The offsets whose bus addresses go into a chain: those of the sample words and of the control blocks. -/
inductive Uses (l : ChainLayout) : ArenaOffset → Prop where
  | sample (slot : UInt32) (h : slot < l.nrSamples) : l.Uses (l.sampleOffset slot)
  | block (index : UInt64) (h : index.toNat < 2 * l.nrSamples.toNat) : l.Uses (l.blockOffset index)

theorem Uses.lt_lengthBytes {offset : ArenaOffset} (h : l.Uses offset) :
    offset.value.toNat < l.lengthBytes.toNat := by
  cases h with
  | sample slot h =>
    have hend := Arena.sample_end h
    omega
  | block index h =>
    have hn := l.nrSamples.toNat_lt
    rw [l.toNat_blockOffset (by rw [UInt32.size]; omega), l.toNat_lengthBytes]
    omega

theorem uses_block {index : Nat} (h : index < 2 * l.nrSamples.toNat) : l.Uses (l.blockOffset (UInt64.ofNat index)) :=
  .block _ (by rwa [toNat_ofNat_index (Nat.le_of_lt h)])

/-- The blocks that the control blocks of a slot go on at. -/
theorem uses_pace {slot : UInt32} (h : slot < l.nrSamples) : l.Uses (l.blockOffset (2 * slot.toUInt64 + 1)) := by
  rw [UInt32.lt_iff_toNat_lt] at h
  exact .block _ (by rw [toNat_paceIndex]; omega)

theorem uses_next {slot : UInt32} (h : slot < l.nrSamples) :
    l.Uses (l.blockOffset ((2 * slot.toUInt64 + 2) % l.blockCount)) := by
  rw [UInt32.lt_iff_toNat_lt] at h
  exact .block _ (by rw [toNat_nextIndex]; exact Nat.mod_lt _ (by omega))

theorem uses_head (h : 0 < l.nrSamples) : l.Uses (l.blockOffset 0) := by
  rw [UInt32.lt_iff_toNat_lt] at h
  exact .block 0 (by rw [UInt64.toNat_zero]; exact Nat.mul_pos (by decide) h)

end ChainLayout

/-- Every offset of the layout has a bus address. -/
def PageTable.Covers (t : PageTable) (l : ChainLayout) : Prop :=
  ∀ offset : ArenaOffset, offset.value.toNat < l.lengthBytes.toNat → ∃ address, t.busOf? offset = some address

theorem PageTable.Covers.uses {t : PageTable} {l : ChainLayout} (h : t.Covers l) {offset : ArenaOffset}
    (huses : l.Uses offset) : ∃ address, t.busOf? offset = some address :=
  h offset huses.lt_lengthBytes

theorem ControlBlock.length_words (b : ControlBlock) : b.words.length = 8 := rfl

namespace Chain

variable {table : PageTable} {l : ChainLayout} {targets : ChainTargets} {blocks : List ControlBlock}

/-- The words that are written are those of the control blocks, each at its place. -/
theorem mem_writes {offset : ArenaOffset} {value : UInt32} :
    (offset, value) ∈ writes l blocks ↔
      ∃ index block word, blocks[index]? = some block ∧ block.words[word]? = some value ∧
        offset = l.wordOffset index word := by
  simp only [writes, blockWrites, List.mem_flatMap, List.mem_map, Prod.exists, List.mk_mem_zipIdx_iff_getElem?,
    Prod.mk.injEq]
  constructor
  · rintro ⟨block, index, hblock, w, word, hword, rfl, rfl⟩
    exact ⟨index, block, word, hblock, hword, rfl⟩
  · rintro ⟨index, block, word, hblock, hword, rfl⟩
    exact ⟨block, index, hblock, value, word, hword, rfl, rfl⟩

private theorem index_lt {index word : Nat} {block : ControlBlock} {value : UInt32}
    (hlength : blocks.length = 2 * l.nrSamples.toNat) (hblock : blocks[index]? = some block)
    (hvalue : block.words[word]? = some value) : index < 2 * l.nrSamples.toNat ∧ word < 8 := by
  obtain ⟨hi, -⟩ := List.getElem?_eq_some_iff.1 hblock
  obtain ⟨hw, -⟩ := List.getElem?_eq_some_iff.1 hvalue
  exact ⟨hlength ▸ hi, hw⟩

/-- A word that is written is that of a control block of the layout. -/
theorem exists_of_mem_writes (hlength : blocks.length = 2 * l.nrSamples.toNat) {w : ArenaOffset × UInt32}
    (h : w ∈ writes l blocks) : ∃ index < 2 * l.nrSamples.toNat, ∃ word < 8, ∃ block, blocks[index]? = some block ∧
      block.words[word]? = some w.2 ∧ w.1 = l.wordOffset index word := by
  obtain ⟨index, block, word, hblock, hvalue, hoffset⟩ := mem_writes.1 h
  obtain ⟨hindex, hword⟩ := index_lt hlength hblock hvalue
  exact ⟨index, hindex, word, hword, block, hblock, hvalue, hoffset⟩

/-- The words of the control blocks of a plan are accepted. -/
theorem accepted_of_mem_writes (hlength : blocks.length = 2 * l.nrSamples.toNat) {w : ArenaOffset × UInt32}
    (h : w ∈ writes l blocks) : w.1.value.toNat % 4 = 0 ∧ w.1.value.toNat + 4 ≤ l.lengthBytes.toNat := by
  obtain ⟨index, hindex, word, hword, block, -, -, hoffset⟩ := exists_of_mem_writes hlength h
  rw [hoffset]
  exact ⟨ChainLayout.word_aligned hindex hword, ChainLayout.word_end hindex hword⟩

/-! ### Plans -/

/-- The control block that copies the word of a slot. -/
def copying (targets : ChainTargets) (slot : UInt32) (source next : BusAddress) : ControlBlock where
  info := Dma.copyInfo
  source := source
  destination := if slot = 0 then targets.turnOn else targets.turnOff
  length := 4
  stride := 0
  next := next
  reserved := (0, 0)

/-- The control block that waits for the next sample time. -/
def pacing (targets : ChainTargets) (source next : BusAddress) : ControlBlock where
  info := Dma.pacedInfo targets.permap
  source := source
  destination := targets.queue
  length := 4
  stride := 0
  next := next
  reserved := (0, 0)

/-- The blocks of a plan and its head are as the page table and the targets have it. -/
structure Planned (table : PageTable) (l : ChainLayout) (targets : ChainTargets) (blocks : List ControlBlock)
    (head : BusAddress) : Prop where
  length_eq : blocks.length = 2 * l.nrSamples.toNat
  head_eq : table.busOf? (l.blockOffset 0) = some head
  copies : ∀ slot < l.nrSamples, ∃ source next,
    table.busOf? (l.sampleOffset slot) = some source ∧
      table.busOf? (l.blockOffset (2 * slot.toUInt64 + 1)) = some next ∧
      blocks[2 * slot.toNat]? = some (copying targets slot source next)
  paces : ∀ slot < l.nrSamples, ∃ source next,
    table.busOf? (l.sampleOffset 0) = some source ∧
      table.busOf? (l.blockOffset ((2 * slot.toUInt64 + 2) % l.blockCount)) = some next ∧
      blocks[2 * slot.toNat + 1]? = some (pacing targets source next)

theorem bus_eq_ok_iff {offset : ArenaOffset} {address : BusAddress} :
    bus table offset = .ok address ↔ table.busOf? offset = some address := by
  unfold bus
  split
  · rename_i found h
    rw [h, Except.ok.injEq, Option.some.injEq]
  · rename_i h
    simp [h]

theorem bus_eq_error_iff {offset : ArenaOffset} {reason : ChainError} :
    bus table offset = .error reason ↔ table.busOf? offset = none ∧ reason = .unmapped offset := by
  unfold bus
  split
  · rename_i found h
    simp [h]
  · rename_i h
    rw [h, Except.error.injEq]
    exact ⟨fun heq => ⟨rfl, heq.symm⟩, fun heq => heq.2.symm⟩

private theorem slotBlocks_eq_ok {filler : BusAddress} {slot : UInt32} {pair : List ControlBlock}
    (h : slotBlocks table l targets filler slot = .ok pair) :
    ∃ source pace next, table.busOf? (l.sampleOffset slot) = some source ∧
      table.busOf? (l.blockOffset (2 * slot.toUInt64 + 1)) = some pace ∧
      table.busOf? (l.blockOffset ((2 * slot.toUInt64 + 2) % l.blockCount)) = some next ∧
      pair = [copying targets slot source pace, pacing targets filler next] := by
  obtain ⟨source, hsource, h⟩ := bind_eq_ok h
  obtain ⟨pace, hpace, h⟩ := bind_eq_ok h
  obtain ⟨next, hnext, h⟩ := bind_eq_ok h
  cases h
  exact ⟨source, pace, next, bus_eq_ok_iff.1 hsource, bus_eq_ok_iff.1 hpace, bus_eq_ok_iff.1 hnext, rfl⟩

theorem plan_eq_ok {head : BusAddress} (h : plan table l targets = .ok (blocks, head)) :
    Planned table l targets blocks head := by
  obtain ⟨filler, hfiller, h⟩ := bind_eq_ok h
  obtain ⟨pairs, hpairs, h⟩ := bind_eq_ok h
  obtain ⟨first, hfirst, h⟩ := bind_eq_ok h
  cases h
  rw [bus_eq_ok_iff] at hfiller hfirst
  obtain ⟨hlength, hget⟩ := mapM_eq_ok hpairs
  rw [l.length_slots] at hlength
  have hpair : ∀ slot < l.nrSamples, ∃ pair, pairs[slot.toNat]? = some pair ∧
      slotBlocks table l targets filler slot = .ok pair := by
    intro slot hslot
    rw [UInt32.lt_iff_toNat_lt] at hslot
    refine ⟨pairs[slot.toNat], List.getElem?_eq_getElem (by omega), ?_⟩
    have hblocks := hget slot.toNat (by rw [l.length_slots]; exact hslot) (by omega)
    rwa [l.getElem_slots, UInt32.ofNat_toNat] at hblocks
  have htwo : ∀ pair ∈ pairs, pair.length = 2 := by
    intro pair hmem
    obtain ⟨i, hi, rfl⟩ := List.getElem_of_mem hmem
    obtain ⟨source, pace, next, -, -, -, heq⟩ := slotBlocks_eq_ok (hget i (by rw [l.length_slots]; omega) hi)
    rw [heq]
    rfl
  exact
    { length_eq := by rw [length_flatten_pairs htwo, hlength]
      head_eq := hfirst
      copies := by
        intro slot hslot
        obtain ⟨pair, hat, hblocks⟩ := hpair slot hslot
        obtain ⟨source, pace, next, hsource, hpace, -, rfl⟩ := slotBlocks_eq_ok hblocks
        refine ⟨source, pace, hsource, hpace, ?_⟩
        rw [getElem?_flatten_pairs htwo, Nat.mul_div_cancel_left _ (by omega), hat, Nat.mul_mod_right]
        rfl
      paces := by
        intro slot hslot
        obtain ⟨pair, hat, hblocks⟩ := hpair slot hslot
        obtain ⟨source, pace, next, -, -, hnext, rfl⟩ := slotBlocks_eq_ok hblocks
        refine ⟨filler, next, hfiller, hnext, ?_⟩
        rw [getElem?_flatten_pairs htwo, show (2 * slot.toNat + 1) / 2 = slot.toNat by omega, hat,
          show (2 * slot.toNat + 1) % 2 = 1 by omega]
        rfl }

/-- The control block at a position of a chain, as a table and the targets have it: it goes on at the next position, and
after the last one at the first.  A block at an even position copies the word of a slot, the one behind it waits. -/
structure Serves (table : PageTable) (l : ChainLayout) (targets : ChainTargets) (index : Nat) (b : ControlBlock) :
    Prop where
  length_eq : b.length = 4
  stride_eq : b.stride = 0
  reserved_eq : b.reserved = (0, 0)
  next_eq : table.busOf? (l.blockOffset (UInt64.ofNat ((index + 1) % (2 * l.nrSamples.toNat)))) = some b.next
  /-- The transfer avoids wide bursts and waits for the response to its write. -/
  copies : index % 2 = 0 → table.busOf? (l.sampleOffset (UInt32.ofNat (index / 2))) = some b.source ∧
    b.destination = (if index = 0 then targets.turnOn else targets.turnOff) ∧ b.info = 0x04000008
  /-- Moreover the destination's request line paces the transfer, that of the peripheral with the code. -/
  paces : index % 2 = 1 → table.busOf? (l.sampleOffset 0) = some b.source ∧ b.destination = targets.queue ∧
    b.info = 0x04000048 ||| (targets.permap.code.toUInt32 &&& 0x1F) <<< (16 : UInt32)

theorem copyInfo_eq : Dma.copyInfo = 0x04000008 := by decide

theorem pacedInfo_eq (permap : Permap) :
    Dma.pacedInfo permap = 0x04000048 ||| (permap.code.toUInt32 &&& 0x1F) <<< (16 : UInt32) := by
  have hword : Dma.destinationRequest.raise Dma.copyInfo = 0x04000048 := by decide
  rw [Dma.pacedInfo, hword]
  rfl

/-- The blocks of a plan, by their position. -/
theorem Planned.serves {head : BusAddress} (h : Planned table l targets blocks head) {k : Nat}
    (hk : k < 2 * l.nrSamples.toNat) : ∃ b, blocks[k]? = some b ∧ Serves table l targets k b := by
  have hslot := ChainLayout.toNat_slot hk
  have hlt : UInt32.ofNat (k / 2) < l.nrSamples := by
    rw [UInt32.lt_iff_toNat_lt, hslot]
    omega
  -- an even position has the block that copies, an odd one the block that waits behind it
  rcases Nat.mod_two_eq_zero_or_one k with hparity | hparity
  · obtain ⟨source, next, hsource, hbus, hblock⟩ := h.copies _ hlt
    have hindex : 2 * (UInt32.ofNat (k / 2)).toUInt64 + 1 = UInt64.ofNat ((k + 1) % (2 * l.nrSamples.toNat)) := by
      rw [← UInt64.toNat_inj, ChainLayout.toNat_paceIndex, hslot, Nat.mod_eq_of_lt (by omega),
        ChainLayout.toNat_ofNat_index (l := l) (by omega)]
      omega
    have hfirst := ChainLayout.slot_eq_zero_iff hk hparity
    rw [hslot, show 2 * (k / 2) = k by omega] at hblock
    refine ⟨_, hblock, rfl, rfl, rfl, hindex ▸ hbus, fun _ => ⟨hsource, ?_, copyInfo_eq⟩, fun hodd => by omega⟩
    simp only [copying, hfirst]
  · obtain ⟨source, next, hsource, hbus, hblock⟩ := h.paces _ hlt
    have hindex : (2 * (UInt32.ofNat (k / 2)).toUInt64 + 2) % l.blockCount =
        UInt64.ofNat ((k + 1) % (2 * l.nrSamples.toNat)) := by
      have hlast : (k + 1) % (2 * l.nrSamples.toNat) < 2 * l.nrSamples.toNat := Nat.mod_lt _ (by omega)
      rw [← UInt64.toNat_inj, ChainLayout.toNat_nextIndex, hslot, ChainLayout.toNat_ofNat_index (Nat.le_of_lt hlast),
        show 2 * (k / 2) + 2 = k + 1 by omega]
    rw [hslot, show 2 * (k / 2) + 1 = k by omega] at hblock
    exact ⟨_, hblock, rfl, rfl, rfl, hindex ▸ hbus, fun heven => by omega,
      fun _ => ⟨hsource, rfl, pacedInfo_eq targets.permap⟩⟩

/-- A plan uses no offset that the table does not translate. -/
theorem Planned.translates {head : BusAddress} (h : Planned table l targets blocks head) {offset : ArenaOffset}
    (huses : l.Uses offset) : ∃ address, table.busOf? offset = some address := by
  cases huses with
  | sample slot hslot =>
    obtain ⟨source, next, hsource, -⟩ := h.copies slot hslot
    exact ⟨source, hsource⟩
  | block index hindex =>
    by_cases hzero : index.toNat = 0
    · rw [show index = 0 from UInt64.toNat_inj.1 hzero]
      exact ⟨head, h.head_eq⟩
    · -- the block in front goes on at this one
      obtain ⟨b, -, hb⟩ := h.serves (k := index.toNat - 1) (by omega)
      have hnext := hb.next_eq
      rw [show index.toNat - 1 + 1 = index.toNat by omega, Nat.mod_eq_of_lt hindex, UInt64.ofNat_toNat] at hnext
      exact ⟨b.next, hnext⟩

/-- A table that translates every offset that a chain uses has a plan for it. -/
theorem plan_ok (hn : 0 < l.nrSamples) (targets : ChainTargets)
    (h : ∀ offset, l.Uses offset → ∃ address, table.busOf? offset = some address) :
    ∃ planned, plan table l targets = .ok planned := by
  have hbus : ∀ offset, l.Uses offset → ∃ address, bus table offset = .ok address := by
    intro offset huses
    obtain ⟨address, haddress⟩ := h offset huses
    exact ⟨address, bus_eq_ok_iff.2 haddress⟩
  obtain ⟨filler, hfiller⟩ := hbus _ (.sample 0 hn)
  obtain ⟨pairs, hpairs⟩ : ∃ pairs, l.slots.mapM (slotBlocks table l targets filler) = .ok pairs := by
    apply mapM_ok_of_forall
    intro slot hmem
    have hslot := l.mem_slots.1 hmem
    obtain ⟨source, hsource⟩ := hbus _ (.sample slot hslot)
    obtain ⟨pace, hpace⟩ := hbus _ (ChainLayout.uses_pace hslot)
    obtain ⟨next, hnext⟩ := hbus _ (ChainLayout.uses_next hslot)
    refine ⟨[copying targets slot source pace, pacing targets filler next], ?_⟩
    simp only [slotBlocks, hsource, hpace, hnext, bind, Except.bind]
    rfl
  obtain ⟨head, hhead⟩ := hbus _ (ChainLayout.uses_head hn)
  refine ⟨(pairs.flatten, head), ?_⟩
  simp only [plan, hfiller, hpairs, hhead, bind, Except.bind]
  rfl

/-- Some offset that a chain uses has no bus address, and the reason names it. -/
def Misses (table : PageTable) (l : ChainLayout) (reason : ChainError) : Prop :=
  ∃ offset, l.Uses offset ∧ table.busOf? offset = none ∧ reason = .unmapped offset

private theorem misses_of_bus {offset : ArenaOffset} {reason : ChainError} (huses : l.Uses offset)
    (h : bus table offset = .error reason) : Misses table l reason :=
  ⟨offset, huses, bus_eq_error_iff.1 h⟩

private theorem slotBlocks_eq_error {filler : BusAddress} {slot : UInt32} {reason : ChainError}
    (hslot : slot < l.nrSamples) (h : slotBlocks table l targets filler slot = .error reason) :
    Misses table l reason := by
  rcases bind_eq_error h with hsource | ⟨source, -, h⟩
  · exact misses_of_bus (.sample slot hslot) hsource
  rcases bind_eq_error h with hpace | ⟨pace, -, h⟩
  · exact misses_of_bus (ChainLayout.uses_pace hslot) hpace
  rcases bind_eq_error h with hnext | ⟨next, -, h⟩
  · exact misses_of_bus (ChainLayout.uses_next hslot) hnext
  · cases h

/-- A plan fails at an offset that the table does not translate. -/
theorem plan_eq_error (hn : 0 < l.nrSamples) {reason : ChainError} (h : plan table l targets = .error reason) :
    Misses table l reason := by
  rcases bind_eq_error h with hfiller | ⟨filler, -, h⟩
  · exact misses_of_bus (.sample 0 hn) hfiller
  rcases bind_eq_error h with hblocks | ⟨pairs, -, h⟩
  · obtain ⟨i, hi, hblocks, -⟩ := mapM_eq_error_iff.1 hblocks
    exact slotBlocks_eq_error (l.mem_slots.1 (List.getElem_mem hi)) hblocks
  rcases bind_eq_error h with hhead | ⟨head, -, h⟩
  · exact misses_of_bus (ChainLayout.uses_head hn) hhead
  · cases h

theorem build_eq_ok {arena : Arena} {p : Program Chain} (h : build arena l targets = .ok p) :
    arena.Fits l ∧ ∃ blocks head, Planned arena.table l targets blocks head ∧ ∃ message, p = (do
      writeBlocks l blocks
      Program.log .debug "pwm_engine::descriptor" message
      return ⟨l, head⟩) := by
  unfold build at h
  split at h
  · cases h
  · rename_i hfits
    obtain ⟨⟨blocks, head⟩, hplan, h⟩ := bind_eq_ok h
    cases h
    exact ⟨UInt64.not_lt.1 hfits, blocks, head, plan_eq_ok hplan, _, rfl⟩

theorem build_eq_error {arena : Arena} (hn : 0 < l.nrSamples) {reason : ChainError}
    (h : build arena l targets = .error reason) :
    (arena.length < l.lengthBytes ∧ reason = .arenaTooSmall arena.length l.lengthBytes) ∨
      (arena.Fits l ∧ Misses arena.table l reason) := by
  unfold build at h
  split at h
  · rename_i hsmall
    cases h
    exact .inl ⟨hsmall, rfl⟩
  · rename_i hfits
    rcases bind_eq_error h with hplan | ⟨planned, -, h⟩
    · exact .inr ⟨UInt64.not_lt.1 hfits, plan_eq_error hn hplan⟩
    · cases h

theorem build_ok {arena : Arena} (hfits : arena.Fits l) {planned : List ControlBlock × BusAddress}
    (h : plan arena.table l targets = .ok planned) : ∃ p, build arena l targets = .ok p := by
  rw [build, if_neg (UInt64.not_lt.2 hfits), h]
  exact ⟨_, rfl⟩

end Chain

/-! ### What an arena holds -/

/-- The words of some control blocks stand in the arena, each at its place. -/
def Arena.Holds (a : Arena) (l : ChainLayout) (blocks : List ControlBlock) : Prop :=
  ∀ (index : Nat) (block : ControlBlock) (word : Nat) (value : UInt32), blocks[index]? = some block →
    block.words[word]? = some value → a.words[Arena.position (l.wordOffset index word)]? = some value

namespace Chain

variable {l : ChainLayout} {blocks : List ControlBlock} {a : Arena}

theorem holds_putAll (hfits : a.Fits l) (hlength : blocks.length = 2 * l.nrSamples.toNat) :
    (a.putAll (writes l blocks)).Holds l blocks := by
  intro index block word value hblock hvalue
  obtain ⟨hindex, hword⟩ := index_lt hlength hblock hvalue
  apply Arena.getElem?_putAll
  · exact hfits.position_lt (ChainLayout.word_end hindex hword)
  · exact ⟨_, mem_writes.2 ⟨index, block, word, hblock, hvalue, rfl⟩, rfl⟩
  · rintro w hmem heq
    obtain ⟨index', hindex', word', hword', block', hblock', hvalue', hoffset⟩ := exists_of_mem_writes hlength hmem
    rw [hoffset] at heq
    -- no other word is written at this place
    obtain ⟨rfl, rfl⟩ := ChainLayout.position_wordOffset_inj hindex' hword' hindex hword heq
    rw [hblock] at hblock'
    cases hblock'
    rw [hvalue] at hvalue'
    exact (Option.some.inj hvalue').symm

/-- The blocks stay while only sample words change. -/
theorem holds_of_sameBeyond {b : Arena} (hlength : blocks.length = 2 * l.nrSamples.toNat) (h : a.Holds l blocks)
    (hsame : Arena.SameBeyond l.nrSamples.toNat a b) : b.Holds l blocks := by
  intro index block word value hblock hvalue
  obtain ⟨hindex, hword⟩ := index_lt hlength hblock hvalue
  rw [hsame.getElem?_eq _ (ChainLayout.nrSamples_le_position hindex hword)]
  exact h index block word value hblock hvalue

private theorem readMany_eq_ok {words : List UInt32} {base : ArenaOffset}
    (h : ∀ (word : Nat) (value : UInt32), words[word]? = some value →
      a.read (base.advance (UInt64.ofNat word * 4)) = .ok value) : a.readMany base words.length = .ok words := by
  induction words generalizing base with
  | nil => rfl
  | cons value rest ih =>
    have hhead := h 0 value rfl
    have hzero : base.advance (UInt64.ofNat 0 * 4) = base := by simp [ArenaOffset.advance]
    rw [hzero] at hhead
    have htail : a.readMany (base.advance 4) rest.length = .ok rest := ih (by
      intro word next hnext
      have hword := h (word + 1) next (by rwa [List.getElem?_cons_succ])
      have hadvance : base.advance (UInt64.ofNat (word + 1) * 4) =
          (base.advance 4).advance (UInt64.ofNat word * 4) := by
        have hone : UInt64.ofNat (word + 1) = UInt64.ofNat word + 1 := by simp
        simp only [ArenaOffset.advance, hone, UInt64.add_mul, UInt64.one_mul, UInt64.add_assoc]
        rw [UInt64.add_comm 4]
      rwa [← hadvance])
    rw [List.length_cons, Arena.readMany, hhead]
    simp only [htail]
    rfl

theorem read_eq_ok {c : Chain} (hlayout : c.layout = l) (hfits : a.Fits l)
    (hlength : blocks.length = 2 * l.nrSamples.toNat) (h : a.Holds l blocks) {index : Nat} {block : ControlBlock}
    (hblock : blocks[index]? = some block) : c.read a (UInt64.ofNat index) = .ok block := by
  have hread : a.readMany (l.blockOffset (UInt64.ofNat index)) block.words.length = .ok block.words := by
    apply readMany_eq_ok
    intro word value hvalue
    obtain ⟨hindex, hword⟩ := index_lt hlength hblock hvalue
    have hvalue' := h index block word value hblock hvalue
    rw [Arena.toNat_position] at hvalue'
    have halign := ChainLayout.word_aligned hindex hword
    exact (hfits.read_eq_ok_iff halign (ChainLayout.word_end hindex hword) _).2 hvalue'
  rw [Chain.read, hlayout, ← block.length_words, hread]
  rfl

end Chain

end PulseWidth
