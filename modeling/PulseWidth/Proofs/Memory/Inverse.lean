import PulseWidth.Proofs.Memory.Translation

/-!
# Translation there and back

An offset is translated by the entry at its page index, a bus address by a search for the entry of its page.  In a
table whose entries are whole pages of the bus, no two the same, the two agree (`Separate.offsetOf?_eq_some_iff`): the
offsets below the end of the last page and the addresses in the pages of the table correspond one to one.  The table
of a simulated arena is of that kind.
-/

namespace PulseWidth

/-- The bus address lies in the page of the entry. -/
def PageEntry.Contains (e : PageEntry) (bus : BusAddress) : Prop :=
  e.bus.value.toNat ≤ bus.value.toNat ∧ bus.value.toNat < e.bus.value.toNat + 4096

namespace PageTable

variable {t : PageTable} {offset : ArenaOffset} {bus : BusAddress}

theorem Separate.busOf?_isSome_iff (h : t.Separate) :
    (∃ bus, t.busOf? offset = some bus) ↔ offset.value.toNat < 4096 * t.entries.size := by
  constructor
  · rintro ⟨bus, hbus⟩
    have hi := lt_size_of_busOf? hbus
    omega
  · intro hlt
    have hi : offset.value.toNat / 4096 < t.entries.size := by omega
    obtain ⟨bus, hbus, -⟩ := h.busOf?_eq_some hi
    exact ⟨bus, hbus⟩

/-- The entry that a search for the page of an address compares with. -/
private theorem matches_iff (h : t.Separate) {i : Nat} (hi : i < t.entries.size) :
    (t.entries[i].bus.value == bus.value &&& ~~~(pageSize.toUInt32 - 1)) = true ↔ t.entries[i].Contains bus := by
  have haligned := h.aligned i hi
  have hmask : pageSize.toUInt32 - 1 = 4095 := by decide
  rw [hmask, beq_iff_eq, ← UInt32.toNat_inj, toNat_andNot_low, PageEntry.Contains]
  omega

/-- An address has no offset exactly if it lies in no page of the table. -/
theorem Separate.offsetOf?_eq_none_iff (h : t.Separate) :
    t.offsetOf? bus = none ↔ ∀ i (hi : i < t.entries.size), ¬ t.entries[i].Contains bus := by
  simp only [offsetOf?, Option.map_eq_none_iff, Array.findIdx?_eq_none_iff, Array.mem_iff_getElem]
  constructor
  · intro hnone i hi hcontains
    have hfalse := hnone _ ⟨i, hi, rfl⟩
    rw [(matches_iff h hi).2 hcontains] at hfalse
    cases hfalse
  · rintro houtside _ ⟨i, hi, rfl⟩
    rw [Bool.eq_false_iff, ne_eq, matches_iff h hi]
    exact houtside i hi

/-- The two translations are inverse to one another. -/
theorem Separate.offsetOf?_eq_some_iff (h : t.Separate) :
    t.offsetOf? bus = some offset ↔ t.busOf? offset = some bus := by
  refine ⟨fun hoffset => ?_, h.offsetOf?_busOf?⟩
  -- the address lies in some page, and the offset of that place in the arena is the only one it can have
  have hsome : ¬ t.offsetOf? bus = none := by
    rw [hoffset]
    exact Option.some_ne_none offset
  rw [h.offsetOf?_eq_none_iff] at hsome
  push Not at hsome
  obtain ⟨i, hi, hlow, hhigh⟩ := hsome
  have hsplit : bus.value.toNat = t.entries[i].bus.value.toNat + (bus.value.toNat - t.entries[i].bus.value.toNat) := by
    omega
  obtain ⟨found, hfound, hvalue⟩ := h.offsetOf?_eq_some hi (by omega) hsplit
  rw [hoffset] at hfound
  cases hfound
  have hindex : offset.value.toNat / 4096 = i := by omega
  have hin : offset.value.toNat / 4096 < t.entries.size := by omega
  obtain ⟨back, hback, hsum⟩ := h.busOf?_eq_some hin
  simp only [hindex] at hsum
  have hsame : back = bus := by
    have hword : back.value = bus.value := UInt32.toNat_inj.1 (by omega)
    cases back
    cases bus
    exact congrArg BusAddress.mk hword
  rw [hback, hsame]

end PageTable

/-- In every table whose entries are whole pages of the bus, no two the same, exactly the offsets below the end of the
last page have a bus address, each one of its own, and the search for the page of an address finds the way back and
nothing else.  Every simulated arena has such a table, over frames of the window other than frame zero that are used
once each. -/
theorem translation_of_separate :
    (∀ t : PageTable, t.Separate →
      (∀ offset, (∃ bus, t.busOf? offset = some bus) ↔ offset.value.toNat < 4096 * t.entries.size) ∧
      (∀ offset other bus, t.busOf? offset = some bus → t.busOf? other = some bus → offset = other) ∧
      (∀ offset bus, t.busOf? offset = some bus → t.offsetOf? bus = some offset) ∧
      (∀ offset bus, t.offsetOf? bus = some offset → t.busOf? offset = some bus) ∧
      ∀ bus, t.offsetOf? bus = none ↔ ∀ i (hi : i < t.entries.size), ¬ t.entries[i].Contains bus) ∧
    ∀ (pages : UInt64) (dram : DramAlias), 1 ≤ pages → pages ≤ maxArenaPages →
      ∃ (arena : Arena) (frame : Nat → Nat), Arena.simulated pages dram = .ok arena ∧ arena.table.Separate ∧
        arena.table.entries.size = pages.toNat ∧
        (∀ i (hi : i < arena.table.entries.size),
          arena.table.entries[i].Places dram (Arena.simulatedBase.value.toNat + 4096 * i) (frame i)) ∧
        (∀ i < pages.toNat, 1 ≤ frame i ∧ frame i ≤ maxArenaPages.toNat) ∧
        ∀ i < pages.toNat, ∀ j < pages.toNat, frame i = frame j → i = j := by
  refine ⟨fun t h => ?_, fun pages dram hpos hmax => ?_⟩
  · exact ⟨fun _ => h.busOf?_isSome_iff, fun _ _ _ => h.busOf?_inj, fun _ _ => h.offsetOf?_eq_some_iff.2,
      fun _ _ => h.offsetOf?_eq_some_iff.1, fun _ => h.offsetOf?_eq_none_iff⟩
  · have hsome : 1 ≤ pages.toNat := UInt64.le_iff_toNat_le.1 hpos
    have hpages : pages.toNat ≤ 262143 := UInt64.le_iff_toNat_le.1 hmax
    obtain ⟨arena, harena⟩ := Arena.simulated_ok hsome hpages dram
    obtain ⟨-, -, hsimulated⟩ := Arena.isSimulated_of_simulated harena
    refine ⟨arena, Arena.frameNumber, harena, hsimulated.separate hpages, hsimulated.size_eq, hsimulated.places, ?_, ?_⟩
    · exact fun i _ => Arena.frameNumber_bounds i
    · exact fun i hi j hj => Arena.frameNumber_inj (by omega) (by omega)

/-- A table of the last page of the bus and the first one, and an arena whose frames have wrapped around. -/
theorem translation_of_last_page :
    let t : PageTable := ⟨#[⟨⟨⟨0x1000⟩⟩, ⟨⟨0x3FFFF000⟩⟩, ⟨0xFFFFF000⟩⟩, ⟨⟨⟨0x2000⟩⟩, ⟨⟨0⟩⟩, ⟨0⟩⟩]⟩
    t.Separate ∧ t.offsetOf? ⟨0xFFFFFFFF⟩ = some ⟨0xFFF⟩ ∧ t.offsetOf? ⟨0⟩ = some ⟨0x1000⟩ ∧
      ∃ arena, Arena.simulated 2500 .uncached = .ok arena ∧ arena.table.Separate := by
  intro t
  have hdistinct : ∀ i j : Fin 2, t.entries[i].bus.value.toNat = t.entries[j].bus.value.toNat → i = j := by decide
  have hseparate : t.Separate :=
    ⟨by decide, fun i j hi hj heq => congrArg Fin.val (hdistinct ⟨i, hi⟩ ⟨j, hj⟩ heq)⟩
  obtain ⟨htables, harenas⟩ := translation_of_separate
  obtain ⟨-, -, hback, -⟩ := htables t hseparate
  obtain ⟨arena, -, harena, hpages, -⟩ := harenas 2500 .uncached (by decide) (by decide)
  exact ⟨hseparate, hback ⟨0xFFF⟩ _ (by decide), hback ⟨0x1000⟩ _ (by decide), arena, harena, hpages⟩

end PulseWidth
