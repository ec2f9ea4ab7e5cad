import Mathlib.Data.Fintype.Card
import PulseWidth.Config
import PulseWidth.Proofs.Lists
import PulseWidth.Proofs.Memory.Arena
import PulseWidth.Proofs.Memory.Resolution

/-!
# Offsets and bus addresses

In a table whose pages are whole pages of the bus, no two the same, an offset and its bus address determine one
another, and neighbouring words of one page have neighbouring addresses.  The simulated arena has such a table,
whatever its number of pages: the frames go down by two around a window with an odd number of frames, so that none
comes up twice.
-/

namespace PulseWidth

namespace PageTable

/-- Every entry is a whole page of the bus, and no two are the same. -/
structure Separate (t : PageTable) : Prop where
  aligned : ∀ i (h : i < t.entries.size), t.entries[i].bus.value.toNat % 4096 = 0
  distinct : ∀ i j (hi : i < t.entries.size) (hj : j < t.entries.size),
    t.entries[i].bus.value.toNat = t.entries[j].bus.value.toNat → i = j

variable {t : PageTable} {offset : ArenaOffset} {bus : BusAddress}

/-- There are no more pages than the bus has. -/
theorem Separate.size_le (h : t.Separate) : t.entries.size ≤ 1048576 := by
  let page (i : Fin t.entries.size) : Fin 1048576 :=
    ⟨t.entries[i].bus.value.toNat / 4096, by have := t.entries[i].bus.value.toNat_lt; omega⟩
  have hinjective : Function.Injective page := by
    intro i j hij
    have hi := h.aligned i i.isLt
    have hj := h.aligned j j.isLt
    have hpage : t.entries[i].bus.value.toNat / 4096 = t.entries[j].bus.value.toNat / 4096 := congrArg Fin.val hij
    exact Fin.ext (h.distinct i j i.isLt j.isLt (by simp only [Fin.getElem_fin] at hpage; omega))
  simpa using Fintype.card_le_of_injective page hinjective

/-- An offset in a page of the table has a bus address if the page is a whole page of the bus. -/
theorem busOf?_eq_some (hi : offset.value.toNat / 4096 < t.entries.size)
    (haligned : t.entries[offset.value.toNat / 4096].bus.value.toNat % 4096 = 0) : ∃ bus, t.busOf? offset = some bus ∧
      bus.value.toNat = t.entries[offset.value.toNat / 4096].bus.value.toNat + offset.value.toNat % 4096 := by
  have hindex : offset.pageIndex.toNat = offset.value.toNat / 4096 := toNat_pageNumber offset.value
  have hlow : offset.inPage.toUInt32.toNat = offset.value.toNat % 4096 := by
    rw [UInt64.toNat_toUInt32, ArenaOffset.inPage, toNat_inPage]
    omega
  have hbus := t.entries[offset.value.toNat / 4096].bus.value.toNat_lt
  have hfits : t.entries[offset.value.toNat / 4096].bus.value.toNat + offset.inPage.toUInt32.toNat < UInt32.size := by
    rw [hlow, UInt32.size]
    omega
  refine ⟨⟨t.entries[offset.value.toNat / 4096].bus.value + offset.inPage.toUInt32⟩, ?_, ?_⟩
  · simp only [busOf?, hindex, Array.getElem?_eq_getElem hi, BusAddress.advance?, if_pos hfits]
  · rw [UInt32.toNat_add, Nat.mod_eq_of_lt hfits, hlow]

theorem Separate.busOf?_eq_some (h : t.Separate) (hi : offset.value.toNat / 4096 < t.entries.size) :
    ∃ bus, t.busOf? offset = some bus ∧
      bus.value.toNat = t.entries[offset.value.toNat / 4096].bus.value.toNat + offset.value.toNat % 4096 :=
  PageTable.busOf?_eq_some hi (h.aligned _ hi)

/-- The page that an offset with a bus address lies in. -/
theorem lt_size_of_busOf? (h : t.busOf? offset = some bus) : offset.value.toNat / 4096 < t.entries.size := by
  have hindex : offset.pageIndex.toNat = offset.value.toNat / 4096 := toNat_pageNumber offset.value
  unfold busOf? at h
  rw [hindex] at h
  cases hentry : t.entries[offset.value.toNat / 4096]? with
  | none =>
    rw [hentry] at h
    cases h
  | some entry => exact (Array.getElem?_eq_some_iff.1 hentry).1

/-- The offset of an address in a page of the table. -/
theorem Separate.offsetOf?_eq_some (h : t.Separate) {i low : Nat} (hi : i < t.entries.size) (hlow : low < 4096)
    (hbus : bus.value.toNat = t.entries[i].bus.value.toNat + low) :
    ∃ offset, t.offsetOf? bus = some offset ∧ offset.value.toNat = 4096 * i + low := by
  have haligned := h.aligned i hi
  have hsize := h.size_le
  have hmask : pageSize.toUInt32 - 1 = 4095 := by decide
  -- the address without its low bits is the page of entry `i` and of no other
  have hpage : ∀ j (hj : j < t.entries.size),
      (t.entries[j].bus.value == bus.value &&& ~~~4095) = true ↔ j = i := by
    intro j hj
    have haligned' := h.aligned j hj
    rw [beq_iff_eq, ← UInt32.toNat_inj, toNat_andNot_low, hbus]
    constructor
    · intro heq
      exact h.distinct j i hj hi (by omega)
    · rintro rfl
      omega
  have hfind : t.entries.findIdx? (fun entry => entry.bus.value == bus.value &&& ~~~4095) = some i := by
    rw [Array.findIdx?_eq_some_iff_getElem]
    refine ⟨hi, (hpage i hi).2 rfl, ?_⟩
    intro j hji hj
    exact absurd ((hpage j (by omega)).1 hj) (by omega)
  refine ⟨⟨UInt64.ofNat i * pageSize + (bus.value &&& 4095).toUInt64⟩, ?_, ?_⟩
  · simp only [offsetOf?, hmask, hfind]
    rfl
  · have hoffset : (UInt64.ofNat i).toNat = i := UInt64.toNat_ofNat_of_lt' (by rw [UInt64.size]; omega)
    have hbytes : pageSize.toNat = 4096 := rfl
    show (UInt64.ofNat i * pageSize + (bus.value &&& 4095).toUInt64).toNat = _
    rw [UInt64.toNat_add, UInt64.toNat_mul, hoffset, hbytes, UInt32.toNat_toUInt64, toNat_and_low, hbus]
    omega

/-- The words of a page: bytes further on in the same page are as many bytes further on the bus. -/
theorem Separate.offsetOf?_advance (h : t.Separate) (hbus : t.busOf? offset = some bus) {bytes : Nat}
    (hbytes : offset.value.toNat % 4096 + bytes < 4096) :
    ∃ address, bus.advance? (UInt32.ofNat bytes) = some address ∧
      t.offsetOf? address = some (offset.advance (UInt64.ofNat bytes)) := by
  have hi := lt_size_of_busOf? hbus
  obtain ⟨found, hfound, hvalue⟩ := h.busOf?_eq_some hi
  rw [hbus] at hfound
  cases hfound
  have haligned := h.aligned _ hi
  have hentry := t.entries[offset.value.toNat / 4096].bus.value.toNat_lt
  have hoffset := offset.value.toNat_lt
  have hcount : (UInt32.ofNat bytes).toNat = bytes := UInt32.toNat_ofNat_of_lt' (by rw [UInt32.size]; omega)
  have hfits : bus.value.toNat + (UInt32.ofNat bytes).toNat < UInt32.size := by
    rw [hcount, hvalue, UInt32.size]
    omega
  refine ⟨⟨bus.value + UInt32.ofNat bytes⟩, by rw [BusAddress.advance?, if_pos hfits], ?_⟩
  have hsum : (BusAddress.mk (bus.value + UInt32.ofNat bytes)).value.toNat =
      t.entries[offset.value.toNat / 4096].bus.value.toNat + (offset.value.toNat % 4096 + bytes) := by
    rw [UInt32.toNat_add, Nat.mod_eq_of_lt hfits, hcount, hvalue]
    omega
  obtain ⟨back, hback, hsame⟩ := h.offsetOf?_eq_some hi hbytes hsum
  rw [hback]
  have hadvance : back.value = offset.value + UInt64.ofNat bytes := by
    have hword : (UInt64.ofNat bytes).toNat = bytes := UInt64.toNat_ofNat_of_lt' (by rw [UInt64.size]; omega)
    rw [← UInt64.toNat_inj, hsame, UInt64.toNat_add, hword]
    omega
  show some back = some ⟨offset.value + UInt64.ofNat bytes⟩
  rw [← hadvance]

theorem Separate.offsetOf?_busOf? (h : t.Separate) (hbus : t.busOf? offset = some bus) :
    t.offsetOf? bus = some offset := by
  have hpage : offset.value.toNat % 4096 + 0 < 4096 := Nat.mod_lt _ (by decide)
  obtain ⟨address, hadvance, hoffset⟩ := h.offsetOf?_advance hbus hpage
  have hzero : bus.advance? (UInt32.ofNat 0) = some bus := by
    have hlt : bus.value.toNat + (UInt32.ofNat 0).toNat < UInt32.size := bus.value.toNat_lt
    rw [BusAddress.advance?, if_pos hlt]
    simp
  rw [hzero] at hadvance
  cases hadvance
  simpa [ArenaOffset.advance] using hoffset

/-- Different offsets have different bus addresses. -/
theorem Separate.busOf?_inj (h : t.Separate) {other : ArenaOffset} (hbus : t.busOf? offset = some bus)
    (hother : t.busOf? other = some bus) : offset = other := by
  have hback := h.offsetOf?_busOf? hbus
  rw [h.offsetOf?_busOf? hother] at hback
  exact (Option.some.inj hback).symm

end PageTable

/-- An alias is a multiple of the size of the window. -/
theorem DramAlias.toNat_mod (dram : DramAlias) : dram.value.toNat % 1073741824 = 0 := by
  cases dram <;> rfl

/-- An address in the window and the alias have no bits in common. -/
theorem DramAlias.or_eq_add (dram : DramAlias) {x : Nat} (h : x < 1073741824) :
    dram.value.toNat ||| x = dram.value.toNat + x := by
  cases dram with
  | l2Coherent => exact (Nat.two_pow_add_eq_or_of_lt (i := 30) h 1).symm
  | uncached => exact (Nat.two_pow_add_eq_or_of_lt (i := 30) h 3).symm

theorem PageEntry.Places.toNat_bus {e : PageEntry} {dram : DramAlias} {address frame : Nat}
    (h : e.Places dram address frame) (hframe : frame < 0x40000) :
    e.bus.value.toNat = dram.value.toNat + 4096 * frame := by
  rw [h.bus_eq, dram.or_eq_add (by omega)]

namespace Arena

/-! ### The simulated arena -/

/-- The frame of a page in numbers. -/
def frameNumber (i : Nat) : Nat := 1 + (3839 + 262143 - 2 * i % 262143) % 262143

/-- A remainder of a number below twice the divisor, without the division, which `omega` would not finish with. -/
private theorem mod_cases {x : Nat} (h : x < 2 * 262143) : x % 262143 = x ∨ x % 262143 + 262143 = x := by
  by_cases hx : x < 262143
  · exact .inl (Nat.mod_eq_of_lt hx)
  · right
    rw [Nat.mod_eq_sub_mod (by omega), Nat.mod_eq_of_lt (by omega)]
    omega

private theorem down_inj {a b : Nat} (ha : a < 262143) (hb : b < 262143)
    (h : (3839 + 262143 - a) % 262143 = (3839 + 262143 - b) % 262143) : a = b := by
  have hdown := mod_cases (x := 3839 + 262143 - a) (by omega)
  have hdown' := mod_cases (x := 3839 + 262143 - b) (by omega)
  omega

/-- The divisor is odd, so that doubling loses nothing. -/
private theorem double_inj {i j : Nat} (hi : i < 262143) (hj : j < 262143) (h : 2 * i % 262143 = 2 * j % 262143) :
    i = j := by
  have htwice := mod_cases (x := 2 * i) (Nat.mul_lt_mul_of_pos_left hi (by decide))
  have htwice' := mod_cases (x := 2 * j) (Nat.mul_lt_mul_of_pos_left hj (by decide))
  generalize 2 * i % 262143 = a at *
  generalize 2 * j % 262143 = b at *
  omega

theorem frameNumber_inj {i j : Nat} (hi : i < 262143) (hj : j < 262143) (h : frameNumber i = frameNumber j) :
    i = j :=
  double_inj hi hj <| down_inj (Nat.mod_lt _ (by decide)) (Nat.mod_lt _ (by decide)) (Nat.add_left_cancel h)

private theorem toNat_simulatedFrame {i : Nat} (hi : i < 262143) :
    (simulatedFrame (UInt64.ofNat i)).value.toNat = frameNumber i := by
  have hindex : (UInt64.ofNat i).toNat = i := UInt64.toNat_ofNat_of_lt' (by rw [UInt64.size]; omega)
  have hmax : maxArenaPages = 262143 := by decide
  have hstep : (2 * UInt64.ofNat i % 262143).toNat = 2 * i % 262143 := by
    have htwo : (2 * UInt64.ofNat i).toNat = 2 * i := by
      rw [UInt64.toNat_mul, hindex]
      simp
      omega
    rw [UInt64.toNat_mod, htwo]
    rfl
  have hbase : (firstFrame - 1 + 262143).toNat = 3839 + 262143 := by decide
  have hdown : (firstFrame - 1 + 262143 - 2 * UInt64.ofNat i % 262143).toNat = 3839 + 262143 - 2 * i % 262143 := by
    rw [UInt64.toNat_sub_of_le, hstep, hbase]
    rw [UInt64.le_iff_toNat_le, hstep, hbase]
    omega
  show (1 + (firstFrame - 1 + maxArenaPages - 2 * UInt64.ofNat i % maxArenaPages) % maxArenaPages).toNat = _
  rw [hmax, UInt64.toNat_add, UInt64.toNat_mod, hdown, frameNumber]
  simp
  omega

/-- The frames are those of the window but for frame zero. -/
theorem frameNumber_bounds (i : Nat) : 1 ≤ frameNumber i ∧ frameNumber i ≤ 262143 := by
  unfold frameNumber
  omega

private theorem simulatedEntry_eq_ok (dram : DramAlias) {i : Nat} (hi : i < 262143) :
    ∃ entry, simulatedEntry dram (UInt64.ofNat i) = .ok entry ∧
      entry.Places dram (simulatedBase.value.toNat + 4096 * i) (frameNumber i) := by
  have hframe := toNat_simulatedFrame hi
  have hrange := frameNumber_bounds i
  have hstart : simulatedBase.value.toNat = 2130706432 := rfl
  have hbytes : pageSize.toNat = 4096 := rfl
  have hindex : (UInt64.ofNat i).toNat = i := UInt64.toNat_ofNat_of_lt' (by rw [UInt64.size]; omega)
  have hvirtual : (simulatedBase.advance (UInt64.ofNat i * pageSize)).value.toNat =
      simulatedBase.value.toNat + 4096 * i := by
    rw [VirtualAddress.advance, UInt64.toNat_add, UInt64.toNat_mul, hindex, hbytes, hstart]
    omega
  have hphysical : (simulatedFrame (UInt64.ofNat i)).page.base.value.toNat = 4096 * frameNumber i := by
    show (pageBase ((simulatedFrame (UInt64.ofNat i)).value <<< 12)).toNat = _
    rw [toNat_pageBase, UInt64.toNat_shiftLeft, hframe]
    simp [Nat.shiftLeft_eq]
    omega
  have hentry := PageEntry.ofPages_of_frame (by rw [hvirtual, hstart]; omega) hphysical dram
  rwa [if_neg (by omega), hvirtual] at hentry

/-- The number of words of some pages. -/
theorem toNat_words {pages : UInt64} (hmax : pages.toNat ≤ 262143) :
    (pages * pageSize / 4).toNat = 1024 * pages.toNat := by
  have hbytes : pageSize.toNat = 4096 := rfl
  have hfour : (4 : UInt64).toNat = 4 := rfl
  rw [UInt64.toNat_div, UInt64.toNat_mul, hbytes, hfour]
  omega

/-- An arena of zeros, over pages that follow one another in virtual memory and go down through the window. -/
structure IsSimulated (dram : DramAlias) (pages : Nat) (a : Arena) : Prop where
  discipline_eq : a.discipline = .simulated
  words_eq : a.words = Array.replicate (1024 * pages) 0
  size_eq : a.table.entries.size = pages
  places : ∀ i (h : i < a.table.entries.size),
    a.table.entries[i].Places dram (simulatedBase.value.toNat + 4096 * i) (frameNumber i)

section Simulated

variable {pages : UInt64} {dram : DramAlias} {arena : Arena}

theorem isSimulated_of_simulated (h : simulated pages dram = .ok arena) :
    0 < pages.toNat ∧ pages.toNat ≤ 262143 ∧ arena.IsSimulated dram pages.toNat := by
  unfold simulated at h
  split at h
  · cases h
  · rename_i hnonzero
    have hpos : pages.toNat ≠ 0 := fun hzero => hnonzero (UInt64.toNat_inj.1 hzero)
    split at h
    · cases h
    · rename_i hwindow
      have hmax : pages.toNat ≤ 262143 := UInt64.le_iff_toNat_le.1 (UInt64.not_lt.1 hwindow)
      split at h
      · cases h
      · rename_i entries hentries
        cases h
        obtain ⟨hlength, hget⟩ := mapM_eq_ok hentries
        rw [List.length_range] at hlength
        refine ⟨Nat.pos_of_ne_zero hpos, hmax, rfl, by rw [toNat_words hmax], hlength, ?_⟩
        intro i hi
        have hi' : i < entries.length := hi
        obtain ⟨entry, hentry, hplaces⟩ := simulatedEntry_eq_ok dram (i := i) (by omega)
        have hsame := hget i (by rw [List.length_range]; omega) hi'
        rw [List.getElem_range, hentry] at hsame
        cases hsame
        exact hplaces

theorem simulated_ok (hpos : 0 < pages.toNat) (hmax : pages.toNat ≤ 262143) (dram : DramAlias) :
    ∃ arena, simulated pages dram = .ok arena := by
  have hnonzero : pages ≠ 0 := by
    rintro rfl
    exact absurd hpos (by decide)
  have hwindow : ¬maxArenaPages < pages := by
    rw [UInt64.not_lt, UInt64.le_iff_toNat_le]
    exact hmax
  obtain ⟨entries, hentries⟩ :
      ∃ entries, ((List.range pages.toNat).mapM fun i => simulatedEntry dram (UInt64.ofNat i)) = .ok entries := by
    apply mapM_ok_of_forall
    intro i hi
    obtain ⟨entry, hentry, -⟩ := simulatedEntry_eq_ok dram (i := i) (by have := List.mem_range.1 hi; omega)
    exact ⟨entry, hentry⟩
  rw [simulated, if_neg hnonzero, if_neg hwindow, hentries]
  exact ⟨_, rfl⟩

/-- No frame is used twice. -/
theorem IsSimulated.separate {pages : Nat} (h : arena.IsSimulated dram pages) (hmax : pages ≤ 262143) :
    arena.table.Separate := by
  have hbus : ∀ i (hi : i < arena.table.entries.size),
      arena.table.entries[i].bus.value.toNat = dram.value.toNat + 4096 * frameNumber i :=
    fun i hi => (h.places i hi).toNat_bus (Nat.lt_succ_of_le (frameNumber_bounds i).2)
  have hsize := h.size_eq
  exact
    { aligned := by
        intro i hi
        have haligned := dram.toNat_mod
        rw [hbus i hi]
        omega
      distinct := by
        intro i j hi hj heq
        rw [hbus i hi, hbus j hj] at heq
        exact frameNumber_inj (by omega) (by omega) (by omega) }

/-- A simulated arena of any number of pages that the window can hold. -/
theorem simulated_eq_ok (hpos : 0 < pages.toNat) (hmax : pages.toNat ≤ 262143) (dram : DramAlias) :
    ∃ arena, simulated pages dram = .ok arena ∧ arena.words.size = 1024 * pages.toNat ∧
      arena.table.entries.size = pages.toNat ∧ arena.table.Separate := by
  obtain ⟨arena, harena⟩ := simulated_ok hpos hmax dram
  obtain ⟨-, -, hsimulated⟩ := isSimulated_of_simulated harena
  refine ⟨arena, harena, ?_, hsimulated.size_eq, hsimulated.separate hmax⟩
  rw [hsimulated.words_eq, Array.size_replicate]

end Simulated

end Arena

/-! ### Layouts that the window can hold -/

namespace ChainLayout

variable {l : ChainLayout}

/-- The pages of a layout hold its bytes and no page more, so a layout of up to `maxSamples` samples fits the
window. -/
theorem toNat_pages (l : ChainLayout) : l.pages.toNat = (l.lengthBytes.toNat + 4095) / 4096 := by
  have hbytes : pageSize.toNat = 4096 := rfl
  have hbound := l.lengthBytes_bound
  rw [UInt64.size] at hbound
  unfold pages pagesFor
  by_cases hrest : l.lengthBytes % pageSize = 0
  · have hzero : l.lengthBytes.toNat % 4096 = 0 := by
      rw [← hbytes, ← UInt64.toNat_mod, hrest]
      rfl
    rw [if_pos hrest, UInt64.add_zero, UInt64.toNat_div, hbytes]
    omega
  · have hone : (1 : UInt64).toNat = 1 := rfl
    have hnonzero : l.lengthBytes.toNat % 4096 ≠ 0 := by
      intro h
      apply hrest
      rw [← UInt64.toNat_inj, UInt64.toNat_mod, hbytes, h]
      rfl
    rw [if_neg hrest, UInt64.toNat_add, UInt64.toNat_div, hbytes, hone]
    omega

theorem pages_bounds (hn : 0 < l.nrSamples) (hmax : l.nrSamples ≤ maxSamples) :
    0 < l.pages.toNat ∧ l.pages.toNat ≤ 262143 := by
  have hpos : 0 < l.nrSamples.toNat := UInt32.lt_iff_toNat_lt.1 hn
  have hsamples : l.nrSamples.toNat ≤ 15790260 := UInt32.le_iff_toNat_le.1 hmax
  rw [toNat_pages, toNat_lengthBytes, toNat_blocksOffset]
  omega

/-- An arena of the pages of a layout is long enough for it. -/
theorem fits_of_size {a : Arena} (hn : l.nrSamples ≤ maxSamples) (hsize : a.words.size = 1024 * l.pages.toNat) :
    a.Fits l := by
  have hsamples : l.nrSamples.toNat ≤ 15790260 := UInt32.le_iff_toNat_le.1 hn
  have hlength := l.toNat_lengthBytes
  rw [l.toNat_blocksOffset] at hlength
  have hpages := l.toNat_pages
  rw [Arena.Fits, UInt64.le_iff_toNat_le, Arena.toNat_length (by rw [UInt64.size]; omega), hsize]
  omega

end ChainLayout

end PulseWidth
