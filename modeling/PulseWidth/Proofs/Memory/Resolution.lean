import Mathlib.Tactic.SplitIfs
import PulseWidth.Memory.Pagemap
import PulseWidth.Proofs.Lists
import PulseWidth.Proofs.Register.Field
import PulseWidth.Proofs.Word

/-!
# Which pages are accepted

A page table is filled from the kernel's records exactly if every page has a record that is complete, not swapped,
present and of a frame other than zero whose address lies in the bus window; the lowest page that has none decides the
error.  The address is formed in 64 bits.  A frame number has 55, and of those the shift keeps the low 52, so that a
frame that lies far outside the window can pass for one inside (`table_of_high_frame`).
-/

namespace PulseWidth

/-! ### Records -/

namespace PageRecord

/-- The number in the frame field. -/
def frameNumber (r : PageRecord) : Nat := r.bits.toNat % 0x80000000000000

/-- What is left of the frame number when the frame is turned into an address of 64 bits. -/
def frameKept (r : PageRecord) : Nat := r.frameNumber % 0x10000000000000

theorem has_bit (r : PageRecord) (i : Nat) : r.has (.bit i) = r.bits.toNat.testBit i := by
  have hwidth : (Field.bit i).width ≤ 64 := by
    show 1 ≤ 64
    decide
  have hget := Field.toNat_get hwidth r.bits.toBitVec
  have hbit : (Field.bit i).get r.bits.toBitVec = 0 ↔ r.bits.toNat.testBit i = false := by
    rw [← BitVec.toNat_inj, hget]
    show r.bits.toNat >>> i % 2 = 0 ↔ _
    rw [Nat.testBit_eq_decide_div_mod_eq, Nat.shiftRight_eq_div_pow, decide_eq_false_iff_not]
    omega
  rw [has, Bool.eq_iff_iff, bne_iff_ne, ne_eq, hbit, Bool.not_eq_false]

theorem toNat_frame (r : PageRecord) : r.frame.value.toNat = r.frameNumber :=
  (Field.toNat_get (f := frameField) (n := 64) (by decide) r.bits.toBitVec).trans (by rfl)

/-- The page of the frame. -/
theorem toNat_page (r : PageRecord) : r.frame.page.base.value.toNat = 4096 * r.frameKept := by
  show (pageBase (r.frame.value <<< 12)).toNat = _
  rw [toNat_pageBase, UInt64.toNat_shiftLeft, toNat_frame, frameKept]
  simp only [Nat.shiftLeft_eq]
  show r.frameNumber * 4096 % 18446744073709551616 / 4096 * 4096 = _
  omega

end PageRecord

/-! ### Pages -/

namespace Pagemap

/-- The page has a complete record, which tells of a resident page and its frame. -/
structure Resident (p : Pagemap) (page : Nat) : Prop where
  complete : 8 * page + 8 ≤ p.size
  not_swapped : (p.record page).bits.toNat.testBit 62 = false
  present : (p.record page).bits.toNat.testBit 63 = true
  frame_pos : 1 ≤ (p.record page).frameNumber

/-- The frame lies in the bus window. -/
structure Reachable (p : Pagemap) (page : Nat) : Prop extends p.Resident page where
  frame_lt : (p.record page).frameNumber < 0x40000

/-- What is kept of the frame lies in the bus window. -/
structure Usable (p : Pagemap) (page : Nat) : Prop extends p.Resident page where
  kept_lt : (p.record page).frameKept < 0x40000

/-- What is wrong with the page at an address, in the order in which it is looked for. -/
def objection? (p : Pagemap) (address : VirtualAddress) : Option ResolveError :=
  let page := address.value.toNat / 4096
  let r := p.record page
  if p.size < 8 * page + 8 then some (.unread address)
  else if r.bits.toNat.testBit 62 = true then some (.swapped address)
  else if r.bits.toNat.testBit 63 = false then some (.notPresent address)
  else if r.frameNumber = 0 then some (.zeroFrame address)
  else if 0x40000 ≤ r.frameKept then some (.beyondBusWindow r.frame.page.base)
  else none

end Pagemap

/-- The entry of a page at an address that lies in a frame. -/
structure PageEntry.Places (e : PageEntry) (dram : DramAlias) (address frame : Nat) : Prop where
  virtual_eq : e.virtualPage.base.value.toNat = address
  physical_eq : e.physicalPage.base.value.toNat = 4096 * frame
  bus_eq : e.bus.value.toNat = dram.value.toNat ||| 4096 * frame

variable {p : Pagemap} {dram : DramAlias} {address base : VirtualAddress} {pages : Nat}

/-- A frame has an entry exactly if it lies in the window. -/
theorem PageEntry.ofPages_of_frame (haligned : address.value.toNat % 4096 = 0) {page : PhysicalPage} {frame : Nat}
    (hpage : page.base.value.toNat = 4096 * frame) (dram : DramAlias) :
    if 0x40000 ≤ frame then PageEntry.ofPages address.page page dram = .error (.beyondBusWindow page.base)
    else ∃ entry, PageEntry.ofPages address.page page dram = .ok entry ∧
      entry.Places dram address.value.toNat frame := by
  have hwindow : page.base.value < busWindow ↔ frame < 0x40000 := by
    rw [UInt64.lt_iff_toNat_lt, hpage, show busWindow.toNat = 0x40000000 from rfl]
    omega
  split_ifs with hbeyond
  · rw [PageEntry.ofPages, BusAddress.ofPhysical?, if_neg fun hlt => absurd (hwindow.1 hlt) (by omega)]
  · rw [PageEntry.ofPages, BusAddress.ofPhysical?, if_pos (hwindow.2 (by omega))]
    refine ⟨_, rfl, ?_, hpage, ?_⟩
    · show (pageBase address.value).toNat = _
      rw [toNat_pageBase]
      omega
    · show (page.base.value.toUInt32 ||| dram.value).toNat = _
      rw [UInt32.toNat_or, UInt64.toNat_toUInt32, hpage, Nat.mod_eq_of_lt (by omega), Nat.or_comm]

namespace Pagemap

theorem objection?_eq_none_iff : p.objection? address = none ↔ p.Usable (address.value.toNat / 4096) := by
  unfold objection?
  dsimp only
  constructor
  · intro h
    split_ifs at h with hshort hswapped hpresent hzero hbeyond
    exact ⟨⟨by omega, by simpa using hswapped, by simpa using hpresent, by omega⟩, by omega⟩
  · rintro ⟨⟨hcomplete, hswapped, hpresent, hpos⟩, hlt⟩
    rw [if_neg (by omega), if_neg (by simp [hswapped]), if_neg (by simp [hpresent]), if_neg (by omega),
      if_neg (by omega)]

/-- The checks of a record are made in their order. -/
private theorem frameOf_eq (p : Pagemap) (address : VirtualAddress) :
    let r := p.record (address.value.toNat / 4096)
    p.frameOf address =
      if p.size < 8 * (address.value.toNat / 4096) + 8 then .error (.unread address)
      else if r.bits.toNat.testBit 62 = true then .error (.swapped address)
      else if r.bits.toNat.testBit 63 = false then .error (.notPresent address)
      else if r.frameNumber = 0 then .error (.zeroFrame address)
      else .ok r.frame := by
  intro r
  have hzero : r.frame.value = 0 ↔ r.frameNumber = 0 := by
    rw [← UInt64.toNat_inj, PageRecord.toNat_frame]
    rfl
  unfold frameOf entry
  rw [toNat_pageNumber]
  by_cases hshort : p.size < 8 * (address.value.toNat / 4096) + 8
  · simp only [if_neg (Nat.not_le.2 hshort), if_pos hshort]
  · simp only [if_pos (Nat.le_of_not_lt hshort), if_neg hshort]
    show r.checkedFrame address = _
    simp only [PageRecord.checkedFrame, PageRecord.swappedBit, PageRecord.presentBit, PageRecord.has_bit, hzero,
      Bool.not_eq_true']

/-- An address that starts a page lives where a frame starts. -/
private theorem page_physicalOf (haligned : address.value.toNat % 4096 = 0) (r : PageRecord) :
    (physicalOf address r.frame).page = r.frame.page := by
  have hlow : inPage address.value = 0 := by
    rw [← UInt64.toNat_inj, toNat_inPage, haligned]
    rfl
  have hbase : pageBase r.frame.page.base.value = r.frame.page.base.value := by
    rw [← UInt64.toNat_inj, toNat_pageBase, PageRecord.toNat_page]
    omega
  show PhysicalPage.mk ⟨pageBase (r.frame.page.base.value + inPage address.value)⟩ = _
  rw [hlow, UInt64.add_zero, hbase]

/-- The entry of a page that starts at an address, or what is wrong with the page. -/
theorem resolveEntry_eq (haligned : address.value.toNat % 4096 = 0) (dram : DramAlias) :
    match p.objection? address with
    | some e => PageTable.resolveEntry p.resolver dram address = .error e
    | none => ∃ entry, PageTable.resolveEntry p.resolver dram address = .ok entry ∧
        entry.Places dram address.value.toNat (p.record (address.value.toNat / 4096)).frameKept := by
  have hframe := PageEntry.ofPages_of_frame haligned (p.record (address.value.toNat / 4096)).toNat_page dram
  unfold objection? PageTable.resolveEntry resolver
  dsimp only
  rw [frameOf_eq]
  split_ifs at hframe ⊢ with hshort hswapped hpresent hzero hbeyond
  all_goals simp only [Except.map, page_physicalOf haligned, hframe]

theorem resolveEntry_eq_error_iff (haligned : address.value.toNat % 4096 = 0) {e : ResolveError} :
    PageTable.resolveEntry p.resolver dram address = .error e ↔ p.objection? address = some e := by
  have hentry := resolveEntry_eq (p := p) haligned dram
  split at hentry
  · rename_i reason hreason
    rw [hentry, hreason, Except.error.injEq, Option.some.injEq]
  · rename_i hnone
    obtain ⟨entry, hok, -⟩ := hentry
    rw [hok, hnone]
    exact ⟨nofun, nofun⟩

theorem resolveEntry_ok_iff (haligned : address.value.toNat % 4096 = 0) :
    (∃ entry, PageTable.resolveEntry p.resolver dram address = .ok entry) ↔ p.objection? address = none := by
  have hentry := resolveEntry_eq (p := p) haligned dram
  split at hentry
  · rename_i reason hreason
    rw [hentry, hreason]
    exact ⟨nofun, nofun⟩
  · rename_i hnone
    obtain ⟨entry, hok, -⟩ := hentry
    exact ⟨fun _ => hnone, fun _ => ⟨entry, hok⟩⟩

theorem places_of_resolveEntry (haligned : address.value.toNat % 4096 = 0) {entry : PageEntry}
    (h : PageTable.resolveEntry p.resolver dram address = .ok entry) :
    entry.Places dram address.value.toNat (p.record (address.value.toNat / 4096)).frameKept := by
  have hentry := resolveEntry_eq (p := p) haligned dram
  rw [(resolveEntry_ok_iff haligned).1 ⟨entry, h⟩] at hentry
  obtain ⟨found, hok, hplaces⟩ := hentry
  rw [h] at hok
  cases hok
  exact hplaces

/-- Nothing is lost of a frame number that an address can hold. -/
theorem usable_iff_reachable {page : Nat} (h : (p.record page).frameNumber < 0x10000000000000) :
    p.Usable page ↔ p.Reachable page := by
  have hkept : (p.record page).frameKept = (p.record page).frameNumber := Nat.mod_eq_of_lt h
  exact ⟨fun hu => ⟨hu.toResident, hkept ▸ hu.kept_lt⟩, fun hr => ⟨hr.toResident, hkept.symm ▸ hr.frame_lt⟩⟩

end Pagemap

/-! ### Tables -/

namespace PageTable

@[simp] theorem length_addresses (base : VirtualAddress) (pages : Nat) : (addresses base pages).length = pages := by
  rw [addresses, List.length_map, List.length_range]

theorem getElem_addresses {i : Nat} (hi : i < (addresses base pages).length) :
    (addresses base pages)[i] = base.advance (UInt64.ofNat (4096 * i)) := by
  have hbytes : UInt64.ofNat i * pageSize = UInt64.ofNat (4096 * i) := by
    rw [Nat.mul_comm]
    exact (UInt64.ofNat_mul i 4096).symm
  simp only [addresses, List.getElem_map, List.getElem_range, hbytes]

/-- The address of a page, if none passes the end of the address space. -/
theorem toNat_advance (inside : base.value.toNat + 4096 * pages ≤ UInt64.size) {i : Nat} (hi : i < pages) :
    (base.advance (UInt64.ofNat (4096 * i))).value.toNat = base.value.toNat + 4096 * i := by
  rw [UInt64.size] at inside
  rw [VirtualAddress.advance, UInt64.toNat_add, UInt64.toNat_ofNat']
  omega

theorem resolve_eq_ok_iff {resolver : Resolver} {t : PageTable} : resolve base pages resolver dram = .ok t ↔
    (addresses base pages).mapM (resolveEntry resolver dram) = .ok t.entries.toList := by
  rw [resolve_eq]
  cases (addresses base pages).mapM (resolveEntry resolver dram) with
  | error e => exact ⟨nofun, nofun⟩
  | ok entries =>
    constructor
    · intro h
      cases h
      rfl
    · intro h
      cases h
      rfl

theorem resolve_eq_error_iff {resolver : Resolver} {e : ResolveError} : resolve base pages resolver dram = .error e ↔
    ∃ i < pages, resolveEntry resolver dram (base.advance (UInt64.ofNat (4096 * i))) = .error e ∧
      ∀ j < i, ∃ entry, resolveEntry resolver dram (base.advance (UInt64.ofNat (4096 * j))) = .ok entry := by
  have hrefused : resolve base pages resolver dram = .error e ↔
      (addresses base pages).mapM (resolveEntry resolver dram) = .error e := by
    rw [resolve_eq]
    cases (addresses base pages).mapM (resolveEntry resolver dram) <;> simp [Except.map]
  rw [hrefused, mapM_eq_error_iff]
  simp only [getElem_addresses, length_addresses, exists_prop]

end PageTable

/-! ### Tables from records -/

namespace Pagemap

section Table

variable (p : Pagemap) (dram : DramAlias) (aligned : base.value.toNat % 4096 = 0)
  (inside : base.value.toNat + 4096 * pages ≤ UInt64.size)

include aligned inside

private theorem aligned_advance {i : Nat} (hi : i < pages) :
    (base.advance (UInt64.ofNat (4096 * i))).value.toNat % 4096 = 0 := by
  rw [PageTable.toNat_advance inside hi]
  omega

private theorem page_advance {i : Nat} (hi : i < pages) :
    (base.advance (UInt64.ofNat (4096 * i))).value.toNat / 4096 = base.value.toNat / 4096 + i := by
  rw [PageTable.toNat_advance inside hi]
  omega

private theorem objection?_advance {i : Nat} (hi : i < pages) :
    p.objection? (base.advance (UInt64.ofNat (4096 * i))) = none ↔ p.Usable (base.value.toNat / 4096 + i) := by
  rw [objection?_eq_none_iff, page_advance aligned inside hi]

theorem table_eq_error_iff {e : ResolveError} : PageTable.resolve base pages p.resolver dram = .error e ↔
    ∃ i < pages, p.objection? (base.advance (UInt64.ofNat (4096 * i))) = some e ∧
      ∀ j < i, p.Usable (base.value.toNat / 4096 + j) := by
  rw [PageTable.resolve_eq_error_iff]
  refine exists_congr fun i => and_congr_right fun hi => ?_
  rw [resolveEntry_eq_error_iff (aligned_advance aligned inside hi)]
  refine and_congr_right fun _ => forall_congr' fun j => forall_congr' fun hj => ?_
  have hbefore : j < pages := Nat.lt_trans hj hi
  rw [resolveEntry_ok_iff (aligned_advance aligned inside hbefore), p.objection?_advance aligned inside hbefore]

omit aligned inside in
private theorem entries_of_table {t : PageTable} (h : PageTable.resolve base pages p.resolver dram = .ok t) :
    t.entries.size = pages ∧ ∀ i (hi : i < t.entries.size),
      PageTable.resolveEntry p.resolver dram (base.advance (UInt64.ofNat (4096 * i))) = .ok t.entries[i] := by
  obtain ⟨hlength, hget⟩ := mapM_eq_ok (PageTable.resolve_eq_ok_iff.1 h)
  rw [PageTable.length_addresses, Array.length_toList] at hlength
  refine ⟨hlength, fun i hi => ?_⟩
  have hentry := hget i (by simpa [← hlength] using hi) (by simpa using hi)
  rwa [PageTable.getElem_addresses, Array.getElem_toList] at hentry

theorem table_ok_iff : (∃ t, PageTable.resolve base pages p.resolver dram = .ok t) ↔
    ∀ i < pages, p.Usable (base.value.toNat / 4096 + i) := by
  constructor
  · rintro ⟨t, ht⟩ i hi
    obtain ⟨hsize, hget⟩ := p.entries_of_table dram ht
    rw [← p.objection?_advance aligned inside hi, ← resolveEntry_ok_iff (aligned_advance aligned inside hi)]
    exact ⟨_, hget i (hsize ▸ hi)⟩
  · intro husable
    have hall : ∀ x ∈ PageTable.addresses base pages,
        ∃ entry, PageTable.resolveEntry p.resolver dram x = .ok entry := by
      intro x hx
      obtain ⟨i, hi, rfl⟩ := List.getElem_of_mem hx
      rw [PageTable.getElem_addresses]
      rw [PageTable.length_addresses] at hi
      rw [resolveEntry_ok_iff (aligned_advance aligned inside hi), p.objection?_advance aligned inside hi]
      exact husable i hi
    obtain ⟨entries, hmap⟩ := mapM_ok_of_forall hall
    exact ⟨⟨entries.toArray⟩, PageTable.resolve_eq_ok_iff.2 hmap⟩

theorem places_of_table {t : PageTable} (h : PageTable.resolve base pages p.resolver dram = .ok t) :
    t.entries.size = pages ∧ ∀ i (hi : i < t.entries.size), t.entries[i].Places dram (base.value.toNat + 4096 * i)
      (p.record (base.value.toNat / 4096 + i)).frameKept := by
  obtain ⟨hsize, hget⟩ := p.entries_of_table dram h
  refine ⟨hsize, fun i hi => ?_⟩
  have hpage : i < pages := hsize ▸ hi
  rw [← page_advance aligned inside hpage, ← PageTable.toNat_advance inside hpage]
  exact places_of_resolveEntry (aligned_advance aligned inside hpage) (hget i hi)

end Table

end Pagemap

/-- For every file of records, every aligned base and every number of pages up to the end of the address space: the
table is filled exactly if every page is usable, and then each entry is that of its page; otherwise the lowest page
that is not usable decides the error.  If the addresses can hold the frame numbers, a page is usable exactly if it is
reachable. -/
theorem table_of_records (p : Pagemap) (dram : DramAlias) (base : VirtualAddress) (pages : Nat)
    (aligned : base.value.toNat % 4096 = 0) (inside : base.value.toNat + 4096 * pages ≤ UInt64.size) :
    let answer := PageTable.resolve base pages p.resolver dram
    let first := base.value.toNat / 4096
    ((∃ t, answer = .ok t) ↔ ∀ i < pages, p.Usable (first + i)) ∧
    ((∀ i < pages, (p.record (first + i)).frameNumber < 0x10000000000000) →
      ((∃ t, answer = .ok t) ↔ ∀ i < pages, p.Reachable (first + i))) ∧
    (∀ t, answer = .ok t → t.entries.size = pages ∧ ∀ i (hi : i < t.entries.size),
      t.entries[i].Places dram (base.value.toNat + 4096 * i) (p.record (first + i)).frameKept) ∧
    ∀ e, answer = .error e ↔ ∃ i < pages, p.objection? (base.advance (UInt64.ofNat (4096 * i))) = some e ∧
      ∀ j < i, p.Usable (first + j) := by
  intro answer first
  have hok := p.table_ok_iff dram aligned inside
  refine ⟨hok, ?_, fun t => p.places_of_table dram aligned inside, fun e => p.table_eq_error_iff dram aligned inside⟩
  intro hheld
  rw [hok]
  exact forall_congr' fun i => forall_congr' fun hi => Pagemap.usable_iff_reachable (hheld i hi)

/-- Two pages, the second one in the last frame of the window. -/
theorem table_of_last_frame :
    let p := Pagemap.ofRecords 16 #[0x8000000000000007, 0xA00000000003FFFF] 0
    (∀ i < 2, p.Reachable (16 + i)) ∧ ∃ t, PageTable.resolve ⟨0x10000⟩ 2 p.resolver .uncached = .ok t ∧
      t.entries.size = 2 ∧ ∀ hi : 1 < t.entries.size, t.entries[1].Places .uncached 0x11000 0x3FFFF := by
  intro p
  have hreachable : ∀ i < 2, p.Reachable (16 + i) := by
    intro i hi
    obtain rfl | rfl : i = 0 ∨ i = 1 := by omega
    · exact ⟨⟨by decide, by decide, by decide, by decide⟩, by decide⟩
    · exact ⟨⟨by decide, by decide, by decide, by decide⟩, by decide⟩
  have hheld : ∀ i < 2, (p.record (16 + i)).frameNumber < 0x10000000000000 :=
    fun i hi => Nat.lt_trans (hreachable i hi).frame_lt (by decide)
  obtain ⟨-, hok, hentries, -⟩ := table_of_records p .uncached ⟨0x10000⟩ 2 (by decide) (by decide)
  obtain ⟨t, ht⟩ := (hok hheld).2 hreachable
  obtain ⟨hsize, hplaces⟩ := hentries t ht
  refine ⟨hreachable, t, ht, hsize, fun hi => ?_⟩
  have hkept : (p.record 17).frameKept = 0x3FFFF := by decide
  rw [← hkept]
  exact hplaces 1 hi

/-- The frame of the second page lies outside the window, and yet the page is accepted. -/
theorem table_of_high_frame :
    let p := Pagemap.ofRecords 16 #[0x8000000000000007, 0x8010000000000005] 0
    ¬ ((∃ t, PageTable.resolve ⟨0x10000⟩ 2 p.resolver .uncached = .ok t) ↔ ∀ i < 2, p.Reachable (16 + i)) := by
  intro p h
  have husable : ∀ i < 2, p.Usable (16 + i) := by
    intro i hi
    obtain rfl | rfl : i = 0 ∨ i = 1 := by omega
    · exact ⟨⟨by decide, by decide, by decide, by decide⟩, by decide⟩
    · exact ⟨⟨by decide, by decide, by decide, by decide⟩, by decide⟩
  have haligned : (VirtualAddress.mk 0x10000).value.toNat % 4096 = 0 := by decide
  have hinside : (VirtualAddress.mk 0x10000).value.toNat + 4096 * 2 ≤ UInt64.size := by decide
  have hfilled := (p.table_ok_iff .uncached haligned hinside).2 husable
  exact absurd (h.1 hfilled 1 (by decide)).frame_lt (by decide)

end PulseWidth
