import Mathlib.Data.Set.BooleanAlgebra
import Mathlib.Order.CompletePartialOrder
import PulseWidth.Board.Registers
import PulseWidth.Proofs.Word

/-!
# Windows over whole pages

A window is mapped by whole pages, but its registers start anywhere in the first page and may go on in the next one.
All the same a register is as far behind the address that was asked for as its offset says, and its word lies inside
of what is mapped (`MappedWindow.Spans`).  The bytes that a window reaches are all that a load through it depends on
and all that a store through it changes.  So windows that reach no common byte do not disturb each other.
-/

namespace PulseWidth

/-! ### Words of physical memory -/

/-- The addresses of the four bytes of a word. -/
def PhysicalAddress.bytes (a : PhysicalAddress) : List UInt64 := [a.value, a.value + 1, a.value + 2, a.value + 3]

namespace PhysicalMemory

variable {m m' : PhysicalMemory} {a : PhysicalAddress} {b : UInt64}

theorem byte_putByte_of_ne (m : PhysicalMemory) {a : UInt64} (h : b ≠ a) (value : UInt8) :
    (m.putByte a value).byte b = m.byte b := by
  rw [byte, putByte, Std.HashMap.getD_insert, if_neg (by simpa using h.symm)]
  rfl

/-- A word that is stored changes no other bytes than its own. -/
theorem byte_putWord (h : b ∉ a.bytes) (value : UInt32) : (m.putWord a value).byte b = m.byte b := by
  simp only [PhysicalAddress.bytes, List.mem_cons, List.not_mem_nil, or_false, not_or] at h
  obtain ⟨h0, h1, h2, h3⟩ := h
  rw [putWord, byte_putByte_of_ne _ h3, byte_putByte_of_ne _ h2, byte_putByte_of_ne _ h1, byte_putByte_of_ne _ h0]

/-- A word depends on no other bytes than its own. -/
theorem word_congr (h : ∀ b ∈ a.bytes, m.byte b = m'.byte b) : m.word a = m'.word a := by
  simp only [PhysicalAddress.bytes, List.mem_cons, List.not_mem_nil, or_false, forall_eq_or_imp, forall_eq] at h
  obtain ⟨h0, h1, h2, h3⟩ := h
  rw [word, word, h0, h1, h2, h3]

end PhysicalMemory

namespace MappedWindow

variable {w : MappedWindow} {block : String} {base : PhysicalAddress} {length offset : UInt64}

/-! ### Words of a window -/

/-- The window has a whole word at the offset. -/
def Holds (w : MappedWindow) (offset : UInt64) : Prop := offset.toNat % 4 = 0 ∧ offset.toNat + 4 ≤ w.length.toNat

instance (w : MappedWindow) (offset : UInt64) : Decidable (w.Holds offset) :=
  inferInstanceAs (Decidable (offset.toNat % 4 = 0 ∧ offset.toNat + 4 ≤ w.length.toNat))

theorem Holds.refusal?_eq_none (h : w.Holds offset) (m : Arithmetic) : w.refusal? m offset = none := by
  obtain ⟨haligned, hend⟩ := h
  have hmod : offset % 4 = 0 := by
    apply UInt64.toNat_inj.1
    rw [UInt64.toNat_mod]
    exact haligned
  exact Arithmetic.refusal?_eq_none (beq_iff_eq.2 hmod) hend

/-! ### Planning -/

theorem toNat_roundUp {bytes : UInt64} (hroom : bytes.toNat + 4095 < UInt64.size) :
    (roundUp bytes).toNat = (bytes.toNat + 4095) / 4096 * 4096 := by
  have hpage : pageSize.toNat = 4096 := rfl
  have hzero : (0 : UInt64).toNat = 0 := rfl
  have hrest : (bytes % pageSize).toNat = bytes.toNat % 4096 := by
    rw [UInt64.toNat_mod, hpage]
  rw [UInt64.size] at hroom
  unfold roundUp
  split
  · rename_i hwhole
    rw [← UInt64.toNat_inj, hrest, hzero] at hwhole
    omega
  · rename_i hpart
    rw [← UInt64.toNat_inj, hrest, hzero] at hpart
    have hle : bytes % pageSize ≤ pageSize := by
      rw [UInt64.le_iff_toNat_le, hrest, hpage]
      omega
    rw [UInt64.toNat_add, UInt64.toNat_sub_of_le _ _ hle, hrest, hpage]
    omega

/-- The bytes up to the end of the registers, in whole pages. -/
theorem toNat_regionLength (block : String)
    (hroom : base.value.toNat % 4096 + length.toNat + 4095 < UInt64.size) :
    (ofRun block base length).regionLength.toNat = (base.value.toNat % 4096 + length.toNat + 4095) / 4096 * 4096 := by
  have hfirst : (inPage base.value + length).toNat = base.value.toNat % 4096 + length.toNat := by
    rw [UInt64.toNat_add, toNat_inPage]
    rw [UInt64.size] at hroom
    omega
  show (roundUp (inPage base.value + length)).toNat = _
  rw [toNat_roundUp (by omega), hfirst]

theorem toNat_region (block : String) (base : PhysicalAddress) (length : UInt64) :
    (ofRun block base length).region.base.value.toNat = base.value.toNat / 4096 * 4096 :=
  toNat_pageBase base.value

theorem plan_eq_ok (block : String) (hbase : base.value.toNat < 1 <<< 63) (hlength : 0 < length.toNat)
    (hroom : base.value.toNat % 4096 + length.toNat + 4095 < UInt64.size) :
    plan block base length = .ok (ofRun block base length) := by
  have hregion := toNat_regionLength block hroom
  have hpage := toNat_region block base length
  have hnonempty : ¬(length = 0 ∨ (ofRun block base length).regionLength = 0) := by
    rw [← UInt64.toNat_inj, ← UInt64.toNat_inj, hregion]
    show ¬(_ = 0 ∨ _ = 0)
    omega
  have hlow : ¬1 <<< 63 ≤ (ofRun block base length).region.base.value.toNat := by
    omega
  rw [plan, if_neg hnonempty, if_neg hlow]

theorem of_plan_eq_ok (h : plan block base length = .ok w) :
    w = ofRun block base length ∧ base.value.toNat < 1 <<< 63 := by
  unfold plan at h
  dsimp only at h
  split at h
  · cases h
  · split at h
    · cases h
    · rename_i hlow
      cases h
      rw [toNat_region] at hlow
      refine ⟨rfl, ?_⟩
      omega

/-! ### Where the registers are -/

/-- The window gives access to `length` bytes from `base` on: they are among those of whole pages that are mapped, and
each word is where its offset says. -/
structure Spans (w : MappedWindow) (base : PhysicalAddress) (length : UInt64) : Prop where
  length_eq : w.length = length
  region_aligned : w.region.base.value.toNat % 4096 = 0
  regionLength_whole : w.regionLength.toNat % 4096 = 0
  inside : ∀ offset, w.Holds offset → (w.place offset).toNat + 4 ≤ w.regionLength.toNat
  reached : ∀ offset, w.Holds offset →
    w.region.base.value.toNat + (w.place offset).toNat = base.value.toNat + offset.toNat

theorem spans_ofRun (hroom : base.value.toNat % 4096 + length.toNat + 4095 < UInt64.size) :
    (ofRun block base length).Spans base length := by
  have hregion := toNat_regionLength block hroom
  have hpage := toNat_region block base length
  rw [UInt64.size] at hroom
  have hplace : ∀ offset, (ofRun block base length).Holds offset →
      ((ofRun block base length).place offset).toNat = base.value.toNat % 4096 + offset.toNat := by
    rintro offset ⟨-, hend⟩
    change _ ≤ length.toNat at hend
    show (inPage base.value + offset).toNat = _
    rw [UInt64.toNat_add, toNat_inPage]
    omega
  exact
    { length_eq := rfl
      region_aligned := by omega
      regionLength_whole := by omega
      inside := by
        intro offset hoffset
        have hend : offset.toNat + 4 ≤ length.toNat := hoffset.2
        rw [hplace offset hoffset]
        omega
      reached := by
        intro offset hoffset
        rw [hplace offset hoffset]
        omega }

theorem Spans.address_eq (h : w.Spans base length) (hoffset : w.Holds offset) :
    w.address offset = base.advance offset := by
  have hreached := h.reached offset hoffset
  have hvalue : (w.region.base.value + w.place offset).toNat = (base.value + offset).toNat := by
    rw [UInt64.toNat_add, UInt64.toNat_add, hreached]
  exact congrArg PhysicalAddress.mk (UInt64.toNat_inj.1 hvalue)

/-! ### What is reached -/

/-- The addresses of the bytes of the window's words. -/
def reach (w : MappedWindow) : Set UInt64 := {a | ∃ offset, w.Holds offset ∧ a ∈ (w.address offset).bytes}

/-- A window of whole words that does not go beyond the last address reaches the bytes that it spans. -/
theorem Spans.mem_reach_iff (h : w.Spans base length) (hwords : length.toNat % 4 = 0)
    (hend : base.value.toNat + length.toNat ≤ UInt64.size) {a : UInt64} :
    a ∈ w.reach ↔ base.value.toNat ≤ a.toNat ∧ a.toNat < base.value.toNat + length.toNat := by
  have h1 : (1 : UInt64).toNat = 1 := rfl
  have h2 : (2 : UInt64).toNat = 2 := rfl
  have h3 : (3 : UInt64).toNat = 3 := rfl
  rw [UInt64.size] at hend
  constructor
  · rintro ⟨offset, hoffset, ha⟩
    have hlast : offset.toNat + 4 ≤ length.toNat := h.length_eq ▸ hoffset.2
    have hword : (base.value + offset).toNat = base.value.toNat + offset.toNat := by
      rw [UInt64.toNat_add]
      omega
    rw [h.address_eq hoffset] at ha
    change a ∈ [base.value + offset, base.value + offset + 1, base.value + offset + 2, base.value + offset + 3] at ha
    simp only [List.mem_cons, List.not_mem_nil, or_false, ← UInt64.toNat_inj, UInt64.toNat_add _ 1,
      UInt64.toNat_add _ 2, UInt64.toNat_add _ 3, hword, h1, h2, h3] at ha
    omega
  · rintro ⟨hfirst, hlast⟩
    -- the word that the byte belongs to
    have hoffset : (UInt64.ofNat ((a.toNat - base.value.toNat) / 4 * 4)).toNat =
        (a.toNat - base.value.toNat) / 4 * 4 := by
      apply UInt64.toNat_ofNat_of_lt'
      rw [UInt64.size]
      omega
    generalize UInt64.ofNat ((a.toNat - base.value.toNat) / 4 * 4) = offset at hoffset
    have hholds : w.Holds offset := by
      rw [Holds, h.length_eq, hoffset]
      omega
    refine ⟨offset, hholds, ?_⟩
    have hword : (base.value + offset).toNat = base.value.toNat + offset.toNat := by
      rw [UInt64.toNat_add]
      omega
    rw [h.address_eq hholds]
    show a ∈ [base.value + offset, base.value + offset + 1, base.value + offset + 2, base.value + offset + 3]
    simp only [List.mem_cons, List.not_mem_nil, or_false, ← UInt64.toNat_inj, UInt64.toNat_add _ 1,
      UInt64.toNat_add _ 2, UInt64.toNat_add _ 3, hword, h1, h2, h3]
    omega

end MappedWindow

namespace Host

variable {w w' : MappedWindow} {block : String} {base : PhysicalAddress} {length offset offset' : UInt64}

/-! ### Loads and stores -/

theorem load_of_holds (g : Host) (h : w.Holds offset) : g.load w offset = .ok (g.memory.word (w.address offset)) := by
  rw [load, h.refusal?_eq_none g.arithmetic]

theorem store_of_holds (g : Host) (h : w.Holds offset) (value : UInt32) : ∃ g', g.store w offset value = (.ok (), g') ∧
    g'.memory = g.memory.putWord (w.address offset) value := by
  simp only [store, h.refusal?_eq_none _]
  exact ⟨_, rfl, rfl⟩

/-- What is stored through a window does not change what is loaded through one that reaches other bytes. -/
theorem load_store_of_disjoint (g : Host) (hdisjoint : Disjoint w.reach w'.reach) (h : w.Holds offset)
    (h' : w'.Holds offset') (value : UInt32) : (g.store w offset value).2.load w' offset' = g.load w' offset' := by
  obtain ⟨g', hstore, hmemory⟩ := g.store_of_holds h value
  have hword : (g.memory.putWord (w.address offset) value).word (w'.address offset') =
      g.memory.word (w'.address offset') := by
    apply PhysicalMemory.word_congr
    intro b hb
    apply PhysicalMemory.byte_putWord
    intro hstored
    exact Set.disjoint_left.1 hdisjoint ⟨offset, h, hstored⟩ ⟨offset', h', hb⟩
  rw [hstore, load_of_holds _ h', load_of_holds _ h', hmemory, hword]

/-! ### Mapping -/

/-- Whether a window that can be planned is mapped is up to the host. -/
theorem mapWindow_of_planned (h : Host) (hplan : MappedWindow.plan block base length = .ok w) :
    match h.refuses h.history (.mapDevice block) with
    | some reason => ∃ h', h.mapWindow block base length = (.error (.refused block base reason), h')
    | none => ∃ h', h.mapWindow block base length = (.ok w, h') ∧ h'.memory = h.memory := by
  simp only [mapWindow, hplan, call]
  cases h.refuses h.history (.mapDevice block) with
  | some reason => exact ⟨_, rfl⟩
  | none => exact ⟨_, rfl, rfl⟩

theorem plan_of_mapBlock {h h' : Host} {platform : Platform} {block : Block}
    (hmap : h.mapBlock platform block offset length = (.ok w, h')) :
    MappedWindow.plan block.name ((platform.blockBase block).advance offset) length = .ok w := by
  unfold mapBlock mapWindow at hmap
  split at hmap
  · cases hmap
  · rename_i window hplan
    split at hmap
    · cases hmap
    · cases hmap
      exact hplan

end Host

end PulseWidth
