import PulseWidth.Chain.Build
import PulseWidth.Proofs.Chain.Layout
import PulseWidth.Proofs.Channel.Table

/-!
# Words of an arena

An arena that is long enough for a layout accepts every aligned access below the layout's length, under either
discipline.  A word that is put is read back, and all others stay.  `Carries` says that the sample words of a layout
are those of some channels; `SameBeyond` that two arenas differ in their first words at most.
-/

namespace PulseWidth

namespace Arena

/-- The arena is long enough for the layout. -/
def Fits (a : Arena) (l : ChainLayout) : Prop := l.lengthBytes ≤ a.length

theorem toNat_length_le (a : Arena) : a.length.toNat ≤ 4 * a.words.size := by
  rw [length, UInt64.toNat_mul, UInt64.toNat_ofNat']
  have h1 := Nat.mod_le (a.words.size % 2 ^ 64 * (4 : UInt64).toNat) (2 ^ 64)
  have h2 := Nat.mod_le a.words.size (2 ^ 64)
  have h3 : (4 : UInt64).toNat = 4 := rfl
  rw [h3] at h1 ⊢
  omega

/-- The length of an arena that is not absurdly long. -/
theorem toNat_length {a : Arena} (h : 4 * a.words.size < UInt64.size) : a.length.toNat = 4 * a.words.size := by
  have hfour : (4 : UInt64).toNat = 4 := rfl
  rw [UInt64.size] at h
  have hsize : (UInt64.ofNat a.words.size).toNat = a.words.size :=
    UInt64.toNat_ofNat_of_lt' (by rw [UInt64.size]; omega)
  rw [length, UInt64.toNat_mul, hsize, hfour]
  omega

theorem toNat_position (offset : ArenaOffset) : position offset = offset.value.toNat / 4 := by
  show (offset.value / 4).toNat = _
  rw [UInt64.toNat_div]
  rfl

section Access

variable {a : Arena} {l : ChainLayout} {offset : ArenaOffset}

theorem Fits.position_lt (h : a.Fits l) (hend : offset.value.toNat + 4 ≤ l.lengthBytes.toNat) :
    position offset < a.words.size := by
  have h1 := a.toNat_length_le
  have h2 := UInt64.le_iff_toNat_le.1 h
  rw [toNat_position]
  omega

theorem Fits.refusal?_eq_none (h : a.Fits l) (halign : offset.value.toNat % 4 = 0)
    (hend : offset.value.toNat + 4 ≤ l.lengthBytes.toNat) : a.refusal? offset = none := by
  have haligned : offset.isAligned 4 = true := by
    rw [ArenaOffset.isAligned, isAligned_four]
    exact decide_eq_true halign
  rw [refusal?]
  cases a.discipline with
  | simulated => simp [haligned, h.position_lt hend]
  | locked m => exact Arithmetic.refusal?_eq_none haligned (Nat.le_trans hend (UInt64.le_iff_toNat_le.1 h))

@[simp] theorem size_put (a : Arena) (o : ArenaOffset) (v : UInt32) :
    (a.put o v).words.size = a.words.size := by
  simp [put]

@[simp] theorem length_put (a : Arena) (o : ArenaOffset) (v : UInt32) : (a.put o v).length = a.length := by
  rw [length, size_put, length]

theorem fits_put_iff (a : Arena) (o : ArenaOffset) (v : UInt32) (l : ChainLayout) :
    (a.put o v).Fits l ↔ a.Fits l := by
  rw [Fits, length_put, Fits]

theorem getElem?_put (a : Arena) (o : ArenaOffset) (v : UInt32) (i : Nat) :
    (a.put o v).words[i]? = if position o = i ∧ i < a.words.size then some v else a.words[i]? := by
  simp only [put, Array.getElem?_setIfInBounds]
  split
  · rename_i h
    subst h
    by_cases hi : position o < a.words.size <;> simp [hi]
  · rename_i h
    simp [h]

theorem Fits.write_eq_ok (h : a.Fits l) (halign : offset.value.toNat % 4 = 0)
    (hend : offset.value.toNat + 4 ≤ l.lengthBytes.toNat) (v : UInt32) : a.write offset v = .ok (a.put offset v) := by
  rw [write, h.refusal?_eq_none halign hend]

/-- The word at an accepted offset. -/
theorem Fits.read_eq_ok_iff (h : a.Fits l) (halign : offset.value.toNat % 4 = 0)
    (hend : offset.value.toNat + 4 ≤ l.lengthBytes.toNat) (v : UInt32) :
    a.read offset = .ok v ↔ a.words[offset.value.toNat / 4]? = some v := by
  have hpos := h.position_lt hend
  rw [read, h.refusal?_eq_none halign hend, ← toNat_position, Array.getElem?_eq_getElem hpos,
    Array.getD_eq_getD_getElem?, Array.getElem?_eq_getElem hpos]
  simp

end Access

/-! ### Several words -/

/-- The arena after some words have been put, one after the other. -/
def putAll (a : Arena) (writes : List (ArenaOffset × UInt32)) : Arena :=
  writes.foldl (fun a (offset, value) => a.put offset value) a

section PutAll

variable {writes : List (ArenaOffset × UInt32)} {i : Nat}

@[simp] theorem discipline_putAll (a : Arena) : (a.putAll writes).discipline = a.discipline := by
  induction writes generalizing a with
  | nil => rfl
  | cons w rest ih => exact ih _

@[simp] theorem table_putAll (a : Arena) : (a.putAll writes).table = a.table := by
  induction writes generalizing a with
  | nil => rfl
  | cons w rest ih => exact ih _

@[simp] theorem size_putAll (a : Arena) : (a.putAll writes).words.size = a.words.size := by
  induction writes generalizing a with
  | nil => rfl
  | cons w rest ih => exact (ih _).trans (size_put a w.1 w.2)

theorem fits_putAll_iff (a : Arena) (l : ChainLayout) : (a.putAll writes).Fits l ↔ a.Fits l := by
  rw [Fits, Fits, length, length, size_putAll]

theorem getElem?_putAll_of_ne (a : Arena) (h : ∀ w ∈ writes, position w.1 ≠ i) :
    (a.putAll writes).words[i]? = a.words[i]? := by
  induction writes generalizing a with
  | nil => rfl
  | cons w rest ih =>
    refine (ih _ fun w' hw' => h w' (by simp [hw'])).trans ?_
    rw [getElem?_put, if_neg]
    rintro ⟨heq, -⟩
    exact h w (by simp) heq

/-- The word at a position that is written at least once and always with the same value. -/
theorem getElem?_putAll (a : Arena) (hi : i < a.words.size) {v : UInt32} (hwritten : ∃ w ∈ writes, position w.1 = i)
    (hagree : ∀ w ∈ writes, position w.1 = i → w.2 = v) : (a.putAll writes).words[i]? = some v := by
  induction writes generalizing a with
  | nil => simp at hwritten
  | cons w rest ih =>
    show ((a.put w.1 w.2).putAll rest).words[i]? = some v
    -- the last write to the position decides
    by_cases hrest : ∃ w' ∈ rest, position w'.1 = i
    · exact ih _ (by rwa [size_put]) hrest fun w' hw' => hagree w' (by simp [hw'])
    · have hhead : position w.1 = i := by
        obtain ⟨w', hw', heq⟩ := hwritten
        rcases List.mem_cons.1 hw' with rfl | hmem
        · exact heq
        · exact absurd ⟨w', hmem, heq⟩ hrest
      rw [getElem?_putAll_of_ne _ fun w' hw' heq => hrest ⟨w', hw', heq⟩, getElem?_put, if_pos ⟨hhead, hi⟩,
        hagree w (by simp) hhead]

end PutAll

/-! ### Sample words -/

/-- Each sample word of the layout is the word of its slot for some channels. -/
def Carries (a : Arena) (l : ChainLayout) (channels : List Channel) : Prop :=
  ∀ slot < l.nrSamples, a.read (l.sampleOffset slot) = .ok (slotMask channels slot)

/-- An arena that differs from another in the first `count` words at most. -/
structure SameBeyond (count : Nat) (a b : Arena) : Prop where
  discipline_eq : b.discipline = a.discipline
  table_eq : b.table = a.table
  size_eq : b.words.size = a.words.size
  getElem?_eq : ∀ i, count ≤ i → b.words[i]? = a.words[i]?

theorem SameBeyond.refl (count : Nat) (a : Arena) : SameBeyond count a a := ⟨rfl, rfl, rfl, fun _ _ => rfl⟩

theorem SameBeyond.trans {count : Nat} {a b c : Arena} (h : SameBeyond count a b) (h' : SameBeyond count b c) :
    SameBeyond count a c where
  discipline_eq := h'.discipline_eq.trans h.discipline_eq
  table_eq := h'.table_eq.trans h.table_eq
  size_eq := h'.size_eq.trans h.size_eq
  getElem?_eq := fun i hi => (h'.getElem?_eq i hi).trans (h.getElem?_eq i hi)

theorem SameBeyond.fits {count : Nat} {a b : Arena} {l : ChainLayout} (h : SameBeyond count a b) (ha : a.Fits l) :
    b.Fits l := by
  rwa [Fits, length, h.size_eq]

section Samples

variable {a : Arena} {l : ChainLayout} {slot : UInt32}

theorem sample_end (h : slot < l.nrSamples) : (l.sampleOffset slot).value.toNat + 4 ≤ l.lengthBytes.toNat := by
  rw [UInt32.lt_iff_toNat_lt] at h
  rw [l.toNat_sampleOffset, l.toNat_lengthBytes]
  omega

theorem sample_aligned (l : ChainLayout) (slot : UInt32) : (l.sampleOffset slot).value.toNat % 4 = 0 := by
  rw [l.toNat_sampleOffset]
  omega

theorem Fits.write_sample (h : a.Fits l) (hslot : slot < l.nrSamples) (v : UInt32) :
    a.write (l.sampleOffset slot) v = .ok (a.put (l.sampleOffset slot) v) :=
  h.write_eq_ok (sample_aligned l slot) (sample_end hslot) v

theorem Fits.read_sample_iff (h : a.Fits l) (hslot : slot < l.nrSamples) (v : UInt32) :
    a.read (l.sampleOffset slot) = .ok v ↔ a.words[slot.toNat]? = some v := by
  rw [h.read_eq_ok_iff (sample_aligned l slot) (sample_end hslot), l.toNat_sampleOffset,
    Nat.mul_div_cancel_left _ (by omega)]

/-- A sample word that is put is read back, and the others stay. -/
theorem Fits.read_put_sample (h : a.Fits l) (hslot : slot < l.nrSamples) (v : UInt32) {other : UInt32}
    (hother : other < l.nrSamples) :
    (a.put (l.sampleOffset slot) v).read (l.sampleOffset other) =
      if other = slot then .ok v else a.read (l.sampleOffset other) := by
  have hfits := (fits_put_iff a (l.sampleOffset slot) v l).2 h
  have hposition : position (l.sampleOffset slot) = slot.toNat := by
    rw [toNat_position, l.toNat_sampleOffset, Nat.mul_div_cancel_left _ (by omega)]
  have hbound := h.position_lt (sample_end hslot)
  rw [hposition] at hbound
  split
  · rename_i heq
    subst heq
    rw [hfits.read_sample_iff hother, getElem?_put, hposition]
    simp [hbound]
  · rename_i hne
    have hword : (a.put (l.sampleOffset slot) v).words[other.toNat]? = a.words[other.toNat]? := by
      rw [getElem?_put, hposition, if_neg]
      rintro ⟨heq, -⟩
      exact hne (UInt32.toNat_inj.1 heq.symm)
    have hpos := h.position_lt (sample_end hother)
    rw [toNat_position, l.toNat_sampleOffset, Nat.mul_div_cancel_left _ (by omega)] at hpos
    have hread : a.words[other.toNat]? = some a.words[other.toNat] := Array.getElem?_eq_getElem hpos
    rw [(h.read_sample_iff hother _).2 hread, hfits.read_sample_iff hother, hword, hread]

theorem sameBeyond_put_sample (a : Arena) (hslot : slot < l.nrSamples) (v : UInt32) :
    SameBeyond l.nrSamples.toNat a (a.put (l.sampleOffset slot) v) where
  discipline_eq := rfl
  table_eq := rfl
  size_eq := size_put a _ v
  getElem?_eq := by
    intro i hi
    rw [UInt32.lt_iff_toNat_lt] at hslot
    rw [getElem?_put, toNat_position, l.toNat_sampleOffset, if_neg]
    omega

end Samples

end Arena

end PulseWidth
