import PulseWidth.Channel.Table

/-!
# Words as numbers and as sets of bits

Offsets and addresses are masked and shifted; on numbers that is division by the size of a page or of a control
block.  Level words and sample words are sets of pins: `Pin.isIn` tells whether a pin is in a word, and the words
that the operations on masks give are read off bit by bit.
-/

namespace PulseWidth

/-! ### Masks that cut off low bits -/

private theorem toNat_eq_and_add_andNot {n : Nat} (x m : BitVec n) :
    x.toNat = (x &&& m).toNat + (x &&& ~~~m).toNat := by
  have hdisjoint : (x &&& m) &&& (x &&& ~~~m) = 0#n := by
    ext i hi
    simp only [BitVec.getElem_and, BitVec.getElem_not, BitVec.getElem_zero]
    cases x[i] <;> cases m[i] <;> rfl
  have hsum : (x &&& m) + (x &&& ~~~m) = x := by
    rw [BitVec.add_eq_or_of_and_eq_zero _ _ hdisjoint]
    ext i hi
    simp only [BitVec.getElem_or, BitVec.getElem_and, BitVec.getElem_not]
    cases x[i] <;> cases m[i] <;> rfl
  rw [← BitVec.toNat_add_of_and_eq_zero hdisjoint, hsum]

theorem toNat_inPage (x : UInt64) : (inPage x).toNat = x.toNat % 4096 := by
  show (x &&& 4095).toNat = _
  rw [UInt64.toNat_and]
  exact Nat.and_two_pow_sub_one_eq_mod x.toNat 12

theorem toNat_pageBase (x : UInt64) : (pageBase x).toNat = x.toNat / 4096 * 4096 := by
  have h : x.toNat = (inPage x).toNat + (pageBase x).toNat := toNat_eq_and_add_andNot x.toBitVec 4095#64
  rw [toNat_inPage] at h
  omega

theorem toNat_pageNumber (x : UInt64) : (pageNumber x).toNat = x.toNat / 4096 := by
  show (x >>> 12).toNat = _
  rw [UInt64.toNat_shiftRight]
  simp [Nat.shiftRight_eq_div_pow]

theorem isAligned_four (x : UInt64) : isAligned x 4 = decide (x.toNat % 4 = 0) := by
  have h : (x &&& (4 - 1)).toNat = x.toNat % 4 := by
    rw [UInt64.toNat_and]
    exact Nat.and_two_pow_sub_one_eq_mod x.toNat 2
  rw [isAligned, ← h, Bool.eq_iff_iff, beq_iff_eq, decide_eq_true_iff, ← UInt64.toNat_inj]
  rfl

/-- Rounding up to a multiple of 32, for offsets far below the end of the address space. -/
theorem toNat_alignUp (o : ArenaOffset) (h : o.value.toNat + 32 ≤ UInt64.size) :
    (o.alignUp 32).value.toNat = (o.value.toNat + 31) / 32 * 32 := by
  have hsum : (o.value + 32 - 1).toNat = o.value.toNat + 31 := by
    rw [UInt64.size] at h
    rw [UInt64.toNat_sub, UInt64.toNat_add]
    simp
    omega
  have hlow : ((o.value + 32 - 1) &&& 31).toNat = (o.value.toNat + 31) % 32 := by
    rw [UInt64.toNat_and, hsum]
    exact Nat.and_two_pow_sub_one_eq_mod _ 5
  have hsplit := toNat_eq_and_add_andNot (o.value + 32 - 1).toBitVec 31#64
  change (o.value + 32 - 1).toNat = ((o.value + 32 - 1) &&& 31).toNat + (o.alignUp 32).value.toNat at hsplit
  omega

/-! ### Masks of 32 bits on the bus -/

theorem toNat_and_low (x : UInt32) : (x &&& 4095).toNat = x.toNat % 4096 := by
  rw [UInt32.toNat_and]
  exact Nat.and_two_pow_sub_one_eq_mod x.toNat 12

theorem toNat_andNot_low (x : UInt32) : (x &&& ~~~4095).toNat = x.toNat / 4096 * 4096 := by
  have h : x.toNat = (x &&& 4095).toNat + (x &&& ~~~4095).toNat := toNat_eq_and_add_andNot x.toBitVec 4095#32
  rw [toNat_and_low] at h
  omega

/-! ### Pins in words -/

/-- Whether the bit of a pin is set in a word. -/
def Pin.isIn (p : Pin) (word : UInt32) : Bool := word.toNat.testBit p.index.val

private theorem toNat_mask (p : Pin) : p.mask.toNat = 1 <<< p.index.val := by
  have h : ∀ i : Fin 32, (Pin.mk i).mask.toNat = 1 <<< i.val := by decide
  exact h p.index

theorem testBit_mask (p : Pin) (b : Nat) : p.mask.toNat.testBit b = decide (p.index.val = b) := by
  rw [toNat_mask, Nat.one_shiftLeft, Nat.testBit_two_pow]

theorem maskOf_cons (p : Pin) (pins : List Pin) : Pin.maskOf (p :: pins) = p.mask ||| Pin.maskOf pins := by
  have hacc : ∀ (pins : List Pin) (mask : UInt32),
      pins.foldl (fun mask p => mask ||| p.mask) mask = mask ||| Pin.maskOf pins := by
    intro pins
    induction pins with
    | nil => simp [Pin.maskOf]
    | cons q rest ih =>
      intro mask
      rw [Pin.maskOf, List.foldl_cons, List.foldl_cons, ih, ih (0 ||| q.mask), UInt32.zero_or, UInt32.or_assoc]
  rw [Pin.maskOf, List.foldl_cons, hacc, UInt32.zero_or]

/-- The bits of a mask are the numbers of its pins. -/
theorem testBit_maskOf (pins : List Pin) (b : Nat) :
    (Pin.maskOf pins).toNat.testBit b = true ↔ ∃ p ∈ pins, p.index.val = b := by
  induction pins with
  | nil => simp [Pin.maskOf]
  | cons p rest ih =>
    rw [maskOf_cons, UInt32.toNat_or, Nat.testBit_or, Bool.or_eq_true, ih, testBit_mask]
    simp

theorem Pin.ext_index {p q : Pin} (h : p.index.val = q.index.val) : p = q := by
  cases p; cases q
  exact congrArg Pin.mk (Fin.ext h)

@[simp] theorem isIn_mask (p q : Pin) : p.isIn q.mask = decide (p = q) := by
  rw [Pin.isIn, testBit_mask, decide_eq_decide]
  exact ⟨fun h => (Pin.ext_index h).symm, fun h => by rw [h]⟩

@[simp] theorem isIn_maskOf (p : Pin) (pins : List Pin) : p.isIn (Pin.maskOf pins) = decide (p ∈ pins) := by
  rw [Bool.eq_iff_iff, Pin.isIn, testBit_maskOf, decide_eq_true_iff]
  constructor
  · rintro ⟨q, hq, h⟩
    exact Pin.ext_index h ▸ hq
  · intro h
    exact ⟨p, h, rfl⟩

@[simp] theorem isIn_or (p : Pin) (a b : UInt32) : p.isIn (a ||| b) = (p.isIn a || p.isIn b) := by
  rw [Pin.isIn, UInt32.toNat_or, Nat.testBit_or]
  rfl

@[simp] theorem isIn_andNot (p : Pin) (a b : UInt32) : p.isIn (a &&& ~~~b) = (p.isIn a && !p.isIn b) := by
  have h : ∀ x : UInt32, p.isIn x = x.toBitVec.getLsbD p.index.val := fun _ => rfl
  rw [h, h, h]
  simp

end PulseWidth
