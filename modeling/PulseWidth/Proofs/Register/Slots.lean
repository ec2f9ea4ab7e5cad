import PulseWidth.Proofs.Register.Field
import PulseWidth.Proofs.Register.PinFunction

/-!
# Pin functions and the slots of their layout

The function select word is described twice, by a layout of ten slots and by arithmetic on the number of a pin.  Both
describe the same bits: the function of a pin is what stands in its slot (`Gpio.read_slotOf`), and to change it is to
write that slot (`Gpio.withFunction_eq_write`).  Different slots have no common bit, and none has one of the two bits
above the tenth, so that what is known of fields apart from each other settles the rest.
-/

namespace PulseWidth.Gpio

/-- The slot of the layout for the function of a pin. -/
def slotOf (pin : UInt8) : Slot :=
  ⟨"slot" ++ toString (pin.toNat % 10), ⟨3 * (pin.toNat % 10), 3⟩, .pinFunction⟩

/-- The two bits that belong to no slot. -/
def reserved : Field := ⟨30, 2⟩

variable (word : UInt32) (pin : UInt8) {other : UInt8} (f : PinFunction)

theorem slots_select : select.slots[pin.toNat % 10]? = some (slotOf pin) := by
  have hslot : pin.toNat % 10 < 10 := Nat.mod_lt _ (by decide)
  simp [select, slotOf, hslot]

theorem slot?_select : select.slot? (slotOf pin).name = some (slotOf pin) := by
  have hnames : ∀ k < 10, select.slot? ("slot" ++ toString k) =
      some ⟨"slot" ++ toString k, ⟨3 * k, 3⟩, .pinFunction⟩ := by decide
  exact hnames _ (Nat.mod_lt _ (by decide))

theorem slotOf_inside : (slotOf pin).field.low + (slotOf pin).field.width ≤ 30 := by
  have hslot : pin.toNat % 10 < 10 := Nat.mod_lt _ (by decide)
  show 3 * (pin.toNat % 10) + 3 ≤ 30
  omega

theorem apart_slotOf {pin other : UInt8} (h : other.toNat % 10 ≠ pin.toNat % 10) :
    (slotOf other).field.Apart (slotOf pin).field := by
  show 3 * (other.toNat % 10) + 3 ≤ 3 * (pin.toNat % 10) ∨ 3 * (pin.toNat % 10) + 3 ≤ 3 * (other.toNat % 10)
  omega

/-- The code of a pin's function stands in the pin's slot. -/
theorem read_slotOf : (slotOf pin).field.read word = (function word pin).code.toUInt32 := by
  apply UInt32.eq_of_toBitVec_eq
  apply BitVec.eq_of_getLsbD_eq
  intro bit hbit
  have hcode : (function word pin).code.toUInt32.toBitVec.getLsbD bit = (function word pin).code.toNat.testBit bit := by
    rw [← UInt8.toNat_toUInt32]
    rfl
  rw [hcode, testBit_code_function]
  exact Field.getLsbD_get word.toBitVec hbit

theorem function_eq_ofCode : function word pin = .ofCode ((slotOf pin).field.read word).toUInt8 := by
  have hcode : (function word pin).code.toUInt32.toUInt8 = (function word pin).code := by simp
  rw [read_slotOf, hcode, PinFunction.ofCode_code]

/-- To change a pin's function is to write the code of the new one to the pin's slot. -/
theorem withFunction_eq_write : withFunction word pin f = (slotOf pin).field.write f.code.toUInt32 word := by
  apply UInt32.eq_of_toBitVec_eq
  apply BitVec.eq_of_getLsbD_eq
  intro bit hbit
  have hplace : (slotOf pin).field.low ≤ bit ∧ bit < (slotOf pin).field.low + (slotOf pin).field.width ↔
      bit / 3 = pin.toNat % 10 := by
    show 3 * (pin.toNat % 10) ≤ bit ∧ bit < 3 * (pin.toNat % 10) + 3 ↔ _
    omega
  have hwrite := Field.getLsbD_put (f := (slotOf pin).field) f.code.toUInt32.toBitVec word.toBitVec hbit
  have hword : (withFunction word pin f).toBitVec.getLsbD bit = (withFunction word pin f).toNat.testBit bit := rfl
  rw [hword, testBit_withFunction]
  refine Eq.trans ?_ hwrite.symm
  by_cases hin : bit / 3 = pin.toNat % 10
  · have hoffset : bit - (slotOf pin).field.low = bit % 3 := by
      show bit - 3 * (pin.toNat % 10) = _
      omega
    rw [if_pos hin, if_pos (hplace.2 hin), hoffset, ← UInt8.toNat_toUInt32]
    rfl
  · rw [if_neg hin, if_neg (mt hplace.1 hin)]
    rfl

/-- The setter of the layout makes the same change; a code is never too wide for it. -/
theorem set_slotOf : (select.set (slotOf pin).name f.code.toNat word.toBitVec).map UInt32.ofBitVec =
    .ok (withFunction word pin f) := by
  have hnumber : f.code.toUInt32.toNat = f.code.toNat := UInt8.toNat_toUInt32 f.code
  have hcode : FieldKind.encode f.code.toNat .pinFunction = f.code.toUInt32.toNat := by
    cases f <;> rfl
  have hfits : f.code.toUInt32.toNat ≤ (slotOf pin).field.max := by
    have hlt := f.toNat_code_lt
    rw [hnumber]
    exact Nat.le_of_lt_succ hlt
  rw [withFunction_eq_write, ← Field.set_eq_ok hfits, ← hcode]
  simp only [Layout.set, slot?_select]
  rfl

theorem reserved_withFunction : reserved.read (withFunction word pin f) = reserved.read word := by
  have hapart : reserved.Apart (slotOf pin).field := .inr (slotOf_inside pin)
  rw [withFunction_eq_write]
  exact congrArg UInt32.ofBitVec (Field.get_put_of_apart hapart (by decide) _ _)

theorem withFunction_comm {pin other : UInt8} (h : other.toNat % 10 ≠ pin.toNat % 10) (f g : PinFunction) :
    withFunction (withFunction word pin f) other g = withFunction (withFunction word other g) pin f := by
  simp only [withFunction_eq_write]
  exact congrArg UInt32.ofBitVec (Field.put_comm_of_apart (apart_slotOf h) _ _ _)

/-- The arithmetic on the number of a pin agrees with the layout: the function of a pin is that of its slot, whose bits
are the function's code, and a change of the function is what the setter of the slot makes.  Such a change is read
back.  It leaves the functions of all pins with other slots and the bits without a slot, and changes to different slots
can be made in any order. -/
theorem layout_of_functions (word : UInt32) (pin : UInt8) (f : PinFunction) :
    select.slots[pin.toNat % 10]? = some (slotOf pin) ∧
      function word pin = .ofCode ((slotOf pin).field.read word).toUInt8 ∧
      (slotOf pin).field.read word = (function word pin).code.toUInt32 ∧
      (∀ bit < 3, (function word pin).code.toNat.testBit bit = word.toNat.testBit (3 * (pin.toNat % 10) + bit)) ∧
      (select.set (slotOf pin).name f.code.toNat word.toBitVec).map UInt32.ofBitVec = .ok (withFunction word pin f) ∧
      (slotOf pin).field.read (withFunction word pin f) = f.code.toUInt32 ∧
      function (withFunction word pin f) pin = f ∧
      reserved.read (withFunction word pin f) = reserved.read word ∧
      ∀ other, other.toNat % 10 ≠ pin.toNat % 10 →
        function (withFunction word pin f) other = function word other ∧
        ∀ g, withFunction (withFunction word pin f) other g = withFunction (withFunction word other g) pin f := by
  have hown : function (withFunction word pin f) pin = f := by
    rw [function_withFunction, if_pos rfl]
  refine ⟨slots_select pin, function_eq_ofCode word pin, read_slotOf word pin, ?_, set_slotOf word pin f, ?_, hown,
    reserved_withFunction word pin f, ?_⟩
  · intro bit hbit
    rw [testBit_code_function, decide_eq_true hbit, Bool.true_and]
  · rw [read_slotOf, hown]
  · intro other hother
    refine ⟨?_, fun g => withFunction_comm word hother f g⟩
    rw [function_withFunction, if_neg hother]

/-- Pin 17 becomes an output between the fourth and the fifth alternative of pin 11, whose codes are out of order. -/
theorem layout_of_alternatives :
    (11 : UInt8).toNat % 10 ≠ (17 : UInt8).toNat % 10 ∧
      function (withFunction 0xC000001C 17 .output) 11 = .alt4 ∧
      withFunction (withFunction 0xC000001C 17 .output) 11 .alt5 =
        withFunction (withFunction 0xC000001C 11 .alt5) 17 .output ∧
      reserved.read (withFunction 0xC000001C 17 .output) = 3 := by
  have hother : (11 : UInt8).toNat % 10 ≠ (17 : UInt8).toNat % 10 := by decide
  obtain ⟨-, -, -, -, -, -, -, hreserved, hothers⟩ := layout_of_functions 0xC000001C 17 .output
  obtain ⟨hfunction, hcomm⟩ := hothers 11 hother
  exact ⟨hother, hfunction, hcomm .alt5, hreserved⟩

end PulseWidth.Gpio
