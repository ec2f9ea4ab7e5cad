import PulseWidth.Channel.Pin

/-!
# Function select words bit by bit

Pin `p` owns three bits of its function select word, those from `3 * (p % 10)` on.  A change of its function replaces
these bits by the code of the new function and keeps all others, so that the function is read back and the functions
of the other pins stay.  A word is known when the functions of some pins and the bits that none of them owns are.
-/

namespace PulseWidth

namespace PinFunction

theorem toNat_code_lt (f : PinFunction) : f.code.toNat < 8 := by
  cases f <;> decide

theorem ofCode_code (f : PinFunction) : ofCode f.code = f := by
  cases f <;> rfl

theorem code_inj {f f' : PinFunction} (h : f.code = f'.code) : f = f' := by
  rw [← ofCode_code f, h, ofCode_code]

theorem toNat_code_ofCode (code : UInt8) : (ofCode code).code.toNat = code.toNat % 8 := by
  have hlow : (code &&& 7).toNat = code.toNat % 8 := by
    rw [UInt8.toNat_and]
    exact Nat.and_two_pow_sub_one_eq_mod code.toNat 3
  have hlt : code.toNat % 8 < 8 := Nat.mod_lt _ (by decide)
  unfold ofCode
  rw [hlow]
  generalize code.toNat % 8 = low at hlt
  revert low
  decide

end PinFunction

namespace Gpio

theorem toNat_selectShift (pin : UInt8) : (selectShift pin).toNat = 3 * (pin.toNat % 10) := by
  have hmod : (pin % 10).toNat = pin.toNat % 10 := UInt8.toNat_mod pin 10
  rw [selectShift, UInt8.toNat_toUInt32, UInt8.toNat_mul, hmod]
  show pin.toNat % 10 * 3 % 256 = _
  omega

private theorem testBit_high {x n bit : Nat} (h : x < 1 <<< n) (hbit : n ≤ bit) : x.testBit bit = false := by
  rw [Nat.one_shiftLeft] at h
  exact Nat.testBit_lt_two_pow (Nat.lt_of_lt_of_le h (Nat.pow_le_pow_right (by decide) hbit))

private theorem testBit_seven (bit : Nat) : Nat.testBit 7 bit = decide (bit < 3) :=
  Nat.testBit_two_pow_sub_one 3 bit

/-- The bits of a word after a pin's function has been changed. -/
theorem testBit_withFunction (word : UInt32) (pin : UInt8) (f : PinFunction) (bit : Nat) :
    (withFunction word pin f).toNat.testBit bit =
      if bit / 3 = pin.toNat % 10 then f.code.toNat.testBit (bit % 3) else word.toNat.testBit bit := by
  have hslot : pin.toNat % 10 < 10 := Nat.mod_lt _ (by decide)
  have hshift : (selectShift pin).toNat % 32 = 3 * (pin.toNat % 10) := by
    rw [toNat_selectShift]
    omega
  have hnot : ∀ x : UInt32, (~~~x).toNat = 2 ^ 32 - (x.toNat + 1) := by
    intro x
    rw [UInt32.toNat_not, UInt32.size]
    omega
  rw [withFunction, UInt32.toNat_or, UInt32.toNat_and, hnot, UInt32.toNat_shiftLeft, UInt32.toNat_shiftLeft, hshift,
    UInt8.toNat_toUInt32, Nat.testBit_or, Nat.testBit_and,
    Nat.testBit_two_pow_sub_succ (Nat.mod_lt _ (by decide)), Nat.testBit_mod_two_pow, Nat.testBit_mod_two_pow,
    Nat.testBit_shiftLeft, Nat.testBit_shiftLeft]
  show (_ && (_ && !(_ && (_ && Nat.testBit 7 _))) || _) = _
  rw [testBit_seven]
  -- the three bits from `3 * (pin % 10)` on are cleared and come from the code, the others stay
  by_cases hbit : bit / 3 = pin.toNat % 10
  · have hoffset : bit - 3 * (pin.toNat % 10) = bit % 3 := by omega
    have h32 : bit < 32 := by omega
    have hfrom : bit ≥ 3 * (pin.toNat % 10) := by omega
    have hin : bit % 3 < 3 := by omega
    simp [hbit, hoffset, h32, hfrom, hin]
  · rw [if_neg hbit]
    by_cases h32 : bit < 32
    · by_cases hfrom : bit ≥ 3 * (pin.toNat % 10)
      · have hbehind : ¬ bit - 3 * (pin.toNat % 10) < 3 := by omega
        have hzero : f.code.toNat.testBit (bit - 3 * (pin.toNat % 10)) = false :=
          testBit_high (n := 3) f.toNat_code_lt (Nat.le_of_not_lt hbehind)
        simp [h32, hfrom, hbehind, hzero]
      · simp [h32, hfrom]
    · have hzero : word.toNat.testBit bit = false := testBit_high (n := 32) word.toNat_lt (Nat.le_of_not_lt h32)
      simp [h32, hzero]

theorem testBit_code_function (word : UInt32) (pin : UInt8) (bit : Nat) :
    (function word pin).code.toNat.testBit bit =
      (decide (bit < 3) && word.toNat.testBit (3 * (pin.toNat % 10) + bit)) := by
  have hshift : (selectShift pin).toNat % 32 = 3 * (pin.toNat % 10) := by
    rw [toNat_selectShift]
    omega
  have hlow : ((word >>> selectShift pin) &&& 7).toNat = (word >>> selectShift pin).toNat % 8 := by
    rw [UInt32.toNat_and]
    exact Nat.and_two_pow_sub_one_eq_mod _ 3
  have hcode : (function word pin).code.toNat = (word.toNat >>> (3 * (pin.toNat % 10))) % 2 ^ 3 := by
    rw [function, PinFunction.toNat_code_ofCode, UInt32.toNat_toUInt8, hlow, UInt32.toNat_shiftRight, hshift]
    omega
  rw [hcode, Nat.testBit_mod_two_pow, Nat.testBit_shiftRight]

theorem function_eq_iff (word : UInt32) (pin : UInt8) (f : PinFunction) :
    function word pin = f ↔
      ∀ bit < 3, word.toNat.testBit (3 * (pin.toNat % 10) + bit) = f.code.toNat.testBit bit := by
  constructor
  · rintro rfl bit hbit
    rw [testBit_code_function, decide_eq_true hbit, Bool.true_and]
  · intro h
    apply PinFunction.code_inj
    apply UInt8.toNat_inj.1
    apply Nat.eq_of_testBit_eq
    intro bit
    rw [testBit_code_function]
    by_cases hbit : bit < 3
    · rw [decide_eq_true hbit, Bool.true_and, h bit hbit]
    · rw [decide_eq_false hbit, Bool.false_and, testBit_high (n := 3) f.toNat_code_lt (Nat.le_of_not_lt hbit)]

/-- The changed function is read back, and the functions of the other pins of the word stay. -/
theorem function_withFunction (word : UInt32) (pin other : UInt8) (f : PinFunction) :
    function (withFunction word pin f) other =
      if other.toNat % 10 = pin.toNat % 10 then f else function word other := by
  rw [function_eq_iff]
  intro bit hbit
  have hslot : (3 * (other.toNat % 10) + bit) / 3 = other.toNat % 10 := by omega
  have hplace : (3 * (other.toNat % 10) + bit) % 3 = bit := by omega
  rw [testBit_withFunction, hslot, hplace]
  by_cases hsame : other.toNat % 10 = pin.toNat % 10
  · rw [if_pos hsame, if_pos hsame]
  · rw [if_neg hsame, if_neg hsame, testBit_code_function, decide_eq_true hbit, Bool.true_and]

end Gpio

end PulseWidth
