import PulseWidth.Register.Field

/-!
# Fields that are written and read back

A value that has been put into a field of a word is read back as far as the field holds it, whatever the word was
(`Field.get_put`).  Fields without a common bit do not disturb each other (`Field.get_put_of_apart`,
`Field.put_comm_of_apart`).  For the words of registers, a value that is not too wide is what the checked setter puts
there.
-/

namespace PulseWidth.Field

variable {n : Nat} {f g : Field}

theorem getLsbD_max (f : Field) {bit : Nat} (hbit : bit < n) :
    (BitVec.ofNat n f.max).getLsbD bit = decide (bit < f.width) := by
  rw [BitVec.getLsbD_ofNat, decide_eq_true hbit, Bool.true_and, max, Nat.one_shiftLeft, Nat.testBit_two_pow_sub_one]

/-- The bits of what stands in a field. -/
theorem getLsbD_get (word : BitVec n) {bit : Nat} (hbit : bit < n) :
    (f.get word).getLsbD bit = (decide (bit < f.width) && word.getLsbD (f.low + bit)) := by
  rw [get, BitVec.getLsbD_and, getLsbD_max f hbit, BitVec.getLsbD_ushiftRight, Bool.and_comm]

/-- The bits of a word after a field has been written: those of the field come from the value, the others stay. -/
theorem getLsbD_put (value word : BitVec n) {bit : Nat} (hbit : bit < n) :
    (f.put value word).getLsbD bit =
      if f.low ≤ bit ∧ bit < f.low + f.width then value.getLsbD (bit - f.low) else word.getLsbD bit := by
  rw [put, BitVec.getLsbD_or, BitVec.getLsbD_and, BitVec.getLsbD_not, BitVec.getLsbD_shiftLeft,
    BitVec.getLsbD_shiftLeft, BitVec.getLsbD_and, getLsbD_max f (by omega : bit - f.low < n), decide_eq_true hbit,
    Bool.true_and, Bool.true_and]
  by_cases hlow : f.low ≤ bit
  · have hplace : bit - f.low < f.width ↔ bit < f.low + f.width := by omega
    by_cases hhigh : bit < f.low + f.width
    · simp [hlow, hhigh, hplace, Nat.not_lt.2 hlow]
    · simp [hhigh, hplace]
  · simp [hlow, Nat.lt_of_not_le hlow]

theorem get_put (hinside : f.low + f.width ≤ n) (value word : BitVec n) :
    f.get (f.put value word) = value &&& BitVec.ofNat n f.max := by
  apply BitVec.eq_of_getLsbD_eq
  intro bit hbit
  rw [getLsbD_get _ hbit, BitVec.getLsbD_and, getLsbD_max f hbit, Bool.and_comm]
  by_cases hwidth : bit < f.width
  · have hplace : f.low ≤ f.low + bit ∧ f.low + bit < f.low + f.width := by omega
    rw [getLsbD_put _ _ (by omega), if_pos hplace, Nat.add_sub_cancel_left]
  · simp [hwidth]

/-- No bit belongs to both fields. -/
def Apart (f g : Field) : Prop := f.low + f.width ≤ g.low ∨ g.low + g.width ≤ f.low

/-- A field keeps what stands in it when one apart from it is written. -/
theorem get_put_of_apart (h : f.Apart g) (hinside : f.low + f.width ≤ n) (value word : BitVec n) :
    f.get (g.put value word) = f.get word := by
  apply BitVec.eq_of_getLsbD_eq
  intro bit hbit
  rw [getLsbD_get _ hbit, getLsbD_get _ hbit]
  by_cases hwidth : bit < f.width
  · have hother : ¬(g.low ≤ f.low + bit ∧ f.low + bit < g.low + g.width) := by
      rw [Apart] at h
      omega
    rw [getLsbD_put _ _ (by omega), if_neg hother]
  · simp [hwidth]

/-- The order of writes to fields apart from each other does not matter. -/
theorem put_comm_of_apart (h : f.Apart g) (value value' word : BitVec n) :
    f.put value (g.put value' word) = g.put value' (f.put value word) := by
  apply BitVec.eq_of_getLsbD_eq
  intro bit hbit
  rw [getLsbD_put _ _ hbit, getLsbD_put _ _ hbit, getLsbD_put _ _ hbit, getLsbD_put _ _ hbit]
  by_cases hf : f.low ≤ bit ∧ bit < f.low + f.width
  · have hg : ¬(g.low ≤ bit ∧ bit < g.low + g.width) := by
      rw [Apart] at h
      omega
    rw [if_pos hf, if_neg hg, if_pos hf]
  · rw [if_neg hf, if_neg hf]

/-- What stands in a field, as a number. -/
theorem toNat_get (hwidth : f.width ≤ n) (word : BitVec n) :
    (f.get word).toNat = (word.toNat >>> f.low) % (1 <<< f.width) := by
  have hmax : f.max < 2 ^ n := by
    have hmono := Nat.pow_le_pow_right (n := 2) (by decide) hwidth
    have hpos := Nat.two_pow_pos f.width
    rw [max, Nat.one_shiftLeft]
    omega
  rw [get, BitVec.toNat_and, BitVec.toNat_ushiftRight, BitVec.toNat_ofNat, Nat.mod_eq_of_lt hmax, max,
    Nat.one_shiftLeft, Nat.and_two_pow_sub_one_eq_mod]

/-- A value that fits its field is read back. -/
theorem read_write (hinside : f.low + f.width ≤ 32) {value : UInt32} (hvalue : value.toNat ≤ f.max) (word : UInt32) :
    f.read (f.write value word) = value := by
  have hmask : ∀ bit, f.width ≤ bit → value.toBitVec.getLsbD bit = false := by
    intro bit hbit
    have hlt : value.toNat < 1 <<< bit := by
      have hmono : 1 <<< f.width ≤ 1 <<< bit := by
        rw [Nat.one_shiftLeft, Nat.one_shiftLeft]
        exact Nat.pow_le_pow_right (by decide) hbit
      have hpos : 0 < 1 <<< f.width := by
        rw [Nat.one_shiftLeft]
        exact Nat.two_pow_pos f.width
      rw [max] at hvalue
      omega
    rw [Nat.one_shiftLeft] at hlt
    exact Nat.testBit_lt_two_pow hlt
  apply UInt32.eq_of_toBitVec_eq
  show f.get (f.put value.toBitVec word.toBitVec) = value.toBitVec
  rw [get_put hinside]
  apply BitVec.eq_of_getLsbD_eq
  intro bit hbit
  rw [BitVec.getLsbD_and, getLsbD_max f hbit]
  by_cases hwidth : bit < f.width
  · rw [decide_eq_true hwidth, Bool.and_true]
  · rw [hmask bit (Nat.le_of_not_lt hwidth), Bool.false_and]

/-- The checked setter does not refuse a value that fits, and puts what the unchecked one puts. -/
theorem set_eq_ok {value : UInt32} (hvalue : value.toNat ≤ f.max) (word : UInt32) :
    (f.set value.toNat word.toBitVec).map UInt32.ofBitVec = .ok (f.write value word) := by
  rw [set, if_pos hvalue]
  show Except.ok (UInt32.ofBitVec (f.put (BitVec.ofNat 32 value.toBitVec.toNat) word.toBitVec)) = _
  rw [BitVec.ofNat_toNat, BitVec.setWidth_eq]
  rfl

end PulseWidth.Field
