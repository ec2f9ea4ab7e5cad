/-!
# Doubles and the nearest numbers

A finite double is `significand * 2 ^ exponent` for an integer significand below `2 ^ 53`.  `Binary.ofBits` reads
the two from the bits, so that every decision about a double is made in integers.

`roundQuotient` is the integer nearest to a quotient, a half going to the even neighbour or away from zero; a double is
so rounded to a whole number or to some decimal places.  `nearestBits` gives the double nearest to a quotient of natural
numbers, a tie going to the even significand and what is too large going to infinity.
-/

namespace PulseWidth.Decimal

/-- What the 64 bits of a double stand for; `negative` is the sign, also of zero. -/
inductive Binary where
  | notANumber
  | infinite (negative : Bool)
  | finite (negative : Bool) (significand : Nat) (exponent : Int)
deriving DecidableEq, Repr

/-- The value that the bits of a double stand for. -/
def Binary.ofBits (bits : UInt64) : Binary :=
  let n := bits.toNat
  let negative := decide (1 <<< 63 ≤ n)
  let biased : Nat := (n >>> 52) % 2048
  let fraction := n % (1 <<< 52)
  if biased = 2047 then
    if fraction = 0 then .infinite negative else .notANumber
  else if biased = 0 then .finite negative fraction (-1074)
  else .finite negative ((1 <<< 52) + fraction) ((biased : Int) - 1075)

/-- The value of a double. -/
def Binary.ofFloat (x : Float) : Binary := ofBits x.toBits

/-- The bits of infinity. -/
def infinityBits : Nat := 2047 <<< 52

/-! ### Rounding a quotient -/

/-- Where a half goes. -/
inductive Tie where
  | toEven
  | up
deriving DecidableEq, Repr

/-- The natural number nearest to `num / den`. -/
def roundQuotient (tie : Tie) (num den : Nat) : Nat :=
  let floor := num / den
  let twice := 2 * (num % den)
  if twice < den then floor
  else if den < twice then floor + 1
  else match tie with
    | .toEven => floor + floor % 2
    | .up => floor + 1

theorem roundQuotient_up (num den : Nat) :
    roundQuotient .up num den = if 2 * (num % den) < den then num / den else num / den + 1 := by
  unfold roundQuotient
  dsimp only
  split
  · rfl
  · split <;> rfl

/-- The number is at most half a unit above `num / den` and by less than half a unit below it. -/
def IsNearest (num den r : Nat) : Prop := 2 * (den * r) ≤ 2 * num + den ∧ 2 * num < 2 * (den * r) + den

theorem isNearest_roundQuotient {den : Nat} (hden : 0 < den) (num : Nat) :
    IsNearest num den (roundQuotient .up num den) := by
  have hsplit := Nat.div_add_mod num den
  have hrest := Nat.mod_lt num hden
  rw [IsNearest, roundQuotient_up]
  split
  · omega
  · rw [Nat.mul_add_one]
    omega

/-- Numbers that are nearest to quotients are in the order of the quotients: a whole unit is too far. -/
theorem IsNearest.le {num num' den r r' : Nat} (h : IsNearest num den r) (h' : IsNearest num' den r')
    (hle : num ≤ num') : r ≤ r' := by
  obtain ⟨habove, -⟩ := h
  obtain ⟨-, hbelow⟩ := h'
  apply Nat.le_of_not_lt
  intro hlt
  have hunit : den * r' + den ≤ den * r := Nat.mul_le_mul_left den hlt
  omega

/-- With a half going up, there is one nearest number. -/
theorem roundQuotient_up_eq_iff {num den r : Nat} (hden : 0 < den) :
    roundQuotient .up num den = r ↔ IsNearest num den r := by
  have hround := isNearest_roundQuotient hden num
  constructor
  · rintro rfl
    exact hround
  · intro h
    exact Nat.le_antisymm (hround.le h (Nat.le_refl _)) (h.le hround (Nat.le_refl _))

example : roundQuotient .up 5 2 = 3 ∧ roundQuotient .toEven 5 2 = 2 := by decide

theorem isNearest_mul {den : Nat} (hden : 0 < den) (r : Nat) : IsNearest (den * r) den r := by
  rw [IsNearest]
  omega

/-! ### Rounding a double -/

/-- The digits of `n / 10 ^ places` with all its places. -/
def withPlaces (places n : Nat) : String :=
  let digits := Nat.toDigits 10 n
  let padded := List.replicate (places + 1 - digits.length) '0' ++ digits
  let split := padded.length - places
  String.ofList (padded.take split ++ if places = 0 then [] else '.' :: padded.drop split)

/-- The text of a double with `places` decimal places. -/
def fixed (places : Nat) (x : Float) : String :=
  match Binary.ofFloat x with
  | .notANumber => "NaN"
  | .infinite negative => if negative then "-inf" else "inf"
  | .finite negative significand exponent =>
    let num := (significand * Nat.pow 10 places) <<< exponent.toNat
    let den := 1 <<< (-exponent).toNat
    (if negative then "-" else "") ++ withPlaces places (roundQuotient .toEven num den)

/-- The whole number nearest to a double, a half going away from zero; the sign is left aside. -/
def nearestWhole (x : Float) : Nat :=
  match Binary.ofFloat x with
  | .finite _ significand exponent => roundQuotient .up (significand <<< exponent.toNat) (1 <<< (-exponent).toNat)
  | _ => 0

theorem one_shiftLeft_pos (k : Nat) : 0 < 1 <<< k := by
  rw [Nat.one_shiftLeft]
  exact Nat.two_pow_pos k

/-- The whole number nearest to a finite double, which is a quotient of natural numbers up to its sign. -/
theorem nearestWhole_eq_iff {x : Float} {negative : Bool} {significand r : Nat} {exponent : Int}
    (h : Binary.ofFloat x = .finite negative significand exponent) :
    nearestWhole x = r ↔ IsNearest (significand <<< exponent.toNat) (1 <<< (-exponent).toNat) r := by
  rw [nearestWhole, h]
  exact roundQuotient_up_eq_iff (one_shiftLeft_pos _)

/-! ### The nearest double -/

/-- `num * 2 ^ -shift / den` rounded to the nearest natural number, ties to even. -/
def roundScaled (num den : Nat) (shift : Int) : Nat :=
  match shift with
  | .ofNat s => roundQuotient .toEven num (den <<< s)
  | .negSucc s => roundQuotient .toEven (num <<< (s + 1)) den

/-- The exponent `e` for which `num / den` lies in `[2 ^ e, 2 ^ (e + 1))`, for positive `num` and `den`. -/
def binaryExponent (num den : Nat) : Int :=
  let guess : Int := (num.log2 : Int) - (den.log2 : Int)
  -- the quotient of two powers is off by at most one from below
  let reached : Bool := match guess with
    | .ofNat g => den <<< g ≤ num
    | .negSucc g => den ≤ num <<< (g + 1)
  if reached then guess else guess - 1

/-- The bits of the double nearest to `num / den`, for a positive `den`. -/
def nearestBits (num den : Nat) : Nat :=
  if num = 0 then 0
  else
    let scale := max (-1074) (binaryExponent num den - 52)
    -- a significand rounded up to the next power of two carries into the exponent field
    let bits := ((scale + 1074).toNat <<< 52) + roundScaled num den scale
    min bits infinityBits

/-- The double nearest to `±num / den`. -/
def nearest (negative : Bool) (num den : Nat) : Float :=
  Float.ofBits (UInt64.ofNat (nearestBits num den + if negative then 1 <<< 63 else 0))

/-- The double nearest to `±digits * 10 ^ exponent`.  What lies beyond the range of doubles is recognised by its
size, so that a large exponent costs nothing. -/
def nearestDecimal (negative : Bool) (digits : Nat) (exponent : Int) : Float :=
  let magnitude : Int := (Nat.toDigits 10 digits).length + exponent
  if digits = 0 ∨ magnitude < -330 then nearest negative 0 1
  else if 310 < magnitude then Float.ofBits (UInt64.ofNat (infinityBits + if negative then 1 <<< 63 else 0))
  else match exponent with
    | .ofNat e => nearest negative (digits * Nat.pow 10 e) 1
    | .negSucc e => nearest negative digits (Nat.pow 10 (e + 1))

end PulseWidth.Decimal
