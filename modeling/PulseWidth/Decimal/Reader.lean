import PulseWidth.Decimal.Nearest
import PulseWidth.Text.Basic

/-!
# Reading a decimal number

A number is an optional sign and then digits with an optional point among or around them, at least one digit in
all, and an optional exponent of `e`, an optional sign and at least one digit.  In any letter case `inf` and
`infinity` stand for infinity and `nan` for no number.  The value is rounded to the nearest double.
-/

namespace PulseWidth.Decimal

open PulseWidth.Text

/-- Whether `c` is an ASCII digit. -/
def isDigit (c : Char) : Bool := (digit? c).isSome

/-- The value of a run of digits. -/
def value (run : List Char) : Nat := (digits? 0 run).getD 0

/-- Splits an optional sign off a text; the first part is whether it was a minus. -/
def splitSign : List Char → Bool × List Char
  | '-' :: rest => (true, rest)
  | '+' :: rest => (false, rest)
  | text => (false, text)

/-- Reads an exponent, which may be missing. -/
def exponent? : List Char → Option Int
  | [] => some 0
  | mark :: rest =>
    if mark = 'e' ∨ mark = 'E' then
      let (negative, digits) := splitSign rest
      if digits.isEmpty ∨ !digits.all isDigit then none
      else if negative then some (-(value digits : Int)) else some (value digits)
    else none

/-- The digits on both sides of the point and the exponent of an unsigned number. -/
def parts? (text : List Char) : Option (List Char × List Char × Int) :=
  let whole := text.takeWhile isDigit
  let afterWhole := text.dropWhile isDigit
  let (fraction, afterFraction) := match afterWhole with
    | '.' :: rest => (rest.takeWhile isDigit, rest.dropWhile isDigit)
    | rest => ([], rest)
  if whole.isEmpty ∧ fraction.isEmpty then none
  else (exponent? afterFraction).map fun e => (whole, fraction, e)

/-- The double that a text stands for. -/
def read? (text : List Char) : Option Float :=
  let (negative, body) := splitSign text
  let folded := body.map Char.toLower
  if folded = "nan".toList then some (Float.ofBits 0x7FF8000000000000)
  else if folded = "inf".toList ∨ folded = "infinity".toList then
    some (Float.ofBits (if negative then 0xFFF0000000000000 else 0x7FF0000000000000))
  else (parts? body).map fun (whole, fraction, e) =>
    nearestDecimal negative (value (whole ++ fraction)) (e - fraction.length)

end PulseWidth.Decimal
