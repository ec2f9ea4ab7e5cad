/-!
# Text

What is read is words between blanks and decimal numerals; what is written is hexadecimal numbers and listings of
values.

A blank is a character with the Unicode property `White_Space`.  A natural numeral is a run of ASCII digits, at least
one, with an optional plus sign; an integer numeral may also have a minus sign.  Reading an integer works from the
left, so of two faults the one met first is reported, and a stray character is noticed before the range at the same
place.

Hexadecimal numbers have a lower-case `0x` mark and upper-case digits, padded with zeros to a least number of digits.
In listings a value with named fields is written as its name and its fields in braces, a wrapped value as its name and
its content in parentheses, and a list in brackets; items are separated by a comma and a blank.
-/

namespace PulseWidth.Text

/-! ### Blanks -/

/-- The ranges of `White_Space`, first and last code point. -/
def blankRanges : List (Nat × Nat) :=
  [(0x09, 0x0D), (0x20, 0x20), (0x85, 0x85), (0xA0, 0xA0), (0x1680, 0x1680), (0x2000, 0x200A),
   (0x2028, 0x2029), (0x202F, 0x202F), (0x205F, 0x205F), (0x3000, 0x3000)]

/-- Whether `c` is a blank. -/
def isBlank (c : Char) : Bool :=
  blankRanges.any fun range => range.1 ≤ c.toNat && c.toNat ≤ range.2

/-- The text without its leading blanks. -/
def trimStart (text : List Char) : List Char := text.dropWhile isBlank

/-- The text without its trailing blanks. -/
def trimEnd (text : List Char) : List Char := (text.reverse.dropWhile isBlank).reverse

/-- The text without the blanks at its ends. -/
def trim (text : List Char) : List Char := trimEnd (trimStart text)

private theorem length_dropWhile_le (p : Char → Bool) (text : List Char) :
    (text.dropWhile p).length ≤ text.length :=
  (List.dropWhile_suffix p).length_le

/-- The words of a text, in order. -/
def words (text : List Char) : List (List Char) :=
  match _h : text.dropWhile isBlank with
  | [] => []
  | c :: rest => (c :: rest.takeWhile (!isBlank ·)) :: words (rest.dropWhile (!isBlank ·))
termination_by text.length
decreasing_by
  have h₁ := length_dropWhile_le isBlank text
  have h₂ := length_dropWhile_le (!isBlank ·) rest
  simp only [_h, List.length_cons] at h₁
  omega

/-! ### Decimal numerals -/

/-- The value of an ASCII digit. -/
def digit? (c : Char) : Option Nat :=
  if '0' ≤ c ∧ c ≤ '9' then some (c.toNat - '0'.toNat) else none

/-- The value of a run of digits, read on from `acc`; no run means no value is added. -/
def digits? (acc : Nat) : List Char → Option Nat
  | [] => some acc
  | c :: rest => (digit? c).bind fun d => digits? (10 * acc + d) rest

/-- The natural number up to `max` that the text is the numeral of. -/
def natural? (max : Nat) (text : List Char) : Option Nat :=
  let run := match text with
    | '+' :: rest => rest
    | _ => text
  if run.isEmpty then none else (digits? 0 run).filter (· ≤ max)

/-- Why a text is not the numeral of a 64-bit integer. -/
inductive NumeralError where
  | empty
  | strayCharacter
  | tooLarge
  | tooSmall
deriving DecidableEq, Repr

/-- The wording of the reason. -/
def NumeralError.message : NumeralError → String
  | empty => "cannot parse integer from empty string"
  | strayCharacter => "invalid digit found in string"
  | tooLarge => "number too large to fit in target type"
  | tooSmall => "number too small to fit in target type"

/-- Reads digits on from the magnitude `acc`, which must not pass `limit`. -/
def boundedDigits (limit : Nat) (overflow : NumeralError) (acc : Nat) :
    List Char → Except NumeralError Nat
  | [] => .ok acc
  | c :: rest =>
    match digit? c with
    | none => .error .strayCharacter
    | some d =>
      if 10 * acc + d ≤ limit then boundedDigits limit overflow (10 * acc + d) rest else .error overflow

/-- The 64-bit signed integer that the text is the numeral of. -/
def integer (text : List Char) : Except NumeralError Int :=
  match text with
  | [] => .error .empty
  | ['+'] | ['-'] => .error .strayCharacter
  | '-' :: rest => (boundedDigits (1 <<< 63) .tooSmall 0 rest).map fun n => -(n : Int)
  | '+' :: rest => (boundedDigits ((1 <<< 63) - 1) .tooLarge 0 rest).map Int.ofNat
  | _ => (boundedDigits ((1 <<< 63) - 1) .tooLarge 0 text).map Int.ofNat

/-- The 32-bit number that the text is the numeral of. -/
def word? (text : List Char) : Option UInt32 := (natural? (UInt32.size - 1) text).map UInt32.ofNat

/-! ### Hexadecimal numbers -/

/-- The hexadecimal digits of `n`, upper case, without padding. -/
def hexDigits (n : Nat) : List Char := (Nat.toDigits 16 n).map Char.toUpper

/-- The text of `n` with the mark `0x` and at least `width` digits. -/
def hex (width n : Nat) : String :=
  let digits := hexDigits n
  "0x" ++ String.ofList (List.replicate (width - digits.length) '0' ++ digits)

/-! ### Listings -/

/-- The items one after the other, separated by a comma and a blank. -/
def commaSeparated (items : List String) : String := ", ".intercalate items

/-- A value with named fields. -/
def fields (name : String) (items : List (String × String)) : String :=
  name ++ " \x7b " ++ commaSeparated (items.map fun item => item.1 ++ ": " ++ item.2) ++ " \x7d"

/-- A value with named fields of which only the listed ones are shown. -/
def someFields (name : String) (items : List (String × String)) : String :=
  name ++ " \x7b " ++ commaSeparated (items.map (fun item => item.1 ++ ": " ++ item.2) ++ [".."]) ++ " \x7d"

/-- A wrapped value. -/
def wrapped (name content : String) : String := name ++ "(" ++ content ++ ")"

/-- A list of values. -/
def listed (items : List String) : String := "[" ++ commaSeparated items ++ "]"

/-- A plain name in double quotes. -/
def quoted (name : String) : String := "\"" ++ name ++ "\""

/-- The text padded with blanks on the left to at least `width` characters. -/
def padLeft (width : Nat) (text : String) : String :=
  String.ofList (List.replicate (width - text.length) ' ') ++ text

end PulseWidth.Text
