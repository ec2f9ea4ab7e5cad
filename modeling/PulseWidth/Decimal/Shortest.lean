import PulseWidth.Decimal.Nearest

/-!
# The shortest decimal that reads back

A double is written with the fewest significant digits whose value rounds to it again, and among those with the
digits nearest to it.  The reals that round to `m * 2 ^ q` form an interval whose ends belong to it iff `m` is even.
For 1, 2, … 17 digits the two neighbours of the value on that decimal grid are tried in exact arithmetic; the first
grid with a hit wins.
-/

namespace PulseWidth.Decimal

/-- The reals that round to a positive double, all scaled by one common factor to integers: the value itself, the
two ends, and whether the ends round to it too. -/
structure Neighbourhood where
  lower : Nat
  value : Nat
  upper : Nat
  /-- What the number one is scaled to. -/
  unit : Nat
  closed : Bool

/-- The neighbourhood of `significand * 2 ^ exponent`. -/
def neighbourhood (significand : Nat) (exponent : Int) : Neighbourhood :=
  -- below a power of two the spacing halves, except at the smallest exponent
  let lowerGap := if significand = 1 <<< 52 ∧ exponent ≠ -1074 then 1 else 2
  let scale := 1 <<< exponent.toNat
  { lower := (4 * significand - lowerGap) * scale
    value := 4 * significand * scale
    upper := (4 * significand + 2) * scale
    unit := 4 <<< (-exponent).toNat
    closed := significand % 2 = 0 }

/-- Whether `num / den` lies in the neighbourhood. -/
def Neighbourhood.contains (hood : Neighbourhood) (num den : Nat) : Bool :=
  if hood.closed then hood.lower * den ≤ num * hood.unit && num * hood.unit ≤ hood.upper * den
  else hood.lower * den < num * hood.unit && num * hood.unit < hood.upper * den

/-- The decimal `digits * 10 ^ exponent`. -/
structure Scientific where
  digits : Nat
  exponent : Int
deriving DecidableEq, Repr

/-- The decimal as a quotient. -/
def Scientific.quotient (d : Scientific) : Nat × Nat :=
  (d.digits * Nat.pow 10 d.exponent.toNat, Nat.pow 10 (-d.exponent).toNat)

/-- The neighbours of the value on the grid of multiples of `10 ^ exponent`, the nearer one first; of two
equally near ones the larger comes first. -/
def Neighbourhood.onGrid (hood : Neighbourhood) (exponent : Int) : List Scientific :=
  let num := hood.value * Nat.pow 10 (-exponent).toNat
  let den := hood.unit * Nat.pow 10 exponent.toNat
  let below : Scientific := ⟨num / den, exponent⟩
  let above : Scientific := ⟨num / den + 1, exponent⟩
  if 2 * (num % den) < den then [below, above] else [above, below]

/-- The number of digits before the decimal point of `num / den`, or minus the number of zeros right after it. -/
def decimalExponent (num den : Nat) : Int :=
  let guess : Int := (Nat.toDigits 10 num).length - (Nat.toDigits 10 den).length
  let reached : Bool := match guess with
    | .ofNat g => den * Nat.pow 10 g ≤ num
    | .negSucc g => den ≤ num * Nat.pow 10 (g + 1)
  if reached then guess + 1 else guess

/-- The shortest decimal that rounds to the positive double `significand * 2 ^ exponent`. -/
def shortest (significand : Nat) (exponent : Int) : Scientific :=
  let hood := neighbourhood significand exponent
  let top := decimalExponent hood.value hood.unit
  let hits := (List.range 17).filterMap fun (count : Nat) =>
    (hood.onGrid (top - (count + 1 : Nat))).find? fun d => 0 < d.digits && hood.contains d.quotient.1 d.quotient.2
  hits.headD ⟨0, 0⟩

/-- The digits of a decimal in positional notation, with no exponent and no empty fraction. -/
def Scientific.positional (d : Scientific) : String :=
  match d.exponent with
  | .ofNat e => String.ofList (Nat.toDigits 10 d.digits ++ List.replicate e '0')
  | .negSucc e =>
    let places := e + 1
    let digits := Nat.toDigits 10 d.digits
    let padded := List.replicate (places + 1 - digits.length) '0' ++ digits
    let split := padded.length - places
    String.ofList (padded.take split ++ '.' :: padded.drop split)

/-- A decimal without its trailing zeros. -/
def Scientific.trimmed (fuel : Nat) (d : Scientific) : Scientific :=
  match fuel with
  | 0 => d
  | fuel + 1 =>
    if d.digits % 10 = 0 ∧ 0 < d.digits ∧ d.exponent < 0 then trimmed fuel ⟨d.digits / 10, d.exponent + 1⟩
    else d

/-- The text of a double: its shortest decimal in positional notation, `NaN`, `inf` or `-inf`. -/
def text (x : Float) : String :=
  match Binary.ofFloat x with
  | .notANumber => "NaN"
  | .infinite negative => if negative then "-inf" else "inf"
  | .finite negative significand exponent =>
    let sign := if negative then "-" else ""
    if significand = 0 then sign ++ "0"
    else sign ++ ((shortest significand exponent).trimmed 17).positional

end PulseWidth.Decimal
