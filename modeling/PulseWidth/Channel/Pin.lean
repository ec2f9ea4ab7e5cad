import PulseWidth.Decimal.Shortest
import PulseWidth.Register.Gpio
import PulseWidth.Text.Basic

/-!
# Pins

A pin is one of the 32 of the first bank.  A list of pins can be configured if it is not empty, has at most 32
members and names no pin twice; they are checked in this order, and the first repeated pin is reported.
-/

namespace PulseWidth

open Text

/-- A pin of the first bank. -/
structure Pin where
  index : Fin 32
deriving DecidableEq, Repr

/-- Why a request for a channel is refused. -/
inductive ChannelError where
  | invalidPin (number : UInt32)
  | unknownPin (pin : Pin)
  | dutyOutOfRange (pin : Pin) (duty max : UInt32)
  | fractionOutOfRange (fraction : Float)
deriving Repr

namespace Pin

/-- The number of the pin. -/
def number (p : Pin) : UInt8 := UInt8.ofNat p.index

/-- The bit of the pin in a level word. -/
def mask (p : Pin) : UInt32 := Gpio.pinMask p.number

/-- The plain text of the pin. -/
def text (p : Pin) : String := toString p.index.val

/-- The text of the pin in listings. -/
def debug (p : Pin) : String := "GPIO" ++ p.text

/-- The pin of that number, if there is one. -/
def ofNat? (n : Nat) : Option Pin := if h : n < 32 then some ⟨⟨n, h⟩⟩ else none

/-- The pin of that number. -/
def ofNumber (n : UInt32) : Except ChannelError Pin :=
  match ofNat? n.toNat with
  | some pin => .ok pin
  | none => .error (.invalidPin n)

/-- The pin that a text is the numeral of, blanks around it left aside; what is no numeral at all is reported as
the largest number. -/
def ofText (text : List Char) : Except ChannelError Pin :=
  match word? (trim text) with
  | some n => ofNumber n
  | none => .error (.invalidPin (UInt32.ofNat (UInt32.size - 1)))

/-- The bits of some pins. -/
def maskOf (pins : List Pin) : UInt32 := pins.foldl (fun mask p => mask ||| p.mask) 0

end Pin

/-- The wording of a refusal. -/
def ChannelError.message : ChannelError → String
  | invalidPin number => "GPIO " ++ toString number.toNat ++ " is not a bank 0 pin (0..=31)"
  | unknownPin pin => "GPIO " ++ pin.text ++ " is not a configured channel"
  | dutyOutOfRange pin duty max =>
    "duty of " ++ toString duty.toNat ++ " slices for GPIO " ++ pin.text ++ " exceeds the " ++ toString max.toNat
      ++ " available"
  | fractionOutOfRange fraction =>
    "duty fraction " ++ Decimal.text fraction ++ " is not within 0.0..=1.0"

/-- Why a list of pins cannot be configured. -/
inductive PinListError where
  | noPins
  | tooMany (count : Nat)
  | duplicate (pin : Pin)
deriving DecidableEq, Repr

/-- The wording of the reason. -/
def PinListError.message : PinListError → String
  | noPins => "no GPIO pins configured"
  | tooMany count => toString count ++ " channels configured, at most 32 are supported"
  | duplicate pin => "GPIO " ++ pin.text ++ " is configured more than once"

namespace Pin

/-- The most pins that can be configured. -/
def maxPins : Nat := 32

/-- The first pin of the list whose bit is in `seen` or that is a repetition. -/
def firstRepeated (seen : UInt32) : List Pin → Option Pin
  | [] => none
  | p :: rest => if seen &&& p.mask ≠ 0 then some p else firstRepeated (seen ||| p.mask) rest

/-- Checks that a list of pins can be configured. -/
def check (pins : List Pin) : Except PinListError Unit :=
  if pins.isEmpty then .error .noPins
  else if maxPins < pins.length then .error (.tooMany pins.length)
  else match firstRepeated 0 pins with
    | some p => .error (.duplicate p)
    | none => .ok ()

end Pin

end PulseWidth
