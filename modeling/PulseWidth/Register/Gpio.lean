import PulseWidth.Register.Field

/-!
# Pin functions and levels

Pins 0 to 31 are the first bank.  A store to the set or clear register acts on the pins whose bits are one and on
no other.  Ten pins share a function select register; the function of a pin is found by arithmetic on its number,
and the layout names the same ten places one by one.
-/

namespace PulseWidth.Gpio

/-- The offset of the register that drives pins high. -/
def setOffset : UInt64 := 0x1C

/-- The offset of the register that drives pins low. -/
def clearOffset : UInt64 := 0x28

/-- The offset of the register that drives pins to their inactive level. -/
def inactiveOffset (invert : Bool) : UInt64 := if invert then setOffset else clearOffset

/-- The offset of the function select register of a pin. -/
def selectOffset (pin : UInt8) : UInt64 := pin.toUInt64 / 10 * 4

/-- The bit of a pin in the set and clear registers. -/
def pinMask (pin : UInt8) : UInt32 := 1 <<< (pin &&& 31).toUInt32

/-- The function select word. -/
def select : Layout where
  name := "FunctionSelect"
  slots := (List.range 10).map fun k => ⟨"slot" ++ toString k, ⟨3 * k, 3⟩, .pinFunction⟩

/-- How far the bits of a pin are shifted in its function select word. -/
def selectShift (pin : UInt8) : UInt32 := (pin % 10 * 3).toUInt32

/-- The function of a pin in its function select word. -/
def function (word : UInt32) (pin : UInt8) : PinFunction := .ofCode ((word >>> selectShift pin) &&& 7).toUInt8

/-- The function select word with another function for a pin. -/
def withFunction (word : UInt32) (pin : UInt8) (f : PinFunction) : UInt32 :=
  (word &&& ~~~(7 <<< selectShift pin)) ||| (f.code.toUInt32 <<< selectShift pin)

end PulseWidth.Gpio
