import PulseWidth.Register.Field

/-!
# Clock manager

A general purpose clock has a control and a divisor register.  Every store must carry a password in the top byte,
or it is ignored.
-/

namespace PulseWidth.Clock

/-- The password of every store. -/
def password : UInt32 := 0x5A

/-- The clocks that can pace the samples. -/
inductive Channel where
  | pcm
  | pwm
deriving DecidableEq, Repr

/-- The offset of a clock's control register. -/
def Channel.controlOffset : Channel → UInt64
  | pcm => 0x98
  | pwm => 0xA0

/-- The offset of a clock's divisor register. -/
def Channel.divisorOffset (c : Channel) : UInt64 := c.controlOffset + 4

/-- The text of a clock in listings. -/
def Channel.debug : Channel → String
  | pcm => "Pcm"
  | pwm => "Pwm"

/-- The source that a clock runs from. -/
def source : Field := ⟨0, 4⟩

/-- Set while a clock runs. -/
def enable : Field := .bit 4

/-- The place of the password. -/
def passwordField : Field := ⟨24, 8⟩

/-- The integer part of the divisor. -/
def integerPart : Field := ⟨12, 12⟩

/-- The control word. -/
def control : Layout where
  name := "ClockControl"
  slots :=
    [⟨"src", source, .clockSource⟩, .flag "enab" 4, .flag "kill" 5, .flag "busy" 7, .flag "flip" 8,
     .number "mash" 9 2, .number "passwd" 24 8]

/-- The divisor word. -/
def divisor : Layout where
  name := "ClockDivisor"
  slots := [.number "divf" 0 12, .number "divi" 12 12, .number "passwd" 24 8]

/-- The control word of a stopped clock. -/
def stopped (origin : ClockSource) : UInt32 := source.write origin.code.toUInt32 (passwordField.write password 0)

/-- The control word of a running clock. -/
def running (origin : ClockSource) : UInt32 := enable.raise (stopped origin)

/-- The divisor word of a whole divisor, which must fit its field. -/
def wholeDivisor (n : UInt16) : Except Fault UInt32 :=
  (integerPart.set n.toNat (passwordField.write password 0).toBitVec).map UInt32.ofBitVec

end PulseWidth.Clock
