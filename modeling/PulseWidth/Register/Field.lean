import PulseWidth.Address.Bus
import PulseWidth.Fault

/-!
# Bit fields

A field is a run of bits of a word.  Reading gives its bits moved to the low end; writing replaces its bits and
keeps all others.  A value wider than the field is a fault when it is set by a caller.  A layout names the fields
of a word in order from the low end, without the reserved ones, and gives the text of a whole word.  A register is
such a word at an offset in its block.
-/

namespace PulseWidth

open Text

/-- A run of `width` bits from bit `low` on. -/
structure Field where
  low : Nat
  width : Nat
deriving DecidableEq, Repr

namespace Field

/-- The field of one bit. -/
def bit (low : Nat) : Field := ⟨low, 1⟩

/-- The largest value that the field holds. -/
def max (f : Field) : Nat := (1 <<< f.width) - 1

/-- The value of the field in a word. -/
def get {n : Nat} (f : Field) (word : BitVec n) : BitVec n := (word >>> f.low) &&& BitVec.ofNat n f.max

/-- The word with the low bits of `value` in the field. -/
def put {n : Nat} (f : Field) (value word : BitVec n) : BitVec n :=
  (word &&& ~~~(BitVec.ofNat n f.max <<< f.low)) ||| ((value &&& BitVec.ofNat n f.max) <<< f.low)

/-- The word with `value` in the field, which must hold it. -/
def set {n : Nat} (f : Field) (value : Nat) (word : BitVec n) : Except Fault (BitVec n) :=
  if value ≤ f.max then .ok (f.put (BitVec.ofNat n value) word) else .error (.tooWide f.max)

/-- The value of the field in a 32-bit word. -/
def read (f : Field) (word : UInt32) : UInt32 := ⟨f.get word.toBitVec⟩

/-- The 32-bit word with the low bits of `value` in the field. -/
def write (f : Field) (value word : UInt32) : UInt32 := ⟨f.put value.toBitVec word.toBitVec⟩

/-- Whether the field of one bit is set. -/
def isSet (f : Field) (word : UInt32) : Bool := f.read word != 0

/-- The 32-bit word with all bits of the field set. -/
def raise (f : Field) (word : UInt32) : UInt32 := f.write (UInt32.ofNat f.max) word

end Field

/-- The sources a general purpose clock can run from. -/
inductive ClockSource where
  | ground
  | oscillator
  | testDebug0
  | testDebug1
  | pllA
  | pllC
  | pllD
  | hdmi
deriving DecidableEq, Repr

namespace ClockSource

/-- The source that a code selects; the codes above seven select ground. -/
def ofCode (code : UInt8) : ClockSource :=
  match (code &&& 0xF).toNat with
  | 1 => oscillator
  | 2 => testDebug0
  | 3 => testDebug1
  | 4 => pllA
  | 5 => pllC
  | 6 => pllD
  | 7 => hdmi
  | _ => ground

/-- The code of the source. -/
def code : ClockSource → UInt8
  | ground => 0
  | oscillator => 1
  | testDebug0 => 2
  | testDebug1 => 3
  | pllA => 4
  | pllC => 5
  | pllD => 6
  | hdmi => 7

/-- The text of the source in listings. -/
def debug : ClockSource → String
  | ground => "Gnd"
  | oscillator => "Oscillator"
  | testDebug0 => "TestDebug0"
  | testDebug1 => "TestDebug1"
  | pllA => "PllA"
  | pllC => "PllC"
  | pllD => "PllD"
  | hdmi => "HdmiAux"

end ClockSource

/-- The peripheral whose request line paces a transfer. -/
structure Permap where
  code : UInt8
deriving DecidableEq, Repr

namespace Permap

/-- The peripheral with the low five bits of a code. -/
def ofCode (code : UInt8) : Permap := ⟨code &&& 0x1F⟩

/-- The transmit line of the PCM block. -/
def pcmTransmit : Permap := ⟨2⟩

/-- The line of the PWM block. -/
def pwm : Permap := ⟨5⟩

/-- The text of the peripheral in listings. -/
def debug (p : Permap) : String := wrapped "Permap" (toString p.code.toNat)

end Permap

/-- What a pin is used for. -/
inductive PinFunction where
  | input
  | output
  | alt0
  | alt1
  | alt2
  | alt3
  | alt4
  | alt5
deriving DecidableEq, Repr

namespace PinFunction

/-- The function with the low three bits of a code. -/
def ofCode (code : UInt8) : PinFunction :=
  match (code &&& 7).toNat with
  | 0 => input
  | 1 => output
  | 4 => alt0
  | 5 => alt1
  | 6 => alt2
  | 7 => alt3
  | 3 => alt4
  | _ => alt5

/-- The code of the function. -/
def code : PinFunction → UInt8
  | input => 0
  | output => 1
  | alt0 => 4
  | alt1 => 5
  | alt2 => 6
  | alt3 => 7
  | alt4 => 3
  | alt5 => 2

/-- The text of the function in listings. -/
def debug : PinFunction → String
  | input => "Input"
  | output => "Output"
  | alt0 => "Alt0"
  | alt1 => "Alt1"
  | alt2 => "Alt2"
  | alt3 => "Alt3"
  | alt4 => "Alt4"
  | alt5 => "Alt5"

end PinFunction

/-- What the bits of a field mean. -/
inductive FieldKind where
  | flag
  | number
  | clockSource
  | permap
  | pinFunction
deriving DecidableEq, Repr

/-- The text of a field's bits. -/
def FieldKind.debug (bits : Nat) : FieldKind → String
  | flag => if bits = 0 then "false" else "true"
  | number => toString bits
  | clockSource => (ClockSource.ofCode (UInt8.ofNat bits)).debug
  | permap => (Permap.ofCode (UInt8.ofNat bits)).debug
  | pinFunction => (PinFunction.ofCode (UInt8.ofNat bits)).debug

/-- The bits that stand for a given number; a code is reduced to one that exists. -/
def FieldKind.encode (number : Nat) : FieldKind → Nat
  | flag | .number => number
  | clockSource => (ClockSource.ofCode (UInt8.ofNat number)).code.toNat
  | permap => (Permap.ofCode (UInt8.ofNat number)).code.toNat
  | pinFunction => (PinFunction.ofCode (UInt8.ofNat number)).code.toNat

/-- A named field. -/
structure Slot where
  name : String
  field : Field
  kind : FieldKind
deriving DecidableEq, Repr

namespace Slot

/-- A field of one bit. -/
def flag (name : String) (low : Nat) : Slot := ⟨name, .bit low, .flag⟩

/-- A field that holds a number. -/
def number (name : String) (low width : Nat) : Slot := ⟨name, ⟨low, width⟩, .number⟩

/-- Adjacent fields of one bit from bit `low` on. -/
def flags (low : Nat) : List String → List Slot
  | [] => []
  | name :: rest => flag name low :: flags (low + 1) rest

end Slot

/-- The names and places of the fields of a word. -/
structure Layout where
  name : String
  slots : List Slot
deriving DecidableEq, Repr

namespace Layout

/-- The text of a word. -/
def debug {n : Nat} (layout : Layout) (word : BitVec n) : String :=
  fields layout.name (layout.slots.map fun slot => (slot.name, slot.kind.debug (slot.field.get word).toNat))

/-- The field of that name. -/
def slot? (layout : Layout) (name : String) : Option Slot := layout.slots.find? (·.name == name)

/-- The word with a number in the field of that name; a name that is not there changes nothing. -/
def set {n : Nat} (layout : Layout) (name : String) (number : Nat) (word : BitVec n) :
    Except Fault (BitVec n) :=
  match layout.slot? name with
  | none => .ok word
  | some slot => slot.field.set (slot.kind.encode number) word

end Layout

/-- What a 32-bit word holds as a whole. -/
inductive Shape where
  | slots (layout : Layout)
  | number (name : String)
  | busAddress (name : String)
deriving DecidableEq, Repr

namespace Shape

/-- The name of the word. -/
def name : Shape → String
  | slots layout => layout.name
  | number name | busAddress name => name

/-- The text of a word. -/
def debug (word : UInt32) : Shape → String
  | slots layout => layout.debug word.toBitVec
  | number name => wrapped name (toString word.toNat)
  | busAddress name => wrapped name (BusAddress.mk word).debug

/-- The word with a number in the field of that name; a word without fields stays as it is. -/
def set (shape : Shape) (field : String) (number : Nat) (word : UInt32) : Except Fault UInt32 :=
  match shape with
  | slots layout => (layout.set field number word.toBitVec).map UInt32.ofBitVec
  | .number _ | busAddress _ => .ok word

/-- The word with numbers in several fields, unless one of them is refused. -/
def setAll (shape : Shape) (settings : List (String × Nat)) (word : UInt32) : Except Fault UInt32 :=
  settings.foldlM (fun word setting => shape.set setting.1 setting.2 word) word

end Shape

/-- A register: the shape of its word and its offset in its block. -/
structure Register where
  shape : Shape
  offset : UInt64
deriving DecidableEq, Repr

/-- What is logged of a store to a register. -/
def storeText (block : String) (offset : UInt64) (value : UInt32) : String :=
  block ++ "[" ++ hex 3 offset.toNat ++ "] <- " ++ hex 8 value.toNat

end PulseWidth
