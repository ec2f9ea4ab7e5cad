import PulseWidth.Address.Bus

/-!
# Platforms

Where the peripheral blocks of a board live in physical memory, under which alias its memory appears on the bus
and how fast its clock source runs.  The offsets of the blocks are the same on all boards; only the bases differ.
-/

namespace PulseWidth

open Text

/-- A peripheral block. -/
inductive Block where
  | dma
  | clock
  | gpio
  | pcm
  | pwm
deriving DecidableEq, Repr, Inhabited

namespace Block

/-- The offset of the block from the base of the peripherals. -/
def offset : Block → UInt32
  | dma => 0x7000
  | clock => 0x101000
  | gpio => 0x200000
  | pcm => 0x203000
  | pwm => 0x20C000

/-- The short name of the block. -/
def name : Block → String
  | dma => "dma"
  | clock => "clk"
  | gpio => "gpio"
  | pcm => "pcm"
  | pwm => "pwm"

/-- The text of the block in listings. -/
def debug : Block → String
  | dma => "Dma"
  | clock => "Clock"
  | gpio => "Gpio"
  | pcm => "Pcm"
  | pwm => "Pwm"

/-- The blocks in the order of their offsets. -/
def all : List Block := [dma, clock, gpio, pcm, pwm]

/-- The number of bytes of a block. -/
def length : UInt64 := 0x1000

/-- The bus address of a register of the block. -/
def register (block : Block) (offset : UInt64) : BusAddress :=
  .peripheral (block.offset + offset.toUInt32)

end Block

/-- The rate at which the pacing clock ticks. -/
def tickHz : UInt32 := 10000000

/-- The number of ticks of a microsecond. -/
def ticksPerMicro : UInt32 := tickHz / 1000000

/-- A board. -/
structure Platform where
  name : String
  peripheralBase : PhysicalAddress
  dramAlias : DramAlias
  /-- The rate of the clock source. -/
  sourceHz : UInt32
deriving DecidableEq, Repr

namespace Platform

/-- The first generation of boards. -/
def bcm2835 : Platform := ⟨"bcm2835", ⟨0x20000000⟩, .l2Coherent, 500000000⟩

/-- The second and third generation. -/
def bcm2836 : Platform := ⟨"bcm2836", ⟨0x3F000000⟩, .uncached, 500000000⟩

/-- The fourth generation. -/
def bcm2711 : Platform := ⟨"bcm2711", ⟨0xFE000000⟩, .uncached, 750000000⟩

/-- The known boards. -/
def all : List Platform := [bcm2835, bcm2836, bcm2711]

instance : Inhabited Platform := ⟨bcm2836⟩

/-- The physical address of a block. -/
def blockBase (p : Platform) (block : Block) : PhysicalAddress := p.peripheralBase.advance block.offset.toUInt64

/-- The divisor that brings the clock source down to the tick rate. -/
def clockDivisor (p : Platform) : UInt16 := (p.sourceHz / tickHz).toUInt16

/-- The text of the board in listings. -/
def debug (p : Platform) : String :=
  fields "Platform"
    [("name", quoted p.name), ("peripheral_base", p.peripheralBase.debug), ("dram_alias", p.dramAlias.debug),
     ("plld_hz", toString p.sourceHz.toNat)]

/-- The names under which the boards are known. -/
def names : List (String × Platform) :=
  [("bcm2835", bcm2835), ("bcm2708", bcm2835), ("pi1", bcm2835), ("bcm2836", bcm2836), ("bcm2837", bcm2836),
   ("bcm2709", bcm2836), ("pi2", bcm2836), ("pi3", bcm2836), ("bcm2711", bcm2711), ("pi4", bcm2711)]

/-- The board of that name; the case of ASCII letters does not matter. -/
def ofName? (text : List Char) : Option Platform :=
  let folded := text.map Char.toLower
  (names.find? fun entry => entry.1.toList == folded).map (·.2)

/-- What is said of a name that no board has. -/
def unknownMessage : String := "unknown SoC, expected one of bcm2835, bcm2836, bcm2837, bcm2711"

end Platform

end PulseWidth
