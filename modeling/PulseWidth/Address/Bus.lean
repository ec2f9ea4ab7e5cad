import PulseWidth.Address.Basic

/-!
# Bus addresses

The DMA engine sees memory and peripherals through a 32-bit bus.  Memory below one GiB appears there under an
alias, which decides how caches are passed; peripherals have a window of their own.  The step from physical
addresses is partial: memory beyond the window has no bus address.
-/

namespace PulseWidth

open Text

/-- The size of the window through which the bus sees memory. -/
def busWindow : UInt64 := 0x40000000

/-- Where the window of the peripherals starts on the bus. -/
def busPeripheralBase : UInt32 := 0x7E000000

/-- The aliases under which memory appears on the bus. -/
inductive DramAlias where
  /-- Memory seen through the second-level cache. -/
  | l2Coherent
  /-- Memory seen directly. -/
  | uncached
deriving DecidableEq, Repr, Inhabited

namespace DramAlias

/-- The high bits of the bus addresses under an alias. -/
def value : DramAlias → UInt32
  | l2Coherent => 0x40000000
  | uncached => 0xC0000000

/-- The text of the alias in listings. -/
def debug (a : DramAlias) : String := wrapped "DramAlias" (hex 8 a.value.toNat)

end DramAlias

/-- What the DMA engine puts on the bus. -/
structure BusAddress where
  value : UInt32
deriving DecidableEq, Repr, Inhabited

namespace BusAddress

/-- The bus address of a physical address, which must lie in the window. -/
def ofPhysical? (a : PhysicalAddress) (dram : DramAlias) : Option BusAddress :=
  if a.value < busWindow then some ⟨a.value.toUInt32 ||| dram.value⟩ else none

/-- The bus address of a peripheral register. -/
def peripheral (offset : UInt32) : BusAddress := ⟨busPeripheralBase + offset⟩

/-- Whether the address is a multiple of `align`, for a power of two. -/
def isAligned (b : BusAddress) (align : UInt32) : Bool := b.value &&& (align - 1) == 0

/-- The address `bytes` further on, unless that passes the end of the bus. -/
def advance? (b : BusAddress) (bytes : UInt32) : Option BusAddress :=
  if b.value.toNat + bytes.toNat < UInt32.size then some ⟨b.value + bytes⟩ else none

/-- The plain text of the address. -/
def text (b : BusAddress) : String := hex 8 b.value.toNat

/-- The text of the address in listings. -/
def debug (b : BusAddress) : String := wrapped "BUS" b.text

end BusAddress

end PulseWidth
