import PulseWidth.Address.Bus
import PulseWidth.Register.Dma

/-!
# Control blocks and their layout

A control block is eight words that tell the DMA engine what to transfer and where the next block is.

The arena of a cycle of `n` samples holds `n` sample words and then, at the next multiple of 32, `2 * n` control
blocks of 32 bytes.  All sizes are computed modulo `2 ^ 64`.
-/

namespace PulseWidth

open Text

/-! ### Control blocks -/

/-- A transfer of the DMA engine. -/
structure ControlBlock where
  info : UInt32
  source : BusAddress
  destination : BusAddress
  length : UInt32
  stride : UInt32
  next : BusAddress
  reserved : UInt32 × UInt32
deriving DecidableEq, Repr

namespace ControlBlock

/-- The words of the block. -/
def words (b : ControlBlock) : List UInt32 :=
  [b.info, b.source.value, b.destination.value, b.length, b.stride, b.next.value, b.reserved.1, b.reserved.2]

/-- The block with the given words; missing words are zero. -/
def ofWords (words : List UInt32) : ControlBlock where
  info := words.getD 0 0
  source := ⟨words.getD 1 0⟩
  destination := ⟨words.getD 2 0⟩
  length := words.getD 3 0
  stride := words.getD 4 0
  next := ⟨words.getD 5 0⟩
  reserved := (words.getD 6 0, words.getD 7 0)

theorem ofWords_words (b : ControlBlock) : ofWords b.words = b := rfl

/-- The text of the block in listings. -/
def debug (b : ControlBlock) : String :=
  fields "ControlBlock"
    [("info", Dma.transferInfo.debug b.info.toBitVec), ("source", b.source.debug),
     ("destination", b.destination.debug), ("length", toString b.length.toNat),
     ("stride", toString b.stride.toNat), ("next", b.next.debug),
     ("reserved", listed [toString b.reserved.1.toNat, toString b.reserved.2.toNat])]

end ControlBlock

/-! ### Layout of a chain -/

/-- The number of bytes of a control block. -/
def controlBlockSize : UInt64 := 32

/-- Where the parts of a chain lie in its arena. -/
structure ChainLayout where
  nrSamples : UInt32
deriving DecidableEq, Repr

namespace ChainLayout

/-- The offset of the sample word of a slot. -/
def sampleOffset (_l : ChainLayout) (slot : UInt32) : ArenaOffset := ⟨slot.toUInt64 * 4⟩

/-- The offset of the first control block. -/
def blocksOffset (l : ChainLayout) : ArenaOffset :=
  ArenaOffset.alignUp ⟨l.nrSamples.toUInt64 * 4⟩ controlBlockSize

/-- The offset of a control block. -/
def blockOffset (l : ChainLayout) (index : UInt64) : ArenaOffset :=
  l.blocksOffset.advance (index * controlBlockSize)

/-- The index of the control block that an offset falls into, modulo `2 ^ 64` in front of the first block. -/
def blockIndex (l : ChainLayout) (offset : ArenaOffset) : UInt64 :=
  (offset.value - l.blocksOffset.value) / controlBlockSize

/-- The number of control blocks. -/
def blockCount (l : ChainLayout) : UInt64 := 2 * l.nrSamples.toUInt64

/-- The number of bytes of the arena that are used. -/
def lengthBytes (l : ChainLayout) : UInt64 := (l.blockOffset l.blockCount).value

/-- The number of pages that hold them. -/
def pages (l : ChainLayout) : UInt64 := pagesFor l.lengthBytes

/-- The slots, in order. -/
def slots (l : ChainLayout) : List UInt32 := (List.range l.nrSamples.toNat).map UInt32.ofNat

/-- The text of the layout in listings. -/
def debug (l : ChainLayout) : String := fields "ChainLayout" [("nr_samples", toString l.nrSamples.toNat)]

end ChainLayout

end PulseWidth
