import PulseWidth.Register.Field

/-!
# DMA channel registers

Each of the fifteen full channels owns 256 bytes of the DMA block.  A channel is reset, its flags and errors are
cleared by writing ones, the bus address of a control block is stored, and setting `active` arms it.
-/

namespace PulseWidth.Dma

/-- The number of channels. -/
def channelCount : UInt8 := 15

/-- The number of bytes between the registers of neighbouring channels. -/
def channelStride : UInt64 := 0x100

/-- The offset of a channel's registers in the block. -/
def channelOffset (channel : UInt8) : UInt64 := channel.toUInt64 * channelStride

/-- Set while the channel transfers. -/
def active : Field := .bit 0

/-- Set when a transfer has ended; writing one clears it. -/
def finished : Field := .bit 1

/-- The interrupt flag; writing one clears it. -/
def interrupt : Field := .bit 2

/-- Set when the channel has met an error. -/
def errorFlag : Field := .bit 8

/-- The bus priority. -/
def priority : Field := ⟨16, 4⟩

/-- The bus priority under a panic request. -/
def panicPriority : Field := ⟨20, 4⟩

/-- Whether the channel waits for its outstanding writes. -/
def waitForWrites : Field := .bit 28

/-- Writing one resets the channel. -/
def resetBit : Field := .bit 31

/-- Control and status. -/
def status : Register where
  shape := .slots
    { name := "DmaCs"
      slots :=
        Slot.flags 0 ["active", "end", "int", "dreq", "paused", "dreq_stops_dma", "waiting_for_outstanding_writes"]
          ++ [.flag "error" 8, .number "priority" 16 4, .number "panic_priority" 20 4]
          ++ Slot.flags 28 ["wait_for_outstanding_writes", "disdebug", "abort", "reset"] }
  offset := 0x00

/-- The bus address of the current control block. -/
def controlBlock : Register := ⟨.busAddress "DmaConblkAd", 0x04⟩

/-- Error flags and the state of the channel. -/
def errors : Register where
  shape := .slots
    { name := "DmaDebug"
      slots :=
        Slot.flags 0 ["read_last_not_set_error", "fifo_error", "read_error"]
          ++ [.number "outstanding_writes" 4 4, .number "dma_id" 8 8, .number "dma_state" 16 9,
              .number "version" 25 3, .flag "lite" 28] }
  offset := 0x20

/-- The status word that arms a channel. -/
def start : UInt32 :=
  waitForWrites.raise (panicPriority.write 8 (priority.write 8 (active.raise 0)))

/-- The status word that resets a channel. -/
def reset : UInt32 := resetBit.raise 0

/-- The status word that clears the flags. -/
def clearFlags : UInt32 := finished.raise (interrupt.raise 0)

/-- The word that clears the error flags. -/
def clearErrors : UInt32 := Field.raise ⟨0, 3⟩ 0

/-! ### Transfer information -/

/-- Whether a transfer waits for the response to its write. -/
def waitResponse : Field := .bit 3

/-- Whether the destination's request line paces the transfer. -/
def destinationRequest : Field := .bit 6

/-- The peripheral whose request line is used. -/
def permap : Field := ⟨16, 5⟩

/-- Whether wide bursts are avoided. -/
def noWideBursts : Field := .bit 26

/-- The transfer information word of a control block. -/
def transferInfo : Layout where
  name := "TransferInfo"
  slots :=
    Slot.flags 0 ["inten", "tdmode"]
      ++ Slot.flags 3 ["wait_resp", "dest_inc", "dest_width", "dest_dreq", "dest_ignore", "src_inc", "src_width",
          "src_dreq", "src_ignore"]
      ++ [.number "burst_length" 12 4, ⟨"permap", permap, .permap⟩, .number "waits" 21 5,
          .flag "no_wide_bursts" 26]

/-- The information of a plain copy. -/
def copyInfo : UInt32 := waitResponse.raise (noWideBursts.raise 0)

/-- The information of a write that waits for a peripheral's request. -/
def pacedInfo (peripheral : Permap) : UInt32 :=
  permap.write peripheral.code.toUInt32 (destinationRequest.raise copyInfo)

end PulseWidth.Dma
