import PulseWidth.Register.Field

/-!
# PCM controller

The other request source: one transmit channel whose frame is as long as a sample, so that its queue asks for one
word per sample.
-/

namespace PulseWidth.Pcm

/-- The offset of the queue. -/
def queueOffset : UInt64 := 0x04

/-- The largest frame length less one. -/
def maxFrameLength : UInt16 := 0x3FF

/-- Whether the block is on. -/
def enable : Field := .bit 0

/-- Whether it transmits. -/
def transmit : Field := .bit 2

/-- Writing one empties the transmit queue. -/
def clearTransmit : Field := .bit 3

/-- Writing one empties the receive queue. -/
def clearReceive : Field := .bit 4

/-- Whether the request lines are driven. -/
def requestEnable : Field := .bit 9

/-- Control and status. -/
def control : Register where
  shape := .slots
    { name := "PcmCs"
      slots :=
        Slot.flags 0 ["en", "rxon", "txon", "txclr", "rxclr"]
          ++ [.number "txthr" 5 2, .number "rxthr" 7 2, .flag "dmaen" 9]
          ++ Slot.flags 13 ["txsync", "rxsync", "txerr", "rxerr", "txw", "rxr", "txd", "rxd", "txe", "rxf",
              "rxsex", "sync", "stby"] }
  offset := 0x00

/-- The frame length less one. -/
def frameLength : Field := ⟨10, 10⟩

/-- The frame. -/
def mode : Register where
  shape := .slots
    { name := "PcmMode"
      slots :=
        [.number "fslen" 0 10, .number "flen" 10 10]
          ++ Slot.flags 20 ["fsi", "fsm", "clki", "clkm", "ftxp", "frxp", "pdme", "pdmn", "clk_dis"] }
  offset := 0x08

/-- Whether the first transmit channel is on. -/
def firstChannel : Field := .bit 30

/-- The transmit channels. -/
def channels : Register where
  shape := .slots
    { name := "PcmTxc"
      slots :=
        [.number "ch2wid" 0 4, .number "ch2pos" 4 10, .flag "ch2en" 14, .flag "ch2wex" 15, .number "ch1wid" 16 4,
         .number "ch1pos" 20 10, .flag "ch1en" 30, .flag "ch1wex" 31] }
  offset := 0x10

/-- The threshold of the transmit request line. -/
def transmitThreshold : Field := ⟨8, 7⟩

/-- The threshold of the transmit panic line. -/
def transmitPanic : Field := ⟨24, 7⟩

/-- The request lines. -/
def request : Register where
  shape := .slots
    { name := "PcmDreq"
      slots := [.number "rx" 0 7, .number "tx" 8 7, .number "rx_panic" 16 7, .number "tx_panic" 24 7] }
  offset := 0x14

/-- The request lines for pacing. -/
def pacingRequest : UInt32 := transmitThreshold.write 64 (transmitPanic.write 64 0)

/-- The mode word of a frame, which must fit its field. -/
def frame (length : UInt16) : Except Fault UInt32 :=
  (frameLength.set length.toNat (0 : UInt32).toBitVec).map UInt32.ofBitVec

end PulseWidth.Pcm
