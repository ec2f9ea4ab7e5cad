import PulseWidth.Register.Field

/-!
# PWM controller

Only the first channel is used, and only as a request source: in queue mode it drains one word per range period
and asks for the next one, which paces the DMA chain.
-/

namespace PulseWidth.Pwm

/-- The offset of the queue. -/
def queueOffset : UInt64 := 0x18

/-- Whether the first channel runs. -/
def enable : Field := .bit 0

/-- Whether the first channel takes its words from the queue. -/
def useQueue : Field := .bit 5

/-- Writing one empties the queue. -/
def clearQueue : Field := .bit 6

/-- Control. -/
def control : Register where
  shape := .slots
    { name := "PwmCtl"
      slots :=
        Slot.flags 0 ["pwen1", "mode1", "rptl1", "sbit1", "pola1", "usef1", "clrf1", "msen1", "pwen2", "mode2",
          "rptl2", "sbit2", "pola2", "usef2"]
          ++ [.flag "msen2" 15] }
  offset := 0x00

/-- The threshold of the request line. -/
def requestThreshold : Field := ⟨0, 8⟩

/-- The threshold of the panic line. -/
def panicThreshold : Field := ⟨8, 8⟩

/-- Whether the request line is driven. -/
def requestEnable : Field := .bit 31

/-- Configuration of the request line. -/
def request : Register where
  shape := .slots
    { name := "PwmDmac", slots := [.number "dreq" 0 8, .number "panic" 8 8, .flag "enab" 31] }
  offset := 0x08

/-- The range of the first channel, in ticks. -/
def range : Register := ⟨.number "PwmRng1", 0x10⟩

/-- The control word under which the queue paces. -/
def pacing : UInt32 := enable.raise (useQueue.raise 0)

/-- The control word that empties the queue. -/
def clearing : UInt32 := clearQueue.raise 0

/-- The request line for pacing. -/
def pacingRequest : UInt32 := requestThreshold.write 15 (panicThreshold.write 15 (requestEnable.raise 0))

end PulseWidth.Pwm
