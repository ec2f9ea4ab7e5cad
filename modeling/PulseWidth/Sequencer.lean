import PulseWidth.Config
import PulseWidth.Program
import PulseWidth.Register.Gpio

/-!
# The hardware sequence

Brings the clock, the pacer and the DMA channel up in the order that the hardware asks for and takes them down
again.  Each store is followed by the pause after which it has taken effect.  Pins that are claimed are first
driven to their inactive level and then made outputs; the functions that they had are remembered and given back
when the pins are released.
-/

namespace PulseWidth

/-- The pause after a store to the DMA or PWM block. -/
def shortSettle : UInt64 := 10

/-- The pause after a store to the clock manager or the PCM block. -/
def longSettle : UInt64 := 100

/-- What the sequence has to know and to remember. -/
structure Sequencer where
  pacer : Pacer
  clockDivisor : UInt16
  /-- The claimed pins with the functions that they had, the first claimed first. -/
  claimed : List (Pin × PinFunction)
deriving DecidableEq, Repr

namespace Sequencer

open Program (store pause log)

/-- A sequence that has claimed no pins. -/
def idle (pacer : Pacer) (clockDivisor : UInt16) : Sequencer := ⟨pacer, clockDivisor, []⟩

/-- A store and the pause after it. -/
def settled (role : Role) (offset : UInt64) (value : UInt32) (micros : UInt64) : Program Unit := do
  store role offset value
  pause micros

/-- A store to a register of the pacer and the pause after it. -/
def pacerStore (r : Register) (value : UInt32) (micros : UInt64) : Program Unit :=
  settled .pacer r.offset value micros

/-- A change of a register of the pacer and the pause after it. -/
def pacerModify (r : Register) (change : UInt32 → UInt32) : Program Unit := do
  let word ← Program.read .pacer r.offset
  pacerStore r (change word) longSettle

/-- Stops the clock of the pacer, sets its divisor and starts it. -/
def startClock (s : Sequencer) : Program Unit := do
  let channel := s.pacer.clock
  settled .clock channel.controlOffset (Clock.stopped .pllD) longSettle
  let divisor ← Program.ofExcept (Clock.wholeDivisor s.clockDivisor)
  settled .clock channel.divisorOffset divisor longSettle
  settled .clock channel.controlOffset (Clock.running .pllD) longSettle

/-- Resets the DMA channel, clears what it remembers, hands it the chain and arms it. -/
def startDma (head : BusAddress) : Program Unit := do
  settled .dma Dma.status.offset Dma.reset shortSettle
  settled .dma Dma.status.offset Dma.clearFlags shortSettle
  settled .dma Dma.controlBlock.offset head.value shortSettle
  settled .dma Dma.errors.offset Dma.clearErrors shortSettle
  settled .dma Dma.status.offset Dma.start shortSettle

/-- The number of ticks of a sample, at most what a word holds. -/
def ticksOf (sampleMicros : UInt32) : UInt32 :=
  UInt32.ofNat (min (sampleMicros.toNat * ticksPerMicro.toNat) (UInt32.size - 1))

/-- The frame length less one that lasts some ticks, at most what the block can count. -/
def frameLengthOf (ticks : UInt32) : UInt16 := UInt16.ofNat (min (ticks.toNat - 1) Pcm.maxFrameLength.toNat)

/-- Brings clock, pacer and DMA channel up. -/
def start (s : Sequencer) (head : BusAddress) (sampleMicros : UInt32) : Program Unit := do
  let ticks := ticksOf sampleMicros
  log .debug "pwm_engine::sequencer"
    ("starting " ++ s.pacer.text ++ " pacing at " ++ toString ticks.toNat ++ " ticks per sample, chain head "
      ++ head.text)
  match s.pacer with
  | .pwm =>
    pacerStore Pwm.control 0 shortSettle
    s.startClock
    pacerStore Pwm.range ticks shortSettle
    pacerStore Pwm.request Pwm.pacingRequest shortSettle
    pacerStore Pwm.control Pwm.clearing shortSettle
    pacerStore Pwm.control Pwm.pacing shortSettle
    startDma head
  | .pcm =>
    pacerStore Pcm.control (Pcm.enable.raise 0) longSettle
    s.startClock
    pacerStore Pcm.channels (Pcm.firstChannel.raise 0) longSettle
    let mode ← Program.ofExcept (Pcm.frame (frameLengthOf ticks))
    pacerStore Pcm.mode mode longSettle
    pacerModify Pcm.control fun word => Pcm.clearReceive.raise (Pcm.clearTransmit.raise word)
    pacerStore Pcm.request Pcm.pacingRequest longSettle
    pacerModify Pcm.control Pcm.requestEnable.raise
    startDma head
    pacerModify Pcm.control Pcm.transmit.raise

/-- Resets the DMA channel. -/
def haltDma : Program Unit := settled .dma Dma.status.offset Dma.reset shortSettle

/-- Switches the pacer off. -/
def quiescePacer (s : Sequencer) : Program Unit :=
  match s.pacer with
  | .pwm => pacerStore Pwm.control 0 shortSettle
  | .pcm => pacerStore Pcm.control 0 longSettle

/-- The status word of the DMA channel. -/
def dmaStatus : Program UInt32 := Program.read .dma Dma.status.offset

/-- Drives pins to their inactive level. -/
def driveInactive (mask : UInt32) (invert : Bool) : Program Unit := store .gpio (Gpio.inactiveOffset invert) mask

/-- Gives a pin another function and answers the one it had. -/
def setFunction (pin : Pin) (f : PinFunction) : Program PinFunction := do
  let offset := Gpio.selectOffset pin.number
  let word ← Program.read .gpio offset
  store .gpio offset (Gpio.withFunction word pin.number f)
  return Gpio.function word pin.number

/-- Makes pins outputs one by one and answers the functions that they had. -/
def makeOutputs : List Pin → Program (List (Pin × PinFunction))
  | [] => return []
  | pin :: rest => do
    let previous ← setFunction pin .output
    log .debug "pwm_engine::sequencer" ("claimed " ++ pin.debug ++ " (was " ++ previous.debug ++ ")")
    let others ← makeOutputs rest
    return (pin, previous) :: others

/-- Drives pins to their inactive level and makes them outputs. -/
def claimPins (s : Sequencer) (pins : List Pin) (invert : Bool) : Program Sequencer := do
  driveInactive (Pin.maskOf pins) invert
  let previous ← makeOutputs pins
  return { s with claimed := s.claimed ++ previous }

/-- Drives the claimed pins to their inactive level and gives them back their functions. -/
def releasePins (s : Sequencer) (invert : Bool) : Program Sequencer :=
  if s.claimed.isEmpty then return s
  else do
    driveInactive (Pin.maskOf (s.claimed.map (·.1))) invert
    Program.each s.claimed fun (pin, previous) => do
      let _ ← setFunction pin previous
    return { s with claimed := [] }

end Sequencer

end PulseWidth
