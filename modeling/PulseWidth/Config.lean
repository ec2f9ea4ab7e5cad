import PulseWidth.Channel.Pin
import PulseWidth.Log
import PulseWidth.Platform
import PulseWidth.Register.Clock
import PulseWidth.Register.Dma
import PulseWidth.Register.Pcm
import PulseWidth.Register.Pwm

/-!
# Configurations

A configuration gives the times of a cycle and of a sample, the level that counts as active, the block that paces
the samples, the DMA channel, the board and the pins.  `validate` answers the number of samples of a cycle or the
first reason why the configuration cannot be run.  A cycle that is no multiple of the sample time is accepted with
a remark.
-/

namespace PulseWidth

open Text

/-- The block whose request line paces the samples. -/
inductive Pacer where
  | pwm
  | pcm
deriving DecidableEq, Repr, Inhabited

namespace Pacer

/-- The request line of the block. -/
def permap : Pacer → Permap
  | pwm => .pwm
  | pcm => .pcmTransmit

/-- The peripheral block. -/
def block : Pacer → Block
  | pwm => .pwm
  | pcm => .pcm

/-- The bus address of the block's queue. -/
def queue : Pacer → BusAddress
  | pwm => Block.register .pwm Pwm.queueOffset
  | pcm => Block.register .pcm Pcm.queueOffset

/-- The clock of the block. -/
def clock : Pacer → Clock.Channel
  | pwm => .pwm
  | pcm => .pcm

/-- The longest sample, in microseconds, that the block can count out in ticks. -/
def maxSampleMicros : Pacer → UInt32
  | pwm => UInt32.ofNat (UInt32.size - 1) / ticksPerMicro
  | pcm => (Pcm.maxFrameLength.toUInt32 + 1) / ticksPerMicro

/-- The plain name of the block. -/
def text : Pacer → String
  | pwm => "PWM"
  | pcm => "PCM"

/-- The text of the block in listings. -/
def debug : Pacer → String
  | pwm => "Pwm"
  | pcm => "Pcm"

end Pacer

/-- What is to be run. -/
structure Config where
  cycleMicros : UInt32
  sampleMicros : UInt32
  /-- Whether the active level is low. -/
  invert : Bool
  pacer : Pacer
  dmaChannel : UInt8
  platform : Platform
  pins : List Pin
deriving DecidableEq, Repr

/-- The most samples whose chain fits the bus window. -/
def maxSamples : UInt32 :=
  -- each sample takes a word and two control blocks, and up to 28 bytes are lost to their alignment
  ((busWindow - pageSize - 28) / 68).toUInt32

/-- Why a configuration cannot be run. -/
inductive ConfigError where
  | zeroSampleTime
  | noSamples (cycleMicros sampleMicros : UInt32)
  | tooManySamples (nrSamples : UInt32)
  | sampleTimeTooLong (sampleMicros : UInt32) (pacer : Pacer)
  | invalidDmaChannel (channel : UInt8)
  | pins (reason : PinListError)
deriving DecidableEq, Repr

/-- The wording of the reason. -/
def ConfigError.message : ConfigError → String
  | zeroSampleTime => "sample time must be at least 1 \u00b5s"
  | noSamples cycle sample =>
    "cycle time of " ++ toString cycle.toNat ++ " \u00b5s is shorter than one " ++ toString sample.toNat
      ++ " \u00b5s sample"
  | tooManySamples count =>
    toString count.toNat ++ " samples per cycle exceed the " ++ toString maxSamples.toNat
      ++ " the DMA bus window can hold"
  | sampleTimeTooLong sample pacer =>
    "sample time of " ++ toString sample.toNat ++ " \u00b5s exceeds the " ++ pacer.text ++ " pacing limit of "
      ++ toString pacer.maxSampleMicros.toNat ++ " \u00b5s"
  | invalidDmaChannel channel => "DMA channel " ++ toString channel.toNat ++ " is not in 0..=14"
  | pins reason => reason.message

namespace Config

/-- The pins that are configured unless others are named. -/
def defaultPins : List Pin := [4, 17, 18, 21, 22, 23, 24, 25].map Pin.mk

/-- The configuration that is run unless another is asked for. -/
def standard : Config where
  cycleMicros := 10000
  sampleMicros := 10
  invert := false
  pacer := .pwm
  dmaChannel := 14
  platform := .bcm2836
  pins := defaultPins

instance : Inhabited Config := ⟨standard⟩

/-- The number of samples of a cycle, unless the sample time is zero. -/
def nrSamples? (c : Config) : Option UInt32 :=
  if c.sampleMicros = 0 then none else some (c.cycleMicros / c.sampleMicros)

/-- The number of samples of a cycle, or the first reason why the configuration cannot be run. -/
def validate (c : Config) : Except ConfigError UInt32 :=
  match c.nrSamples? with
  | none => .error .zeroSampleTime
  | some n =>
    if n = 0 then .error (.noSamples c.cycleMicros c.sampleMicros)
    else if maxSamples < n then .error (.tooManySamples n)
    else if c.pacer.maxSampleMicros < c.sampleMicros then .error (.sampleTimeTooLong c.sampleMicros c.pacer)
    else if Dma.channelCount ≤ c.dmaChannel then .error (.invalidDmaChannel c.dmaChannel)
    else match Pin.check c.pins with
      | .error e => .error (.pins e)
      | .ok () => .ok n

/-- What is left of the cycle after its last whole sample. -/
def remainder (c : Config) : UInt32 := c.cycleMicros % c.sampleMicros

/-- What a validation logs: a remark on an accepted configuration whose cycle is no multiple of the sample time. -/
def remarks (c : Config) : List Record :=
  match c.validate with
  | .error _ => []
  | .ok _ =>
    if c.remainder = 0 then []
    else
      [⟨.warn, "pwm_engine::config",
        "cycle time " ++ toString c.cycleMicros.toNat ++ " \u00b5s is not a multiple of the "
          ++ toString c.sampleMicros.toNat ++ " \u00b5s sample time; the effective cycle is "
          ++ toString (c.cycleMicros - c.remainder).toNat ++ " \u00b5s"⟩]

/-- The text of the configuration in listings. -/
def debug (c : Config) : String :=
  fields "PwmConfig"
    [("cycle_time_us", toString c.cycleMicros.toNat), ("sample_time_us", toString c.sampleMicros.toNat),
     ("invert", toString c.invert), ("delay_source", c.pacer.debug), ("dma_channel", toString c.dmaChannel.toNat),
     ("platform", c.platform.debug), ("pins", listed (c.pins.map (·.debug)))]

end Config

end PulseWidth
