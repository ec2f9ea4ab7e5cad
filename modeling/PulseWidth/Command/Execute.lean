import PulseWidth.Command.Basic
import PulseWidth.Engine.Basic

/-!
# Carrying commands out

A command becomes a request to the engine.  A request that is refused is logged as a warning and has no other
effect.  The status prints the summary, what the DMA channel is doing and the duty of each channel.
-/

namespace PulseWidth

open Text

namespace Engine

/-- The line of a channel in the status. -/
def channelLine (e : Engine) (c : Channel) : String :=
  "  GPIO " ++ c.pin.text ++ ": " ++
    if c.enabled then padLeft 5 (toString c.duty.toNat) ++ "/" ++ toString e.layout.nrSamples.toNat else "off"

/-- The lines of the status, for a status word of the DMA channel. -/
def statusLines (e : Engine) (word : UInt32) : List String :=
  e.summary.lines
    ++ ["state: " ++ e.state.debug ++ ", DMA active: " ++ toString (Dma.active.isSet word) ++ ", DMA error: "
          ++ toString (Dma.errorFlag.isSet word)]
    ++ e.channels.map e.channelLine

/-- Prints some lines. -/
def printAll (lines : List String) : Program Unit := Program.each lines Program.print

/-- Logs what went wrong and leaves the engine as it is. -/
def complain (e : Engine) (message : String) : Program Engine := do
  Program.log .warn "pwm_blaster" message
  return e

/-- Carries a request out, or logs why it is refused. -/
def attempt (e : Engine) : Except ChannelError (Program Engine) → Program Engine
  | .ok program => program
  | .error reason => e.complain reason.message

/-- Carries a command out; leaving is the business of whoever reads the commands. -/
def execute (e : Engine) : Command → Program Engine
  | .set pin (.fraction value) => e.attempt (e.setChannelFraction pin value)
  | .set pin (.slices count) => e.attempt (e.setChannel pin count)
  | .release pin => e.attempt (e.releaseChannel pin)
  | .stop => e.stop
  | .start => e.start
  | .status => do
    let word ← Sequencer.dmaStatus
    printAll (e.statusLines word)
    return e
  | .quit => return e

end Engine

end PulseWidth
