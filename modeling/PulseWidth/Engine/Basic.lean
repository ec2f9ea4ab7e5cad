import PulseWidth.Board.Registers
import PulseWidth.Chain.Build
import PulseWidth.Sequencer

/-!
# The engine

An engine holds a chain in an arena and a table of channels.  Requests write the sample words anew; the control
blocks are written once, when the engine is assembled.  A request that is refused has no effect at all.  An engine
that is shut down stops, switches the pacer off and gives the pins back with the functions that they had.

An engine cannot be started over a configuration that is refused, windows that cannot be mapped, page records that
cannot be opened, memory that cannot be had or a chain that cannot be built (`InitError`).  The numbers of a running
engine are reported to the user (`Summary`).
-/

namespace PulseWidth

open Text
open Program (log pause)

/-! ### Errors -/

/-- Why an engine cannot be started. -/
inductive InitError where
  | config (reason : ConfigError)
  | map (reason : MapError)
  | resolve (reason : ResolveError)
  | arena (reason : ArenaError)
  | chain (reason : ChainError)
deriving DecidableEq, Repr

namespace InitError

/-- The wording of the reason. -/
def message : InitError → String
  | config reason => "invalid configuration: " ++ reason.message
  | map reason => reason.message
  | resolve reason => reason.message
  | arena reason => reason.message
  | chain reason => "failed to build the descriptor chain: " ++ reason.message

/-- The wording of the underlying error, if there is one. -/
def source? : InitError → Option String
  | config reason => some reason.message
  | map reason => reason.source?
  | resolve reason => reason.source?
  | arena reason => reason.source?
  | chain reason => some reason.message

end InitError

/-- Why there is no engine after a start: it was refused, or a contract was broken on the way. -/
inductive StartError where
  | init (reason : InitError)
  | fault (reason : Fault)
deriving DecidableEq, Repr

/-! ### Summaries -/

/-- What is reported of an engine. -/
structure Summary where
  pacer : Pacer
  channels : Nat
  frequencyHz : UInt32
  steps : UInt32
  maxPulseMicros : UInt32
  minPulseMicros : UInt32
deriving DecidableEq, Repr

namespace Summary

/-- The product of two words, or the largest word. -/
def cappedProduct (a b : UInt32) : UInt32 := UInt32.ofNat (min (a.toNat * b.toNat) (UInt32.size - 1))

/-- The summary of a configuration that is run with some channels and samples. -/
def of (config : Config) (channels : Nat) (nrSamples : UInt32) : Summary where
  pacer := config.pacer
  channels := channels
  frequencyHz := 1000000 / config.cycleMicros
  steps := nrSamples
  maxPulseMicros := cappedProduct nrSamples config.sampleMicros
  minPulseMicros := config.sampleMicros

/-- The shortest pulse as a percentage of the longest. -/
def minPercent (s : Summary) : Float := 100.0 * s.minPulseMicros.toFloat / (max s.maxPulseMicros 1).toFloat

/-- The lines of the summary. -/
def lines (s : Summary) : List String :=
  ["Using hardware:           " ++ s.pacer.text,
   "Number of channels:       " ++ padLeft 8 (toString s.channels),
   "PWM frequency:            " ++ padLeft 5 (toString s.frequencyHz.toNat) ++ " Hz",
   "PWM steps:                " ++ padLeft 8 (toString s.steps.toNat),
   "Maximum period (100  %):  " ++ padLeft 6 (toString s.maxPulseMicros.toNat) ++ "us",
   "Minimum period (" ++ Decimal.fixed 3 s.minPercent ++ "%):  " ++ padLeft 6 (toString s.minPulseMicros.toNat)
     ++ "us"]

/-- The text of the summary. -/
def text (s : Summary) : String := "\n".intercalate s.lines

end Summary

/-! ### State -/

/-- What an engine is doing. -/
inductive EngineState where
  | running
  | stopped
  | exited
deriving DecidableEq, Repr

/-- The text of the state in listings. -/
def EngineState.debug : EngineState → String
  | running => "Running"
  | stopped => "Stopped"
  | exited => "Exited"

/-- An engine. -/
structure Engine where
  config : Config
  table : ChannelTable
  chain : Chain
  sequencer : Sequencer
  state : EngineState
deriving DecidableEq, Repr

namespace Engine

/-- Where the parts of the chain lie. -/
def layout (e : Engine) : ChainLayout := e.chain.layout

/-- The channels, in the order of the configuration. -/
def channels (e : Engine) : List Channel := e.table.channels

/-- The channel of a pin. -/
def channel? (e : Engine) (pin : Pin) : Option Channel := e.table.get? pin

/-- The numbers of the engine. -/
def summary (e : Engine) : Summary := .of e.config e.table.channels.length e.table.nrSamples

/-- The text of the engine in listings. -/
def debug (e : Engine) : String :=
  someFields "Engine" [("config", e.config.debug), ("state", e.state.debug), ("head", e.chain.head.debug)]

/-- The sample words as they stand in an arena. -/
def samples (e : Engine) (arena : Arena) : Except Fault (List UInt32) :=
  e.layout.slots.mapM fun slot => arena.read (e.layout.sampleOffset slot)

/-! ### Requests -/

/-- Writes the sample words of a table, logs a message and goes on with the table. -/
def commit (e : Engine) (table : ChannelTable) (message : String) : Program Engine := do
  regenerate e.layout table.channels
  log .debug "pwm_engine::engine" message
  return { e with table }

/-- The text of a duty out of all slices. -/
def ofSteps (e : Engine) (duty : UInt32) : String :=
  toString duty.toNat ++ "/" ++ toString e.table.nrSamples.toNat

/-- Drives a pin for `duty` slices of each cycle. -/
def setChannel (e : Engine) (pin : Pin) (duty : UInt32) : Except ChannelError (Program Engine) :=
  (e.table.set pin duty).map fun table => e.commit table (pin.debug ++ " duty " ++ e.ofSteps duty)

/-- Drives a pin for a fraction of each cycle. -/
def setChannelFraction (e : Engine) (pin : Pin) (fraction : Float) : Except ChannelError (Program Engine) :=
  match dutyOfFraction fraction e.table.nrSamples with
  | .error reason => .error reason
  | .ok duty => e.setChannel pin duty

/-- Drives several pins for `duty` slices of each cycle. -/
def setChannels (e : Engine) (pins : List Pin) (duty : UInt32) : Except ChannelError (Program Engine) :=
  (e.table.setMany pins duty).map fun table =>
    e.commit table (toString pins.length ++ " channel(s) duty " ++ e.ofSteps duty)

/-- Leaves a pin alone from now on, at its inactive level. -/
def releaseChannel (e : Engine) (pin : Pin) : Except ChannelError (Program Engine) :=
  (e.table.release pin).map fun table => do
    regenerate e.layout table.channels
    Sequencer.driveInactive pin.mask e.config.invert
    log .debug "pwm_engine::engine" ("released " ++ pin.debug)
    return { e with table }

/-- Silences all channels, waits out one cycle, stops the DMA channel and drives the pins inactive. -/
def stop (e : Engine) : Program Engine :=
  if e.state ≠ .running then return e
  else do
    let table := e.table.silence
    regenerate e.layout table.channels
    pause e.config.cycleMicros.toUInt64
    Sequencer.haltDma
    Sequencer.driveInactive table.pinMask e.config.invert
    log .info "pwm_engine::engine" "stopped"
    return { e with table, state := .stopped }

/-- Starts the DMA channel at the head of the chain. -/
def start (e : Engine) : Program Engine :=
  if e.state ≠ .stopped then return e
  else do
    e.sequencer.start e.chain.head e.config.sampleMicros
    log .info "pwm_engine::engine"
      ("running: " ++ toString e.table.channels.length ++ " channel(s), " ++ toString e.summary.frequencyHz.toNat
        ++ " Hz, " ++ toString e.table.nrSamples.toNat ++ " steps")
    return { e with state := .running }

/-- Stops the engine, switches the pacer off and gives the pins back. -/
def exit (e : Engine) : Program Engine :=
  if e.state = .exited then return e
  else do
    let e ← e.stop
    e.sequencer.quiescePacer
    let sequencer ← e.sequencer.releasePins e.config.invert
    log .info "pwm_engine::engine" "pins released"
    return { e with sequencer, state := .exited }

/-! ### Assembly -/

/-- Emits log records. -/
def logAll (records : List Record) : Program Unit :=
  Program.each records fun r => log r.level r.target r.message

/-- The stopped engine over a chain that has been written. -/
def stopped (config : Config) (table : ChannelTable) (chain : Chain) (sequencer : Sequencer) : Engine :=
  ⟨config, table, chain, sequencer, .stopped⟩

/-- The program that makes an engine of a valid configuration and an arena and starts it. -/
def build (config : Config) (nrSamples : UInt32) (arena : Arena) : Except InitError (Program Engine) :=
  match ChannelTable.ofPins config.pins nrSamples with
  | .error reason => .error (.config (.pins reason))
  | .ok table =>
    match Chain.build arena ⟨nrSamples⟩ (.of config.invert config.pacer) with
    | .error reason => .error (.chain reason)
    | .ok writeChain => .ok do
      let chain ← writeChain
      regenerate chain.layout table.channels
      let sequencer ← (Sequencer.idle config.pacer config.platform.clockDivisor).claimPins config.pins config.invert
      (stopped config table chain sequencer).start

/-- Makes an engine of a configuration and an arena and starts it, or says why that cannot be. -/
def assemble (config : Config) (arena : Arena) : Program (Except InitError Engine) := do
  logAll config.remarks
  match config.validate with
  | .error reason => return .error (.config reason)
  | .ok nrSamples =>
    match build config nrSamples arena with
    | .error reason => return .error reason
    | .ok program => do
      let e ← program
      return .ok e

end Engine

end PulseWidth
