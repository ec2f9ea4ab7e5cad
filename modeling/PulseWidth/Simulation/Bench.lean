import PulseWidth.Engine.Basic
import PulseWidth.Simulation.Window

/-!
# The simulated machine

A bench has the four windows that an engine reaches, the journal that they share, a simulated arena and the lines
that were printed.  An engine is simulated by running its programs on a bench.
-/

namespace PulseWidth.Simulation

/-- A simulated machine. -/
structure Bench where
  windows : Roles Window
  journal : Journal
  arena : Arena
  printed : Array String
deriving DecidableEq, Repr

namespace Bench

/-- Windows of zeros of the given numbers of bytes. -/
def windowsOfLengths (pacer : Pacer) (lengths : Roles UInt64) : Roles Window where
  dma := .zeros "dma" lengths.dma
  clock := .zeros "clk" lengths.clock
  pacer := .zeros pacer.block.name lengths.pacer
  gpio := .zeros "gpio" lengths.gpio

/-- The windows that an engine of a configuration reaches, all zero. -/
def windowsOf (pacer : Pacer) : Roles Window :=
  windowsOfLengths pacer ⟨Dma.channelStride, Block.length, Block.length, Block.length⟩

/-- Windows with words put in without a trace. -/
def preset (windows : Roles Window) (words : List (Role × UInt64 × UInt32)) : Roles Window :=
  words.foldl (fun w (role, offset, value) => w.set ((w.get role).poke offset value) role) windows

/-- A bench on which nothing has happened. -/
def fresh (windows : Roles Window) (arena : Arena) : Bench := ⟨windows, .empty, arena, #[]⟩

/-- Loads a word from the window with a role. -/
def load (b : Bench) (role : Role) (offset : UInt64) : UInt32 × Bench :=
  let (value, journal) := (b.windows.get role).load offset b.journal
  (value, { b with journal })

/-- Stores a word to the window with a role. -/
def store (b : Bench) (role : Role) (offset : UInt64) (value : UInt32) : Bench :=
  let (window, journal) := (b.windows.get role).store offset value b.journal
  { b with windows := b.windows.set window role, journal }

/-- Carries an action out. -/
def perform (b : Bench) : Action → Except Fault Unit × Bench
  | .store role offset value => (.ok (), b.store role offset value)
  | .pause micros => (.ok (), { b with journal := b.journal.note (.delay micros) })
  | .write offset value =>
    match b with
    | ⟨windows, journal, arena, printed⟩ =>
      match arena.refusal? offset with
      | some reason => (.error reason, ⟨windows, journal, arena, printed⟩)
      | none => (.ok (), ⟨windows, journal, arena.put offset value, printed⟩)
  | .log record => (.ok (), { b with journal := b.journal.log record })
  | .print line => (.ok (), { b with printed := b.printed.push line })

instance : Machine Bench where
  load role offset b :=
    let (value, b) := b.load role offset
    (.ok value, b)
  perform action b := b.perform action
  arena := Bench.arena

/-- The word of a window at an offset, without a trace. -/
def peek (b : Bench) (role : Role) (offset : UInt64) : UInt32 := (b.windows.get role).peek offset

end Bench

/-- Assembles an engine on a bench and starts it; whatever the outcome, the bench is left as the attempt has made
it. -/
def assemble (config : Config) (b : Bench) : Except (StartError × Bench) (Engine × Bench) :=
  match (Engine.assemble config b.arena).run b with
  | (.ok (.ok engine), b) => .ok (engine, b)
  | (.ok (.error reason), b) => .error (.init reason, b)
  | (.error reason, b) => .error (.fault reason, b)

/-- A simulated engine of a configuration, running, with its bench.  The configuration is validated on its own
before the arena is made and once more when the engine is assembled. -/
def simulate (config : Config) : Except StartError (Engine × Bench) :=
  match config.validate with
  | .error reason => .error (.init (.config reason))
  | .ok nrSamples =>
    match Arena.simulated (ChainLayout.mk nrSamples).pages config.platform.dramAlias with
    | .error reason => .error (.init (.arena reason))
    | .ok arena =>
      let b := Bench.fresh (Bench.windowsOf config.pacer) arena
      match assemble config { b with journal.records := config.remarks.toArray } with
      | .ok started => .ok started
      | .error (reason, _) => .error reason

end PulseWidth.Simulation
