import PulseWidth.Log
import PulseWidth.Register.Field

/-!
# Simulated register windows

A simulated window is an array of words that hands back what was stored last.  Windows of one simulated machine
write their accesses into a common journal, which so shows the order of loads and stores across blocks together
with the pauses in between.  An offset stands for the word that holds its byte, whatever its alignment; a load
outside the window reads zero and a store there is dropped, but both are in the journal.

A rack holds any number of windows by their position.  A modification of a register is a load and a store of the
value that a function makes of the loaded one; when the function refuses, only the load has happened.
-/

namespace PulseWidth.Simulation

open Text

/-- An entry of a journal. -/
inductive Event where
  | load (block : String) (offset : UInt64) (value : UInt32)
  | store (block : String) (offset : UInt64) (value : UInt32)
  | delay (micros : UInt64)
deriving DecidableEq, Repr

/-- What happened to the windows, and what was logged on the way; the oldest first. -/
structure Journal where
  events : Array Event
  records : Array Record
deriving DecidableEq, Repr

namespace Journal

/-- The journal in which nothing has happened. -/
def empty : Journal := ⟨#[], #[]⟩

/-- The journal with one more event. -/
def note (j : Journal) (event : Event) : Journal := { j with events := j.events.push event }

/-- The journal with one more log record. -/
def log (j : Journal) (record : Record) : Journal := { j with records := j.records.push record }

/-- The journal without its events. -/
def cleared (j : Journal) : Journal := { j with events := #[] }

/-- The stores to a block, each with its offset and value. -/
def stores (j : Journal) (block : String) : List (UInt64 × UInt32) :=
  j.events.toList.filterMap fun
    | .store b offset value => if b = block then some (offset, value) else none
    | _ => none

/-- The events that are no loads. -/
def writesAndDelays (j : Journal) : List Event :=
  j.events.toList.filter fun
    | .load .. => false
    | _ => true

end Journal

/-- The registers of a block. -/
structure Window where
  block : String
  words : Array UInt32
deriving DecidableEq, Repr

namespace Window

/-- A window of zeros of at least `bytes` bytes. -/
def zeros (block : String) (bytes : UInt64) : Window :=
  ⟨block, Array.replicate ((bytes.toNat + 3) / 4) 0⟩

/-- The position of the word that holds the byte at an offset. -/
def position (offset : UInt64) : Nat := (offset / 4).toNat

/-- The word at an offset, or zero outside the window. -/
def peek (w : Window) (offset : UInt64) : UInt32 := w.words.getD (position offset) 0

/-- The window with another word at an offset; nothing changes outside. -/
def poke (w : Window) (offset : UInt64) (value : UInt32) : Window :=
  { w with words := w.words.setIfInBounds (position offset) value }

/-- A load: the word, and the journal that shows it. -/
def load (w : Window) (offset : UInt64) (j : Journal) : UInt32 × Journal :=
  let value := w.peek offset
  (value, j.note (.load w.block offset value))

/-- The journal after a store. -/
def noteStore (w : Window) (offset : UInt64) (value : UInt32) (j : Journal) : Journal :=
  let logged := j.log ⟨.trace, "pwm_registers::sim", storeText w.block offset value⟩
  let warned :=
    if position offset < w.words.size then logged
    else logged.log ⟨.warn, "pwm_registers::sim",
      "store to " ++ w.block ++ "[" ++ hex 1 offset.toNat ++ "] is outside the simulated block"⟩
  warned.note (.store w.block offset value)

/-- A store: the changed window, and the journal that shows it. -/
def store (w : Window) (offset : UInt64) (value : UInt32) (j : Journal) : Window × Journal :=
  let noted := w.noteStore offset value j
  (w.poke offset value, noted)

end Window

/-! ### Windows that share a journal -/

/-- Windows and the journal that they share. -/
structure Rack where
  windows : Array Window
  journal : Journal
deriving DecidableEq, Repr

namespace Rack

/-- Loads a word through the window at a position. -/
def load (r : Rack) (index : Nat) (offset : UInt64) : UInt32 × Rack :=
  match r.windows[index]? with
  | none => (0, r)
  | some w =>
    let (value, journal) := w.load offset r.journal
    (value, { r with journal })

/-- Stores a word through the window at a position. -/
def store (r : Rack) (index : Nat) (offset : UInt64) (value : UInt32) : Rack :=
  match r.windows[index]? with
  | none => r
  | some w =>
    let (w, journal) := w.store offset value r.journal
    { windows := r.windows.setIfInBounds index w, journal }

/-- Changes a word without a trace. -/
def poke (r : Rack) (index : Nat) (offset : UInt64) (value : UInt32) : Rack :=
  { r with windows := r.windows.modify index (·.poke offset value) }

/-- The word at an offset, without a trace. -/
def peek (r : Rack) (index : Nat) (offset : UInt64) : UInt32 :=
  (r.windows[index]?.map (·.peek offset)).getD 0

/-- The name of the block at a position. -/
def block (r : Rack) (index : Nat) : String := (r.windows[index]?.map (·.block)).getD ""

/-- Loads a register, changes its word and stores it again. -/
def modify (r : Rack) (index : Nat) (register : Register) (change : UInt32 → Except Fault UInt32) :
    Except Fault UInt32 × Rack :=
  let (word, loaded) := r.load index register.offset
  match change word with
  | .error reason => (.error reason, loaded)
  | .ok changed => (.ok changed, loaded.store index register.offset changed)

/-- Notes a pause. -/
def pause (r : Rack) (micros : UInt64) : Rack := { r with journal := r.journal.note (.delay micros) }

end Rack

end PulseWidth.Simulation
