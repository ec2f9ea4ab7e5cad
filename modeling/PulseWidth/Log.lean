/-!
# Log records

A record has a level, a target that says which part of the program it comes from, and a message.  A threshold lets
through the records up to a level, or none at all.
-/

namespace PulseWidth

/-- How important a record is, the most important first. -/
inductive Level where
  | error
  | warn
  | info
  | debug
  | trace
deriving DecidableEq, Repr

namespace Level

/-- The place of the level, counted from one. -/
def rank : Level → Nat
  | error => 1
  | warn => 2
  | info => 3
  | debug => 4
  | trace => 5

/-- The name of the level. -/
def text : Level → String
  | error => "ERROR"
  | warn => "WARN"
  | info => "INFO"
  | debug => "DEBUG"
  | trace => "TRACE"

/-- The levels, the most important first. -/
def all : List Level := [error, warn, info, debug, trace]

/-- The level of that name; the case of ASCII letters does not matter. -/
def ofName? (text : List Char) : Option Level :=
  let folded := text.map Char.toUpper
  all.find? fun level => level.text.toList == folded

end Level

/-- The level up to which records are let through; without one, none is. -/
structure Threshold where
  level? : Option Level
deriving DecidableEq, Repr

namespace Threshold

/-- Whether records of a level are let through. -/
def admits (t : Threshold) (level : Level) : Bool :=
  match t.level? with
  | none => false
  | some most => level.rank ≤ most.rank

/-- The name of the threshold. -/
def text (t : Threshold) : String :=
  match t.level? with
  | none => "OFF"
  | some level => level.text

/-- The threshold of that name; the case of ASCII letters does not matter. -/
def ofName? (text : List Char) : Option Threshold :=
  let folded := text.map Char.toUpper
  let all : List Threshold := ⟨none⟩ :: Level.all.map fun level => ⟨some level⟩
  all.find? fun t => t.text.toList == folded

end Threshold

/-- A log record. -/
structure Record where
  level : Level
  target : String
  message : String
deriving DecidableEq, Repr

/-- The line that a record is written as. -/
def Record.line (r : Record) : String := "[" ++ r.level.text ++ "] " ++ r.target ++ ": " ++ r.message

/-- What a logger with a threshold writes for a record. -/
def Threshold.written (t : Threshold) (r : Record) : String :=
  if t.admits r.level then r.line ++ "\n" else ""

end PulseWidth
