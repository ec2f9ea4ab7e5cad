import PulseWidth.Channel.Pin
import PulseWidth.Decimal.Reader

/-!
# Commands

A line of input is a command.  `pin = level` drives a pin for a fraction of the cycle or, when the level ends in
`s`, for a number of slices; `release pin` leaves it alone; `stop`, `start`, `status`, `quit` and `exit` stand
alone.  Blanks around the parts do not matter, nor does the case of the words.
-/

namespace PulseWidth

open Text

/-- How long a pin is to be driven. -/
inductive DutyLevel where
  | fraction (value : Float)
  | slices (count : UInt32)
deriving Repr

/-- A command. -/
inductive Command where
  | set (pin : Pin) (level : DutyLevel)
  | release (pin : Pin)
  | stop
  | start
  | status
  | quit
deriving Repr

/-- Why a line is no command. -/
inductive CommandError where
  | empty
  | unknown (line : String)
  | badLevel (text : String)
  | pin (reason : ChannelError)
deriving Repr

/-- The wording of the reason. -/
def CommandError.message : CommandError → String
  | empty => "empty command"
  | unknown line => "unknown command \x60" ++ line ++ "\x60"
  | badLevel text => "\x60" ++ text ++ "\x60 is not a duty fraction or slice count"
  | pin reason => reason.message

namespace DutyLevel

/-- The level that a text without blanks at its ends stands for. -/
def ofText? (text : List Char) : Option DutyLevel :=
  if text.getLast? = some 's' then (word? (trim text.dropLast)).map slices
  else (Decimal.read? text).map fraction

end DutyLevel

namespace Command

/-- The command that drives a pin, from the texts on both sides of the equals sign. -/
def ofAssignment (pin level : List Char) : Except CommandError Command :=
  match Pin.ofText pin with
  | .error reason => .error (.pin reason)
  | .ok pin =>
    match DutyLevel.ofText? (trim level) with
    | some level => .ok (.set pin level)
    | none => .error (.badLevel (String.ofList (trim level)))

/-- The command of a single word. -/
def ofVerb? (verb : List Char) : Option Command :=
  match String.ofList verb with
  | "stop" => some stop
  | "start" => some start
  | "status" => some status
  | "quit" | "exit" => some quit
  | _ => none

/-- The command that a list of words spells; what follows the pin to be released is not looked at. -/
def ofWords (line : List Char) : List (List Char) → Except CommandError Command
  | [] => .error .empty
  | verb :: rest =>
    let verb := verb.map Char.toLower
    match rest with
    | [] => match ofVerb? verb with
      | some command => .ok command
      | none => .error (.unknown (String.ofList line))
    | pin :: _ =>
      if verb = "release".toList then
        match Pin.ofText pin with
        | .ok pin => .ok (.release pin)
        | .error reason => .error (.pin reason)
      else .error (.unknown (String.ofList line))

/-- The command that a line spells. -/
def parse (line : List Char) : Except CommandError Command :=
  let line := trim line
  if line.contains '=' then
    ofAssignment (line.takeWhile (· != '=')) ((line.dropWhile (· != '=')).drop 1)
  else ofWords line (words line)

end Command

end PulseWidth
