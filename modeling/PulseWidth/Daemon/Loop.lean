import PulseWidth.Command.Execute

/-!
# The command loop

The loop waits for lines and carries their commands out until the termination latch is set, by a command to leave or
by a signal.  A line that is blank, no command or refused by the engine costs only a warning.  A closed input ends
nothing: the loop goes on waiting for the latch.  When it is set, the engine is shut down once.

The input is bytes.  A line goes on up to its line feed, or up to the end of the input.  Its text is what the bytes
are in UTF-8, without the line feed and a carriage return in front of it.
-/

namespace PulseWidth.Daemon

open Text

/-! ### The lines of the input -/

/-- What arrives on the input. -/
inductive InputLine where
  | text (line : String)
  /-- Bytes that are no text. -/
  | garbled
deriving DecidableEq, Repr

/-- The lines that some bytes are made of, each with its line feed, which the last one may lack. -/
def byteLines : List UInt8 → List (List UInt8)
  | [] => []
  | byte :: rest =>
    if byte = 10 then [byte] :: byteLines rest
    else match byteLines rest with
      | [] => [[byte]]
      | line :: lines => (byte :: line) :: lines

/-- A text without its line feed and a carriage return in front of it. -/
def withoutLineEnd (text : String) : String :=
  match text.toList.reverse with
  | '\n' :: '\r' :: rest | '\n' :: rest => String.ofList rest.reverse
  | _ => text

/-- What arrives with the bytes of a line. -/
def InputLine.ofBytes (bytes : List UInt8) : InputLine :=
  match String.fromUTF8? ⟨bytes.toArray⟩ with
  | some line => .text (withoutLineEnd line)
  | none => .garbled

/-- What arrives with some bytes. -/
def inputLines (bytes : List UInt8) : List InputLine := (byteLines bytes).map .ofBytes

/-! ### What the loop meets -/

/-- What the loop can meet while it waits. -/
inductive LoopEvent where
  | line (text : String)
  | timeout
  | disconnected
  | signal
deriving DecidableEq, Repr

/-- What the loop meets of some lines: reading stops at the first that is no text, and nothing after it arrives. -/
def arrivals : List InputLine → List LoopEvent
  | [] => []
  | .text line :: rest => .line line :: arrivals rest
  | .garbled :: _ => [.disconnected]

/-- What a loop is fed: lines, and then perhaps the end of the input and a signal. -/
structure Feed where
  lines : List InputLine
  closed : Bool
  signalled : Bool
deriving DecidableEq, Repr

/-- What the loop meets of a feed. -/
def Feed.events (f : Feed) : List LoopEvent :=
  arrivals f.lines ++ (if f.closed then [.disconnected] else [])
    ++ if f.signalled then [.timeout, .signal] else []

/-! ### Serving -/

/-- The loop between two events. -/
structure LoopState where
  engine : Engine
  /-- Whether the termination latch is set. -/
  latched : Bool
  /-- Whether lines can still arrive. -/
  inputOpen : Bool
deriving DecidableEq, Repr

namespace LoopState

/-- The loop with an engine that has just been started. -/
def start (e : Engine) : LoopState := ⟨e, false, true⟩

/-- Carries a line out. -/
def receive (l : LoopState) (line : String) : Program LoopState :=
  if (trim line.toList).isEmpty then return l
  else match Command.parse line.toList with
    | .ok .quit => return { l with latched := true }
    | .ok command => do
      let engine ← l.engine.execute command
      return { l with engine }
    | .error reason => do
      let engine ← l.engine.complain reason.message
      return { l with engine }

/-- Handles an event, unless the latch is set. -/
def step (l : LoopState) (event : LoopEvent) : Program LoopState :=
  if l.latched then return l
  else match event with
    | .signal => return { l with latched := true }
    | .timeout => return l
    | .disconnected => do
      if l.inputOpen then Program.log .debug "pwm_blaster" "stdin closed"
      return { l with inputOpen := false }
    | .line text => if l.inputOpen then l.receive text else return l

/-- Handles some events, one after the other. -/
def steps (l : LoopState) : List LoopEvent → Program LoopState
  | [] => return l
  | event :: rest => do
    let l ← l.step event
    l.steps rest

/-- Shuts the engine down if the loop has ended. -/
def finish (l : LoopState) : Program LoopState :=
  if l.latched then do
    Program.log .info "pwm_blaster" "shutting down"
    let engine ← l.engine.exit
    return { l with engine }
  else return l

end LoopState

/-- Serves commands: prints the summary, handles the events and, if they end the loop, shuts the engine down. -/
def serve (e : Engine) (events : List LoopEvent) : Program LoopState := do
  Engine.printAll e.summary.lines
  let l ← (LoopState.start e).steps events
  l.finish

end PulseWidth.Daemon
