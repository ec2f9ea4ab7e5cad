/-!
# The termination latch

The latch is set once and for all by the program itself or by one of four signals.
-/

namespace PulseWidth.Daemon

/-- The signals that end the program in the orderly way. -/
inductive TerminationSignal where
  | interrupt
  | terminate
  | hangup
  | quit
deriving DecidableEq, Repr

namespace TerminationSignal

/-- The name of the signal. -/
def name : TerminationSignal → String
  | interrupt => "SIGINT"
  | terminate => "SIGTERM"
  | hangup => "SIGHUP"
  | quit => "SIGQUIT"

/-- The signals that are handled. -/
def all : List TerminationSignal := [interrupt, terminate, hangup, quit]

/-- The signal of that name. -/
def named? (name : String) : Option TerminationSignal := all.find? (·.name == name)

end TerminationSignal

/-- A latch that remembers that the program is to end. -/
structure Latch where
  isSet : Bool
deriving DecidableEq, Repr

namespace Latch

/-- The latch of a fresh program. -/
def fresh : Latch := ⟨false⟩

/-- The latch after it has been set. -/
def set (_l : Latch) : Latch := ⟨true⟩

/-- The latch after a signal. -/
def raised (l : Latch) (_signal : TerminationSignal) : Latch := l.set

/-- The latch that another installation of the handlers gives: the same one. -/
def reinstalled (l : Latch) : Latch := l

end Latch

end PulseWidth.Daemon
