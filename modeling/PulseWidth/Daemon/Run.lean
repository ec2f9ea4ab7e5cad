import PulseWidth.Arguments
import PulseWidth.Board.BringUp
import PulseWidth.Daemon.Loop
import PulseWidth.Help
import PulseWidth.Simulation.Bench

/-!
# A run of the daemon

A run understands its arguments, checks the configuration, starts an engine, simulated or on the host's board, and
serves commands.  What it leaves is an exit code and the lines of its two outputs.  A refused start is reported with
its causes, the outer one first.
-/

namespace PulseWidth.Daemon

/-- What a run leaves. -/
structure Outcome where
  /-- The exit code, unless the run still waits for something to end it. -/
  code? : Option Nat
  stdout : List String
  /-- The lines of the error output; the report of a usage error is left out. -/
  stderr? : Option (List String)
deriving DecidableEq, Repr

/-- The report of a failure with its causes. -/
def report (failure : String) (causes : List String) : List String :=
  ["Error: " ++ failure, "", "Caused by:"] ++
    match causes with
    | [cause] => ["    " ++ cause]
    | _ => causes.zipIdx.map fun (cause, i) => "    " ++ toString i ++ ": " ++ cause

/-- The lines of the records that a threshold lets through. -/
def recordLines (threshold : Threshold) (records : List Record) : List String :=
  (records.filter fun r => threshold.admits r.level).map Record.line

/-- What is logged when the signal handlers have been installed. -/
def installed : Record := ⟨.debug, "pwm_engine::signals", "termination handlers installed"⟩

/-- A run that has ended with a failure. -/
def failed (threshold : Threshold) (records : List Record) (failure : String) (causes : List String) : Outcome where
  code? := some 1
  stdout := []
  stderr? := some (recordLines threshold records ++ report failure causes)

/-- A run whose engine could not be started. -/
def refused (threshold : Threshold) (records : List Record) (failure : String) : StartError → Outcome
  | .init reason => failed threshold records failure (reason.message :: reason.source?.toList)
  | .fault reason =>
    { code? := some 101, stdout := [], stderr? := some (recordLines threshold records ++ [reason.message]) }

/-- A run that has served commands. -/
def served (threshold : Threshold) (records : List Record) (printed : List String)
    (answer : Except Fault LoopState) : Outcome :=
  let lines := recordLines threshold records
  match answer with
  | .ok l => { code? := if l.latched then some 0 else none, stdout := printed, stderr? := some lines }
  | .error reason => { code? := some 101, stdout := printed, stderr? := some (lines ++ [reason.message]) }

/-- A run with a simulated engine, after some records. -/
def runSimulated (threshold : Threshold) (config : Config) (records : List Record) (events : List LoopEvent) :
    Outcome :=
  match Simulation.simulate config with
  | .error reason => refused threshold records "failed to start simulated engine" reason
  | .ok (engine, bench) =>
    let (answer, bench) := (serve engine events).run bench
    served threshold (records ++ bench.journal.records.toList) bench.printed.toList answer

/-- A run on a board, after some records; the board is given back at the end. -/
def runOnBoard (threshold : Threshold) (config : Config) (records : List Record) (events : List LoopEvent)
    (host : Host) : Outcome :=
  match (host.logAll records).bringUp config with
  | .error (reason, host) => refused threshold host.records.toList "failed to initialize DMA PWM" reason
  | .ok (engine, board) =>
    let (answer, board) := (serve engine events).run board
    let host := board.release
    served threshold host.records.toList host.printed.toList answer

/-- A run with understood arguments. -/
def runWith (a : Arguments) (events : List LoopEvent) (host : Host) : Outcome :=
  let config := a.config
  match config.validate with
  | .error reason => failed a.logLevel [] "invalid configuration" [reason.message]
  | .ok _ =>
    let records := config.remarks ++ [installed]
    if a.dryRun then runSimulated a.logLevel config records events
    else runOnBoard a.logLevel config records events host

/-- A run of the daemon. -/
def run (arguments : List String) (environment : List (String × String)) (events : List LoopEvent) (host : Host) :
    Outcome :=
  match Arguments.parse arguments environment with
  | .ok a => runWith a events host
  | .error (.helpWanted inFull) => { code? := some 0, stdout := helpLines inFull environment, stderr? := some [] }
  | .error .versionWanted => { code? := some 0, stdout := [versionLine], stderr? := some [] }
  | .error _ => { code? := some 2, stdout := [], stderr? := none }

end PulseWidth.Daemon
