import PulseWidth.Daemon.Run

/-!
# The command line

Runs the daemon.  A dry run serves the lines of the standard input on a simulated engine as they arrive; when the
input is closed it waits for a signal, which ends the process.  Without a board there is no device memory to open, so
any other run ends with the refusal of the host.
-/

namespace PulseWidth.Main

open Daemon

/-- A host without a board: it refuses to open device memory. -/
def boardless : Host :=
  .fresh .zeros (.ofRecords 0 #[] 0) ⟨0⟩ none ({ openDevice := some .noEntry } : Refusals).answer

/-- The variables of the environment that stand in for options or decide on colour. -/
def environment : IO (List (String × String)) := do
  let mut found := []
  for name in OptionName.all.map OptionName.environmentName ++ colourVariables do
    if let some value ← IO.getEnv name then
      found := (name, value) :: found
  return found

/-- Prints what has been printed and logged on a bench and takes it off the bench. -/
def flush (threshold : Threshold) (bench : Simulation.Bench) : IO Simulation.Bench := do
  for line in recordLines threshold bench.journal.records.toList do
    IO.eprintln line
  for line in bench.printed do
    IO.println line
  (← IO.getStdout).flush
  return { bench with journal := .empty, printed := #[] }

/-- Runs a program on a bench and shows what it printed and logged. -/
def perform (threshold : Threshold) (program : Program LoopState) (bench : Simulation.Bench) :
    IO (Option LoopState × Simulation.Bench) := do
  let (answer, bench) := program.run bench
  let bench ← flush threshold bench
  match answer with
  | .ok l => return (some l, bench)
  | .error reason =>
    IO.eprintln reason.message
    return (none, bench)

/-- Reads the rest of a line, up to its line feed or the end of the input. -/
partial def readLine (input : IO.FS.Stream) (line : ByteArray) : IO ByteArray := do
  match (← input.read 1)[0]? with
  | none => return line
  | some byte => if byte = 10 then return line.push byte else readLine input (line.push byte)

/-- Waits for what the loop meets next: a line, the end of the input, which a line that is no text brings about too,
or once the input is closed a timeout. -/
def nextEvent (inputOpen : Bool) : IO LoopEvent := do
  if inputOpen then
    let bytes ← readLine (← IO.getStdin) .empty
    if bytes.isEmpty then return .disconnected
    match InputLine.ofBytes bytes.toList with
    | .text line => return .line line
    | .garbled => return .disconnected
  else
    IO.sleep 100
    return .timeout

/-- Serves the lines of the standard input. -/
partial def serveLines (threshold : Threshold) (l : LoopState) (bench : Simulation.Bench) : IO UInt32 := do
  if l.latched then
    let _ ← perform threshold l.finish bench
    return 0
  match ← perform threshold (l.step (← nextEvent l.inputOpen)) bench with
  | (some l, bench) => serveLines threshold l bench
  | (none, _) => return 101

/-- Shows what a run leaves. -/
def showOutcome (o : Outcome) : IO UInt32 := do
  o.stdout.forM IO.println
  (o.stderr?.getD []).forM IO.eprintln
  return UInt32.ofNat (o.code?.getD 0)

/-- Runs the daemon with understood arguments. -/
def runWith (a : Arguments) : IO UInt32 := do
  let config := a.config
  match a.dryRun, config.validate, Simulation.simulate config with
  | true, .ok _, .ok (engine, bench) =>
    let records := config.remarks ++ [installed]
    let bench := { bench with journal.records := records.toArray ++ bench.journal.records }
    let program : Program LoopState := do
      Engine.printAll engine.summary.lines
      return .start engine
    match ← perform a.logLevel program bench with
    | (some l, bench) => serveLines a.logLevel l bench
    | (none, _) => return 101
  | _, _, _ => showOutcome (Daemon.runWith a [.signal] boardless)

end PulseWidth.Main

/-- Runs the daemon. -/
def main (arguments : List String) : IO UInt32 := do
  let environment ← PulseWidth.Main.environment
  match PulseWidth.Arguments.parse arguments environment with
  | .ok a => PulseWidth.Main.runWith a
  | .error reason =>
    let outcome := PulseWidth.Daemon.run arguments environment [] PulseWidth.Main.boardless
    if outcome.stderr?.isNone then
      IO.eprintln reason.message
    PulseWidth.Main.showOutcome outcome
