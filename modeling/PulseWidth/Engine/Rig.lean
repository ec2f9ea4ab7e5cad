import PulseWidth.Engine.Basic

/-!
# Engines at work

A request asks an engine for something.  The engine answers with a program, which it runs on its machine, or refuses,
and then neither the engine nor the machine changes.
-/

namespace PulseWidth

/-- A request to an engine. -/
inductive Request where
  | set (pin : Pin) (duty : UInt32)
  | setFraction (pin : Pin) (fraction : Float)
  | setMany (pins : List Pin) (duty : UInt32)
  | release (pin : Pin)
  | stop
  | start
deriving Repr

/-- The program that carries a request out, or the reason why it is refused. -/
def Engine.respond (e : Engine) : Request → Except ChannelError (Program Engine)
  | .set pin duty => e.setChannel pin duty
  | .setFraction pin fraction => e.setChannelFraction pin fraction
  | .setMany pins duty => e.setChannels pins duty
  | .release pin => e.releaseChannel pin
  | .stop => .ok e.stop
  | .start => .ok e.start

/-- An engine and the machine that it runs on. -/
structure Rig (σ : Type) where
  engine : Engine
  machine : σ

namespace Rig

variable {σ : Type} [Machine σ]

/-- Why a request was not carried out to its end. -/
inductive Failure where
  | refused (reason : ChannelError)
  | fault (reason : Fault)
deriving Repr

/-- Runs a program; a fault leaves the engine as it was. -/
def run : Rig σ → Program Engine → Except Fault Unit × Rig σ
  | ⟨engine, machine⟩, program =>
    match program.run machine with
    | (.ok engine, machine) => (.ok (), ⟨engine, machine⟩)
    | (.error reason, machine) => (.error reason, ⟨engine, machine⟩)

/-- Carries a request out. -/
def handle (r : Rig σ) (request : Request) : Except Failure Unit × Rig σ :=
  match r.engine.respond request with
  | .error reason => (.error (.refused reason), r)
  | .ok program =>
    match r.run program with
    | (.ok (), r) => (.ok (), r)
    | (.error reason, r) => (.error (.fault reason), r)

/-- The sample words as they stand. -/
def samples (r : Rig σ) : Except Fault (List UInt32) := r.engine.samples (Machine.arena r.machine)

/-- A control block as it stands. -/
def block (r : Rig σ) (index : UInt64) : Except Fault ControlBlock :=
  r.engine.chain.read (Machine.arena r.machine) index

/-- The status word of the DMA channel. -/
def status (r : Rig σ) : Except Fault UInt32 × Rig σ :=
  let (answer, machine) := Sequencer.dmaStatus.run r.machine
  (answer, { r with machine })

/-- Shuts the engine down; it counts as shut down even if a fault has cut that short. -/
def close (r : Rig σ) : Rig σ :=
  let (_, machine) := r.engine.exit.run r.machine
  ⟨{ r.engine with state := .exited }, machine⟩

/-- Whether the engine has been shut down. -/
def isClosed (r : Rig σ) : Bool := r.engine.state = .exited

/-- Carries some requests out, one after the other, whatever becomes of each. -/
def handleAll (r : Rig σ) (requests : List Request) : Rig σ := requests.foldl (fun r q => (r.handle q).2) r

theorem handle_of_refused {r : Rig σ} {request : Request} {reason : ChannelError}
    (h : r.engine.respond request = .error reason) : r.handle request = (.error (.refused reason), r) := by
  simp only [handle, h]

end Rig

end PulseWidth
