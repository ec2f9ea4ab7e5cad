import PulseWidth.Daemon.Latch
import PulseWidth.Proofs.Daemon.Serving

/-!
# Signals at any moment

A signal may come while the loop waits, between its look at the latch and the wait, in the middle of a command and even
during the shutdown.  A course takes the loop apart into its steps, down to the single actions of its programs, so that
there may be a signal between any two of them.  As the latch is looked at in one place only, a course does what the loop
does that meets the signal there.
-/

namespace PulseWidth

/-- The first step of a program, on the machine that it runs on. -/
def Program.advance {σ α : Type} [Machine σ] : Program α → σ → Program α × σ
  | done result, machine => (done result, machine)
  | fault reason, machine => (fault reason, machine)
  | load role offset next, machine =>
    match Machine.load role offset machine with
    | (.ok value, machine) => (next value, machine)
    | (.error reason, machine) => (fault reason, machine)
  | act action next, machine =>
    match Machine.perform action machine with
    | (.ok (), machine) => (next (), machine)
    | (.error reason, machine) => (fault reason, machine)

theorem Program.run_advance {σ α : Type} [Machine σ] (p : Program α) (machine : σ) :
    (p.advance machine).1.run (p.advance machine).2 = p.run machine := by
  cases p with
  | done result => rfl
  | fault reason => rfl
  | load role offset next =>
    rw [advance, run]
    obtain ⟨answer, machine'⟩ := Machine.load role offset machine
    cases answer <;> rfl
  | act action next =>
    rw [advance, run]
    obtain ⟨answer, machine'⟩ := Machine.perform action machine
    cases answer <;> rfl

namespace Daemon

/-! ### Courses -/

/-- What the loop is about to do. -/
inductive Phase where
  /-- To look at the latch. -/
  | looking (l : LoopState)
  | waiting (l : LoopState)
  | working (rest : Program LoopState)
  | leaving (rest : Program LoopState)

/-- What happens next: the loop takes a step, or its wait is answered, or there is a signal. -/
inductive Moment where
  | step
  | line (text : String)
  | timeout
  | disconnected
  | signal (s : TerminationSignal)

def Moment.isSignal : Moment → Bool
  | signal _ => true
  | step | line _ | timeout | disconnected => false

/-- The loop on its way. -/
structure Course (σ : Type) where
  phase : Phase
  latch : Latch
  machine : σ
  /-- How the waits were answered so far. -/
  met : List LoopEvent

namespace Course

variable {σ : Type} [Machine σ]

/-- The loop takes a step, unless it waits.  A command to leave sets the latch. -/
def step (x : Course σ) : Course σ :=
  match x.phase with
  | .looking l =>
    if x.latch.isSet then { x with phase := .leaving (LoopState.finish { l with latched := true }) }
    else { x with phase := .waiting l }
  | .waiting _ => x
  | .working (.done l) => { x with phase := .looking l, latch := if l.latched then x.latch.set else x.latch }
  | .working p => { x with phase := .working (p.advance x.machine).1, machine := (p.advance x.machine).2 }
  | .leaving p => { x with phase := .leaving (p.advance x.machine).1, machine := (p.advance x.machine).2 }

/-- The wait is answered, if the loop waits. -/
def answer (x : Course σ) (event : LoopEvent) : Course σ :=
  match x.phase with
  | .waiting l => { x with phase := .working (l.step event), met := x.met ++ [event] }
  | _ => x

def move (x : Course σ) : Moment → Course σ
  | .step => x.step
  | .line text => x.answer (.line text)
  | .timeout => x.answer .timeout
  | .disconnected => x.answer .disconnected
  | .signal s => { x with latch := x.latch.raised s }

def run (x : Course σ) (moments : List Moment) : Course σ := moments.foldl move x

/-- The summary is printed first. -/
def start (e : Engine) (machine : σ) : Course σ where
  phase := .working do
    Engine.printAll e.summary.lines
    return LoopState.start e
  latch := .fresh
  machine := machine
  met := []

end Course

/-! ### What a course does -/

/-- What the loop does of some events, unless it comes to its end. -/
def begun (e : Engine) (events : List LoopEvent) : Program LoopState := do
  Engine.printAll e.summary.lines
  (LoopState.start e).steps events

theorem serve_eq (e : Engine) (events : List LoopEvent) : serve e events = begun e events >>= LoopState.finish := by
  rw [serve, begun, bind_assoc]

theorem LoopState.steps_append (l : LoopState) (first second : List LoopEvent) :
    l.steps (first ++ second) = l.steps first >>= fun l => l.steps second := by
  induction first generalizing l with
  | nil => rfl
  | cons event rest ih =>
    rw [List.cons_append, steps, steps, bind_assoc]
    exact congrArg _ (funext ih)

theorem begun_snoc (e : Engine) (events : List LoopEvent) (event : LoopEvent) :
    begun e (events ++ [event]) = begun e events >>= fun l => l.step event := by
  have hstep : ∀ l : LoopState, l.steps [event] = l.step event := fun l => bind_pure (l.step event)
  rw [begun, begun, bind_assoc]
  refine congrArg _ (funext fun _ => ?_)
  rw [LoopState.steps_append]
  exact congrArg _ (funext hstep)

namespace Course

variable {σ : Type} [Machine σ] {e : Engine} {machine : σ} {signalled : Bool} {x : Course σ}

/-- A course is where the loop is after what it has met; a signal has been noticed when it leaves. -/
def Follows (e : Engine) (machine : σ) (signalled : Bool) (x : Course σ) : Prop :=
  match x.phase with
  | .looking l => (begun e x.met).run machine = (.ok l, x.machine) ∧ x.latch.isSet = (l.latched || signalled)
  | .waiting l =>
    (begun e x.met).run machine = (.ok l, x.machine) ∧ l.latched = false ∧ x.latch.isSet = signalled
  | .working p => (begun e x.met).run machine = p.run x.machine ∧ x.latch.isSet = signalled
  | .leaving p => (serve e (x.met ++ [.signal])).run machine = p.run x.machine ∧
    (signalled = false → (serve e x.met).run machine = p.run x.machine)

theorem follows_start (e : Engine) (machine : σ) : (start e machine).Follows e machine false := ⟨rfl, rfl⟩

/-- A loop that finds the latch set leaves as if it had met the signal now, or the command to leave before. -/
private theorem leaves_of_set {l : LoopState} {met : List LoopEvent} {machine' : σ}
    (h : (begun e met).run machine = (.ok l, machine')) :
    (serve e (met ++ [.signal])).run machine = (LoopState.finish { l with latched := true }).run machine' ∧
      (l.latched = true → (serve e met).run machine = (LoopState.finish { l with latched := true }).run machine') := by
  have hsignal : l.step .signal = pure { l with latched := true } := by
    unfold LoopState.step
    split
    · rename_i hlatched
      rw [← hlatched]
    · rfl
  refine ⟨?_, ?_⟩
  · rw [serve_eq, begun_snoc, bind_assoc, Program.run_bind, h]
    dsimp only
    rw [hsignal, pure_bind]
  · intro hlatched
    rw [serve_eq, Program.run_bind, h, ← hlatched]

theorem Follows.step (h : x.Follows e machine signalled) : x.step.Follows e machine signalled := by
  obtain ⟨phase, latch, here, met⟩ := x
  cases phase with
  | looking l =>
    obtain ⟨hrun, hlatch⟩ := h
    obtain ⟨hmet, hleft⟩ := leaves_of_set hrun
    unfold Course.step
    dsimp only at hlatch ⊢
    by_cases hset : latch.isSet = true
    · rw [if_pos hset]
      refine ⟨hmet, fun hsignalled => hleft ?_⟩
      rw [hset, hsignalled, Bool.or_false] at hlatch
      exact hlatch.symm
    · rw [if_neg hset]
      have hnone := Bool.eq_false_iff.2 hset
      rw [hnone] at hlatch
      obtain ⟨hlatched, hsignalled⟩ := Bool.or_eq_false_iff.1 hlatch.symm
      exact ⟨hrun, hlatched, hnone.trans hsignalled.symm⟩
  | waiting l => exact h
  | working p =>
    obtain ⟨hrun, hlatch⟩ := h
    cases p with
    | done l =>
      refine ⟨hrun, ?_⟩
      show (if l.latched then latch.set else latch).isSet = _
      cases l.latched with
      | true => rfl
      | false => exact hlatch
    | _ => exact ⟨hrun.trans (Program.run_advance _ _).symm, hlatch⟩
  | leaving p =>
    obtain ⟨hrun, hquit⟩ := h
    have hadvance := (Program.run_advance p here).symm
    exact ⟨hrun.trans hadvance, fun hsignalled => (hquit hsignalled).trans hadvance⟩

theorem Follows.answer (h : x.Follows e machine signalled) (event : LoopEvent) :
    (x.answer event).Follows e machine signalled := by
  obtain ⟨phase, latch, here, met⟩ := x
  cases phase with
  | waiting l =>
    obtain ⟨hrun, -, hlatch⟩ := h
    refine ⟨?_, hlatch⟩
    show (begun e (met ++ [event])).run machine = _
    rw [begun_snoc, Program.run_bind, hrun]
    rfl
  | _ => exact h

theorem Follows.signal (h : x.Follows e machine signalled) (s : TerminationSignal) :
    (x.move (.signal s)).Follows e machine true := by
  obtain ⟨phase, latch, here, met⟩ := x
  cases phase with
  | looking l => exact ⟨h.1, (Bool.or_true _).symm⟩
  | waiting l => exact ⟨h.1, h.2.1, rfl⟩
  | working p => exact ⟨h.1, rfl⟩
  | leaving p => exact ⟨h.1, fun hfalse => absurd hfalse.symm Bool.false_ne_true⟩

theorem Follows.move (h : x.Follows e machine signalled) (m : Moment) :
    (x.move m).Follows e machine (signalled || m.isSignal) := by
  cases m with
  | signal s =>
    rw [Moment.isSignal, Bool.or_true]
    exact h.signal s
  | step =>
    rw [Moment.isSignal, Bool.or_false]
    exact h.step
  | line | timeout | disconnected =>
    rw [Moment.isSignal, Bool.or_false]
    exact h.answer _

theorem Follows.run (h : x.Follows e machine signalled) (moments : List Moment) :
    (x.run moments).Follows e machine (signalled || moments.any Moment.isSignal) := by
  induction moments generalizing x signalled with
  | nil =>
    rw [List.any_nil, Bool.or_false]
    exact h
  | cons m rest ih =>
    rw [List.any_cons, ← Bool.or_assoc]
    exact ih (h.move m)

/-- The events that make the loop do what a course does: those that it has met, and then a signal if there was any. -/
def events (x : Course σ) (moments : List Moment) : List LoopEvent :=
  x.met ++ if moments.any Moment.isSignal then [.signal] else []

/-- A course that comes to its end does what the loop does. -/
theorem run_serve_of_left {moments : List Moment} {l : LoopState}
    (h : ((start e machine).run moments).phase = .leaving (.done l)) :
    let x := (start e machine).run moments
    (serve e (x.met ++ [.signal])).run machine = (.ok l, x.machine) ∧
      (serve e (x.events moments)).run machine = (.ok l, x.machine) := by
  intro x
  have hfollows := (follows_start e machine).run moments
  unfold Follows at hfollows
  rw [h, Bool.false_or] at hfollows
  obtain ⟨hsignal, hquit⟩ := hfollows
  refine ⟨hsignal, ?_⟩
  unfold events
  cases hany : moments.any Moment.isSignal with
  | true => exact hsignal
  | false =>
    have hnone : x.met ++ (if false = true then [.signal] else []) = x.met := List.append_nil _
    rw [hnone]
    exact hquit hany

end Course

end Daemon

/-! ### Shutting down -/

open Simulation (Bench latest)
open Daemon (LoopState LoopEvent Course serve orders ends)

variable {config : Config} {n : UInt32}

theorem Engine.serves_of_assemble (valid : config.validate = .ok n) {start : Bench}
    (hnamed : start.panel.Named config) (hsize : 4 ≤ start.panel.size .gpio) {e : Engine} {b : Bench}
    (hmade : Simulation.assemble config start = .ok (e, b)) : e.Serves config start.panel.gpio b.panel := by
  have hrun := Simulation.run_of_assemble hmade
  have hnamed' := Program.panel_of_run (hnamed.leads (assemble config start.arena)) hrun
  obtain ⟨hclaimed, hfunctions⟩ := Program.panel_of_run (leads_assemble_claimed valid hsize start.arena) hrun e rfl
  obtain ⟨-, hrunning⟩ := Rig.settled_of_assemble valid hmade
  exact
    { named := hnamed'
      claimed := hfunctions
      claimed_eq := hclaimed
      state_ne := by
        rw [hrunning]
        decide
      reset := fun hne => absurd hrunning hne }

/-- An event that is ignored changes nothing but whether the input is open, and what is logged. -/
theorem Daemon.LoopState.run_step_of_ignores {l : LoopState} {event : LoopEvent} (h : l.Ignores event) (b : Bench) :
    ∃ inputOpen b', (l.step event).run b = (.ok { l with inputOpen }, b') ∧ b'.muted = b.muted := by
  obtain ⟨inputOpen, hstep⟩ := hushed_step_of_ignores h
  have hrun := (l.step event).run_hushed (b := b) rfl
  rw [hstep] at hrun
  obtain ⟨hanswer, hmuted⟩ := hrun
  exact ⟨inputOpen, ((l.step event).run b).2, Prod.ext hanswer.symm rfl, hmuted.symm⟩

/-- The loop is a fold of the commands that it receives, up to the first one to leave, with one shutdown after them;
but for output, the two are one program.  A command is one request to the engine, or a look at the status word
(`Engine.obey`).  What is no command or refused, a timeout and the end of the input change nothing.  For every
configuration that is accepted and all contents of the windows, the loop meets no fault; when it has come to its end the
engine has been shut down, the last store to the status register of the DMA channel was a reset, and the functions of
all pins are as they were found.  It makes no difference when exactly a signal comes: every course that comes to its end
does what the loop does of the events that it has met. -/
theorem shutdown_of_serve (valid : config.validate = .ok n) (contents : List (Role × UInt64 × UInt32)) (arena : Arena)
    (records : Array Record) :
    let start := { Bench.over config contents arena with journal.records := records }
    (∀ events, ∃ inputOpen, ∀ e : Engine, (serve e events).hushed = Program.hushed do
      let e ← (orders events).foldlM Engine.obey e
      let e ← if ends events then e.exit else pure e
      return (⟨e, ends events, inputOpen⟩ : LoopState)) ∧
    (∀ (l : LoopState) event (b : Bench), l.Ignores event →
      ∃ inputOpen b', (l.step event).run b = (.ok { l with inputOpen }, b') ∧ b'.muted = b.muted) ∧
    (arena.Fits ⟨n⟩ → arena.table.Covers ⟨n⟩ → ∃ e b, Simulation.assemble config start = .ok (e, b)) ∧
    ∀ e b, Simulation.assemble config start = .ok (e, b) →
      (∀ events, ∃ l b', (serve e events).run b = (.ok l, b') ∧ l.latched = ends events ∧
        (ends events = true → l.engine.state = .exited ∧
          latest "dma" Dma.status.offset b'.panel.events = some Dma.reset ∧
          ∀ k < 4, b'.peek .gpio (UInt64.ofNat (4 * k)) = start.peek .gpio (UInt64.ofNat (4 * k)))) ∧
      ∀ moments l,
        let x := (Course.start e b).run moments
        x.phase = .leaving (.done l) →
          ends (x.events moments) = true ∧ (serve e (x.events moments)).run b = (.ok l, x.machine) := by
  intro start
  have hnamed : start.panel.Named config := Bench.named_over config contents arena
  have hsize : 4 ≤ start.panel.size .gpio := Bench.four_le_size_over config contents arena
  refine ⟨Daemon.hushed_serve, fun l event b h => LoopState.run_step_of_ignores h b, fun hfits hcovers =>
    Simulation.assemble_eq_ok valid (b := start) hfits hcovers, ?_⟩
  intro e b hmade
  have hserves := Engine.serves_of_assemble valid hnamed hsize hmade
  obtain ⟨⟨s, harena, hs⟩, -⟩ := Rig.settled_of_assemble valid hmade
  have hserve : ∀ events, ∃ l b', (serve e events).run b = (.ok l, b') ∧ l.latched = ends events ∧
      (ends events = true → l.engine.state = .exited) := by
    intro events
    obtain ⟨l, b', -, hrun, -, hlatched, hexited⟩ := Program.run_of_ensures (Daemon.ensures_serve hs events) harena
    exact ⟨l, b', hrun, hlatched, hexited⟩
  refine ⟨?_, ?_⟩
  · intro events
    obtain ⟨l, b', hrun, hlatched, hexited⟩ := hserve events
    refine ⟨l, b', hrun, hlatched, fun hends => ⟨hexited hends, ?_⟩⟩
    obtain ⟨hreset, hsame⟩ := Program.panel_of_run (Daemon.leads_serve hserves hends) hrun
    exact ⟨hreset.latest_eq, Simulation.Window.agreeOff_nil_iff.1 hsame⟩
  · intro moments l x hleft
    obtain ⟨hsignal, hrun⟩ := Course.run_serve_of_left hleft
    obtain ⟨l₁, _, hrun₁, hlatched₁, -⟩ := hserve (x.met ++ [.signal])
    obtain ⟨l₂, _, hrun₂, hlatched₂, -⟩ := hserve (x.events moments)
    rw [hsignal] at hrun₁
    rw [hrun] at hrun₂
    cases hrun₁
    cases hrun₂
    refine ⟨?_, hrun⟩
    rw [← hlatched₂, hlatched₁]
    simp [ends]

/-- What comes after the line to leave is not carried out, and the pin is an input again, as it was found. -/
theorem shutdown_of_small :
    let start := { Bench.over Config.small [(.gpio, 0, 0xC0005678)] Arena.small with journal.records := #[] }
    let events : List LoopEvent := [.line "4=1s", .line "bogus", .timeout, .line " Quit ", .line "stop"]
    Config.small.validate = .ok 3 ∧ Arena.small.Fits ⟨3⟩ ∧ Arena.small.table.Covers ⟨3⟩ ∧ ends events = true ∧
      ∃ e b l b', Simulation.assemble Config.small start = .ok (e, b) ∧ (serve e events).run b = (.ok l, b') ∧
        l.engine.state = .exited ∧ latest "dma" Dma.status.offset b'.panel.events = some Dma.reset ∧
        b'.peek .gpio 0 = 0xC0005678 := by
  intro start events
  have valid : Config.small.validate = .ok 3 := rfl
  have hends : ends events = true := by decide +kernel
  obtain ⟨fits, covers⟩ := Arena.small_accepted
  obtain ⟨-, -, hmake, hall⟩ := shutdown_of_serve valid [(.gpio, 0, 0xC0005678)] Arena.small #[]
  obtain ⟨e, b, hmade⟩ := hmake fits covers
  obtain ⟨l, b', hrun, -, hended⟩ := (hall e b hmade).1 events
  obtain ⟨hexited, hreset, hfound⟩ := hended hends
  have hword := hfound 0 (by decide)
  exact ⟨valid, fits, covers, hends, e, b, l, b', hmade, hrun, hexited, hreset, hword.trans (by decide +kernel)⟩

end PulseWidth
