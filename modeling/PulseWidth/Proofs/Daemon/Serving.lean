import PulseWidth.Daemon.Loop
import PulseWidth.Proofs.Simulation.Output
import PulseWidth.Proofs.Simulation.Settling

/-!
# The loop is a fold

What the command loop does to its engine is what the commands have it do that are received, one after the other and up
to the first one to leave, and a shutdown after them.  A command makes at most one request to the engine (`Engine.obey`),
which has no effect if the engine refuses it.  That is an equation between programs in which nothing is logged or
printed (`hushed`), so that it holds on all machines.
-/

namespace PulseWidth

/-! ### What commands ask for -/

/-- A command to leave. -/
def Command.leaves : Command → Bool
  | quit => true
  | _ => false

/-- The request that a command makes. -/
def Command.request? : Command → Option Request
  | set pin (.fraction value) => some (.setFraction pin value)
  | set pin (.slices count) => some (.set pin count)
  | release pin => some (.release pin)
  | stop => some .stop
  | start => some .start
  | status | quit => none

namespace Engine

variable {e : Engine} {c : Command} {q : Request}

/-- What a command has the engine do.  It makes a request, which has no effect if the engine refuses it; for the status,
the status word of the DMA channel is read. -/
def obey (e : Engine) (c : Command) : Program Engine :=
  match c.request? with
  | some q =>
    match e.respond q with
    | .ok program => program
    | .error _ => return e
  | none =>
    if c.leaves then return e
    else do
      let _ ← Sequencer.dmaStatus
      return e

/-- The command is a request that the engine refuses. -/
def Refuses (e : Engine) (c : Command) : Prop := ∃ q reason, c.request? = some q ∧ e.respond q = .error reason

theorem obey_of_refuses (h : e.Refuses c) : e.obey c = pure e := by
  obtain ⟨q, reason, hrequest, hrefused⟩ := h
  simp only [obey, hrequest, hrefused]

theorem hushed_printAll (lines : List String) : (printAll lines).hushed = pure () := by
  induction lines with
  | nil => rfl
  | cons line rest ih => exact ih

theorem execute_of_request (h : c.request? = some q) : e.execute c = e.attempt (e.respond q) := by
  cases c with
  | set pin level => cases level <;> cases h <;> rfl
  | status | quit => cases h
  | _ =>
    cases h
    rfl

/-- But for what is logged and printed, to execute a command is to obey it. -/
theorem hushed_execute (e : Engine) (c : Command) : (e.execute c).hushed = (e.obey c).hushed := by
  cases hrequest : c.request? with
  | some q =>
    rw [execute_of_request hrequest]
    cases hresponse : e.respond q with
    | error reason =>
      rw [obey_of_refuses ⟨q, reason, hrequest, hresponse⟩]
      rfl
    | ok program =>
      simp only [obey, hrequest, hresponse]
      rfl
  | none =>
    cases c with
    | set pin level => cases level <;> cases hrequest
    | release | stop | start => cases hrequest
    | quit => rfl
    | status =>
      have hhushed : (e.execute .status).hushed =
          Sequencer.dmaStatus >>= fun word => (printAll (e.statusLines word) >>= fun _ => pure e).hushed := rfl
      rw [hhushed]
      refine congrArg _ (funext fun word => ?_)
      rw [Program.hushed_bind, hushed_printAll]
      rfl

end Engine

/-! ### What the loop carries out -/

namespace Daemon

open Text

/-- The lines that are received before the input ends or a signal comes. -/
def received : List LoopEvent → List String
  | .line text :: rest => text :: received rest
  | .timeout :: rest => received rest
  | .disconnected :: _ | .signal :: _ | [] => []

/-- The command of a line, unless the line is blank or no command. -/
def command? (line : String) : Option Command :=
  if (trim line.toList).isEmpty then none else (Command.parse line.toList).toOption

/-- The commands of the lines that are received. -/
def commands (events : List LoopEvent) : List Command := (received events).filterMap command?

/-- The commands up to the first one to leave. -/
def orders (events : List LoopEvent) : List Command := (commands events).takeWhile fun c => !c.leaves

/-- Whether the loop comes to its end. -/
def ends (events : List LoopEvent) : Bool := events.contains .signal || (commands events).any Command.leaves

namespace LoopState

variable {l : LoopState} {text : String}

theorem steps_of_latched (h : l.latched = true) (events : List LoopEvent) : l.steps events = pure l := by
  induction events with
  | nil => rfl
  | cons event rest ih =>
    have hstep : l.step event = pure l := if_pos h
    rw [steps, hstep]
    exact ih

/-- When the input has ended, the loop waits for a signal. -/
theorem hushed_steps_of_closed (hlatched : l.latched = false) (hclosed : l.inputOpen = false)
    (events : List LoopEvent) :
    (l.steps events).hushed = pure { l with latched := events.contains .signal } := by
  obtain ⟨e, latched, inputOpen⟩ := l
  cases hlatched
  cases hclosed
  induction events with
  | nil => rfl
  | cons event rest ih =>
    cases event with
    | signal =>
      show (steps ⟨e, true, false⟩ rest).hushed = _
      rw [steps_of_latched rfl]
      rfl
    | _ => exact ih

/-- A line that is blank or no command. -/
theorem hushed_receive_of_none (h : command? text = none) : (l.receive text).hushed = pure l := by
  unfold command? at h
  unfold receive
  split
  · rfl
  · rename_i hblank
    rw [if_neg hblank] at h
    cases hparse : Command.parse text.toList with
    | error reason => rfl
    | ok command =>
      rw [hparse] at h
      cases h

theorem receive_of_command {c : Command} (h : command? text = some c) :
    l.receive text = if c.leaves then pure { l with latched := true } else do
      let engine ← l.engine.execute c
      return { l with engine } := by
  unfold command? at h
  unfold receive
  split
  · rename_i hblank
    rw [if_pos hblank] at h
    cases h
  · rename_i hblank
    rw [if_neg hblank] at h
    cases hparse : Command.parse text.toList with
    | error reason =>
      rw [hparse] at h
      cases h
    | ok command =>
      rw [hparse] at h
      cases h
      cases c <;> rfl

/-- But for what is logged and printed, the loop has the engine obey its orders, and has ended or not. -/
theorem hushed_steps (events : List LoopEvent) : ∃ inputOpen, ∀ e : Engine,
    ((LoopState.start e).steps events).hushed = Program.hushed do
      let e ← (orders events).foldlM Engine.obey e
      return ⟨e, ends events, inputOpen⟩ := by
  induction events with
  | nil => exact ⟨true, fun _ => rfl⟩
  | cons event rest ih =>
    obtain ⟨inputOpen, ih⟩ := ih
    cases event with
    | timeout => exact ⟨inputOpen, ih⟩
    | disconnected =>
      have hends : ends (.disconnected :: rest) = rest.contains .signal := Bool.or_false _
      refine ⟨false, fun e => ?_⟩
      rw [hends]
      exact hushed_steps_of_closed (l := ⟨e, false, false⟩) rfl rfl rest
    | signal =>
      refine ⟨true, fun e => ?_⟩
      show (steps ⟨e, true, true⟩ rest).hushed = _
      rw [steps_of_latched rfl]
      rfl
    | line text =>
      have hsteps : ∀ e : Engine, ((LoopState.start e).steps (.line text :: rest)).hushed =
          ((LoopState.start e).receive text).hushed >>= fun l => (l.steps rest).hushed :=
        fun _ => Program.hushed_bind _ _
      cases hcommand : command? text with
      | none =>
        have hsame : commands (.line text :: rest) = commands rest := List.filterMap_cons_none hcommand
        refine ⟨inputOpen, fun e => ?_⟩
        rw [hsteps, hushed_receive_of_none hcommand, orders, ends, hsame]
        exact ih e
      | some c =>
        have hcons : commands (.line text :: rest) = c :: commands rest := List.filterMap_cons_some hcommand
        cases hleaves : c.leaves with
        | true =>
          have horders : orders (.line text :: rest) = [] := by
            rw [orders, hcons, List.takeWhile_cons_of_neg (by rw [hleaves]; decide)]
          have hends : ends (.line text :: rest) = true := by
            rw [ends, hcons, List.any_cons, hleaves, Bool.true_or, Bool.or_true]
          refine ⟨true, fun e => ?_⟩
          rw [hsteps, receive_of_command hcommand, if_pos hleaves, horders, hends]
          show (steps ⟨e, true, true⟩ rest).hushed = _
          rw [steps_of_latched rfl]
          rfl
        | false =>
          have horders : orders (.line text :: rest) = c :: orders rest := by
            rw [orders, hcons, List.takeWhile_cons_of_pos (by rw [hleaves]; rfl), orders]
          have hends : ends (.line text :: rest) = ends rest := by
            rw [ends, ends, hcons, List.any_cons, hleaves, Bool.false_or]
            rfl
          refine ⟨inputOpen, fun e => ?_⟩
          rw [hsteps, receive_of_command hcommand, hleaves, horders, hends, if_neg Bool.false_ne_true,
            List.foldlM_cons, bind_assoc, Program.hushed_bind, Engine.hushed_execute, Program.hushed_bind, bind_assoc]
          exact congrArg _ (funext ih)

end LoopState

/-- But for what is logged and printed, to serve is to have the engine obey the orders and then, if that was asked for,
to shut it down. -/
theorem hushed_serve (events : List LoopEvent) : ∃ inputOpen, ∀ e : Engine, (serve e events).hushed = Program.hushed do
    let e ← (orders events).foldlM Engine.obey e
    let e ← if ends events then e.exit else pure e
    return (⟨e, ends events, inputOpen⟩ : LoopState) := by
  obtain ⟨inputOpen, hsteps⟩ := LoopState.hushed_steps events
  refine ⟨inputOpen, fun e => ?_⟩
  rw [serve, Program.hushed_bind, Engine.hushed_printAll, pure_bind, Program.hushed_bind, hsteps]
  rw [Program.hushed_bind, Program.hushed_bind, bind_assoc]
  refine congrArg _ (funext fun e' => ?_)
  rw [Program.hushed_pure, pure_bind, LoopState.finish]
  cases ends events <;> rfl

end Daemon

/-! ### What is ignored -/

namespace Daemon

/-- Nothing comes of the event: it is a timeout, the end of the input, or a line that is blank, no command or
refused. -/
def LoopState.Ignores (l : LoopState) : LoopEvent → Prop
  | .timeout | .disconnected => True
  | .line text => ∀ c, command? text = some c → l.engine.Refuses c
  | .signal => False

theorem LoopState.hushed_step_of_ignores {l : LoopState} {event : LoopEvent} (h : l.Ignores event) :
    ∃ inputOpen, (l.step event).hushed = pure { l with inputOpen } := by
  unfold step
  split
  · exact ⟨l.inputOpen, rfl⟩
  cases event with
  | timeout => exact ⟨l.inputOpen, rfl⟩
  | disconnected =>
    refine ⟨false, ?_⟩
    cases l.inputOpen <;> rfl
  | signal => exact h.elim
  | line text =>
    refine ⟨l.inputOpen, ?_⟩
    show (if l.inputOpen = true then l.receive text else pure l).hushed = _
    split
    · cases hcommand : command? text with
      | none => exact hushed_receive_of_none hcommand
      | some c =>
        have hleaves : c.leaves = false := by
          obtain ⟨q, reason, hrequest, -⟩ := h c hcommand
          cases c with
          | quit => cases hrequest
          | _ => rfl
        rw [receive_of_command hcommand, hleaves, if_neg Bool.false_ne_true, Program.hushed_bind,
          Engine.hushed_execute, Engine.obey_of_refuses (h c hcommand)]
        rfl
    · rfl

end Daemon

/-! ### What commands lead to -/

section Serves

open Simulation (Bench Panel Window latest)
open Program (Leads Ensures leads_bind_iff leads_store_iff leads_log_iff leads_pure_iff leads_regenerate_iff)

variable {config : Config} {n : UInt32} {found : Window} {g : Panel} {e : Engine}

namespace Simulation.Panel

/-- The last store to the DMA channel's status register was a reset. -/
structure Reset (config : Config) (g : Panel) : Prop where
  named : g.Named config
  latest_eq : latest "dma" Dma.status.offset g.events = some Dma.reset

theorem Named.latest_store (h : g.Named config) {role : Role} (hrole : role ≠ .dma) (place offset : UInt64)
    (value : UInt32) :
    latest "dma" place (g.store role offset value).events = latest "dma" place g.events := by
  have hblock : g.block role ≠ "dma" := by
    rw [h.block_eq]
    cases role with
    | dma => exact absurd rfl hrole
    | pacer => exact config.pacer.name_block_ne.1
    | clock | gpio => simp [Config.blockName]
  show latest _ _ (g.events ++ [.store (g.block role) offset value]) = _
  rw [latest_snoc_store, if_neg fun heq => hblock heq.1]

theorem Reset.store (h : g.Reset config) {role : Role} (hrole : role ≠ .dma) (offset : UInt64) (value : UInt32) :
    (g.store role offset value).Reset config :=
  ⟨h.named.store _ _ _, (h.named.latest_store hrole _ _ _).trans h.latest_eq⟩

theorem Reset.load (h : g.Reset config) (role : Role) (offset : UInt64) : (g.load role offset).Reset config :=
  ⟨h.named.note _, (latest_snoc_load _ _).trans h.latest_eq⟩

theorem Reset.delay (h : g.Reset config) (micros : UInt64) : (g.note (.delay micros)).Reset config :=
  ⟨h.named.note _, (latest_snoc_delay _).trans h.latest_eq⟩

theorem Reset.turnAll (h : g.Reset config) (functions : List (Pin × PinFunction)) :
    (g.turnAll functions).Reset config := by
  induction functions generalizing g with
  | nil => exact h
  | cons a rest ih => exact ih ((h.load _ _).store (by decide) _ _)

theorem Named.reset (h : g.Named config) : (g.store .dma Dma.status.offset Dma.reset).Reset config := by
  refine ⟨h.store _ _ _, ?_⟩
  show latest _ _ (g.events ++ [.store (g.block .dma) _ _]) = _
  rw [latest_snoc_store, if_pos ⟨h.dma, rfl⟩]

end Simulation.Panel

namespace Engine

/-- An engine that has not been shut down, which knows how its pins were found; unless it runs, the channel has been
reset. -/
structure Serves (config : Config) (found : Window) (e : Engine) (g : Panel) : Prop where
  named : g.Named config
  claimed : g.Claimed config.pins found
  claimed_eq : e.sequencer.claimed = config.pins.map fun p => (p, found.functionOf p)
  state_ne : e.state ≠ .exited
  reset : e.state ≠ .running → g.Reset config

theorem Serves.reset_halted (h : e.Serves config found g) : (e.halted g).Reset config := by
  unfold halted
  by_cases hrunning : e.state = .running
  · rw [if_pos hrunning]
    exact ((h.named.note _).reset.delay _).store (by decide) _ _
  · rw [if_neg hrunning]
    exact h.reset hrunning

theorem Serves.reset_shut (h : e.Serves config found g) : (e.shut g).Reset config := by
  have hquiesced : (e.sequencer.quiesced (e.halted g)).Reset config := by
    rw [Sequencer.quiesced_eq]
    exact (h.reset_halted.store (by decide) _ _).delay _
  unfold shut Sequencer.released
  split
  · exact hquiesced
  · exact (hquiesced.store (by decide) _ _).turnAll _

theorem leads_stop_serves (h : e.Serves config found g) : e.stop.Leads (Serves config found) g := by
  rw [← bind_pure e.stop, leads_stop_iff, leads_pure_iff]
  have hreset := h.reset_halted
  by_cases hrunning : e.state = .running
  · rw [if_pos hrunning]
    exact ⟨hreset.named, claimed_halted h.claimed, h.claimed_eq, by simp, fun _ => hreset⟩
  · rw [if_neg hrunning]
    exact ⟨hreset.named, claimed_halted h.claimed, h.claimed_eq, h.state_ne, fun _ => hreset⟩

theorem leads_start_serves (h : e.Serves config found g) : e.start.Leads (Serves config found) g := by
  by_cases hstopped : e.state = .stopped
  · have hnamed := h.named.leads (e.sequencer.start e.chain.head e.config.sampleMicros)
    have hclaimed := h.claimed.leads (e.sequencer.spares_start e.chain.head e.config.sampleMicros)
    apply leads_start hstopped
    refine (hnamed.and hclaimed).mono ?_
    rintro _ g' ⟨hnamed', hclaimed'⟩
    exact ⟨hnamed', hclaimed', h.claimed_eq, by simp, fun hne => absurd rfl hne⟩
  · rw [start, if_pos hstopped]
    exact h

theorem leads_respond_serves {q : Request} {p : Program Engine} (hp : e.respond q = .ok p)
    (h : e.Serves config found g) : p.Leads (Serves config found) g := by
  cases responds_of_respond hp with
  | drive message =>
    rw [leads_commit_iff]
    exact ⟨h.named, h.claimed, h.claimed_eq, h.state_ne, h.reset⟩
  | release =>
    rw [leads_regenerate_iff, Sequencer.driveInactive, leads_store_iff, leads_log_iff, leads_pure_iff]
    exact ⟨h.named.store _ _ _, h.claimed.perform (.store .gpio _ _) ⟨_, rfl⟩, h.claimed_eq, h.state_ne,
      fun hstate => (h.reset hstate).store (by decide) _ _⟩
  | stop => exact leads_stop_serves h
  | start => exact leads_start_serves h

/-- So does every command. -/
theorem leads_obey_serves (h : e.Serves config found g) (c : Command) :
    (e.obey c).Leads (Serves config found) g := by
  unfold obey
  split
  · split
    · rename_i hresponse
      exact leads_respond_serves hresponse h
    · exact h
  · split
    · exact h
    · exact ⟨h.named.note _, ⟨h.claimed.size_le, h.claimed.output, h.claimed.agree⟩, h.claimed_eq, h.state_ne,
        fun hstate => (h.reset hstate).load _ _⟩

theorem leads_foldlM_serves (h : e.Serves config found g) (commands : List Command) :
    (commands.foldlM obey e).Leads (Serves config found) g := by
  induction commands generalizing e g with
  | nil => exact h
  | cons c rest ih =>
    rw [List.foldlM_cons, leads_bind_iff]
    exact (leads_obey_serves h c).mono fun e' g' h' => ih h'

variable {s : Plant} {levels : UInt32}

/-- No command meets a fault. -/
theorem Settled.ensures_obey (h : e.Settled config n levels s) (c : Command) :
    (e.obey c).Ensures (.of config n) (Settled config n levels) s := by
  unfold obey
  split
  · split
    · rename_i hresponse
      obtain ⟨t, -, hensures⟩ := h.ensures_respond hresponse
      exact hensures.mono fun e' s' h' => h'.2.1
    · exact fun slots => h.replay slots
  · split
    · exact fun slots => h.replay slots
    · exact fun answer slots => h.replay slots

theorem Settled.ensures_foldlM (h : e.Settled config n levels s) (commands : List Command) :
    (commands.foldlM obey e).Ensures (.of config n) (Settled config n levels) s := by
  induction commands generalizing e s with
  | nil => exact fun slots => h.replay slots
  | cons c rest ih =>
    rw [List.foldlM_cons]
    exact Ensures.bind ((h.ensures_obey c).mono fun e' s' h' => ih h')

end Engine

namespace Daemon

/-- No course of events leads to a fault; in the end the engine has been shut down. -/
theorem ensures_serve {s : Plant} {levels : UInt32} (h : e.Settled config n levels s) (events : List LoopEvent) :
    (serve e events).Ensures (.of config n)
      (fun l _ => l.latched = ends events ∧ (ends events = true → l.engine.state = .exited)) s := by
  obtain ⟨inputOpen, hserve⟩ := hushed_serve events
  rw [← Program.ensures_hushed_iff]
  rw [hserve, Program.ensures_hushed_iff]
  refine Ensures.bind ((h.ensures_foldlM (orders events)).mono fun e' s' h' => ?_)
  cases hends : ends events with
  | true =>
    refine Ensures.bind (h'.ensures_exit.mono fun e'' s'' h'' slots => ?_)
    exact ⟨rfl, fun _ => h''.1⟩
  | false => exact fun slots => ⟨rfl, fun hfalse => absurd hfalse Bool.false_ne_true⟩

/-- When the loop has ended, the channel has been reset for the last time and the pins have been handed back. -/
theorem leads_serve (h : e.Serves config found g) {events : List LoopEvent} (hends : ends events = true) :
    (serve e events).Leads (fun _ g' => g'.Reset config ∧ Window.AgreeOff [] found g'.gpio) g := by
  obtain ⟨inputOpen, hserve⟩ := hushed_serve events
  rw [← Program.leads_hushed_iff, hserve, Program.leads_hushed_iff, leads_bind_iff]
  refine (Engine.leads_foldlM_serves h (orders events)).mono fun e' g' h' => ?_
  rw [hends, if_pos rfl, leads_bind_iff]
  exact Engine.leads_exit h'.state_ne ⟨h'.reset_shut, Engine.agreeOff_shut h'.claimed h'.claimed_eq⟩

end Daemon

end Serves

end PulseWidth
