import PulseWidth.Proofs.Engine.History
import PulseWidth.Proofs.Replay.Stopping
import PulseWidth.Proofs.Simulation.Performed

/-!
# Stores settle

A store to the DMA channel, the clock or the pacer is followed at once by the pause after which it has taken effect.
`Paced` reads a list of events in this way and says which pauses are left over: for an engine these are its waits for a
cycle, one for each time that it is stopped while it runs.  The journal shows nothing of the arena, so that `performed`
lists what a run has done, arena and all; a wait for a cycle lies between the last write and the reset of the channel.
-/

namespace PulseWidth

open Simulation (Bench Panel Event simulate)
open Program (Leads leads_bind_iff leads_store_iff leads_log_iff leads_pure_iff leads_regenerate_iff only_bind only_each
  only_perform only_pure)

/-! ### Pauses among events -/

namespace Simulation

/-- The pause after which a store to a block has taken effect, for the blocks that need one. -/
def settleTime? (block : String) : Option UInt64 :=
  if block = "dma" ∨ block = "pwm" then some 10
  else if block = "clk" ∨ block = "pcm" then some 100
  else none

/-- Every store that has to settle is followed at once by its pause, and the other pauses are those given. -/
inductive Paced : List UInt64 → List Event → Prop
  | nil : Paced [] []
  | load {waits : List UInt64} {events : List Event} (block : String) (offset : UInt64) (value : UInt32) :
    Paced waits events → Paced waits (.load block offset value :: events)
  | free {waits : List UInt64} {events : List Event} {block : String} (offset : UInt64) (value : UInt32) :
    settleTime? block = none → Paced waits events → Paced waits (.store block offset value :: events)
  | settled {waits : List UInt64} {events : List Event} {block : String} {micros : UInt64} (offset : UInt64)
      (value : UInt32) :
    settleTime? block = some micros → Paced waits events →
      Paced waits (.store block offset value :: .delay micros :: events)
  | wait {waits : List UInt64} {events : List Event} (micros : UInt64) :
    Paced waits events → Paced (micros :: waits) (.delay micros :: events)

end Simulation

open Simulation (settleTime? Paced)

variable {g : Panel} {config : Config} {n found : UInt32} {waits more : List UInt64}
  {events later : List Event} {offset : UInt64} {value : UInt32}

namespace Simulation

variable {block : String} {micros : UInt64}

theorem Paced.append (h : Paced waits events) (h' : Paced more later) : Paced (waits ++ more) (events ++ later) := by
  induction h with
  | nil => exact h'
  | load block offset value _ ih => exact .load block offset value ih
  | free offset value hfree _ ih => exact .free offset value hfree ih
  | settled offset value hsettle _ ih => exact .settled offset value hsettle ih
  | wait micros _ ih => exact .wait micros ih

theorem Paced.head?_eq (h : Paced waits events) {before after : List Event}
    (heq : events = before ++ .store block offset value :: after) (hsettle : settleTime? block = some micros) :
    after.head? = some (.delay micros) := by
  induction h generalizing before with
  | nil => cases before <;> cases heq
  | load _ _ _ _ ih =>
    cases before with
    | nil => cases heq
    | cons first before =>
      cases heq
      exact ih rfl
  | free _ _ hfree _ ih =>
    cases before with
    | nil =>
      cases heq
      rw [hfree] at hsettle
      cases hsettle
    | cons first before =>
      cases heq
      exact ih rfl
  | settled _ _ hsettle' _ ih =>
    -- the store comes first, or else it lies behind the pause of the first
    rcases before with - | ⟨first, - | ⟨second, before⟩⟩
    · cases heq
      rw [hsettle'] at hsettle
      cases hsettle
      rfl
    · cases heq
    · cases heq
      exact ih rfl
  | wait _ _ ih =>
    cases before with
    | nil => cases heq
    | cons first before =>
      cases heq
      exact ih rfl

/-- The GPIO block takes effect at once. -/
theorem paced_of_gpio (h : ∀ x ∈ events, x.block? = some "gpio") : Paced [] events := by
  induction events with
  | nil => exact .nil
  | cons first rest ih =>
    obtain ⟨hfirst, hrest⟩ := List.forall_mem_cons.1 h
    cases first with
    | load block offset value => exact .load block offset value (ih hrest)
    | store block offset value =>
      cases hfirst
      exact .free offset value rfl (ih hrest)
    | delay micros => cases hfirst

end Simulation

/-! ### Starts -/

/-- The pause after a store to the block that paces. -/
def Pacer.settle : Pacer → UInt64
  | pwm => shortSettle
  | pcm => longSettle

namespace Config

theorem settleTime?_blockName (config : Config) (role : Role) :
    settleTime? (config.blockName role) = match role with
      | .dma => some shortSettle
      | .clock => some longSettle
      | .pacer => some config.pacer.settle
      | .gpio => none := by
  cases role with
  | pacer =>
    unfold blockName
    cases config.pacer <;> rfl
  | _ => rfl

variable {role : Role} {micros : UInt64}

theorem paced_putting (h : settleTime? (config.blockName role) = some micros) (offset : UInt64) (value : UInt32) :
    Paced [] (config.putting role offset value micros) :=
  .settled offset value h .nil

theorem paced_clocking (config : Config) : Paced [] config.clocking := by
  have hput : ∀ offset value, Paced [] (config.putting .clock offset value longSettle) :=
    paced_putting (config.settleTime?_blockName .clock)
  exact ((hput _ _).append (hput _ _)).append (hput _ _)

theorem paced_arming (config : Config) (head : BusAddress) : Paced [] (config.arming head) := by
  have hput : ∀ offset value, Paced [] (config.putting .dma offset value shortSettle) :=
    paced_putting (config.settleTime?_blockName .dma)
  exact ((((hput _ _).append (hput _ _)).append (hput _ _)).append (hput _ _)).append (hput _ _)

/-- Every store of a start settles. -/
theorem paced_starting (config : Config) (head : BusAddress) : Paced [] (config.starting head) := by
  have hput : ∀ offset value, Paced [] (config.putting .pacer offset value config.pacer.settle) :=
    paced_putting (config.settleTime?_blockName .pacer)
  have hclock := config.paced_clocking
  have harm := config.paced_arming head
  unfold starting
  cases hpacer : config.pacer with
  | pwm =>
    rw [hpacer] at hput
    exact ((((((hput _ _).append hclock).append (hput _ _)).append (hput _ _)).append (hput _ _)).append
      (hput _ _)).append harm
  | pcm =>
    rw [hpacer] at hput
    have hchange : ∀ word value, Paced [] (config.changing word value) := fun _ _ => .load _ _ _ (hput _ _)
    exact ((((((((hput _ _).append hclock).append (hput _ _)).append (hput _ _)).append (hchange _ _)).append
      (hput _ _)).append (hchange _ _)).append harm).append (hchange _ _)

end Config

/-! ### Following the pauses -/

/-- A call that stops a running engine. -/
def Attempt.halts (a : Attempt) : Bool :=
  match a.request with
  | .stop => a.running && a.accepted
  | _ => false

namespace Simulation.Panel

/-- All stores so far have settled, and there were some other pauses. -/
structure Paces (config : Config) (waits : List UInt64) (g : Panel) : Prop where
  named : g.Named config
  paced : Paced waits g.events

theorem Paces.load (h : g.Paces config waits) (role : Role) (offset : UInt64) :
    (g.load role offset).Paces config waits := by
  have hpaced := h.paced.append (.load (g.block role) offset (g.peek role offset) .nil)
  rw [List.append_nil] at hpaced
  exact ⟨h.named.note _, hpaced⟩

theorem Paces.drive (h : g.Paces config waits) (offset : UInt64) (value : UInt32) :
    (g.store .gpio offset value).Paces config waits := by
  have hfree : settleTime? (g.block .gpio) = none := by rw [h.named.gpio]; rfl
  have hpaced := h.paced.append (.free offset value hfree .nil)
  rw [List.append_nil] at hpaced
  exact ⟨h.named.store _ _ _, hpaced⟩

theorem Paces.settled {role : Role} {micros : UInt64} (h : g.Paces config waits)
    (hsettle : settleTime? (config.blockName role) = some micros) (offset : UInt64) (value : UInt32) :
    ((g.store role offset value).note (.delay micros)).Paces config waits := by
  rw [← h.named.block_eq] at hsettle
  have hpaced := h.paced.append (.settled offset value hsettle .nil)
  rw [List.append_nil] at hpaced
  refine ⟨(h.named.store _ _ _).note _, ?_⟩
  show Paced waits (g.events ++ [_] ++ [_])
  rw [List.append_assoc]
  exact hpaced

theorem Paces.wait (h : g.Paces config waits) (micros : UInt64) :
    (g.note (.delay micros)).Paces config (waits ++ [micros]) :=
  ⟨h.named.note _, h.paced.append (.wait micros .nil)⟩

theorem Paces.turnAll (h : g.Paces config waits) (functions : List (Pin × PinFunction)) :
    (g.turnAll functions).Paces config waits := by
  induction functions generalizing g with
  | nil => exact h
  | cons a rest ih => exact ih ((h.load _ _).drive _ _)

end Simulation.Panel

theorem Sequencer.quiesced_eq (s : Sequencer) (g : Panel) :
    s.quiesced g = (g.store .pacer s.pacer.control.offset 0).note (.delay s.pacer.settle) := by
  unfold quiesced
  cases s.pacer <;> rfl

namespace Engine

variable {e : Engine}

/-- An engine that is stopped while it runs waits for a cycle. -/
theorem paces_halted (hconfig : e.config = config) (h : g.Paces config waits) :
    (e.halted g).Paces config
      (waits ++ List.replicate (if e.state = .running then 1 else 0) config.cycleMicros.toUInt64) := by
  unfold halted
  rw [hconfig]
  by_cases hrunning : e.state = .running
  · rw [if_pos hrunning, if_pos hrunning]
    exact ((h.wait _).settled (config.settleTime?_blockName .dma) _ _).drive _ _
  · rw [if_neg hrunning, if_neg hrunning, List.replicate_zero, List.append_nil]
    exact h

theorem paces_shut (hconfig : e.config = config) (hpacer : e.sequencer.pacer = config.pacer)
    (h : g.Paces config waits) :
    (e.shut g).Paces config
      (waits ++ List.replicate (if e.state = .running then 1 else 0) config.cycleMicros.toUInt64) := by
  have hquiesced := (paces_halted hconfig h).settled (config.settleTime?_blockName .pacer) config.pacer.control.offset 0
  unfold shut Sequencer.released
  rw [Sequencer.quiesced_eq, hpacer]
  by_cases hempty : e.sequencer.claimed.isEmpty
  · rw [if_pos hempty]
    exact hquiesced
  · rw [if_neg hempty]
    exact (hquiesced.drive _ _).turnAll _

/-- A request that is carried out waits for a cycle if it stops a running engine, and not otherwise. -/
theorem leads_respond_paces (hconfig : e.config = config) (hpacer : e.sequencer.pacer = config.pacer)
    (hdivisor : e.sequencer.clockDivisor = config.platform.clockDivisor) (hlimits : config.Limits n) {q : Request}
    {p : Program Engine} (hp : e.respond q = .ok p) (h : g.Paces config waits) :
    p.Leads (fun _ g' => g'.Paces config
      (waits ++ List.replicate (if Attempt.halts ⟨q, e.state = .running, true⟩ then 1 else 0)
        config.cycleMicros.toUInt64)) g := by
  have hnone : ∀ {g' : Panel}, g'.Paces config waits → g'.Paces config
      (waits ++ List.replicate 0 config.cycleMicros.toUInt64) := by
    intro g' h'
    rw [List.replicate_zero, List.append_nil]
    exact h'
  cases responds_of_respond hp with
  | drive message drives =>
    rw [leads_commit_iff]
    cases q with
    | set | setFraction | setMany => exact hnone h
    | release | stop | start => exact drives.elim
  | release =>
    rw [leads_regenerate_iff, Sequencer.driveInactive, leads_store_iff, leads_log_iff, leads_pure_iff]
    exact hnone (h.drive _ _)
  | stop =>
    rw [← bind_pure e.stop, leads_stop_iff, leads_pure_iff]
    have hhalted := paces_halted hconfig h
    by_cases hrunning : e.state = .running <;> simpa [Attempt.halts, hrunning] using hhalted
  | start =>
    by_cases hstopped : e.state = .stopped
    · have hstart := leads_traces_start hpacer hdivisor hconfig hlimits hstopped h.named
      refine (hstart.and (h.named.leads e.start)).mono ?_
      rintro _ g' ⟨⟨-, hevents⟩, hnamed⟩
      refine ⟨hnamed, ?_⟩
      rw [hevents]
      exact h.paced.append (config.paced_starting e.chain.head)
    · rw [start, if_pos hstopped]
      exact hnone h

end Engine

namespace Rig

variable {r : Rig Bench}

/-- The waits for a cycle are counted by the calls that stop a running engine. -/
theorem Settled.paces_handleAll (h : r.Settled config n found) (hlimits : config.Limits n)
    (hpacer : r.engine.sequencer.pacer = config.pacer)
    (hdivisor : r.engine.sequencer.clockDivisor = config.platform.clockDivisor)
    (hpaces : r.machine.panel.Paces config waits) (requests : List Request) :
    (r.handleAll requests).machine.panel.Paces config
      (waits ++ List.replicate ((r.attempts requests).countP Attempt.halts) config.cycleMicros.toUInt64) := by
  induction requests generalizing r waits with
  | nil =>
    rw [attempts, List.countP_nil, List.replicate_zero, List.append_nil]
    exact hpaces
  | cons q rest ih =>
    have hsplit : r.handleAll (q :: rest) = (r.handle q).2.handleAll rest := rfl
    rw [hsplit, attempts, List.countP_cons, Nat.add_comm, ← List.replicate_append_replicate, ← List.append_assoc]
    have hsettled : (r.handle q).2.Settled config n found := (h.handleAll [q]).1
    have hsequencer : (r.handle q).2.engine.sequencer = r.engine.sequencer := (h.frame_handleAll [q]).2.2.1
    rw [← hsequencer] at hpacer hdivisor
    refine ih hsettled hpacer hdivisor ?_
    rw [hsequencer] at hpacer hdivisor
    rcases h.run_handle q with ⟨reason, hresponse⟩ | ⟨p, hresponse, hok, hrun⟩
    · have hnone : Attempt.halts ⟨q, r.engine.state = .running, (r.handle q).1.isOk⟩ = false := by
        rw [handle_of_refused hresponse]
        cases q <;> simp [Attempt.halts, Except.isOk, Except.toBool]
      rw [hnone, handle_of_refused hresponse, if_neg Bool.false_ne_true, List.replicate_zero, List.append_nil]
      exact hpaces
    · obtain ⟨s, -, hs⟩ := h
      have hleads := Engine.leads_respond_paces hs.config_eq hpacer hdivisor hlimits hresponse hpaces
      have hafter := Program.panel_of_run hleads hrun
      rw [hok]
      exact hafter

end Rig

/-! ### Stops and shutdowns -/

/-- The action is no write to the arena. -/
def Action.Registers : Action → Prop
  | write _ _ => False
  | _ => True

/-- What is done to stop a running engine: all sample words are written, then comes the wait for a cycle, and then the
channel is reset and the pins are driven. -/
def Config.stopping (config : Config) (l : ChainLayout) : List Action :=
  (l.slots.map fun slot => .write (l.sampleOffset slot) 0) ++
    [.pause config.cycleMicros.toUInt64, .store .dma Dma.status.offset Dma.reset, .pause shortSettle,
      .store .gpio (Gpio.inactiveOffset config.invert) (Pin.maskOf config.pins),
      .log ⟨.info, "pwm_engine::engine", "stopped"⟩]

namespace Engine

variable {e : Engine} {b b' : Bench}

theorem performed_stop_of_not (h : e.state ≠ .running) (b : Bench) : e.stop.performed b = [] := by
  rw [stop, if_pos h]
  rfl

/-- Of a shutdown, only the stop writes to the arena. -/
theorem performed_exit (hstate : e.state ≠ .exited) {e' : Engine} (hrun : e.exit.run b = (.ok e', b')) :
    ∃ rest, e.exit.performed b = e.stop.performed b ++ rest ∧ ∀ a ∈ rest, a.Registers := by
  unfold exit at hrun ⊢
  rw [if_neg hstate] at hrun ⊢
  obtain ⟨stopped, after, hstopped, -⟩ := Program.run_bind_eq_ok hrun
  refine ⟨_, Program.performed_bind hstopped _, ?_⟩
  apply Program.Only.performed
  have hturn : ∀ pin f, (Sequencer.setFunction pin f).Only Action.Registers :=
    fun _ _ _ => ⟨trivial, trivial⟩
  have hquiesce : stopped.sequencer.quiescePacer.Only Action.Registers := by
    unfold Sequencer.quiescePacer
    split <;> exact Sequencer.only_settled trivial trivial
  have hrelease : (stopped.sequencer.releasePins stopped.config.invert).Only Action.Registers := by
    unfold Sequencer.releasePins
    split
    · exact only_pure _
    · refine only_bind (only_perform.2 trivial) fun _ => only_bind (only_each fun a _ => ?_) fun _ => only_pure _
      exact only_bind (hturn a.1 a.2) fun _ => only_pure _
  refine only_bind hquiesce fun _ => only_bind hrelease fun _ => ?_
  exact only_bind (only_perform.2 trivial) fun _ => only_pure _

end Engine

namespace Rig

/-- What happens on the bench of an engine after `stops` stops, and if it is called or shut down now. -/
structure Timed (config : Config) (n : UInt32) (stops : Nat) (r : Rig Bench) : Prop where
  paced : Paced (List.replicate stops config.cycleMicros.toUInt64) r.machine.panel.events
  /-- A shutdown stops an engine that runs. -/
  closed : Paced (List.replicate (stops + if r.engine.state = .running then 1 else 0) config.cycleMicros.toUInt64)
    r.close.machine.panel.events
  settles : ∀ x ∈ [r, r.close], ∀ before block offset value after micros,
    x.machine.panel.events = before ++ .store block offset value :: after → settleTime? block = some micros →
      after.head? = some (.delay micros)
  stop : r.engine.state = .running → r.engine.stop.performed r.machine = config.stopping ⟨n⟩
  still : r.engine.state ≠ .running → r.engine.stop.performed r.machine = []
  exit : ∃ rest, r.engine.exit.performed r.machine = r.engine.stop.performed r.machine ++ rest ∧
    ∀ a ∈ rest, a.Registers
  /-- But for loads, the journal shows what a call has done. -/
  shown : ∀ q p, r.engine.respond q = .ok p → (r.handle q).2.machine.journal.writesAndDelays =
    r.machine.journal.writesAndDelays ++ (p.performed r.machine).filterMap (Action.event? config.blockName)
  shown_close : r.close.machine.journal.writesAndDelays = r.machine.journal.writesAndDelays ++
    (r.engine.exit.performed r.machine).filterMap (Action.event? config.blockName)

variable {r : Rig Bench} {stops : Nat}

theorem Settled.performed_stop (h : r.Settled config n found) (hrunning : r.engine.state = .running) :
    r.engine.stop.performed r.machine = config.stopping ⟨n⟩ := by
  rcases h.run_handle .stop with ⟨reason, hresponse⟩ | ⟨p, hresponse, -, hrun⟩
  · cases hresponse
  cases hresponse
  obtain ⟨s, -, hs⟩ := h
  have hmask : r.engine.table.silence.pinMask = Pin.maskOf config.pins := by
    rw [ChannelTable.pinMask, (ChannelTable.silence_lawful hs.lawful).pins_eq]
  have hwords : ((ChainLayout.mk n).slots.map fun slot => Action.write ((ChainLayout.mk n).sampleOffset slot) 0) =
      (ChainLayout.mk n).slots.map fun slot =>
        .write ((ChainLayout.mk n).sampleOffset slot) (slotMask r.engine.table.silence.channels slot) := by
    apply List.map_congr_left
    intro slot _
    rw [slotMask_of_disabled (disabled_of_silence r.engine.table)]
  unfold Engine.stop at hrun ⊢
  rw [if_neg (not_not_intro hrunning), Engine.layout, hs.layout_eq] at hrun ⊢
  obtain ⟨_, after, hwritten, -⟩ := Program.run_bind_eq_ok hrun
  rw [Program.performed_bind hwritten, regenerate, Program.performed_writes hwritten, hs.config_eq, hmask,
    Config.stopping, hwords]
  rfl

theorem Settled.timed (h : r.Settled config n found) (hstate : r.engine.state ≠ .exited)
    (hpaces : r.machine.panel.Paces config (List.replicate stops config.cycleMicros.toUInt64))
    (hshut : r.close.machine.panel = r.engine.shut r.machine.panel)
    (hpacer : r.engine.sequencer.pacer = config.pacer) : r.Timed config n stops := by
  obtain ⟨e', hexit, -⟩ := h.run_exit
  have hconfig : r.engine.config = config := by
    obtain ⟨s, -, hs⟩ := h
    exact hs.config_eq
  have hclosed := Engine.paces_shut hconfig hpacer hpaces
  rw [← hshut, List.replicate_append_replicate] at hclosed
  have hclose : r.close.machine = (r.engine.exit.run r.machine).2 := by rw [hexit]
  exact
    { paced := hpaces.paced
      closed := hclosed.paced
      settles := by
        intro x hx before block offset value after micros heq hsettle
        rcases List.mem_pair.1 hx with rfl | rfl
        · exact hpaces.paced.head?_eq heq hsettle
        · exact hclosed.paced.head?_eq heq hsettle
      stop := h.performed_stop
      still := fun hstill => Engine.performed_stop_of_not hstill r.machine
      exit := Engine.performed_exit hstate hexit
      shown := by
        intro q p hresponse
        rw [machine_handle hresponse]
        exact p.writesAndDelays_run hpaces.named
      shown_close := by
        rw [hclose]
        exact r.engine.exit.writesAndDelays_run hpaces.named }

end Rig

/-! ### Whole runs -/

/-- The bench of a simulated engine has windows of zeros, and what validation remarks in its log. -/
theorem Simulation.assemble_of_simulate {e : Engine} {b : Bench} (h : simulate config = .ok (e, b)) :
    ∃ arena, Simulation.assemble config
      { Bench.over config [] arena with journal.records := config.remarks.toArray } = .ok (e, b) := by
  unfold simulate at h
  split at h
  · cases h
  split at h
  · cases h
  rename_i arena _
  refine ⟨arena, ?_⟩
  dsimp only at h
  split at h
  · rename_i started hstarted
    cases h
    exact hstarted
  · cases h

/-- What happens when an engine is made settles and waits for nothing else. -/
theorem Engine.leads_assemble_paces (valid : config.validate = .ok n) (hnamed : g.Named config) (hfresh : g.events = [])
    (hsize : 4 ≤ g.size .gpio) (arena : Arena) :
    (assemble config arena).Leads (fun result g' => ∀ e, result = .ok e →
      e.sequencer.pacer = config.pacer ∧ e.sequencer.clockDivisor = config.platform.clockDivisor ∧
        g'.Paces config []) g := by
  have htraces := leads_assemble_traces valid hnamed hfresh hsize arena
  refine (htraces.and (hnamed.leads (assemble config arena))).mono ?_
  rintro result g' ⟨hmade, hnamed'⟩ e heq
  obtain ⟨hpacer, hdivisor, claims, hevents, hgpio⟩ := hmade e heq
  refine ⟨hpacer, hdivisor, hnamed', ?_⟩
  rw [hevents]
  exact (Simulation.paced_of_gpio hgpio).append (config.paced_starting e.chain.head)

/-- For every configuration that is accepted, all contents of the windows and every sequence of requests, with or
without a shutdown after them: each store to the DMA channel, the clock or the pacer is followed at once by its pause,
and the other pauses are waits for a cycle, one for each time that the engine was stopped while it was running.  Such
a wait comes after all sample words have been written and before the channel is reset, and it is long enough for all
samples. -/
theorem settling_of_run (valid : config.validate = .ok n) (contents : List (Role × UInt64 × UInt32)) (arena : Arena)
    (records : Array Record) :
    let start := { Bench.over config contents arena with journal.records := records }
    (arena.Fits ⟨n⟩ → arena.table.Covers ⟨n⟩ → ∃ e b, Simulation.assemble config start = .ok (e, b)) ∧
    n.toNat * config.sampleMicros.toNat ≤ config.cycleMicros.toUInt64.toNat ∧
    ∀ e b, Simulation.assemble config start = .ok (e, b) → ∀ requests : List Request,
      ((Rig.mk e b).handleAll requests).Timed config n
        (((Rig.mk e b).attempts requests).countP Attempt.halts) := by
  intro start
  have hlimits := config.limits_of_validate valid
  refine ⟨fun hfits hcovers => Simulation.assemble_eq_ok valid (b := start) hfits hcovers, ?_, ?_⟩
  · rw [UInt32.toNat_toUInt64]
    exact hlimits.samples_le
  intro e b hmade requests
  have hsize : 4 ≤ start.panel.size .gpio := Bench.four_le_size_over config contents arena
  have hnamed : start.panel.Named config := Bench.named_over config contents arena
  obtain ⟨hpacer, hdivisor, hpaces⟩ := Program.panel_of_run
    (Engine.leads_assemble_paces valid hnamed rfl hsize start.arena) (Simulation.run_of_assemble hmade) e rfl
  obtain ⟨hsettled, hrunning⟩ := Rig.settled_of_assemble valid hmade
  obtain ⟨-, -, hsequencer, hexited⟩ := hsettled.frame_handleAll requests
  refine (hsettled.handleAll requests).1.timed ?_ ?_ (hsettled.panel_close hrunning requests) ?_
  · rw [ne_eq, hexited, hrunning]
    decide
  · exact hsettled.paces_handleAll hlimits hpacer hdivisor hpaces requests
  · rw [hsequencer]
    exact hpacer

/-- A simulated engine that is stopped twice waits for a cycle once. -/
theorem settling_of_small : Config.small.validate = .ok 3 ∧ ∃ e b, simulate Config.small = .ok (e, b) ∧
    Paced [30] ((Rig.mk e b).handleAll [.stop, .stop]).machine.panel.events ∧
    ∀ requests, ((Rig.mk e b).handleAll requests).Timed Config.small 3
      (((Rig.mk e b).attempts requests).countP Attempt.halts) := by
  have valid : Config.small.validate = .ok 3 := rfl
  obtain ⟨e, b, s, s', hsimulate, hassembled, harena, -, -⟩ := simulate_eq_ok valid
  obtain ⟨arena, hmade⟩ := Simulation.assemble_of_simulate hsimulate
  obtain ⟨-, -, hall⟩ := settling_of_run valid [] arena Config.small.remarks.toArray
  refine ⟨valid, e, b, hsimulate, ?_, hall e b hmade⟩
  have hsettled : (Rig.mk e b).Settled Config.small 3 s.levels := ⟨s', harena, hassembled.settled⟩
  obtain ⟨r₁, hfirst, hsettled₁, hengine₁⟩ := hsettled.handle_stop
  obtain ⟨r₂, hsecond, -⟩ := hsettled₁.handle_stop
  rw [if_pos hassembled.state_eq] at hengine₁
  have hattempts : (Rig.mk e b).attempts [.stop, .stop] = [⟨.stop, true, true⟩, ⟨.stop, false, true⟩] := by
    simp [Rig.attempts, hfirst, hsecond, hassembled.state_eq, hengine₁, Except.isOk, Except.toBool]
  have htimed := hall e b hmade [.stop, .stop]
  rw [hattempts] at htimed
  exact htimed.paced

end PulseWidth
