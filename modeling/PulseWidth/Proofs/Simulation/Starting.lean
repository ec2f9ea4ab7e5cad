import PulseWidth.Proofs.Engine.Limits
import PulseWidth.Proofs.Simulation.Protocol

/-!
# Every start is the same

What a start does to the windows can be written down beforehand: `Config.starting` lists all loads, stores and waits,
the words included.  It depends on the configuration and the head of the chain only.  The PCM block is changed by
reading its control register, but what is read there has been stored a moment before, so that whatever the windows
held makes no difference.
-/

namespace PulseWidth

open Simulation (Bench Panel Event simulate)
open Program (Leads leads_bind_iff leads_read_iff leads_log_iff leads_pure_iff)

variable {α : Type} {post : α → Panel → Prop} {g : Panel} {config : Config} {n : UInt32} {head : BusAddress}

/-! ### What a start does -/

namespace Config

/-- The name of the block that has a role. -/
def blockName (config : Config) : Role → String
  | .dma => "dma"
  | .clock => "clk"
  | .pacer => config.pacer.block.name
  | .gpio => "gpio"

/-- A store and the wait after it. -/
def putting (config : Config) (role : Role) (offset : UInt64) (value : UInt32) (micros : UInt64) : List Event :=
  [.store (config.blockName role) offset value, .delay micros]

/-- The control register of the PCM block is read and stored again. -/
def changing (config : Config) (word value : UInt32) : List Event :=
  .load (config.blockName .pacer) Pcm.control.offset word :: config.putting .pacer Pcm.control.offset value longSettle

/-- The clock is stopped, given its divisor and started. -/
def clocking (config : Config) : List Event :=
  config.putting .clock config.pacer.clock.controlOffset (Clock.stopped .pllD) longSettle
    ++ config.putting .clock config.pacer.clock.divisorOffset config.platform.divisorWord longSettle
    ++ config.putting .clock config.pacer.clock.controlOffset (Clock.running .pllD) longSettle

/-- The DMA channel is reset, given the head of the chain and armed. -/
def arming (config : Config) (head : BusAddress) : List Event :=
  config.putting .dma Dma.status.offset Dma.reset shortSettle
    ++ config.putting .dma Dma.status.offset Dma.clearFlags shortSettle
    ++ config.putting .dma Dma.controlBlock.offset head.value shortSettle
    ++ config.putting .dma Dma.errors.offset Dma.clearErrors shortSettle
    ++ config.putting .dma Dma.status.offset Dma.start shortSettle

/-- What happens to the windows when an engine starts. -/
def starting (config : Config) (head : BusAddress) : List Event :=
  match config.pacer with
  | .pwm =>
    config.putting .pacer Pwm.control.offset 0 shortSettle
      ++ config.clocking
      ++ config.putting .pacer Pwm.range.offset (ticksPerMicro * config.sampleMicros) shortSettle
      ++ config.putting .pacer Pwm.request.offset Pwm.pacingRequest shortSettle
      ++ config.putting .pacer Pwm.control.offset Pwm.clearing shortSettle
      ++ config.putting .pacer Pwm.control.offset Pwm.pacing shortSettle
      ++ config.arming head
  | .pcm =>
    let enabled := Pcm.enable.raise 0
    let cleared := Pcm.clearReceive.raise (Pcm.clearTransmit.raise enabled)
    let requesting := Pcm.requestEnable.raise cleared
    config.putting .pacer Pcm.control.offset enabled longSettle
      ++ config.clocking
      ++ config.putting .pacer Pcm.channels.offset (Pcm.firstChannel.raise 0) longSettle
      ++ config.putting .pacer Pcm.mode.offset config.frameWord longSettle
      ++ config.changing enabled cleared
      ++ config.putting .pacer Pcm.request.offset Pcm.pacingRequest longSettle
      ++ config.changing cleared requesting
      ++ config.arming head
      ++ config.changing requesting (Pcm.transmit.raise requesting)

end Config

/-! ### Following a start -/

namespace Simulation.Panel

theorem Named.block_eq (h : g.Named config) (role : Role) : g.block role = config.blockName role := by
  cases role with
  | dma => exact h.dma
  | clock => exact h.clock
  | pacer => exact h.pacer
  | gpio => exact h.gpio

theorem Named.perform (h : g.Named config) (action : Action) : (g.perform action).Named config := by
  cases action with
  | store role offset value => exact h.store role offset value
  | pause micros => exact h.note _
  | write _ _ | log _ | print _ => exact h

/-- Some events have happened since there were the events `before`, and the pacer's control register holds a word
that was stored there. -/
structure Traces (config : Config) (before : List Event) (word : UInt32) (events : List Event) (g : Panel) : Prop where
  shows : g.Shows config word
  events_eq : g.events = before ++ events

variable {before events : List Event} {word : UInt32}

private theorem events_put (h : g.Named config) (hevents : g.events = before ++ events) (role : Role)
    (offset : UInt64) (value : UInt32) (micros : UInt64) :
    ((g.store role offset value).note (.delay micros)).events =
      before ++ (events ++ config.putting role offset value micros) := by
  show g.events ++ [.store (g.block role) offset value] ++ [.delay micros] = _
  rw [hevents, h.block_eq role]
  simp [Config.putting]

theorem Named.traces_control (h : g.Named config) (hevents : g.events = before ++ events) (value : UInt32)
    (micros : UInt64) :
    ((g.store .pacer Pcm.control.offset value).note (.delay micros)).Traces config before value
      (events ++ config.putting .pacer Pcm.control.offset value micros) :=
  ⟨(h.shows_store value).delay micros, events_put h hevents _ _ _ _⟩

theorem Traces.control (h : g.Traces config before word events) (value : UInt32) (micros : UInt64) :
    ((g.store .pacer Pcm.control.offset value).note (.delay micros)).Traces config before value
      (events ++ config.putting .pacer Pcm.control.offset value micros) :=
  h.shows.named.traces_control h.events_eq value micros

theorem Traces.put (h : g.Traces config before word events) (role : Role) (offset : UInt64)
    (hother : role ≠ .pacer ∨ Window.position offset ≠ Window.position Pcm.control.offset) (value : UInt32)
    (micros : UInt64) :
    ((g.store role offset value).note (.delay micros)).Traces config before word
      (events ++ config.putting role offset value micros) :=
  ⟨(h.shows.store_other hother).delay micros, events_put h.shows.named h.events_eq _ _ _ _⟩

end Simulation.Panel

namespace Sequencer

variable {before events : List Event} {word : UInt32} {f : Unit → Program α}

theorem leads_traces_startClock (s : Sequencer) (hpacer : s.pacer = config.pacer)
    (hdivisor : s.clockDivisor = config.platform.clockDivisor) (h : g.Traces config before word events) :
    s.startClock.Leads (fun _ g' => g'.Traces config before word (events ++ config.clocking)) g := by
  have hclock : Role.clock ≠ .pacer := by decide
  have hstopped := h.put .clock config.pacer.clock.controlOffset (.inl hclock) (Clock.stopped .pllD) longSettle
  have hdivided := hstopped.put .clock config.pacer.clock.divisorOffset (.inl hclock) config.platform.divisorWord
    longSettle
  have hrunning := hdivided.put .clock config.pacer.clock.controlOffset (.inl hclock) (Clock.running .pllD) longSettle
  unfold startClock Config.clocking
  rw [hpacer, hdivisor, config.platform.wholeDivisor_eq, ← List.append_assoc, ← List.append_assoc]
  exact hrunning

theorem leads_traces_startDma (h : g.Traces config before word events) :
    (startDma head).Leads (fun _ g' => g'.Traces config before word (events ++ config.arming head)) g := by
  have hdma : Role.dma ≠ .pacer := by decide
  have hreset := h.put .dma Dma.status.offset (.inl hdma) Dma.reset shortSettle
  have hflags := hreset.put .dma Dma.status.offset (.inl hdma) Dma.clearFlags shortSettle
  have hgiven := hflags.put .dma Dma.controlBlock.offset (.inl hdma) head.value shortSettle
  have herrors := hgiven.put .dma Dma.errors.offset (.inl hdma) Dma.clearErrors shortSettle
  have harmed := herrors.put .dma Dma.status.offset (.inl hdma) Dma.start shortSettle
  unfold Config.arming
  simp only [← List.append_assoc]
  exact harmed

private theorem leads_traces_control (h : g.Traces config before word events) {value : UInt32} {micros : UInt64}
    (hnext : ∀ g' : Panel, g'.Traces config before value
      (events ++ config.putting .pacer Pcm.control.offset value micros) → (f ()).Leads post g') :
    Leads (pacerStore Pcm.control value micros >>= f) post g :=
  hnext _ (h.control value micros)

private theorem leads_traces_put (h : g.Traces config before word events) {r : Register}
    (hother : Simulation.Window.position r.offset ≠ Simulation.Window.position Pcm.control.offset) {value : UInt32}
    {micros : UInt64}
    (hnext : ∀ g' : Panel, g'.Traces config before word
      (events ++ config.putting .pacer r.offset value micros) → (f ()).Leads post g') :
    Leads (pacerStore r value micros >>= f) post g :=
  hnext _ (h.put .pacer r.offset (.inr hother) value micros)

/-- What is read from the control register is what was stored there. -/
theorem leads_traces_modify (h : g.Traces config before word events) (change : UInt32 → UInt32) :
    (pacerModify Pcm.control change).Leads
      (fun _ g' => g'.Traces config before (change word) (events ++ config.changing word (change word))) g := by
  rw [pacerModify, leads_read_iff, h.shows.peek_eq]
  have hload : (g.load .pacer Pcm.control.offset).events =
      before ++ (events ++ [.load (config.blockName .pacer) Pcm.control.offset word]) := by
    show g.events ++ [.load (g.block .pacer) Pcm.control.offset (g.peek .pacer Pcm.control.offset)] = _
    rw [h.events_eq, h.shows.named.block_eq, h.shows.peek_eq, List.append_assoc]
  have hchanged := (h.shows.load .pacer Pcm.control.offset).named.traces_control hload (change word) longSettle
  rw [List.append_assoc] at hchanged
  exact hchanged

/-- A start does what is written down for it, whatever the windows hold. -/
theorem leads_traces_start (s : Sequencer) (hpacer : s.pacer = config.pacer)
    (hdivisor : s.clockDivisor = config.platform.clockDivisor) (hlimits : config.Limits n) (h : g.Named config) :
    (s.start head config.sampleMicros).Leads (fun _ g' => g'.events = g.events ++ config.starting head) g := by
  have hnone : g.events = g.events ++ [] := (List.append_nil _).symm
  unfold start Config.starting
  rw [hlimits.ticksOf_eq, hpacer, leads_log_iff]
  cases hcase : config.pacer with
  | pwm =>
    have h₁ := h.traces_control hnone 0 shortSettle
    show Leads (pacerStore Pwm.control 0 shortSettle >>= _) _ g
    rw [pacerStore, leads_settled_iff, leads_bind_iff]
    refine (s.leads_traces_startClock hpacer hdivisor h₁).mono fun _ g₂ h₂ => ?_
    refine leads_traces_put h₂ (by decide) fun g₃ h₃ => ?_
    refine leads_traces_put h₃ (by decide) fun g₄ h₄ => ?_
    refine leads_traces_control h₄ fun g₅ h₅ => ?_
    refine leads_traces_control h₅ fun g₆ h₆ => ?_
    exact (leads_traces_startDma h₆).mono fun _ g₇ h₇ => h₇.events_eq
  | pcm =>
    have hframe := hlimits.frame_eq hcase
    rw [hlimits.ticksOf_eq] at hframe
    have h₁ := h.traces_control hnone (Pcm.enable.raise 0) longSettle
    -- the control register is read three times, and each time it holds what the last store to it has left
    simp only [hframe]
    rw [pacerStore, leads_settled_iff, leads_bind_iff]
    refine (s.leads_traces_startClock hpacer hdivisor h₁).mono fun _ g₂ h₂ => ?_
    refine leads_traces_put h₂ (by decide) fun g₃ h₃ => ?_
    refine leads_traces_put h₃ (by decide) fun g₄ h₄ => ?_
    rw [leads_bind_iff]
    refine (leads_traces_modify h₄ _).mono fun _ g₅ h₅ => ?_
    refine leads_traces_put h₅ (by decide) fun g₆ h₆ => ?_
    rw [leads_bind_iff]
    refine (leads_traces_modify h₆ _).mono fun _ g₇ h₇ => ?_
    rw [leads_bind_iff]
    refine (leads_traces_startDma h₇).mono fun _ g₈ h₈ => ?_
    exact (leads_traces_modify h₈ _).mono fun _ g₉ h₉ => h₉.events_eq

end Sequencer

/-! ### What stands in the registers -/

namespace Simulation

/-- The block of a load or a store. -/
def Event.block? : Event → Option String
  | .load block _ _ | .store block _ _ => some block
  | .delay _ => none

/-- The words that were stored to a register, the first one first. -/
def storedTo (block : String) (offset : UInt64) (events : List Event) : List UInt32 :=
  events.filterMap fun
    | .store b o value => if b = block ∧ o = offset then some value else none
    | _ => none

theorem storedTo_append (block : String) (offset : UInt64) (first second : List Event) :
    storedTo block offset (first ++ second) = storedTo block offset first ++ storedTo block offset second :=
  List.filterMap_append

theorem storedTo_putting (block : String) (offset : UInt64) (role : Role) (there : UInt64) (value : UInt32)
    (micros : UInt64) : storedTo block offset (config.putting role there value micros) =
      if config.blockName role = block ∧ there = offset then [value] else [] := by
  by_cases h : config.blockName role = block ∧ there = offset <;> simp [storedTo, Config.putting, h]

theorem storedTo_changing (block : String) (offset : UInt64) (word value : UInt32) :
    storedTo block offset (config.changing word value) =
      if config.blockName .pacer = block ∧ Pcm.control.offset = offset then [value] else [] :=
  storedTo_putting block offset .pacer Pcm.control.offset value longSettle

end Simulation

open Simulation (storedTo storedTo_append storedTo_putting storedTo_changing)

/-- The events give the clock its divisor, the pacer the length of a sample and the DMA channel the head of the chain,
each once and with nothing cut off. -/
structure Config.Starts (config : Config) (head : BusAddress) (events : List Event) : Prop where
  divisor : ∃ word, storedTo "clk" config.pacer.clock.divisorOffset events = [word] ∧
    (Clock.integerPart.read word).toNat = config.platform.sourceHz.toNat / tickHz.toNat
  ticks : (Sequencer.ticksOf config.sampleMicros).toNat = ticksPerMicro.toNat * config.sampleMicros.toNat
  range : config.pacer = .pwm → ∃ word, storedTo "pwm" Pwm.range.offset events = [word] ∧
    word.toNat = ticksPerMicro.toNat * config.sampleMicros.toNat
  frame : config.pacer = .pcm → ∃ word, storedTo "pcm" Pcm.mode.offset events = [word] ∧
    (Pcm.frameLength.read word).toNat + 1 = ticksPerMicro.toNat * config.sampleMicros.toNat ∧
    (Sequencer.frameLengthOf (Sequencer.ticksOf config.sampleMicros)).toNat = (Pcm.frameLength.read word).toNat
  chain : storedTo "dma" Dma.controlBlock.offset events = [head.value]

namespace Config

/-- The stores of a start to three registers. -/
private theorem storedTo_starting (config : Config) (head : BusAddress) :
    storedTo "clk" config.pacer.clock.divisorOffset (config.starting head) = [config.platform.divisorWord] ∧
    storedTo "dma" Dma.controlBlock.offset (config.starting head) = [head.value] ∧
    (config.pacer = .pwm →
      storedTo "pwm" Pwm.range.offset (config.starting head) = [ticksPerMicro * config.sampleMicros]) ∧
    (config.pacer = .pcm → storedTo "pcm" Pcm.mode.offset (config.starting head) = [config.frameWord]) := by
  cases hpacer : config.pacer <;>
    simp +decide [starting, clocking, arming, hpacer, blockName, storedTo_append, storedTo_putting, storedTo_changing]

theorem Limits.starts (h : config.Limits n) (head : BusAddress) : config.Starts head (config.starting head) := by
  obtain ⟨hdivisor, hchain, hrange, hframe⟩ := config.storedTo_starting head
  have hticks := h.toNat_ticks
  rw [← toNat_ticksPerMicro] at hticks
  exact
    { divisor := ⟨_, hdivisor, config.platform.read_divisorWord⟩
      ticks := by rw [h.ticksOf_eq, hticks]
      range := fun hpwm => ⟨_, hrange hpwm, hticks⟩
      frame := by
        intro hpcm
        have hread := h.read_frameWord hpcm
        refine ⟨_, hframe hpcm, hread, ?_⟩
        rw [h.toNat_frameLengthOf hpcm]
        omega
      chain := hchain }

theorem block?_starting (config : Config) (head : BusAddress) :
    ∀ x ∈ config.starting head, x.block? ≠ some "gpio" := by
  cases hpacer : config.pacer <;>
    simp +decide [starting, clocking, arming, changing, putting, blockName, hpacer, Event.block?]

end Config

/-! ### Starts of an engine -/

namespace Simulation.Panel

/-- No program changes what the blocks are called. -/
theorem Named.leads (h : g.Named config) (p : Program α) : p.Leads (fun _ g' => g'.Named config) g := by
  induction p generalizing g with
  | done result => exact h
  | fault reason => exact trivial
  | load role offset next ih => exact ih _ (h.note _)
  | act action next ih => exact ih () (h.perform action)

/-- Since there were the events `before`, nothing but the GPIO block has been reached. -/
structure Claims (config : Config) (before : List Event) (g : Panel) : Prop where
  named : g.Named config
  events_eq : ∃ claims, g.events = before ++ claims ∧ ∀ x ∈ claims, x.block? = some "gpio"

variable {before : List Event}

theorem Claims.snoc (h : g.Claims config before) {g' : Panel} (hnamed : g'.Named config) {event : Event}
    (hevents : g'.events = g.events ++ [event]) (hgpio : event.block? = some "gpio") : g'.Claims config before := by
  obtain ⟨claims, hclaims, hall⟩ := h.events_eq
  refine ⟨hnamed, claims ++ [event], by rw [hevents, hclaims, List.append_assoc], ?_⟩
  intro x hx
  rcases List.mem_append.1 hx with hx | hx
  · exact hall x hx
  · rw [List.mem_singleton.1 hx, hgpio]

theorem Claims.store (h : g.Claims config before) (offset : UInt64) (value : UInt32) :
    (g.store .gpio offset value).Claims config before :=
  h.snoc (h.named.store _ _ _) rfl (congrArg some h.named.gpio)

theorem Claims.turnAll (h : g.Claims config before) (functions : List (Pin × PinFunction)) :
    (g.turnAll functions).Claims config before := by
  induction functions generalizing g with
  | nil => exact h
  | cons a rest ih =>
    have hload : (g.load .gpio (Gpio.selectOffset a.1.number)).Claims config before :=
      h.snoc (h.named.note _) rfl (congrArg some h.named.gpio)
    exact ih (hload.store _ _)

end Simulation.Panel

namespace Engine

variable {e : Engine}

theorem leads_traces_start (hpacer : e.sequencer.pacer = config.pacer)
    (hdivisor : e.sequencer.clockDivisor = config.platform.clockDivisor) (hconfig : e.config = config)
    (hlimits : config.Limits n) (hstate : e.state = .stopped) (h : g.Named config) :
    e.start.Leads (fun e' g' => e' = { e with state := .running } ∧
      g'.events = g.events ++ config.starting e.chain.head) g := by
  apply leads_start hstate
  rw [hconfig]
  exact (e.sequencer.leads_traces_start hpacer hdivisor hlimits h).mono fun _ g' hg' => ⟨rfl, hg'⟩

/-- An engine that is made claims its pins, for which it reaches the GPIO block only, and starts. -/
theorem leads_assemble_traces (valid : config.validate = .ok n) (hnamed : g.Named config) (hfresh : g.events = [])
    (hsize : 4 ≤ g.size .gpio) (arena : Arena) :
    (assemble config arena).Leads
      (fun result g' => ∀ e, result = .ok e →
        e.sequencer.pacer = config.pacer ∧ e.sequencer.clockDivisor = config.platform.clockDivisor ∧
          ∃ claims, g'.events = claims ++ config.starting e.chain.head ∧ ∀ x ∈ claims, x.block? = some "gpio") g := by
  have hnodup := nodup_of_check (config.bounds_of_validate valid).2.2
  apply leads_assemble
  · intro reason e h
    cases h
  · intro table chain
    rw [Sequencer.leads_claimPins_iff hnodup hsize]
    have hbefore : g.Claims config [] := ⟨hnamed, [], hfresh, by simp⟩
    have hclaimed := (hbefore.store (Gpio.inactiveOffset config.invert) (Pin.maskOf config.pins)).turnAll
      (config.pins.map (·, .output))
    obtain ⟨claims, hclaims, hgpio⟩ := hclaimed.events_eq
    refine (leads_traces_start rfl rfl rfl (config.limits_of_validate valid) rfl hclaimed.named).mono ?_
    rintro _ g' ⟨rfl, hevents⟩ e heq
    cases heq
    exact ⟨rfl, rfl, claims, by rw [hevents, hclaims]; rfl, hgpio⟩

end Engine

namespace Rig

variable {found : UInt32} {r : Rig Bench}

theorem named_handleAll (h : r.machine.panel.Named config) (requests : List Request) :
    (r.handleAll requests).machine.panel.Named config :=
  r.visited_of_spares (P := Panel.Named config) (fun _ _ _ h => h.note _) (fun _ action _ h => h.perform action) h
    requests _ (r.handleAll_mem_visited requests)

/-- A stopped engine that is asked to start does so, as it is written down. -/
theorem Settled.handle_start (h : r.Settled config n found) (hlimits : config.Limits n)
    (hnamed : r.machine.panel.Named config) (hpacer : r.engine.sequencer.pacer = config.pacer)
    (hdivisor : r.engine.sequencer.clockDivisor = config.platform.clockDivisor)
    (hstopped : r.engine.state = .stopped) :
    ∃ r', r.handle .start = (.ok (), r') ∧ r'.engine = { r.engine with state := .running } ∧
      r'.machine.panel.events = r.machine.panel.events ++ config.starting r.engine.chain.head := by
  obtain ⟨s, harena, hs⟩ := h
  have hresponse : r.engine.respond .start = .ok r.engine.start := rfl
  obtain ⟨t, -, hensures⟩ := hs.ensures_respond hresponse
  obtain ⟨e', b', -, hrun, -⟩ := Program.run_of_ensures hensures harena
  have hleads := Engine.leads_traces_start hpacer hdivisor hs.config_eq hlimits hstopped hnamed
  obtain ⟨hengine, hevents⟩ := Program.panel_of_run hleads hrun
  refine ⟨⟨e', b'⟩, ?_, hengine, hevents⟩
  simp only [Rig.handle, hresponse, Rig.run, hrun]

end Rig

/-- For every configuration that is accepted, all contents of the windows and every sequence of requests: an engine
that is made claims its pins and then starts, and whenever it has been stopped and is asked to start again, the loads,
the stores and the waits are the same, word by word.  They give the clock, the pacer and the DMA channel exactly what
the configuration asks for; the chain is started at its first control block. -/
theorem starting_of_run (valid : config.validate = .ok n) (contents : List (Role × UInt64 × UInt32)) (arena : Arena) :
    let start := Bench.over config contents arena
    (arena.Fits ⟨n⟩ → arena.table.Covers ⟨n⟩ → ∃ e b, Simulation.assemble config start = .ok (e, b)) ∧
    (∀ head, config.Starts head (config.starting head) ∧ ∀ x ∈ config.starting head, x.block? ≠ some "gpio") ∧
    ∀ e b, Simulation.assemble config start = .ok (e, b) →
      arena.table.busOf? ((ChainLayout.mk n).blockOffset 0) = some e.chain.head ∧
      (∃ claims, b.panel.events = claims ++ config.starting e.chain.head ∧ ∀ x ∈ claims, x.block? = some "gpio") ∧
      ∀ requests : List Request,
        let r := (Rig.mk e b).handleAll requests
        r.engine.state = .stopped → ∃ r', r.handle .start = (.ok (), r') ∧
          r'.engine = { r.engine with state := .running } ∧
          r'.machine.panel.events = r.machine.panel.events ++ config.starting e.chain.head := by
  intro start
  have hlimits := config.limits_of_validate valid
  refine ⟨fun hfits hcovers => Simulation.assemble_eq_ok valid (b := start) hfits hcovers,
    fun head => ⟨hlimits.starts head, config.block?_starting head⟩, ?_⟩
  intro e b hmade
  have hsize : 4 ≤ start.panel.size .gpio := by
    rw [Bench.size_over]
    decide
  have hnamed := Bench.named_over config contents arena
  have hrun := Simulation.run_of_assemble hmade
  obtain ⟨hpacer, hdivisor, hclaims⟩ :=
    Program.panel_of_run (Engine.leads_assemble_traces valid hnamed rfl hsize start.arena) hrun e rfl
  have hnamed' := Program.panel_of_run (hnamed.leads (Engine.assemble config start.arena)) hrun
  obtain ⟨hsettled, -⟩ := Rig.settled_of_assemble valid hmade
  refine ⟨?_, hclaims, ?_⟩
  · obtain ⟨s', -, hassembled⟩ := Simulation.assembled_of_assemble valid hmade
    obtain ⟨blocks, hplanned, -⟩ := hassembled.holds
    exact hplanned.head_eq
  · intro requests r hstopped
    obtain ⟨-, hchain, hsequencer, -⟩ := hsettled.frame_handleAll requests
    have hstart := (hsettled.handleAll requests).1.handle_start hlimits (Rig.named_handleAll hnamed' requests)
      (by rw [hsequencer]; exact hpacer) (by rw [hsequencer]; exact hdivisor) hstopped
    rwa [hchain] at hstart

/-- Ten microseconds are a frame of a hundred ticks, whatever the PCM block was doing before. -/
theorem starting_of_small :
    let config := { Config.small with pacer := .pcm }
    config.validate = .ok 3 ∧ Arena.small.Fits ⟨3⟩ ∧ Arena.small.table.Covers ⟨3⟩ ∧
      ∃ e b, Simulation.assemble config (Bench.over config [(.pacer, 0, 0xFFFFFFFF)] Arena.small) = .ok (e, b) ∧
        (∃ word, storedTo "pcm" Pcm.mode.offset (config.starting e.chain.head) = [word] ∧
          (Pcm.frameLength.read word).toNat + 1 = 100) ∧
        let r := (Rig.mk e b).handleAll [.set ⟨4⟩ 2, .stop]
        r.engine.state = .stopped ∧ ∃ r', r.handle .start = (.ok (), r') ∧
          r'.machine.panel.events = r.machine.panel.events ++ config.starting e.chain.head := by
  intro config
  have valid : Config.validate { Config.small with pacer := .pcm } = .ok 3 := rfl
  obtain ⟨fits, covers⟩ := Arena.small_accepted
  obtain ⟨hmake, hstarts, hall⟩ := starting_of_run valid [(.pacer, 0, 0xFFFFFFFF)] Arena.small
  obtain ⟨e, b, hmade⟩ := hmake fits covers
  obtain ⟨word, hstored, hframe, -⟩ := (hstarts e.chain.head).1.frame rfl
  refine ⟨valid, fits, covers, e, b, hmade, ⟨word, hstored, hframe⟩, ?_⟩
  obtain ⟨hsettled, hrunning⟩ := Rig.settled_of_assemble valid hmade
  obtain ⟨-, -, hrestart⟩ := hall e b hmade
  -- the engine runs after the first request, so that the second one stops it
  obtain ⟨hfirst, -⟩ := hsettled.handleAll [.set ⟨4⟩ 2]
  have hstate : ((Rig.mk e b).handleAll [.set ⟨4⟩ 2]).engine.state = .running := by
    show ((Rig.mk e b).handle (.set ⟨4⟩ 2)).2.engine.state = .running
    rcases hsettled.handle (.set ⟨4⟩ 2) with ⟨reason, heq⟩ | ⟨t, r', heq, -, hengine, -, -⟩
    · rw [heq, hrunning]
    · rw [heq, hengine]
      exact hrunning
  obtain ⟨r₂, hstop, -, hengine₂⟩ := hfirst.handle_stop
  have hstopped : ((Rig.mk e b).handleAll [.set ⟨4⟩ 2, .stop]).engine.state = .stopped := by
    show (((Rig.mk e b).handleAll [.set ⟨4⟩ 2]).handle .stop).2.engine.state = .stopped
    rw [hstop, hengine₂, if_pos hstate]
  obtain ⟨r', heq, -, hevents⟩ := hrestart [.set ⟨4⟩ 2, .stop] hstopped
  exact ⟨hstopped, r', heq, hevents⟩

end PulseWidth
