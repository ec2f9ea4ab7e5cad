import Mathlib.Data.List.Forall2
import PulseWidth.Proofs.Simulation.Handback
import PulseWidth.Proofs.Simulation.Journal

/-!
# The order in which an engine stores

`Proper` says that all stores so far were in order and whether the channel is armed.  Each block of the hardware
sequence leads from one proper panel to another, so that between two calls the panel is proper and the channel is armed
exactly while the engine runs.  The pacer of an armed channel is touched by the last store of a start only, and that
one needs to know the word that was stored to it before; `Shows` keeps track of it.
-/

namespace PulseWidth

open Simulation (Bench Panel Event latest armed SinceArmed IsSelect Permitted Orderly)
open Program (Leads leads_bind_iff leads_store_iff leads_read_iff leads_log_iff leads_pure_iff leads_regenerate_iff)

variable {α : Type} {post : α → Panel → Prop} {g : Panel} {config : Config} {head : BusAddress} {running : Bool}
  {offset : UInt64} {value : UInt32}

theorem Pacer.name_block_ne (p : Pacer) : p.block.name ≠ "dma" ∧ p.block.name ≠ "clk" ∧ p.block.name ≠ "gpio" := by
  cases p <;> decide

namespace Simulation.Panel

/-- The windows are those that an engine of the configuration reaches. -/
structure Named (config : Config) (g : Panel) : Prop where
  dma : g.block .dma = "dma"
  clock : g.block .clock = "clk"
  pacer : g.block .pacer = config.pacer.block.name
  gpio : g.block .gpio = "gpio"
  size_pos : 0 < g.size .pacer

theorem Named.store (h : g.Named config) (role : Role) (offset : UInt64) (value : UInt32) :
    (g.store role offset value).Named config := by
  constructor <;> simp [h.dma, h.clock, h.pacer, h.gpio, h.size_pos]

theorem Named.note (h : g.Named config) (event : Event) : (g.note event).Named config :=
  ⟨h.dma, h.clock, h.pacer, h.gpio, h.size_pos⟩

/-- All stores so far were in order, and the channel is armed or not. -/
structure Proper (config : Config) (head : BusAddress) (running : Bool) (g : Panel) : Prop where
  named : g.Named config
  orderly : Orderly config head g.events
  armed_eq : armed g.events = running

theorem Proper.load (h : g.Proper config head running) (role : Role) (offset : UInt64) :
    (g.load role offset).Proper config head running where
  named := h.named.note _
  orderly := Simulation.orderly_snoc_iff.2 ⟨h.orderly, fun _ _ _ heq => by cases heq⟩
  armed_eq := (Simulation.armed_snoc_load).trans h.armed_eq

theorem Proper.delay (h : g.Proper config head running) (micros : UInt64) :
    (g.note (.delay micros)).Proper config head running where
  named := h.named.note _
  orderly := Simulation.orderly_snoc_iff.2 ⟨h.orderly, fun _ _ _ heq => by cases heq⟩
  armed_eq := (Simulation.armed_snoc_delay micros).trans h.armed_eq

theorem Proper.store {before : Bool} (h : g.Proper config head before) {role : Role}
    (hpermitted : Permitted config head g.events (g.block role) offset value)
    (harmed : armed (g.events ++ [.store (g.block role) offset value]) = running) :
    (g.store role offset value).Proper config head running where
  named := h.named.store role offset value
  orderly := by
    refine Simulation.orderly_snoc_iff.2 ⟨h.orderly, ?_⟩
    intro block place word heq
    cases heq
    exact hpermitted
  armed_eq := harmed

/-- A store to the clock or the pacer, while the channel is not armed. -/
theorem Proper.store_pacing (h : g.Proper config head false) {role : Role} (hrole : role = .clock ∨ role = .pacer)
    (offset : UInt64) (value : UInt32) : (g.store role offset value).Proper config head false := by
  have hblock : g.block role ≠ "dma" ∧ g.block role ≠ "gpio" := by
    rcases hrole with rfl | rfl
    · rw [h.named.clock]
      decide
    · rw [h.named.pacer]
      exact ⟨config.pacer.name_block_ne.1, config.pacer.name_block_ne.2.2⟩
  refine h.store (.of_not_armed h.armed_eq ?_ ?_) ?_
  · exact fun heq => absurd heq hblock.1
  · exact fun heq => absurd heq hblock.2
  · rw [Simulation.armed_snoc_store fun heq => hblock.1 heq.1]
    exact h.armed_eq

/-- Pins may be driven at any time. -/
theorem Proper.store_level (h : g.Proper config head running) (invert : Bool) (value : UInt32) :
    (g.store .gpio (Gpio.inactiveOffset invert) value).Proper config head running := by
  have hselect : ¬ IsSelect (Gpio.inactiveOffset invert) := by cases invert <;> decide
  have hname := h.named.gpio
  refine h.store ⟨?_, ?_, ?_, ?_⟩ ?_
  · rw [hname]
    exact fun heq => absurd heq (by decide)
  · rw [hname]
    exact fun _ => ⟨by decide, fun hgpio => hselect hgpio.2, fun hdma => absurd hdma.1 (by decide)⟩
  · rw [hname]
    exact fun _ heq => absurd heq.symm config.pacer.name_block_ne.2.2
  · exact fun _ hin => absurd hin hselect
  · rw [hname, Simulation.armed_snoc_store fun heq => absurd heq.1 (by decide)]
    exact h.armed_eq

/-- A store to the DMA channel that does not arm it; an armed channel is reset before anything else. -/
theorem Proper.store_dma (h : g.Proper config head running) (hidle : running = true → offset = Dma.status.offset)
    (hactive : offset = Dma.status.offset → Dma.active.isSet value = false) :
    (g.store .dma offset value).Proper config head false := by
  have hname := h.named.dma
  refine h.store ⟨?_, ?_, ?_, ?_⟩ ?_
  · intro _ hstatus harming
    rw [hactive hstatus] at harming
    cases harming
  · intro harmed
    rw [hname, hidle (h.armed_eq ▸ harmed)]
    decide
  · rw [hname]
    exact fun _ heq => absurd heq.symm config.pacer.name_block_ne.1
  · rw [hname]
    exact fun heq => absurd heq (by decide)
  · rw [hname]
    by_cases hstatus : offset = Dma.status.offset
    · rw [hstatus, Simulation.armed_snoc_status, hactive hstatus]
    · rw [Simulation.armed_snoc_store fun heq => hstatus heq.2, h.armed_eq]
      exact Bool.eq_false_iff.2 fun hrunning => hstatus (hidle hrunning)

/-- The channel is armed when it has been reset and been given the head of the chain. -/
theorem Proper.arm (h : g.Proper config head false)
    (hsince : SinceArmed g.events
      [.store "dma" Dma.status.offset Dma.reset, .store "dma" Dma.controlBlock.offset head.value]) :
    (g.store .dma Dma.status.offset Dma.start).Proper config head true := by
  have hname := h.named.dma
  refine h.store (.of_not_armed h.armed_eq (fun _ _ _ => hsince) ?_) ?_
  · rw [hname]
    exact fun heq => absurd heq (by decide)
  · rw [hname, Simulation.armed_snoc_status]
    decide

/-- The channel is not armed, and the given events have happened since it was. -/
structure Since (config : Config) (head : BusAddress) (wanted : List Event) (g : Panel) : Prop where
  proper : g.Proper config head false
  since : SinceArmed g.events wanted

theorem Proper.since (h : g.Proper config head false) : g.Since config head [] :=
  ⟨h, Simulation.sinceArmed_nil h.armed_eq⟩

theorem Since.delay {wanted : List Event} (h : g.Since config head wanted) (micros : UInt64) :
    (g.note (.delay micros)).Since config head wanted :=
  ⟨h.proper.delay micros, h.since.skip (h.proper.delay micros).armed_eq⟩

theorem Since.store {wanted : List Event} (h : g.Since config head wanted) {role : Role}
    (hproper : (g.store role offset value).Proper config head false) :
    (g.store role offset value).Since config head (wanted ++ [.store (g.block role) offset value]) :=
  ⟨hproper, h.since.snoc hproper.armed_eq⟩

/-- A pin is turned after it has been driven. -/
theorem Since.turn (h : g.Since config head [Simulation.settling config]) (pin : Pin) (f : PinFunction) :
    (g.turn pin f).Since config head [Simulation.settling config] := by
  have hloaded := h.proper.load .gpio (Gpio.selectOffset pin.number)
  have hsince := h.since.skip hloaded.armed_eq
  have hname := hloaded.named.gpio
  have hproper : (g.turn pin f).Proper config head false := by
    refine hloaded.store (.of_not_armed hloaded.armed_eq ?_ fun _ _ => hsince) ?_
    · rw [hname]
      exact fun heq => absurd heq (by decide)
    · rw [hname, Simulation.armed_snoc_store fun heq => absurd heq.1 (by decide)]
      exact hloaded.armed_eq
  exact ⟨hproper, hsince.skip hproper.armed_eq⟩

theorem Since.turnAll (h : g.Since config head [Simulation.settling config]) (functions : List (Pin × PinFunction)) :
    (g.turnAll functions).Since config head [Simulation.settling config] := by
  induction functions generalizing g with
  | nil => exact h
  | cons a rest ih => exact ih (h.turn a.1 a.2)

/-- The pins have been driven and turned. -/
theorem Proper.drive_turnAll (h : g.Proper config head false) (functions : List (Pin × PinFunction)) :
    ((g.store .gpio (Gpio.inactiveOffset config.invert) (Pin.maskOf config.pins)).turnAll functions).Proper config head
      false := by
  have hdriven := h.since.store (h.store_level config.invert (Pin.maskOf config.pins))
  rw [h.named.gpio] at hdriven
  exact (hdriven.turnAll functions).proper

/-- The control register of the pacer holds a word, which was the last to be stored there. -/
structure Shows (config : Config) (word : UInt32) (g : Panel) : Prop where
  named : g.Named config
  peek_eq : g.peek .pacer Pcm.control.offset = word
  latest_eq : latest config.pacer.block.name Pcm.control.offset g.events = some word

variable {word : UInt32}

theorem Shows.load (h : g.Shows config word) (role : Role) (offset : UInt64) : (g.load role offset).Shows config word :=
  ⟨h.named.note _, h.peek_eq, (Simulation.latest_snoc_load _ _).trans h.latest_eq⟩

theorem Shows.delay (h : g.Shows config word) (micros : UInt64) : (g.note (.delay micros)).Shows config word :=
  ⟨h.named.note _, h.peek_eq, (Simulation.latest_snoc_delay micros).trans h.latest_eq⟩

theorem Named.shows_store (h : g.Named config) (value : UInt32) :
    (g.store .pacer Pcm.control.offset value).Shows config value where
  named := h.store _ _ _
  peek_eq := by
    rw [peek_store, if_pos ⟨rfl, rfl, h.size_pos⟩]
  latest_eq := by
    show latest _ _ (g.events ++ [.store (g.block .pacer) _ _]) = _
    rw [Simulation.latest_snoc_store, if_pos ⟨h.pacer, rfl⟩]

/-- A store to another register. -/
theorem Shows.store_other (h : g.Shows config word) {role : Role}
    (hother : role ≠ .pacer ∨ Window.position offset ≠ Window.position Pcm.control.offset) :
    (g.store role offset value).Shows config word where
  named := h.named.store _ _ _
  peek_eq := by
    rw [peek_store, if_neg, h.peek_eq]
    rintro ⟨hrole, hposition, -⟩
    exact hother.elim (fun hne => hne hrole) fun hne => hne hposition
  latest_eq := by
    have hne : ¬ (g.block role = config.pacer.block.name ∧ offset = Pcm.control.offset) := by
      rintro ⟨hblock, rfl⟩
      obtain ⟨hdma, hclock, hgpio⟩ := config.pacer.name_block_ne
      cases role with
      | dma => exact hdma (h.named.dma ▸ hblock).symm
      | clock => exact hclock (h.named.clock ▸ hblock).symm
      | pacer => exact hother.elim (fun hne => hne rfl) fun hne => hne rfl
      | gpio => exact hgpio (h.named.gpio ▸ hblock).symm
    show latest _ _ (g.events ++ [.store (g.block role) _ _]) = _
    rw [Simulation.latest_snoc_store, if_neg hne, h.latest_eq]

/-- An armed channel that is paced by the PCM block may have transmission turned on. -/
theorem Proper.store_transmit (h : g.Proper config head true) (hpcm : config.pacer = .pcm)
    (hshows : g.Shows config word) (hoff : Pcm.transmit.isSet word = false) :
    (g.store .pacer Pcm.control.offset (Pcm.transmit.raise word)).Proper config head true := by
  have hname := h.named.pacer
  obtain ⟨hdma, hclock, hgpio⟩ := config.pacer.name_block_ne
  refine h.store ⟨?_, ?_, ?_, ?_⟩ ?_
  · rw [hname]
    exact fun heq => absurd heq hdma
  · rw [hname]
    exact fun _ => ⟨hclock, fun heq => hgpio heq.1, fun heq => hdma heq.1⟩
  · rw [hname]
    exact fun _ _ => ⟨hpcm, rfl, word, hshows.latest_eq, hoff, rfl⟩
  · rw [hname]
    exact fun heq => absurd heq hgpio
  · rw [hname, Simulation.armed_snoc_store fun heq => hdma heq.1]
    exact h.armed_eq

end Simulation.Panel

namespace Sequencer

/-- A store to the DMA channel that leaves it unarmed is remembered. -/
private theorem leads_settled_dma {wanted : List Event} {micros : UInt64} {f : Unit → Program α}
    (h : g.Since config head wanted) (hactive : offset = Dma.status.offset → Dma.active.isSet value = false)
    (hnext : ∀ g' : Panel, g'.Since config head (wanted ++ [.store "dma" offset value]) → (f ()).Leads post g') :
    Leads (settled .dma offset value micros >>= f) post g := by
  rw [leads_settled_iff]
  have hproper := h.proper.store_dma (fun hfalse => by cases hfalse) hactive
  have hstored := h.store hproper
  rw [h.proper.named.dma] at hstored
  exact hnext _ (hstored.delay micros)

theorem leads_startDma (h : g.Proper config head false) :
    (startDma head).Leads (fun _ g' => g'.Proper config head true) g := by
  unfold startDma
  refine leads_settled_dma h.since (fun _ => by decide) fun g₁ h₁ => ?_
  refine leads_settled_dma h₁ (fun _ => by decide) fun g₂ h₂ => ?_
  refine leads_settled_dma h₂ (fun hstatus => absurd hstatus (by decide)) fun g₃ h₃ => ?_
  refine leads_settled_dma h₃ (fun hstatus => absurd hstatus (by decide)) fun g₄ h₄ => ?_
  -- of the four stores, the first and the third are asked for
  have hsince : SinceArmed g₄.events
      [.store "dma" Dma.status.offset Dma.reset, .store "dma" Dma.controlBlock.offset head.value] :=
    h₄.since.sublist (by simp)
  exact (h₄.proper.arm hsince).delay shortSettle

theorem leads_prepare (s : Sequencer) (sampleMicros : UInt32) (h : g.Proper config head false) :
    (s.prepare sampleMicros).Leads (fun _ g' => g'.Proper config head false) g := by
  have honly : (s.prepare sampleMicros).Only (Action.Within [.clock, .pacer]) :=
    s.only_prepare (fun _ _ => .head _) (fun _ _ => .tail _ (.head _)) (fun _ => trivial) sampleMicros
  refine honly.leads_within (fun _ _ _ h => h.load _ _) (fun _ _ h => h.delay _) ?_ h
  intro g role offset value hrole hg
  exact hg.store_pacing (List.mem_pair.1 hrole) offset value

/-- The clock is started behind the back of the pacer. -/
private theorem leads_startClock_shows {word : UInt32} (s : Sequencer) (h : g.Shows config word) :
    s.startClock.Leads (fun _ g' => g'.Shows config word) g := by
  have honly : s.startClock.Only (Action.Within [.clock]) :=
    s.only_startClock (fun _ _ => .head _) (fun _ => trivial)
  refine honly.leads_within (fun _ _ _ h => h.load _ _) (fun _ _ h => h.delay _) ?_ h
  intro g role offset value hrole hg
  rw [List.mem_singleton.1 hrole]
  exact hg.store_other (.inl (by decide))

private theorem leads_startDma_shows {word : UInt32} (h : g.Shows config word) :
    (startDma head).Leads (fun _ g' => g'.Shows config word) g := by
  have honly : (startDma head).Only (Action.Within [.dma]) :=
    only_startDma (fun _ _ => .head _) (fun _ => trivial) head
  refine honly.leads_within (fun _ _ _ h => h.load _ _) (fun _ _ h => h.delay _) ?_ h
  intro g role offset value hrole hg
  rw [List.mem_singleton.1 hrole]
  exact hg.store_other (.inl (by decide))

private theorem leads_pacerStore_other {word : UInt32} {r : Register} {f : Unit → Program α} (h : g.Shows config word)
    (hother : Simulation.Window.position r.offset ≠ Simulation.Window.position Pcm.control.offset)
    (hnext : ∀ g' : Panel, g'.Shows config word → (f ()).Leads post g') (value : UInt32) (micros : UInt64) :
    Leads (pacerStore r value micros >>= f) post g :=
  hnext _ ((h.store_other (.inr hother)).delay micros)

private theorem leads_pacerModify_control {word : UInt32} (h : g.Shows config word) (change : UInt32 → UInt32) :
    (pacerModify Pcm.control change).Leads (fun _ g' => g'.Shows config (change word)) g := by
  rw [pacerModify, leads_read_iff, h.peek_eq]
  exact ((h.load .pacer Pcm.control.offset).named.shows_store _).delay longSettle

/-- The PCM block is prepared without being told to transmit. -/
private theorem leads_prepare_pcm (s : Sequencer) (sampleMicros : UInt32) (hpcm : s.pacer = .pcm)
    (h : g.Named config) :
    (s.prepare sampleMicros).Leads
      (fun _ g' => ∃ word, Pcm.transmit.isSet word = false ∧ g'.Shows config word) g := by
  have hfirst := (h.shows_store (Pcm.enable.raise 0)).delay longSettle
  simp only [prepare, hpcm]
  rw [pacerStore, leads_settled_iff, leads_bind_iff]
  refine (leads_startClock_shows s hfirst).mono fun _ g₁ h₁ => ?_
  refine leads_pacerStore_other h₁ (by decide) (fun g₂ h₂ => ?_) _ _
  refine Program.leads_ofExcept fun mode => ?_
  refine leads_pacerStore_other h₂ (by decide) (fun g₃ h₃ => ?_) _ _
  rw [leads_bind_iff]
  refine (leads_pacerModify_control h₃ _).mono fun _ g₄ h₄ => ?_
  refine leads_pacerStore_other h₄ (by decide) (fun g₅ h₅ => ?_) _ _
  exact (leads_pacerModify_control h₅ _).mono fun _ g₆ h₆ => ⟨_, by decide, h₆⟩

theorem leads_start (s : Sequencer) (hpacer : s.pacer = config.pacer) (sampleMicros : UInt32)
    (h : g.Proper config head false) :
    (s.start head sampleMicros).Leads (fun _ g' => g'.Proper config head true) g := by
  obtain ⟨message, heq⟩ := s.start_eq head sampleMicros
  rw [heq, leads_log_iff, leads_bind_iff]
  cases hpcm : s.pacer with
  | pwm =>
    refine (leads_prepare s sampleMicros h).mono fun _ g₁ h₁ => ?_
    rw [leads_bind_iff]
    refine (leads_startDma h₁).mono fun _ g₂ h₂ => ?_
    simp only [finish, hpcm]
    exact h₂
  | pcm =>
    refine ((leads_prepare s sampleMicros h).and (leads_prepare_pcm s sampleMicros hpcm h.named)).mono ?_
    rintro _ g₁ ⟨h₁, word, hoff, hshows₁⟩
    rw [leads_bind_iff]
    refine ((leads_startDma h₁).and (leads_startDma_shows hshows₁)).mono ?_
    rintro _ g₂ ⟨h₂, hshows₂⟩
    simp only [finish, hpcm, pacerModify]
    rw [leads_read_iff, hshows₂.peek_eq]
    have hproper := (h₂.load .pacer Pcm.control.offset).store_transmit (hpacer ▸ hpcm)
      (hshows₂.load .pacer Pcm.control.offset) hoff
    exact hproper.delay longSettle

end Sequencer

namespace Engine

variable {n found : UInt32} {e : Engine}

/-- Between two calls all stores were in order, and the channel is armed if the engine runs. -/
structure Ordered (config : Config) (head : BusAddress) (e : Engine) (g : Panel) : Prop where
  pacer_eq : e.sequencer.pacer = config.pacer
  head_eq : e.chain.head = head
  proper : g.Proper config head (e.state = .running)

theorem leads_start_ordered (h : e.Ordered config head g) (hstate : e.state = .stopped) :
    e.start.Leads (Ordered config head) g := by
  have hproper : g.Proper config head false := by
    have := h.proper
    rw [hstate] at this
    exact this
  apply leads_start hstate
  rw [h.head_eq]
  refine (e.sequencer.leads_start h.pacer_eq _ hproper).mono fun _ g' hg' => ?_
  exact ⟨h.pacer_eq, h.head_eq, hg'⟩

theorem proper_halted (h : e.Ordered config head g) : (e.halted g).Proper config head false := by
  have hproper := h.proper
  unfold halted
  by_cases hrunning : e.state = .running
  · rw [if_pos hrunning]
    have hwaited := hproper.delay e.config.cycleMicros.toUInt64
    have hreset : (Panel.store _ .dma Dma.status.offset Dma.reset).Proper config head false :=
      hwaited.store_dma (fun _ => rfl) fun _ => by decide
    exact (hreset.delay shortSettle).store_level _ _
  · rw [if_neg hrunning]
    rwa [decide_eq_false hrunning] at hproper

theorem leads_stop_ordered (h : e.Ordered config head g) : e.stop.Leads (Ordered config head) g := by
  have hhalted := proper_halted h
  rw [← bind_pure e.stop, leads_stop_iff, leads_pure_iff]
  by_cases hrunning : e.state = .running
  · rw [if_pos hrunning]
    exact ⟨h.pacer_eq, h.head_eq, hhalted⟩
  · rw [if_neg hrunning]
    refine ⟨h.pacer_eq, h.head_eq, ?_⟩
    rwa [decide_eq_false hrunning]

/-- Every request that is carried out keeps the order. -/
theorem leads_respond_ordered {q : Request} {p : Program Engine} (hp : e.respond q = .ok p)
    (h : e.Ordered config head g) : p.Leads (Ordered config head) g := by
  have hcommit : ∀ t message, (e.commit t message).Leads (Ordered config head) g := by
    intro t message
    rw [leads_commit_iff]
    exact ⟨h.pacer_eq, h.head_eq, h.proper⟩
  cases responds_of_respond hp with
  | drive message => exact hcommit _ message
  | release =>
    rw [leads_regenerate_iff, Sequencer.driveInactive, leads_store_iff, leads_log_iff, leads_pure_iff]
    exact ⟨h.pacer_eq, h.head_eq, h.proper.store_level _ _⟩
  | stop => exact leads_stop_ordered h
  | start =>
    by_cases hstopped : e.state = .stopped
    · exact leads_start_ordered h hstopped
    · rw [start, if_pos hstopped]
      exact h

/-- The engine that has been made is running, and its stores were in order from the first one on. -/
theorem leads_assemble_ordered (valid : config.validate = .ok n) (hnamed : g.Named config) (hfresh : g.events = [])
    (hsize : 4 ≤ g.size .gpio) (arena : Arena) :
    (assemble config arena).Leads (fun result g' => ∀ e, result = .ok e → e.Ordered config e.chain.head g') g := by
  have hnodup := nodup_of_check (config.bounds_of_validate valid).2.2
  apply leads_assemble
  · intro reason e h
    cases h
  · intro table chain
    rw [Sequencer.leads_claimPins_iff hnodup hsize]
    have hproper : g.Proper config chain.head false := ⟨hnamed, hfresh ▸ Simulation.orderly_nil, by rw [hfresh]; rfl⟩
    have hclaimed := hproper.drive_turnAll (config.pins.map (·, .output))
    have hordered : ∀ s : Sequencer, s.pacer = config.pacer →
        Ordered config chain.head (stopped config table chain s) _ := fun _ hpacer => ⟨hpacer, rfl, hclaimed⟩
    apply (leads_start_ordered (hordered _ rfl) rfl).mono
    rintro e g' hg' e' h
    cases h
    rw [hg'.head_eq]
    exact hg'

theorem proper_shut (h : e.Ordered config head g) (hconfig : e.config = config)
    (hclaimed : e.sequencer.claimed.map (·.1) = config.pins) : (e.shut g).Proper config head false := by
  subst hconfig
  have hquiesced : (e.sequencer.quiesced (e.halted g)).Proper e.config head false := by
    have hhalted := proper_halted h
    unfold Sequencer.quiesced
    split <;> exact (hhalted.store_pacing (.inr rfl) _ _).delay _
  unfold shut Sequencer.released
  split
  · exact hquiesced
  · rw [hclaimed]
    exact hquiesced.drive_turnAll _

end Engine

/-! ### What is stored at the end -/

/-- What is stored when an engine that runs or does not is shut down, up to the functions of the pins. -/
def Config.closing (config : Config) (running : Bool) : List (String × UInt64 × UInt32) :=
  let settled := ("gpio", Gpio.inactiveOffset config.invert, Pin.maskOf config.pins)
  (if running then [("dma", Dma.status.offset, Dma.reset), settled] else []) ++
    [(config.pacer.block.name, config.pacer.control.offset, 0), settled]

/-- A store that gives a pin a function. -/
def Turns (a : Pin × PinFunction) (s : String × UInt64 × UInt32) : Prop :=
  ∃ word, s = ("gpio", Gpio.selectOffset a.1.number, Gpio.withFunction word a.1.number a.2)

namespace Simulation.Panel

@[simp] theorem written_store (g : Panel) (role : Role) (offset : UInt64) (value : UInt32) :
    written (g.store role offset value).events = written g.events ++ [(g.block role, offset, value)] :=
  written_append _ _

@[simp] theorem written_delay (g : Panel) (micros : UInt64) :
    written (g.note (.delay micros)).events = written g.events :=
  (written_append _ _).trans (List.append_nil _)

@[simp] theorem written_load (g : Panel) (role : Role) (offset : UInt64) :
    written (g.load role offset).events = written g.events :=
  (written_append _ _).trans (List.append_nil _)

theorem Named.turnAll (h : g.Named config) (functions : List (Pin × PinFunction)) :
    ∃ restoring, written (g.turnAll functions).events = written g.events ++ restoring ∧
      List.Forall₂ Turns functions restoring := by
  induction functions generalizing g with
  | nil => exact ⟨[], (List.append_nil _).symm, .nil⟩
  | cons a rest ih =>
    have hnamed : (g.turn a.1 a.2).Named config := (h.note _).store .gpio _ _
    obtain ⟨restoring, hrestoring, hturns⟩ := ih hnamed
    have hblock : (g.load .gpio (Gpio.selectOffset a.1.number)).block .gpio = "gpio" := h.gpio
    refine ⟨_ :: restoring, ?_, .cons ⟨g.peek .gpio (Gpio.selectOffset a.1.number), rfl⟩ hturns⟩
    show written ((g.turn a.1 a.2).turnAll rest).events = _
    rw [hrestoring, turn, written_store, written_load, hblock, List.append_assoc]
    rfl

end Simulation.Panel

namespace Engine

variable {n found : UInt32} {e : Engine}

/-- The stores of an engine that is shut down, whose claimed pins are those of its configuration. -/
theorem written_shut (h : g.Named config) (hconfig : e.config = config) (hpacer : e.sequencer.pacer = config.pacer)
    (hmask : e.table.silence.pinMask = Pin.maskOf config.pins) (hclaimed : e.sequencer.claimed.map (·.1) = config.pins)
    (hpins : config.pins ≠ []) :
    ∃ restoring, Simulation.written (e.shut g).events =
        Simulation.written g.events ++ config.closing (e.state = .running) ++ restoring ∧
      List.Forall₂ Turns e.sequencer.claimed restoring := by
  subst hconfig
  have hhalted : (e.halted g).Named e.config ∧ Simulation.written (e.halted g).events =
      Simulation.written g.events ++ if e.state = .running then
        [("dma", Dma.status.offset, Dma.reset), ("gpio", Gpio.inactiveOffset e.config.invert, Pin.maskOf e.config.pins)]
      else [] := by
    unfold halted
    by_cases hrunning : e.state = .running
    · rw [if_pos hrunning, if_pos hrunning]
      have hreset := ((h.note (.delay e.config.cycleMicros.toUInt64)).store .dma Dma.status.offset Dma.reset).note
        (.delay shortSettle)
      refine ⟨hreset.store _ _ _, ?_⟩
      rw [Panel.written_store, hreset.gpio, Panel.written_delay, Panel.written_store, (h.note _).dma,
        Panel.written_delay, List.append_assoc, hmask]
      rfl
    · rw [if_neg hrunning, if_neg hrunning]
      exact ⟨h, (List.append_nil _).symm⟩
  obtain ⟨hnamed, hwritten⟩ := hhalted
  have hquiesced : (e.sequencer.quiesced (e.halted g)).Named e.config ∧
      Simulation.written (e.sequencer.quiesced (e.halted g)).events = Simulation.written (e.halted g).events ++
        [(e.config.pacer.block.name, e.config.pacer.control.offset, 0)] := by
    rw [← hnamed.pacer, ← hpacer]
    unfold Sequencer.quiesced
    cases e.sequencer.pacer
    · exact ⟨(hnamed.store _ _ _).note _, by rw [Panel.written_delay, Panel.written_store]; rfl⟩
    · exact ⟨(hnamed.store _ _ _).note _, by rw [Panel.written_delay, Panel.written_store]; rfl⟩
  obtain ⟨hnamed', hwritten'⟩ := hquiesced
  have hsome : e.sequencer.claimed.isEmpty = false := by
    rw [Bool.eq_false_iff, ne_eq, List.isEmpty_iff, ← List.map_eq_nil_iff, hclaimed]
    exact hpins
  unfold shut Sequencer.released
  rw [if_neg (Bool.eq_false_iff.1 hsome), hclaimed]
  obtain ⟨restoring, hrestoring, hturns⟩ :=
    (hnamed'.store .gpio (Gpio.inactiveOffset e.config.invert) (Pin.maskOf e.config.pins)).turnAll e.sequencer.claimed
  refine ⟨restoring, ?_, hturns⟩
  rw [hrestoring, Panel.written_store, hnamed'.gpio, hwritten', hwritten]
  simp [Config.closing]

end Engine

/-! ### Whole runs -/

theorem Simulation.Bench.named_over (config : Config) (contents : List (Role × UInt64 × UInt32)) (arena : Arena) :
    (Bench.over config contents arena).panel.Named config := by
  have hsame := Bench.get_preset (Bench.windowsOf config.pacer) contents
  refine ⟨(hsame .dma).1, (hsame .clock).1, (hsame .pacer).1, (hsame .gpio).1, ?_⟩
  refine Nat.lt_of_lt_of_eq ?_ (hsame .pacer).2.symm
  refine Nat.lt_of_lt_of_eq ?_ Array.size_replicate.symm
  decide

/-- Stores that do not select a function. -/
def Unselecting (stores : List (String × UInt64 × UInt32)) : Prop := ∀ s ∈ stores, ¬ (s.1 = "gpio" ∧ IsSelect s.2.1)

private theorem not_select_of_spares (h : g.Named config) {role : Role}
    (hspares : Action.Spares (.store role offset value)) : ¬ (g.block role = "gpio" ∧ IsSelect offset) := by
  rintro ⟨hblock, hselect⟩
  cases role with
  | dma =>
    rw [h.dma] at hblock
    exact absurd hblock (by decide)
  | clock =>
    rw [h.clock] at hblock
    exact absurd hblock (by decide)
  | pacer =>
    rw [h.pacer] at hblock
    exact config.pacer.name_block_ne.2.2 hblock
  | gpio =>
    obtain ⟨invert, rfl⟩ := hspares
    have hnone : ∀ invert, ¬ IsSelect (Gpio.inactiveOffset invert) := by decide
    exact hnone invert hselect

/-- No request selects a function. -/
theorem Rig.unselecting_handleAll {r : Rig Bench} (h : r.machine.panel.Named config) (requests : List Request) :
    ∃ middle, Simulation.written (r.handleAll requests).machine.panel.events =
      Simulation.written r.machine.panel.events ++ middle ∧ Unselecting middle := by
  have hvisited := r.visited_of_spares
    (P := fun g => g.Named config ∧ ∃ middle,
      Simulation.written g.events = Simulation.written r.machine.panel.events ++ middle ∧ Unselecting middle)
    (fun g role offset hg => ⟨hg.1.note _, by simpa using hg.2⟩) ?_
    ⟨h, [], (List.append_nil _).symm, by simp [Unselecting]⟩ requests
  · exact (hvisited _ (r.handleAll_mem_visited requests)).2
  · rintro g action hspares ⟨hnamed, middle, hmiddle, hunselecting⟩
    cases action with
    | store role offset value =>
      refine ⟨hnamed.store role offset value, middle ++ [(g.block role, offset, value)], ?_, ?_⟩
      · rw [Panel.perform, Panel.written_store, hmiddle, List.append_assoc]
      · intro s hs
        rcases List.mem_append.1 hs with hs | hs
        · exact hunselecting s hs
        · rw [List.mem_singleton.1 hs]
          exact not_select_of_spares hnamed hspares
    | pause micros => exact ⟨hnamed.note _, middle, by simpa [Panel.perform] using hmiddle, hunselecting⟩
    | write _ _ | log _ | print _ => exact ⟨hnamed, middle, hmiddle, hunselecting⟩

/-- For every configuration that is accepted, all contents of the windows and every sequence of requests: the channel
is armed exactly while the engine runs, and not when the engine has been shut down; all stores are in order, from the
first to the last one; functions are selected when the engine is made and when it is shut down, and not in between.
To shut an engine down is to reset a running channel, to switch the pacer off, and to give each pin the function
that it was found with; to do so again is to do nothing. -/
theorem order_of_run {n : UInt32} (valid : config.validate = .ok n) (contents : List (Role × UInt64 × UInt32))
    (arena : Arena) :
    let start := Bench.over config contents arena
    (arena.Fits ⟨n⟩ → arena.table.Covers ⟨n⟩ → ∃ e b, Simulation.assemble config start = .ok (e, b)) ∧
    ∀ e b, Simulation.assemble config start = .ok (e, b) → ∀ requests : List Request,
      let r := (Rig.mk e b).handleAll requests
      (armed r.machine.panel.events = true ↔ r.engine.state = .running) ∧
      armed r.close.machine.panel.events = false ∧
      (∀ x ∈ [r, r.close], Orderly config e.chain.head x.machine.panel.events) ∧
      (∃ middle, Simulation.written r.machine.panel.events = Simulation.written b.panel.events ++ middle ∧
        Unselecting middle) ∧
      (∃ restoring, Simulation.written r.close.machine.panel.events =
          Simulation.written r.machine.panel.events ++ config.closing (r.engine.state = .running) ++ restoring ∧
        List.Forall₂ Turns (config.pins.map fun p => (p, start.windows.gpio.functionOf p)) restoring) ∧
      r.close.close = r.close := by
  intro start
  refine ⟨fun hfits hcovers => Simulation.assemble_eq_ok valid (b := start) hfits hcovers, ?_⟩
  intro e b hmade requests r
  obtain ⟨-, -, hcheck⟩ := config.bounds_of_validate valid
  have hsize : 4 ≤ start.panel.size .gpio := by
    rw [Bench.size_over]
    decide
  have hrun := Simulation.run_of_assemble hmade
  have hnamed := Bench.named_over config contents arena
  obtain ⟨hclaimed, -⟩ := Program.panel_of_run (Engine.leads_assemble_claimed valid hsize start.arena) hrun e rfl
  have hmadeOrdered :=
    Program.panel_of_run (Engine.leads_assemble_ordered valid hnamed rfl hsize start.arena) hrun e rfl
  obtain ⟨hsettled, hstart⟩ := Rig.settled_of_assemble valid hmade
  obtain ⟨-, -, hsequencer, hexited⟩ := hsettled.frame_handleAll requests
  have hordered : r.engine.Ordered config e.chain.head r.machine.panel :=
    hsettled.keeps (fun _ _ _ _ _ _ hp h => Engine.leads_respond_ordered hp h) hmadeOrdered requests
  obtain ⟨s, -, hs⟩ := (hsettled.handleAll requests).1
  have hstate : r.engine.state ≠ .exited := by
    rw [ne_eq, hexited, hstart]
    decide
  have hpins : r.engine.sequencer.claimed.map (·.1) = config.pins := hs.claimed_eq hstate
  have hmask : r.engine.table.silence.pinMask = Pin.maskOf config.pins := by
    rw [ChannelTable.pinMask, (ChannelTable.silence_lawful hs.lawful).pins_eq]
  have hshut := Engine.proper_shut hordered hs.config_eq hpins
  have hwritten := Engine.written_shut hordered.proper.named hs.config_eq hordered.pacer_eq hmask hpins
    (ne_nil_of_check hcheck)
  rw [← hsettled.panel_close hstart requests] at hshut hwritten
  refine ⟨?_, hshut.armed_eq, ?_, Rig.unselecting_handleAll hmadeOrdered.proper.named requests, ?_, Rig.close_close r⟩
  · rw [hordered.proper.armed_eq, decide_eq_true_iff]
  · intro x hx
    rcases List.mem_pair.1 hx with rfl | rfl
    · exact hordered.proper.orderly
    · exact hshut.orderly
  · rwa [show r.engine.sequencer.claimed = _ from hsequencer ▸ hclaimed] at hwritten

theorem order_of_small :
    let config := { Config.small with pacer := .pcm }
    config.validate = .ok 3 ∧ Arena.small.Fits ⟨3⟩ ∧ Arena.small.table.Covers ⟨3⟩ ∧
      ∃ e b, Simulation.assemble config (Bench.over config [(.pacer, 0, 4)] Arena.small) = .ok (e, b) ∧
        armed b.panel.events = true ∧ ∀ requests,
          let r := (Rig.mk e b).handleAll requests
          armed r.close.machine.panel.events = false ∧
            Orderly config e.chain.head r.close.machine.panel.events := by
  intro config
  have valid : Config.validate { Config.small with pacer := .pcm } = .ok 3 := rfl
  obtain ⟨fits, covers⟩ := Arena.small_accepted
  obtain ⟨hmake, hall⟩ := order_of_run valid [(.pacer, 0, 4)] Arena.small
  obtain ⟨e, b, hmade⟩ := hmake fits covers
  have hrunning := (Rig.settled_of_assemble valid hmade).2
  have hstart := (hall e b hmade []).1.2 hrunning
  refine ⟨valid, fits, covers, e, b, hmade, hstart, ?_⟩
  intro requests r
  obtain ⟨-, hclosed, horder, -⟩ := hall e b hmade requests
  exact ⟨hclosed, horder r.close (by simp [r])⟩

end PulseWidth
