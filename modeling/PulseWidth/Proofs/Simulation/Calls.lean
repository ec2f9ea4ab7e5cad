import PulseWidth.Proofs.Engine.Simulated
import PulseWidth.Proofs.Replay.Session
import PulseWidth.Proofs.Simulation.Panel

/-!
# Calls on a panel

What the calls of an engine do to the registers of its bench.  The start sequence is cut into the part in front of the
DMA channel and the part behind it.  No request touches the function select words (`spares_respond`), and a property of
engine and panel that every request keeps holds after any number of them (`Rig.Settled.keeps`).  An engine can be
assembled over windows with any contents.
-/

namespace PulseWidth

open Simulation (Bench Panel)
open Program (Leads only_bind only_each only_perform only_pure leads_bind_iff leads_log_iff leads_regenerate_iff
  leads_each_write_iff leads_logAll_iff)

variable {α : Type} {kind : Action → Prop} {post : α → Panel → Prop} {g : Panel}

/-! ### The hardware sequence -/

namespace Sequencer

/-- What is done in front of the DMA channel to start pacing. -/
def prepare (s : Sequencer) (sampleMicros : UInt32) : Program Unit :=
  match s.pacer with
  | .pwm => do
    pacerStore Pwm.control 0 shortSettle
    s.startClock
    pacerStore Pwm.range (ticksOf sampleMicros) shortSettle
    pacerStore Pwm.request Pwm.pacingRequest shortSettle
    pacerStore Pwm.control Pwm.clearing shortSettle
    pacerStore Pwm.control Pwm.pacing shortSettle
  | .pcm => do
    pacerStore Pcm.control (Pcm.enable.raise 0) longSettle
    s.startClock
    pacerStore Pcm.channels (Pcm.firstChannel.raise 0) longSettle
    let mode ← Program.ofExcept (Pcm.frame (frameLengthOf (ticksOf sampleMicros)))
    pacerStore Pcm.mode mode longSettle
    pacerModify Pcm.control fun word => Pcm.clearReceive.raise (Pcm.clearTransmit.raise word)
    pacerStore Pcm.request Pcm.pacingRequest longSettle
    pacerModify Pcm.control Pcm.requestEnable.raise

/-- What is done to the pacer behind the DMA channel. -/
def finish (s : Sequencer) : Program Unit :=
  match s.pacer with
  | .pwm => pure ()
  | .pcm => pacerModify Pcm.control Pcm.transmit.raise

theorem start_eq (s : Sequencer) (head : BusAddress) (sampleMicros : UInt32) :
    ∃ message, s.start head sampleMicros = (do
      Program.log .debug "pwm_engine::sequencer" message
      s.prepare sampleMicros
      startDma head
      s.finish) := by
  refine ⟨"starting " ++ s.pacer.text ++ " pacing at " ++ toString (ticksOf sampleMicros).toNat ++
    " ticks per sample, chain head " ++ head.text, ?_⟩
  unfold start prepare finish
  cases s.pacer <;> simp only [bind_assoc, bind_pure_unit]

theorem only_settled {role : Role} {offset : UInt64} {value : UInt32} {micros : UInt64}
    (hstore : kind (.store role offset value)) (hpause : kind (.pause micros)) :
    (settled role offset value micros).Only kind :=
  only_bind (only_perform.2 hstore) fun _ => only_perform.2 hpause

theorem only_ofExcept {x : Except Fault α} : (Program.ofExcept x).Only kind := by
  cases x <;> exact trivial

section Pacing

variable (hdma : ∀ offset value, kind (.store .dma offset value))
  (hclock : ∀ offset value, kind (.store .clock offset value))
  (hpacer : ∀ offset value, kind (.store .pacer offset value)) (hpause : ∀ micros, kind (.pause micros))

include hpacer hpause in
theorem only_pacerModify (r : Register) (change : UInt32 → UInt32) : (pacerModify r change).Only kind :=
  fun _ => only_settled (hpacer _ _) (hpause _)

include hclock hpause in
theorem only_startClock (s : Sequencer) : s.startClock.Only kind := by
  unfold startClock
  refine only_bind (only_settled (hclock _ _) (hpause _)) fun _ => ?_
  refine only_bind only_ofExcept fun divisor => ?_
  refine only_bind (only_settled (hclock _ _) (hpause _)) fun _ => ?_
  exact only_settled (hclock _ _) (hpause _)

include hdma hpause in
theorem only_startDma (head : BusAddress) : (startDma head).Only kind := by
  have hstore : ∀ (r : Register) (value : UInt32), (settled .dma r.offset value shortSettle).Only kind :=
    fun _ _ => only_settled (hdma _ _) (hpause _)
  refine only_bind (hstore _ _) fun _ => only_bind (hstore _ _) fun _ => ?_
  exact only_bind (hstore _ _) fun _ => only_bind (hstore _ _) fun _ => hstore _ _

include hclock hpacer hpause in
/-- In front of the DMA channel only the clock and the pacer are written to. -/
theorem only_prepare (s : Sequencer) (sampleMicros : UInt32) : (s.prepare sampleMicros).Only kind := by
  have hstore : ∀ (r : Register) (value : UInt32) (micros : UInt64), (pacerStore r value micros).Only kind :=
    fun _ _ _ => only_settled (hpacer _ _) (hpause _)
  unfold prepare
  split
  · refine only_bind (hstore _ _ _) fun _ => only_bind (s.only_startClock hclock hpause) fun _ => ?_
    refine only_bind (hstore _ _ _) fun _ => only_bind (hstore _ _ _) fun _ => ?_
    exact only_bind (hstore _ _ _) fun _ => hstore _ _ _
  · refine only_bind (hstore _ _ _) fun _ => only_bind (s.only_startClock hclock hpause) fun _ => ?_
    refine only_bind (hstore _ _ _) fun _ => only_bind only_ofExcept fun mode => ?_
    refine only_bind (hstore _ _ _) fun _ => only_bind (only_pacerModify hpacer hpause _ _) fun _ => ?_
    exact only_bind (hstore _ _ _) fun _ => only_pacerModify hpacer hpause _ _

end Pacing

theorem leads_settled_iff (role : Role) (offset : UInt64) (value : UInt32) (micros : UInt64) (f : Unit → Program α) :
    Leads (settled role offset value micros >>= f) post g ↔
      (f ()).Leads post ((g.store role offset value).note (.delay micros)) := Iff.rfl

end Sequencer

/-! ### Requests -/

/-- Of the GPIO block, the action reaches the set and the clear register only. -/
def Action.Spares : Action → Prop
  | .store .gpio offset _ => ∃ invert, offset = Gpio.inactiveOffset invert
  | _ => True

namespace Sequencer

theorem spares_start (s : Sequencer) (head : BusAddress) (sampleMicros : UInt32) :
    (s.start head sampleMicros).Only Action.Spares := by
  obtain ⟨message, heq⟩ := s.start_eq head sampleMicros
  rw [heq]
  refine only_bind (only_perform.2 trivial) fun _ => ?_
  refine only_bind (s.only_prepare (fun _ _ => trivial) (fun _ _ => trivial) (fun _ => trivial) _) fun _ => ?_
  refine only_bind (only_startDma (fun _ _ => trivial) (fun _ => trivial) head) fun _ => ?_
  unfold finish
  split
  · exact only_pure _
  · exact only_pacerModify (fun _ _ => trivial) (fun _ => trivial) _ _

end Sequencer

namespace Engine

variable {e : Engine}

theorem spares_regenerate (l : ChainLayout) (channels : List Channel) :
    (regenerate l channels).Only Action.Spares :=
  only_each fun _ _ => only_perform.2 trivial

theorem spares_stop (e : Engine) : e.stop.Only Action.Spares := by
  unfold stop
  split
  · exact only_pure _
  · refine only_bind (spares_regenerate _ _) fun _ => only_bind (only_perform.2 trivial) fun _ => ?_
    refine only_bind (Sequencer.only_settled trivial trivial) fun _ => ?_
    refine only_bind (only_perform.2 ⟨_, rfl⟩) fun _ => ?_
    exact only_bind (only_perform.2 trivial) fun _ => only_pure _

theorem spares_start (e : Engine) : e.start.Only Action.Spares := by
  unfold start
  split
  · exact only_pure _
  · refine only_bind (e.sequencer.spares_start _ _) fun _ => ?_
    exact only_bind (only_perform.2 trivial) fun _ => only_pure _

theorem spares_respond {q : Request} {p : Program Engine} (h : e.respond q = .ok p) : p.Only Action.Spares := by
  have hcommit : ∀ t message, (e.commit t message).Only Action.Spares := by
    intro t message
    refine only_bind (spares_regenerate _ _) fun _ => ?_
    exact only_bind (only_perform.2 trivial) fun _ => only_pure _
  cases responds_of_respond h with
  | drive message => exact hcommit _ message
  | release =>
    refine only_bind (spares_regenerate _ _) fun _ => only_bind (only_perform.2 ⟨_, rfl⟩) fun _ => ?_
    exact only_bind (only_perform.2 trivial) fun _ => only_pure _
  | stop => exact e.spares_stop
  | start => exact e.spares_start

theorem leads_commit_iff {post : Engine → Panel → Prop} (t : ChannelTable) (message : String) :
    (e.commit t message).Leads post g ↔ post { e with table := t } g := by
  rw [commit, leads_regenerate_iff]
  exact Iff.rfl

theorem leads_start {post : Engine → Panel → Prop} (hstate : e.state = .stopped)
    (h : (e.sequencer.start e.chain.head e.config.sampleMicros).Leads
      (fun _ g' => post { e with state := .running } g') g) : e.start.Leads post g := by
  unfold start
  rw [if_neg (not_not_intro hstate), leads_bind_iff]
  exact h

/-- The panel after an engine has been stopped: one that runs waits for a cycle, resets the channel and drives its
pins. -/
def halted (e : Engine) (g : Panel) : Panel :=
  if e.state = .running then
    ((((g.note (.delay e.config.cycleMicros.toUInt64)).store .dma Dma.status.offset Dma.reset).note
      (.delay shortSettle)).store .gpio (Gpio.inactiveOffset e.config.invert) e.table.silence.pinMask)
  else g

theorem leads_stop_iff (f : Engine → Program α) : (e.stop >>= f).Leads post g ↔
    (f (if e.state = .running then { e with table := e.table.silence, state := .stopped } else e)).Leads post
      (e.halted g) := by
  unfold stop halted
  by_cases hrunning : e.state = .running
  · rw [if_neg (not_not_intro hrunning), if_pos hrunning, if_pos hrunning, bind_assoc, leads_regenerate_iff]
    exact Iff.rfl
  · rw [if_pos hrunning, if_neg hrunning, if_neg hrunning]
    exact Iff.rfl

end Engine

/-! ### Rigs -/

namespace Rig

variable {config : Config} {n found : UInt32} {r : Rig Bench}

/-- A request is refused, or its program is run to the end. -/
theorem Settled.run_handle (h : r.Settled config n found) (q : Request) :
    (∃ reason, r.engine.respond q = .error reason) ∨
      ∃ p, r.engine.respond q = .ok p ∧ (r.handle q).1 = .ok () ∧
        p.run r.machine = (.ok (r.handle q).2.engine, (r.handle q).2.machine) := by
  cases hresponse : r.engine.respond q with
  | error reason => exact .inl ⟨reason, rfl⟩
  | ok p =>
    obtain ⟨s, harena, hs⟩ := h
    obtain ⟨t, -, hensures⟩ := hs.ensures_respond hresponse
    obtain ⟨e', b', s', hrun, -, -⟩ := Program.run_of_ensures hensures harena
    have hhandle : r.handle q = (.ok (), ⟨e', b'⟩) := by
      simp only [Rig.handle, hresponse, Rig.run, hrun]
    rw [hhandle]
    exact .inr ⟨p, rfl, rfl, hrun⟩

/-- A property of engine and panel that the program of every request keeps. -/
theorem Settled.keeps {I : Engine → Panel → Prop} (h : r.Settled config n found)
    (hstep : ∀ e s g q p, Engine.Settled config n found e s → e.respond q = .ok p → I e g → p.Leads I g)
    (hI : I r.engine r.machine.panel) (requests : List Request) :
    I (r.handleAll requests).engine (r.handleAll requests).machine.panel := by
  induction requests generalizing r with
  | nil => exact hI
  | cons q rest ih =>
    have hsplit : r.handleAll (q :: rest) = (r.handle q).2.handleAll rest := rfl
    rw [hsplit]
    have hsettled : (r.handle q).2.Settled config n found := (h.handleAll [q]).1
    apply ih hsettled
    rcases h.run_handle q with ⟨reason, hresponse⟩ | ⟨p, hresponse, -, hrun⟩
    · rw [handle_of_refused hresponse]
      exact hI
    · obtain ⟨s, -, hs⟩ := h
      exact Program.panel_of_run (hstep _ s _ q p hs hresponse hI) hrun

/-- No request touches the configuration, the chain or the claimed pins, or ends the engine. -/
theorem Settled.frame_handleAll (h : r.Settled config n found) (requests : List Request) :
    let e' := (r.handleAll requests).engine
    e'.config = r.engine.config ∧ e'.chain = r.engine.chain ∧ e'.sequencer = r.engine.sequencer ∧
      (e'.state = .exited ↔ r.engine.state = .exited) := by
  induction requests generalizing r with
  | nil => exact ⟨rfl, rfl, rfl, Iff.rfl⟩
  | cons q rest ih =>
    have hsplit : r.handleAll (q :: rest) = (r.handle q).2.handleAll rest := rfl
    rw [hsplit]
    rcases h.handle q with ⟨reason, heq⟩ | ⟨t, r', heq, -, hengine, hsettled, -⟩
    · rw [heq]
      exact ih h
    · rw [heq]
      obtain ⟨hconfig, hchain, hsequencer, hexited⟩ := ih hsettled
      rw [hengine] at hconfig hchain hsequencer hexited
      refine ⟨hconfig, hchain, hsequencer, hexited.trans ?_⟩
      show r.engine.stateAfter q = .exited ↔ _
      cases q <;> cases hstate : r.engine.state <;> simp [Engine.stateAfter, hstate]

/-- A settled engine is shut down to the end. -/
theorem Settled.run_exit (h : r.Settled config n found) :
    ∃ e', r.engine.exit.run r.machine = (.ok e', r.close.machine) ∧ e'.state = .exited := by
  obtain ⟨s, harena, hs⟩ := h
  obtain ⟨e', b', s', hrun, -, hexited, -⟩ := Program.run_of_ensures hs.ensures_exit harena
  refine ⟨e', ?_, hexited⟩
  simp only [close, hrun]

/-- An engine that has been shut down is left as it is. -/
theorem close_close (r : Rig Bench) : r.close.close = r.close := by
  have hexit : r.close.engine.exit = .done r.close.engine := if_pos rfl
  have hrun : r.close.engine.exit.run r.close.machine = (.ok r.close.engine, r.close.machine) := by
    rw [hexit]
    rfl
  rw [close, hrun]
  rfl

/-- The machines that are passed while some requests are carried out, one after the other. -/
def visited {σ : Type} [Machine σ] (r : Rig σ) : List Request → List σ
  | [] => [r.machine]
  | q :: rest =>
    (match r.engine.respond q with
      | .ok p => p.visited r.machine
      | .error _ => [r.machine]) ++ (r.handle q).2.visited rest

theorem handleAll_mem_visited {σ : Type} [Machine σ] (r : Rig σ) (requests : List Request) :
    (r.handleAll requests).machine ∈ r.visited requests := by
  induction requests generalizing r with
  | nil => exact List.mem_singleton.2 rfl
  | cons q rest ih => exact List.mem_append_right _ (ih (r.handle q).2)

theorem machine_handle {σ : Type} [Machine σ] {r : Rig σ} {q : Request} {p : Program Engine}
    (h : r.engine.respond q = .ok p) : (r.handle q).2.machine = (p.run r.machine).2 := by
  simp only [Rig.handle, h, Rig.run]
  obtain ⟨answer, after⟩ := p.run r.machine
  cases answer <;> rfl

/-- What loads and actions that spare the function select words keep holds at all times, whatever is requested. -/
theorem visited_of_spares {P : Panel → Prop} (hload : ∀ g role offset, P g → P (g.load role offset))
    (hperform : ∀ g action, action.Spares → P g → P (g.perform action)) (h : P r.machine.panel)
    (requests : List Request) : ∀ x ∈ r.visited requests, P x.panel := by
  induction requests generalizing r with
  | nil => simpa [visited] using h
  | cons q rest ih =>
    rw [visited, List.forall_mem_append]
    cases hresponse : r.engine.respond q with
    | error reason =>
      rw [handle_of_refused hresponse]
      exact ⟨by simpa using h, ih h⟩
    | ok p =>
      have hcall := (Engine.spares_respond hresponse).visited hload hperform h
      refine ⟨hcall, ih ?_⟩
      rw [machine_handle hresponse]
      exact hcall _ (p.run_mem_visited _)

end Rig

/-! ### Assembly -/

/-- A bench on which nothing has happened, over windows with any contents. -/
def Simulation.Bench.over (config : Config) (contents : List (Role × UInt64 × UInt32)) (arena : Arena) : Bench :=
  .fresh (Bench.preset (Bench.windowsOf config.pacer) contents) arena

section Assembly

variable {config : Config} {n : UInt32} {e : Engine} {b b' : Bench}

/-- Words that are put into windows leave the names of the blocks and the numbers of words. -/
theorem Simulation.Bench.get_preset (windows : Roles Window) (words : List (Role × UInt64 × UInt32)) (role : Role) :
    ((preset windows words).get role).block = (windows.get role).block ∧
      ((preset windows words).get role).words.size = (windows.get role).words.size := by
  induction words generalizing windows with
  | nil => exact ⟨rfl, rfl⟩
  | cons word rest ih =>
    obtain ⟨there, offset, value⟩ := word
    obtain ⟨hblock, hsize⟩ := ih (windows.set ((windows.get there).poke offset value) there)
    show ((preset (windows.set _ there) rest).get role).block = _ ∧ _
    rw [hblock]
    refine ⟨?_, hsize.trans ?_⟩
    · rw [Roles.get_set]
      split
      · rename_i heq
        rw [← heq]
        rfl
      · rfl
    · rw [Roles.get_set]
      split
      · rename_i heq
        rw [← heq]
        exact Array.size_setIfInBounds
      · rfl

theorem PageTable.Separate.covers {t : PageTable} {l : ChainLayout} (h : t.Separate)
    (hsize : l.lengthBytes.toNat ≤ 4096 * t.entries.size) : t.Covers l := by
  intro offset hoffset
  have hpage : offset.value.toNat / 4096 < t.entries.size := by omega
  obtain ⟨address, haddress, -⟩ := h.busOf?_eq_some hpage
  exact ⟨address, haddress⟩

theorem Arena.small_accepted : Arena.small.Fits ⟨3⟩ ∧ Arena.small.table.Covers ⟨3⟩ := by
  have hsize : Arena.small.table.entries.size = 1 := rfl
  have hseparate : Arena.small.table.Separate := ⟨by decide, fun i j hi hj _ => by omega⟩
  have hfits : (ChainLayout.mk 3).lengthBytes ≤ Arena.small.length := by decide
  exact ⟨hfits, hseparate.covers (by decide)⟩

/-- An arena that is long enough and translates every offset of the layout is not refused. -/
theorem Simulation.assemble_eq_ok (valid : config.validate = .ok n) (hfits : b.arena.Fits ⟨n⟩)
    (hcovers : b.arena.table.Covers ⟨n⟩) : ∃ e b', Simulation.assemble config b = .ok (e, b') := by
  obtain ⟨p, hp⟩ := Engine.build_ok valid hfits hcovers
  obtain ⟨result, b', s', hrun, -, hpost⟩ :=
    Program.run_of_ensures (Engine.ensures_assemble (s := ⟨b.arena, 0, false⟩) valid rfl) (b := b) rfl
  cases result with
  | error reason =>
    rw [hpost.1] at hp
    cases hp
  | ok e =>
    refine ⟨e, b', ?_⟩
    rw [Simulation.assemble, hrun]

theorem Simulation.run_of_assemble (h : Simulation.assemble config b = .ok (e, b')) :
    (Engine.assemble config b.arena).run b = (.ok (.ok e), b') := by
  unfold Simulation.assemble at h
  split at h
  · rename_i hrun
    cases h
    exact hrun
  · cases h
  · cases h

/-- What holds of an engine that has been made on a bench, which has no levels, so that any will do. -/
theorem Simulation.assembled_of_assemble (valid : config.validate = .ok n)
    (h : Simulation.assemble config b = .ok (e, b')) :
    ∃ s', b'.arena = s'.arena ∧ Engine.Assembled config n ⟨b.arena, 0, false⟩ e s' := by
  have hensures := Engine.ensures_assemble (s := ⟨b.arena, 0, false⟩) valid rfl
  obtain ⟨result, b₁, s', hrun, harena, hresult⟩ := Program.run_of_ensures hensures (b := b) rfl
  have hrun' := Simulation.run_of_assemble h
  rw [hrun] at hrun'
  cases hrun'
  exact ⟨s', harena, hresult⟩

theorem Rig.settled_of_assemble (valid : config.validate = .ok n) (h : Simulation.assemble config b = .ok (e, b')) :
    (Rig.mk e b').Settled config n 0 ∧ e.state = .running := by
  obtain ⟨s', harena, hassembled⟩ := Simulation.assembled_of_assemble valid h
  exact ⟨⟨s', harena, hassembled.settled⟩, hassembled.state_eq⟩

/-- On a panel, an engine is assembled by claiming the pins and starting. -/
theorem Engine.leads_assemble {post : Except InitError Engine → Panel → Prop} {arena : Arena}
    (herror : ∀ reason, post (.error reason) g)
    (hok : ∀ table chain, Leads
      ((Sequencer.idle config.pacer config.platform.clockDivisor).claimPins config.pins config.invert >>= fun s =>
        (stopped config table chain s).start) (fun e g' => post (.ok e) g') g) :
    (assemble config arena).Leads post g := by
  rw [assemble, leads_logAll_iff]
  split
  · exact herror _
  · rename_i nrSamples _
    split
    · exact herror _
    · rename_i program hbuild
      rw [leads_bind_iff]
      unfold build at hbuild
      split at hbuild
      · cases hbuild
      · rename_i table htable
        split at hbuild
        · cases hbuild
        · rename_i writeChain hchain
          cases hbuild
          obtain ⟨-, blocks, head, -, message, rfl⟩ := Chain.build_eq_ok hchain
          simp only [bind_assoc, pure_bind, Chain.writeBlocks_eq_each_writes]
          rw [leads_each_write_iff, leads_log_iff, leads_regenerate_iff]
          exact hok table _

end Assembly

end PulseWidth
