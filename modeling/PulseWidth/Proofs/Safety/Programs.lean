import PulseWidth.Proofs.Engine.Limits
import PulseWidth.Proofs.Safety.Access
import PulseWidth.Proofs.Simulation.PinFunctions

/-!
# Programs that stay inside

Every program of the sequence and of an engine stays inside the windows and the layout.  Most of their offsets are
constants.  The words of the arena lie where the layout has them, the function select words where the number of the
pin says, and the two numbers that a field might be too narrow for are bounded for each engine of an accepted
configuration (`Engine.Bounded`); each program that leads from one engine to another keeps that.
-/

namespace PulseWidth

open Program (Stays stays_bind_iff stays_read stays_store stays_write stays_pause stays_log stays_ofExcept stays_each)

variable {α : Type} {config : Config} {n : UInt32} {l : ChainLayout}

/-! ### Words of the arena -/

theorem stays_regenerate (l : ChainLayout) (channels : List Channel) :
    (regenerate l channels).Stays l fun _ => True := by
  apply stays_each
  intro slot hmem
  have hslot := l.mem_slots.1 hmem
  exact stays_write ⟨Arena.sample_aligned l slot, Arena.sample_end hslot⟩ _

theorem Chain.stays_writeBlocks {blocks : List ControlBlock} (hlength : blocks.length = 2 * l.nrSamples.toNat) :
    (writeBlocks l blocks).Stays l fun _ => True := by
  rw [writeBlocks_eq_each_writes]
  apply stays_each
  rintro ⟨offset, word⟩ hmem
  exact stays_write (accepted_of_mem_writes hlength hmem) word

theorem Engine.stays_logAll (records : List Record) : (logAll records).Stays l fun _ => True :=
  stays_each fun r _ => stays_log r.level r.target r.message

/-! ### The hardware sequence -/

namespace Sequencer

theorem stays_settled {role : Role} {offset : UInt64} (h : role.Admits offset) (value : UInt32) (micros : UInt64) :
    (settled role offset value micros).Stays l fun _ => True :=
  (stays_store h value).next fun _ => stays_pause micros

theorem stays_pacerStore {r : Register} (h : Role.pacer.Admits r.offset) (value : UInt32) (micros : UInt64) :
    (pacerStore r value micros).Stays l fun _ => True :=
  stays_settled h value micros

theorem stays_pacerModify {r : Register} (h : Role.pacer.Admits r.offset) (change : UInt32 → UInt32) :
    (pacerModify r change).Stays l fun _ => True :=
  (stays_read h).next fun word => stays_pacerStore h (change word) longSettle

theorem stays_startClock {s : Sequencer} (hdivisor : s.clockDivisor.toNat ≤ 4095) :
    s.startClock.Stays l fun _ => True := by
  have hoffsets : ∀ channel : Clock.Channel,
      Role.clock.Admits channel.controlOffset ∧ Role.clock.Admits channel.divisorOffset := by
    intro channel
    cases channel <;> decide
  obtain ⟨hcontrol, hdivide⟩ := hoffsets s.pacer.clock
  obtain ⟨word, hword⟩ := wholeDivisor_eq_ok hdivisor
  refine (stays_settled hcontrol _ _).next fun _ => ?_
  refine (stays_ofExcept hword).next fun divisor => ?_
  exact (stays_settled hdivide divisor _).next fun _ => stays_settled hcontrol _ _

theorem stays_startDma (head : BusAddress) : (startDma head).Stays l fun _ => True := by
  have hstatus : Role.dma.Admits Dma.status.offset := by decide
  have hblock : Role.dma.Admits Dma.controlBlock.offset := by decide
  have herrors : Role.dma.Admits Dma.errors.offset := by decide
  refine (stays_settled hstatus _ _).next fun _ => (stays_settled hstatus _ _).next fun _ => ?_
  refine (stays_settled hblock _ _).next fun _ => (stays_settled herrors _ _).next fun _ => ?_
  exact stays_settled hstatus _ _

theorem stays_start {s : Sequencer} (hdivisor : s.clockDivisor.toNat ≤ 4095) (head : BusAddress)
    (sampleMicros : UInt32) : (s.start head sampleMicros).Stays l fun _ => True := by
  unfold start
  refine (stays_log _ _ _).next fun _ => ?_
  split
  · have hcontrol : Role.pacer.Admits Pwm.control.offset := by decide
    refine (stays_pacerStore hcontrol _ _).next fun _ => (stays_startClock hdivisor).next fun _ => ?_
    refine (stays_pacerStore (r := Pwm.range) (by decide) _ _).next fun _ => ?_
    refine (stays_pacerStore (r := Pwm.request) (by decide) _ _).next fun _ => ?_
    refine (stays_pacerStore hcontrol _ _).next fun _ => (stays_pacerStore hcontrol _ _).next fun _ => ?_
    exact stays_startDma head
  · have hcontrol : Role.pacer.Admits Pcm.control.offset := by decide
    obtain ⟨word, hword⟩ := frame_eq_ok (ticksOf sampleMicros)
    refine (stays_pacerStore hcontrol _ _).next fun _ => (stays_startClock hdivisor).next fun _ => ?_
    refine (stays_pacerStore (r := Pcm.channels) (by decide) _ _).next fun _ => ?_
    refine (stays_ofExcept hword).next fun mode => ?_
    refine (stays_pacerStore (r := Pcm.mode) (by decide) mode _).next fun _ => ?_
    refine (stays_pacerModify hcontrol _).next fun _ => ?_
    refine (stays_pacerStore (r := Pcm.request) (by decide) _ _).next fun _ => ?_
    refine (stays_pacerModify hcontrol _).next fun _ => ?_
    exact (stays_startDma head).next fun _ => stays_pacerModify hcontrol _

theorem stays_haltDma : haltDma.Stays l fun _ => True := stays_settled (by decide) _ _

theorem stays_dmaStatus : dmaStatus.Stays l fun _ => True := stays_read (by decide)

theorem stays_quiescePacer (s : Sequencer) : s.quiescePacer.Stays l fun _ => True := by
  unfold quiescePacer
  split
  · exact stays_pacerStore (by decide) _ _
  · exact stays_pacerStore (by decide) _ _

theorem stays_driveInactive (mask : UInt32) (invert : Bool) : (driveInactive mask invert).Stays l fun _ => True := by
  have hoffset : Role.gpio.Admits (Gpio.inactiveOffset invert) := by
    cases invert <;> decide
  exact stays_store hoffset mask

/-- The function select words are the first four words of their window. -/
theorem admits_selectOffset (pin : Pin) : Role.gpio.Admits (Gpio.selectOffset pin.number) := by
  have h : ∀ i : Fin 4, Role.gpio.Admits (UInt64.ofNat (4 * i.val)) := by decide
  have hlt : pin.index.val / 10 < 4 := by omega
  rw [pin.selectOffset_eq]
  exact h ⟨pin.index.val / 10, hlt⟩

theorem stays_setFunction (pin : Pin) (f : PinFunction) : (setFunction pin f).Stays l fun _ => True := by
  have hoffset := admits_selectOffset pin
  exact (stays_read hoffset).next fun _ => (stays_store hoffset _).next fun _ => trivial

theorem stays_makeOutputs (pins : List Pin) : (makeOutputs pins).Stays l fun _ => True := by
  induction pins with
  | nil => exact trivial
  | cons pin rest ih =>
    refine (stays_setFunction pin .output).next fun previous => (stays_log _ _ _).next fun _ => ?_
    exact ih.next fun _ => trivial

theorem stays_claimPins {s : Sequencer} {pins : List Pin} {invert : Bool} {post : Sequencer → Prop}
    (h : ∀ claimed, post { s with claimed }) : (s.claimPins pins invert).Stays l post :=
  (stays_driveInactive _ _).next fun _ => (stays_makeOutputs pins).next fun _ => h _

theorem stays_releasePins {s : Sequencer} {invert : Bool} {post : Sequencer → Prop}
    (h : ∀ claimed, post { s with claimed }) : (s.releasePins invert).Stays l post := by
  unfold releasePins
  split
  · exact h s.claimed
  · refine (stays_driveInactive _ _).next fun _ => Stays.next ?_ fun _ => h []
    exact stays_each fun entry _ => (stays_setFunction entry.1 entry.2).next fun _ => trivial

end Sequencer

/-! ### Engines -/

namespace Engine

/-- What holds of an engine of a configuration with `n` samples on any machine. -/
structure Bounded (config : Config) (n : UInt32) (e : Engine) : Prop where
  config_eq : e.config = config
  layout_eq : e.layout = ⟨n⟩
  lawful : e.table.Lawful config.pins n
  pacer_eq : e.sequencer.pacer = config.pacer
  divisor_eq : e.sequencer.clockDivisor = config.platform.clockDivisor

variable {e : Engine}

theorem Bounded.divisor_le (h : e.Bounded config n) : e.sequencer.clockDivisor.toNat ≤ 4095 := by
  rw [h.divisor_eq]
  exact config.platform.clockDivisor_le

theorem Bounded.table (h : e.Bounded config n) {t : ChannelTable} (ht : t.Lawful config.pins n) :
    Bounded config n { e with table := t } :=
  { h with lawful := ht }

theorem Bounded.stays_regenerate (h : e.Bounded config n) (channels : List Channel) :
    (regenerate e.layout channels).Stays ⟨n⟩ fun _ => True := by
  rw [h.layout_eq]
  exact PulseWidth.stays_regenerate ⟨n⟩ channels

theorem Bounded.stays_commit (h : e.Bounded config n) {t : ChannelTable} (ht : t.Lawful config.pins n)
    (message : String) : (e.commit t message).Stays ⟨n⟩ (Bounded config n) :=
  (h.stays_regenerate _).next fun _ => (stays_log _ _ _).next fun _ => h.table ht

theorem Bounded.stays_stop (h : e.Bounded config n) : e.stop.Stays ⟨n⟩ (Bounded config n) := by
  unfold stop
  split
  · exact h
  · refine (h.stays_regenerate _).next fun _ => (stays_pause _).next fun _ => ?_
    refine Sequencer.stays_haltDma.next fun _ => (Sequencer.stays_driveInactive _ _).next fun _ => ?_
    exact (stays_log _ _ _).next fun _ => { h with lawful := ChannelTable.silence_lawful h.lawful }

theorem Bounded.stays_start (h : e.Bounded config n) : e.start.Stays ⟨n⟩ (Bounded config n) := by
  unfold start
  split
  · exact h
  · refine (Sequencer.stays_start h.divisor_le _ _).next fun _ => (stays_log _ _ _).next fun _ => ?_
    exact { h with }

theorem Bounded.stays_exit (h : e.Bounded config n) : e.exit.Stays ⟨n⟩ (Bounded config n) := by
  unfold exit
  split
  · exact h
  · rw [stays_bind_iff]
    refine h.stays_stop.mono fun e' h' => (Sequencer.stays_quiescePacer _).next fun _ => ?_
    rw [stays_bind_iff]
    apply Sequencer.stays_releasePins
    exact fun claimed => (stays_log _ _ _).next fun _ => { h' with }

theorem Bounded.stays_respond (h : e.Bounded config n) {q : Request} {p : Program Engine} (hp : e.respond q = .ok p) :
    p.Stays ⟨n⟩ (Bounded config n) := by
  cases responds_of_respond hp with
  | drive message drives revised changed =>
    exact h.stays_commit (ChannelTable.setMany_lawful h.lawful changed) message
  | release message changed =>
    refine (h.stays_regenerate _).next fun _ => (Sequencer.stays_driveInactive _ _).next fun _ => ?_
    exact (stays_log _ _ _).next fun _ => h.table (ChannelTable.release_lawful h.lawful changed)
  | stop => exact h.stays_stop
  | start => exact h.stays_start

/-- An engine is made and started over an arena of any kind; if the arena will not do, nothing is accessed at all. -/
theorem stays_assemble (valid : config.validate = .ok n) (arena : Arena) :
    (assemble config arena).Stays ⟨n⟩ fun result => ∀ e, result = .ok e → e.Bounded config n := by
  refine (stays_logAll _).next fun _ => ?_
  simp only [valid]
  split
  · -- the chain has no place in this arena, and the program ends before its first access
    rename_i reason hbuild
    intro e he
    cases he
  · rename_i program hbuild
    suffices hprogram : program.Stays ⟨n⟩ (Bounded config n) by
      rw [stays_bind_iff]
      refine hprogram.mono fun e he e' he' => ?_
      cases he'
      exact he
    unfold build at hbuild
    split at hbuild
    · cases hbuild
    · rename_i table htable
      split at hbuild
      · cases hbuild
      · rename_i writeChain hchain
        cases hbuild
        obtain ⟨-, blocks, head, hplanned, message, rfl⟩ := Chain.build_eq_ok hchain
        simp only [bind_assoc, pure_bind]
        refine (Chain.stays_writeBlocks hplanned.length_eq).next fun _ => (stays_log _ _ _).next fun _ => ?_
        refine (PulseWidth.stays_regenerate ⟨n⟩ _).next fun _ => ?_
        rw [stays_bind_iff]
        apply Sequencer.stays_claimPins
        intro claimed
        apply Bounded.stays_start
        exact
          { config_eq := rfl
            layout_eq := rfl
            lawful := ChannelTable.ofPins_lawful htable
            pacer_eq := rfl
            divisor_eq := rfl }

end Engine

end PulseWidth
