import PulseWidth.Proofs.Safety.Runs

/-!
# Summaries and the waveform

The numbers of a summary are those of the waveform: as many steps as there are slots, a longest pulse that is the time
of all slots, and a shortest one that is the time of one slot.  If the cycle is no multiple of the sample time, its
remark names the longest pulse as the effective cycle.  Only the frequency is that of the cycle as it was configured.
-/

namespace PulseWidth

open Simulation (Bench simulate)

variable {config : Config} {n : UInt32}

/-! ### The numbers of a summary -/

/-- The numbers of a summary agree with each other and with what the validation remarks. -/
structure Summary.Agrees (s : Summary) (config : Config) (n : UInt32) : Prop where
  pacer_eq : s.pacer = config.pacer
  channels_eq : s.channels = config.pins.length
  steps_eq : s.steps = n
  min_eq : s.minPulseMicros = config.sampleMicros
  /-- The product is not cut. -/
  max_eq : s.maxPulseMicros.toNat = s.steps.toNat * s.minPulseMicros.toNat
  effective_eq : s.maxPulseMicros.toNat =
    config.cycleMicros.toNat - config.cycleMicros.toNat % config.sampleMicros.toNat
  remarks_eq : config.remarks =
    if config.cycleMicros.toNat % config.sampleMicros.toNat = 0 then []
    else
      [⟨.warn, "pwm_engine::config",
        "cycle time " ++ toString config.cycleMicros.toNat ++ " \u00b5s is not a multiple of the "
          ++ toString s.minPulseMicros.toNat ++ " \u00b5s sample time; the effective cycle is "
          ++ toString s.maxPulseMicros.toNat ++ " \u00b5s"⟩]
  frequency_eq : s.frequencyHz.toNat = 1000000 / config.cycleMicros.toNat
  /-- The waveform is at least as fast as the frequency says. -/
  frequency_le : s.frequencyHz.toNat ≤ 1000000 / s.maxPulseMicros.toNat
  frequency_of_even : config.cycleMicros.toNat % config.sampleMicros.toNat = 0 →
    s.frequencyHz.toNat = 1000000 / s.maxPulseMicros.toNat

namespace Config

/-- The longest pulse is the effective cycle. -/
theorem Limits.maxPulseMicros_eq (h : config.Limits n) (channels : Nat) :
    (Summary.of config channels n).maxPulseMicros = config.cycleMicros - config.remainder := by
  apply UInt32.toNat_inj.1
  rw [h.pulse_eq, h.effective_eq]

theorem toNat_remainder (config : Config) :
    config.remainder.toNat = config.cycleMicros.toNat % config.sampleMicros.toNat := UInt32.toNat_mod _ _

theorem remainder_eq_zero_iff :
    config.remainder = 0 ↔ config.cycleMicros.toNat % config.sampleMicros.toNat = 0 := by
  rw [← config.toNat_remainder]
  exact UInt32.toNat_inj.symm

theorem Limits.toNat_maxPulseMicros (h : config.Limits n) (channels : Nat) :
    (Summary.of config channels n).maxPulseMicros.toNat =
      config.cycleMicros.toNat - config.cycleMicros.toNat % config.sampleMicros.toNat := by
  have hle : config.remainder ≤ config.cycleMicros := by
    rw [UInt32.le_iff_toNat_le, toNat_remainder]
    exact Nat.mod_le _ _
  rw [h.maxPulseMicros_eq, UInt32.toNat_sub_of_le _ _ hle, toNat_remainder]

theorem toNat_frequencyHz (config : Config) (channels : Nat) :
    (Summary.of config channels n).frequencyHz.toNat = 1000000 / config.cycleMicros.toNat := UInt32.toNat_div _ _

theorem agrees_of_validate (valid : config.validate = .ok n) :
    (Summary.of config config.pins.length n).Agrees config n := by
  have h := config.limits_of_validate valid
  have hpulse := h.toNat_maxPulseMicros config.pins.length
  have hfrequency := config.toNat_frequencyHz (n := n) config.pins.length
  exact
    { pacer_eq := rfl
      channels_eq := rfl
      steps_eq := rfl
      min_eq := rfl
      max_eq := h.pulse_eq _
      effective_eq := hpulse
      remarks_eq := by
        simp only [remarks, valid, remainder_eq_zero_iff, h.maxPulseMicros_eq]
        rfl
      frequency_eq := hfrequency
      frequency_le := by
        have hpos : 0 < (Summary.of config config.pins.length n).maxPulseMicros.toNat := by
          rw [h.pulse_eq]
          exact Nat.mul_pos h.count_pos h.sample_pos
        rw [hfrequency]
        exact Nat.div_le_div_left (hpulse ▸ Nat.sub_le _ _) hpos
      frequency_of_even := by
        intro heven
        rw [hfrequency, hpulse, heven, Nat.sub_zero] }

end Config

/-! ### Engines -/

theorem Engine.Bounded.summary_eq {e : Engine} (h : e.Bounded config n) :
    e.summary = .of config config.pins.length n := by
  rw [Engine.summary, h.config_eq, h.lawful.nrSamples_eq, ← h.lawful.pins_eq, List.length_map]

namespace Rig

variable {σ : Type} [Machine σ] {ready : σ → Prop} {r : Rig σ}

/-- An engine reports its waveform: there is a word for each step, and the words together take the longest pulse. -/
structure Reports (config : Config) (n : UInt32) (r : Rig σ) : Prop where
  agrees : r.engine.summary.Agrees config n
  samples_ok : ∃ words, r.samples = .ok words ∧ words.length = r.engine.summary.steps.toNat
  ticks_eq : r.engine.summary.steps.toNat * (Sequencer.ticksOf r.engine.config.sampleMicros).toNat =
    ticksPerMicro.toNat * r.engine.summary.maxPulseMicros.toNat

theorem Safe.reports (h : r.Safe ready config n) (valid : config.validate = .ok n) : r.Reports config n := by
  have hagrees := config.agrees_of_validate valid
  rw [← h.bounded.summary_eq] at hagrees
  refine ⟨hagrees, ?_, ?_⟩
  · obtain ⟨words, hwords⟩ := h.samples_ok
    refine ⟨words, hwords, ?_⟩
    rw [hagrees.steps_eq, (mapM_eq_ok hwords).1, h.bounded.layout_eq, ChainLayout.length_slots]
  · have hlimits := config.limits_of_validate valid
    rw [hagrees.max_eq, hagrees.min_eq, h.bounded.config_eq, hlimits.ticksOf_eq, hlimits.toNat_ticks,
      toNat_ticksPerMicro]
    exact Nat.mul_left_comm _ _ _

/-- Any requests, and a shutdown after them. -/
def ReportsThroughout (config : Config) (n : UInt32) (r : Rig σ) : Prop :=
  ∀ requests, (r.handleAll requests).Reports config n ∧ (r.handleAll requests).close.Reports config n

theorem SafeThroughout.reports (h : r.SafeThroughout ready config n) (valid : config.validate = .ok n) :
    r.ReportsThroughout config n := fun requests => ⟨(h requests).1.reports valid, (h requests).2.reports valid⟩

end Rig

/-- For an accepted configuration the summary of its engine agrees with itself, with the remark of the validation and
with the waveform, in a simulation as well as on a board, and whatever has been asked of the engine; of the frequency
it says so if the cycle is a multiple of the sample time. -/
theorem summary_of_validate (valid : config.validate = .ok n) :
    (∃ e b, simulate config = .ok (e, b) ∧ (Rig.mk e b).ReportsThroughout config n) ∧
    ∀ host : Host, (∃ reason host', host.bringUp config = .error (.init reason, host')) ∨
      ∃ e b, host.bringUp config = .ok (e, b) ∧ (Rig.mk e b).ReportsThroughout config n := by
  refine ⟨?_, fun host => ?_⟩
  · obtain ⟨e, b, hsimulate, hbounded, hready⟩ := ready_of_simulate valid
    exact ⟨e, b, hsimulate, (Rig.safeThroughout_of_ready (Bench.grants ⟨n⟩) hbounded hready).reports valid⟩
  · rcases Host.ready_of_bringUp valid host with hrefused | ⟨e, b, hbringUp, hbounded, hready⟩
    · exact .inl hrefused
    · exact .inr ⟨e, b, hbringUp, (Rig.safeThroughout_of_ready (Board.grants ⟨n⟩) hbounded hready).reports valid⟩

/-- A cycle of one sample of 10 microseconds, and 9 microseconds more. -/
def Config.uneven : Config := { Config.small with cycleMicros := 19 }

theorem summary_of_uneven : Config.uneven.validate = .ok 1 ∧
    ∃ e b, simulate Config.uneven = .ok (e, b) ∧ e.summary.Agrees Config.uneven 1 := by
  have valid : Config.uneven.validate = .ok 1 := rfl
  obtain ⟨⟨e, b, hsimulate, hreports⟩, -⟩ := summary_of_validate valid
  exact ⟨valid, e, b, hsimulate, (hreports []).1.agrees⟩

/-- The frequency that is reported is not that of a cycle of one sample. -/
theorem frequency_of_uneven : Config.uneven.validate = .ok 1 ∧
    ∃ e b, simulate Config.uneven = .ok (e, b) ∧ e.summary.maxPulseMicros = 10 ∧
      Config.uneven.cycleMicros - Config.uneven.remainder = 10 ∧ e.summary.frequencyHz = 52631 ∧
      e.summary.frequencyHz ≠ 1000000 / e.summary.maxPulseMicros := by
  have valid : Config.uneven.validate = .ok 1 := rfl
  obtain ⟨e, b, hsimulate, hbounded, -⟩ := ready_of_simulate valid
  refine ⟨valid, e, b, hsimulate, ?_⟩
  rw [hbounded.summary_eq]
  decide

end PulseWidth
