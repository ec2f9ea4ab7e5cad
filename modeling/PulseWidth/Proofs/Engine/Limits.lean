import PulseWidth.Proofs.Register.Field
import PulseWidth.Proofs.Replay.Assembly

/-!
# The limits of an accepted configuration

What validation lets through fits the registers: a sample has no more ticks than the range of the PWM block or the
frame of the PCM block can count, and the divisor of the clock fits its field for every rate of the source.  So neither
the ticks nor the frame length are cut, and the words that are stored have in their fields what was asked for.
-/

namespace PulseWidth

variable {config : Config} {n : UInt32}

namespace Config

/-- What the checks of a validation have found. -/
structure Limits (config : Config) (n : UInt32) : Prop where
  count_eq : n = config.cycleMicros / config.sampleMicros
  sample_pos : 0 < config.sampleMicros.toNat
  count_pos : 0 < n.toNat
  count_le : n.toNat ≤ 15790260
  sample_le : config.sampleMicros ≤ config.pacer.maxSampleMicros
  channel_lt : config.dmaChannel < Dma.channelCount

theorem limits_of_validate (valid : config.validate = .ok n) : config.Limits n := by
  obtain ⟨hpos, hmax, -⟩ := config.bounds_of_validate valid
  obtain ⟨hcount, -, -, hsample, hchannel, -⟩ := validate_eq_ok_iff.1 valid
  unfold nrSamples? at hcount
  split at hcount
  · cases hcount
  · rename_i hzero
    cases hcount
    exact
      { count_eq := rfl
        sample_pos := Nat.pos_of_ne_zero fun h => hzero (UInt32.toNat_inj.1 h)
        count_pos := UInt32.lt_iff_toNat_lt.1 hpos
        count_le := UInt32.le_iff_toNat_le.1 hmax
        sample_le := hsample
        channel_lt := hchannel }

/-- The samples of a cycle take no longer than the cycle. -/
theorem Limits.samples_le (h : config.Limits n) : n.toNat * config.sampleMicros.toNat ≤ config.cycleMicros.toNat := by
  rw [h.count_eq, UInt32.toNat_div]
  exact Nat.div_mul_le_self _ _

/-- The ticks of a sample fit a word. -/
theorem Limits.ticks_le (h : config.Limits n) : 10 * config.sampleMicros.toNat ≤ 4294967290 := by
  have hsample := UInt32.le_iff_toNat_le.1 h.sample_le
  have hpwm : Pacer.pwm.maxSampleMicros.toNat = 429496729 := by decide
  have hpcm : Pacer.pcm.maxSampleMicros.toNat = 102 := by decide
  cases hpacer : config.pacer with
  | pwm =>
    rw [hpacer, hpwm] at hsample
    omega
  | pcm =>
    rw [hpacer, hpcm] at hsample
    omega

/-- The ticks of a sample of the PCM block fit its frame. -/
theorem Limits.frame_le (h : config.Limits n) (hpcm : config.pacer = .pcm) :
    10 * config.sampleMicros.toNat ≤ 1020 := by
  have hsample := UInt32.le_iff_toNat_le.1 h.sample_le
  have hmax : Pacer.pcm.maxSampleMicros.toNat = 102 := by decide
  rw [hpcm, hmax] at hsample
  omega

end Config

theorem toNat_ticksPerMicro : ticksPerMicro.toNat = 10 := by decide

/-! ### The clock -/

namespace Platform

/-- The word of the clock's divisor. -/
def divisorWord (p : Platform) : UInt32 :=
  Clock.integerPart.write (p.sourceHz / tickHz) (Clock.passwordField.write Clock.password 0)

private theorem quotient_le (p : Platform) : (p.sourceHz / tickHz).toNat ≤ Clock.integerPart.max := by
  have hsource := p.sourceHz.toNat_lt
  have hmax : Clock.integerPart.max = 4095 := by decide
  rw [toNat_quotient, hmax]
  omega

theorem wholeDivisor_eq (p : Platform) : Clock.wholeDivisor p.clockDivisor = .ok p.divisorWord := by
  rw [Clock.wholeDivisor, toNat_clockDivisor, ← toNat_quotient]
  exact Field.set_eq_ok p.quotient_le _

theorem read_divisorWord (p : Platform) :
    (Clock.integerPart.read p.divisorWord).toNat = p.sourceHz.toNat / 10000000 := by
  rw [divisorWord, Field.read_write (by decide) p.quotient_le, toNat_quotient]

end Platform

/-! ### The pacers -/

namespace Config.Limits

theorem toNat_ticks (h : config.Limits n) :
    (ticksPerMicro * config.sampleMicros).toNat = 10 * config.sampleMicros.toNat := by
  have hticks := h.ticks_le
  rw [UInt32.toNat_mul, toNat_ticksPerMicro]
  omega

/-- The number of ticks is not cut. -/
theorem ticksOf_eq (h : config.Limits n) :
    Sequencer.ticksOf config.sampleMicros = ticksPerMicro * config.sampleMicros := by
  have hticks := h.ticks_le
  have hmin : min (config.sampleMicros.toNat * ticksPerMicro.toNat) (UInt32.size - 1) =
      10 * config.sampleMicros.toNat := by
    rw [toNat_ticksPerMicro, UInt32.size]
    omega
  apply UInt32.toNat_inj.1
  rw [h.toNat_ticks, Sequencer.ticksOf, hmin, UInt32.toNat_ofNat_of_lt' (by rw [UInt32.size]; omega)]

/-- The frame length is not cut. -/
theorem toNat_frameLengthOf (h : config.Limits n) (hpcm : config.pacer = .pcm) :
    (Sequencer.frameLengthOf (Sequencer.ticksOf config.sampleMicros)).toNat = 10 * config.sampleMicros.toNat - 1 := by
  have hframe := h.frame_le hpcm
  have hmax : Pcm.maxFrameLength.toNat = 1023 := rfl
  have hmin : min (10 * config.sampleMicros.toNat - 1) Pcm.maxFrameLength.toNat =
      10 * config.sampleMicros.toNat - 1 := by omega
  rw [Sequencer.frameLengthOf, h.ticksOf_eq, h.toNat_ticks, hmin,
    UInt16.toNat_ofNat_of_lt' (by rw [UInt16.size]; omega)]

end Config.Limits

/-- The word of the PCM block's mode, whose frame lasts for a sample. -/
def Config.frameWord (config : Config) : UInt32 :=
  Pcm.frameLength.write (ticksPerMicro * config.sampleMicros - 1) 0

namespace Config.Limits

private theorem toNat_lessOne (h : config.Limits n) :
    (ticksPerMicro * config.sampleMicros - 1).toNat = 10 * config.sampleMicros.toNat - 1 := by
  have hsample := h.sample_pos
  have hone : (1 : UInt32) ≤ ticksPerMicro * config.sampleMicros := by
    rw [UInt32.le_iff_toNat_le, h.toNat_ticks]
    show 1 ≤ _
    omega
  rw [UInt32.toNat_sub_of_le _ _ hone, h.toNat_ticks]
  rfl

private theorem lessOne_le (h : config.Limits n) (hpcm : config.pacer = .pcm) :
    (ticksPerMicro * config.sampleMicros - 1).toNat ≤ Pcm.frameLength.max := by
  have hframe := h.frame_le hpcm
  have hmax : Pcm.frameLength.max = 1023 := by decide
  rw [h.toNat_lessOne, hmax]
  omega

theorem frame_eq (h : config.Limits n) (hpcm : config.pacer = .pcm) :
    Pcm.frame (Sequencer.frameLengthOf (Sequencer.ticksOf config.sampleMicros)) = .ok config.frameWord := by
  rw [Pcm.frame, h.toNat_frameLengthOf hpcm, ← h.toNat_lessOne]
  exact Field.set_eq_ok (h.lessOne_le hpcm) 0

theorem read_frameWord (h : config.Limits n) (hpcm : config.pacer = .pcm) :
    (Pcm.frameLength.read config.frameWord).toNat + 1 = 10 * config.sampleMicros.toNat := by
  have hsample := h.sample_pos
  rw [Config.frameWord, Field.read_write (by decide) (h.lessOne_le hpcm), h.toNat_lessOne]
  omega

end Config.Limits

end PulseWidth
