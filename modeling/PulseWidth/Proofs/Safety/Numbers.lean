import PulseWidth.Engine.Basic
import PulseWidth.Proofs.Engine.Exactness
import PulseWidth.Proofs.Engine.Limits
import PulseWidth.Proofs.Simulation.PinFunctions

/-!
# Numbers that are not cut

All numbers of the program are words of 8 to 64 bits.  For a configuration that is accepted each of them is the number
that its formula gives without a bound: nothing wraps around, saturates or is cut when it is converted, on boards
whose sizes have 32 bits too (`ChainLayout.Exact`, `Config.Exact`).  A number that goes into a field of a register
fits the field: a word that is written as a constant, or with the divisor of the clock or the length of the frame, is
the one that comes of setting its fields with all checks (`Config.settings_accepted`).
-/

namespace PulseWidth

variable {config : Config} {n : UInt32} {l : ChainLayout}

/-! ### Layouts -/

/-- The numbers of a layout are exact. -/
structure ChainLayout.Exact (l : ChainLayout) : Prop where
  sample_eq : ∀ slot, (l.sampleOffset slot).value.toNat = 4 * slot.toNat
  blocks_eq : l.blocksOffset.value.toNat = (4 * l.nrSamples.toNat + 31) / 32 * 32
  count_eq : l.blockCount.toNat = 2 * l.nrSamples.toNat
  block_eq : ∀ index ≤ 2 * l.nrSamples.toNat,
    (l.blockOffset (UInt64.ofNat index)).value.toNat = l.blocksOffset.value.toNat + 32 * index
  word_eq : ∀ index word, index < 2 * l.nrSamples.toNat → word < 8 →
    (l.wordOffset index word).value.toNat = l.blocksOffset.value.toNat + 32 * index + 4 * word
  /-- The indices of the block that paces a slot and of the one behind it, which after the last slot is the first. -/
  pace_eq : ∀ slot < l.nrSamples, (2 * slot.toUInt64 + 1).toNat = 2 * slot.toNat + 1
  next_eq : ∀ slot < l.nrSamples,
    ((2 * slot.toUInt64 + 2) % l.blockCount).toNat = (2 * slot.toNat + 2) % (2 * l.nrSamples.toNat)
  length_eq : l.lengthBytes.toNat = l.blocksOffset.value.toNat + 64 * l.nrSamples.toNat
  pages_eq : l.pages.toNat = (l.lengthBytes.toNat + 4095) / 4096
  pages_le : l.pages ≤ maxArenaPages
  /-- No offset that is computed exceeds 32 bits. -/
  length_lt : l.lengthBytes.toNat + 4096 < UInt32.size

theorem ChainLayout.exact_of_le (hmax : l.nrSamples ≤ maxSamples) : l.Exact := by
  exact
    { sample_eq := l.toNat_sampleOffset
      blocks_eq := l.toNat_blocksOffset
      count_eq := l.toNat_blockCount
      block_eq := fun index hindex => toNat_blockOffset_ofNat hindex
      word_eq := fun index word hindex hword => toNat_wordOffset hindex hword
      pace_eq := fun slot _ => toNat_paceIndex slot
      next_eq := fun slot _ => l.toNat_nextIndex slot
      length_eq := l.toNat_lengthBytes
      pages_eq := l.toNat_pages
      pages_le := l.pages_le_iff_fits.2 (l.nrSamples_le_iff_fits.1 hmax)
      length_lt := by
        have hfits := l.nrSamples_le_iff_fits.1 hmax
        have hpage : pageSize.toNat = 4096 := rfl
        have hwindow : busWindow.toNat = 1073741824 := rfl
        rw [UInt32.size]
        omega }

/-! ### Configurations -/

/-- The numbers that an engine computes from its configuration, and those of its layout, are exact. -/
structure Config.Exact (config : Config) (n : UInt32) : Prop where
  layout : ChainLayout.Exact ⟨n⟩
  effective_eq : (config.cycleMicros - config.remainder).toNat = n.toNat * config.sampleMicros.toNat
  divisor_eq : config.platform.clockDivisor.toNat = config.platform.sourceHz.toNat / 10000000
  ticks_eq : (Sequencer.ticksOf config.sampleMicros).toNat = 10 * config.sampleMicros.toNat
  frame_eq : config.pacer = .pcm →
    (Sequencer.frameLengthOf (Sequencer.ticksOf config.sampleMicros)).toNat = 10 * config.sampleMicros.toNat - 1
  /-- The frequency is a quotient by the cycle time. -/
  cycle_pos : 0 < config.cycleMicros.toNat
  pulse_eq : ∀ channels,
    (Summary.of config channels n).maxPulseMicros.toNat = n.toNat * config.sampleMicros.toNat
  channel_eq : (Dma.channelOffset config.dmaChannel).toNat = 256 * config.dmaChannel.toNat
  channel_end : (Dma.channelOffset config.dmaChannel).toNat + Dma.channelStride.toNat ≤ Block.length.toNat
  select_eq : ∀ pin : Pin, (Gpio.selectOffset pin.number).toNat = 4 * (pin.index.val / 10)
  shift_eq : ∀ pin : Pin, (Gpio.selectShift pin.number).toNat = 3 * (pin.index.val % 10)

namespace Config

theorem Limits.effective_eq (h : config.Limits n) :
    (config.cycleMicros - config.remainder).toNat = n.toNat * config.sampleMicros.toNat := by
  have hsum := Nat.div_add_mod' config.cycleMicros.toNat config.sampleMicros.toNat
  have hremainder : config.remainder.toNat = config.cycleMicros.toNat % config.sampleMicros.toNat :=
    UInt32.toNat_mod _ _
  have hle : config.remainder ≤ config.cycleMicros := by
    rw [UInt32.le_iff_toNat_le, hremainder]
    exact Nat.mod_le _ _
  rw [UInt32.toNat_sub_of_le _ _ hle, hremainder, h.count_eq, UInt32.toNat_div]
  omega

theorem Limits.pulse_eq (h : config.Limits n) (channels : Nat) :
    (Summary.of config channels n).maxPulseMicros.toNat = n.toNat * config.sampleMicros.toNat := by
  have hsamples := h.samples_le
  have hcycle := config.cycleMicros.toNat_lt
  have hlt : n.toNat * config.sampleMicros.toNat < UInt32.size := by
    rw [UInt32.size]
    omega
  have hmin : min (n.toNat * config.sampleMicros.toNat) (UInt32.size - 1) = n.toNat * config.sampleMicros.toNat := by
    omega
  show (Summary.cappedProduct n config.sampleMicros).toNat = _
  rw [Summary.cappedProduct, hmin, UInt32.toNat_ofNat_of_lt' hlt]

theorem Limits.cycle_pos (h : config.Limits n) : 0 < config.cycleMicros.toNat :=
  Nat.lt_of_lt_of_le (Nat.mul_pos h.count_pos h.sample_pos) h.samples_le

theorem toNat_channelOffset (channel : UInt8) : (Dma.channelOffset channel).toNat = 256 * channel.toNat := by
  have hchannel := channel.toNat_lt
  have hstride : Dma.channelStride.toNat = 256 := rfl
  rw [Dma.channelOffset, UInt64.toNat_mul, UInt8.toNat_toUInt64, hstride]
  omega

theorem exact_of_validate (valid : config.validate = .ok n) : config.Exact n := by
  obtain ⟨-, hmax, -⟩ := config.bounds_of_validate valid
  have h := config.limits_of_validate valid
  exact
    { layout := ChainLayout.exact_of_le hmax
      effective_eq := h.effective_eq
      divisor_eq := config.platform.toNat_clockDivisor
      ticks_eq := by rw [h.ticksOf_eq, h.toNat_ticks]
      frame_eq := h.toNat_frameLengthOf
      cycle_pos := h.cycle_pos
      pulse_eq := h.pulse_eq
      channel_eq := toNat_channelOffset config.dmaChannel
      channel_end := by
        have hlt := UInt8.lt_iff_toNat_lt.1 h.channel_lt
        have hcount : Dma.channelCount.toNat = 15 := rfl
        have hstride : Dma.channelStride.toNat = 256 := rfl
        have hlength : Block.length.toNat = 4096 := rfl
        rw [toNat_channelOffset, hstride, hlength]
        omega
      select_eq := by
        intro pin
        rw [pin.selectOffset_eq]
        exact UInt64.toNat_ofNat_of_lt' (by rw [UInt64.size]; omega)
      shift_eq := by
        intro pin
        rw [Gpio.toNat_selectShift, pin.toNat_number] }

end Config

/-! ### Fields -/

/-- A word that comes of another by setting fields to numbers. -/
structure Setting where
  shape : Shape
  numbers : List (String × Nat)
  old : UInt32
  new : UInt32

/-- Each field holds its number, and the word is what comes of setting them all. -/
def Setting.Accepted (s : Setting) : Prop := s.shape.setAll s.numbers s.old = .ok s.new

namespace Config

/-- The words with fields that an engine writes to the arena, the clock, the DMA channel and the pacer; `word` is what
the control register of the PCM block holds when it is changed. -/
def settings (config : Config) (word : UInt32) : List Setting :=
  [⟨.slots Dma.transferInfo, [("no_wide_bursts", 1), ("wait_resp", 1)], 0, Dma.copyInfo⟩,
   ⟨.slots Dma.transferInfo, [("dest_dreq", 1), ("permap", config.pacer.permap.code.toNat)], Dma.copyInfo,
    Dma.pacedInfo config.pacer.permap⟩,
   ⟨.slots Clock.control, [("passwd", 0x5A), ("src", 6)], 0, Clock.stopped .pllD⟩,
   ⟨.slots Clock.control, [("enab", 1)], Clock.stopped .pllD, Clock.running .pllD⟩,
   ⟨.slots Clock.divisor, [("passwd", 0x5A), ("divi", config.platform.clockDivisor.toNat)], 0,
    config.platform.divisorWord⟩,
   ⟨Dma.status.shape, [("reset", 1)], 0, Dma.reset⟩,
   ⟨Dma.status.shape, [("int", 1), ("end", 1)], 0, Dma.clearFlags⟩,
   ⟨Dma.errors.shape, [("read_last_not_set_error", 1), ("fifo_error", 1), ("read_error", 1)], 0, Dma.clearErrors⟩,
   ⟨Dma.status.shape, [("active", 1), ("priority", 8), ("panic_priority", 8), ("wait_for_outstanding_writes", 1)], 0,
    Dma.start⟩]
  ++ match config.pacer with
    | .pwm =>
      [⟨Pwm.request.shape, [("enab", 1), ("panic", 15), ("dreq", 15)], 0, Pwm.pacingRequest⟩,
       ⟨Pwm.control.shape, [("clrf1", 1)], 0, Pwm.clearing⟩,
       ⟨Pwm.control.shape, [("usef1", 1), ("pwen1", 1)], 0, Pwm.pacing⟩]
    | .pcm =>
      [⟨Pcm.control.shape, [("en", 1)], 0, Pcm.enable.raise 0⟩,
       ⟨Pcm.channels.shape, [("ch1en", 1)], 0, Pcm.firstChannel.raise 0⟩,
       ⟨Pcm.mode.shape, [("flen", (Sequencer.frameLengthOf (Sequencer.ticksOf config.sampleMicros)).toNat)], 0,
        config.frameWord⟩,
       ⟨Pcm.control.shape, [("txclr", 1), ("rxclr", 1)], word, Pcm.clearReceive.raise (Pcm.clearTransmit.raise word)⟩,
       ⟨Pcm.request.shape, [("tx_panic", 64), ("tx", 64)], 0, Pcm.pacingRequest⟩,
       ⟨Pcm.control.shape, [("dmaen", 1)], word, Pcm.requestEnable.raise word⟩,
       ⟨Pcm.control.shape, [("txon", 1)], word, Pcm.transmit.raise word⟩]

theorem settings_accepted (valid : config.validate = .ok n) (word : UInt32) :
    ∀ s ∈ config.settings word, s.Accepted := by
  have hpermap : Setting.Accepted ⟨.slots Dma.transferInfo,
      [("dest_dreq", 1), ("permap", config.pacer.permap.code.toNat)], Dma.copyInfo,
      Dma.pacedInfo config.pacer.permap⟩ := by
    cases config.pacer <;> rfl
  have hdivisor : Setting.Accepted ⟨.slots Clock.divisor,
      [("passwd", 0x5A), ("divi", config.platform.clockDivisor.toNat)], 0, config.platform.divisorWord⟩ := by
    show (Clock.wholeDivisor config.platform.clockDivisor >>= pure) = _
    rw [config.platform.wholeDivisor_eq]
    rfl
  rw [settings]
  refine List.forall_mem_append.2 ⟨?_, ?_⟩
  · simp only [List.forall_mem_cons, hpermap, hdivisor, true_and]
    exact ⟨rfl, rfl, rfl, rfl, rfl, rfl, rfl, List.forall_mem_nil _⟩
  · split
    · simp only [List.forall_mem_cons]
      exact ⟨rfl, rfl, rfl, List.forall_mem_nil _⟩
    · rename_i hpcm
      have hframe : Setting.Accepted ⟨Pcm.mode.shape,
          [("flen", (Sequencer.frameLengthOf (Sequencer.ticksOf config.sampleMicros)).toNat)], 0,
          config.frameWord⟩ := by
        show (Pcm.frame (Sequencer.frameLengthOf (Sequencer.ticksOf config.sampleMicros)) >>= pure) = _
        rw [(config.limits_of_validate valid).frame_eq hpcm]
        rfl
      simp only [List.forall_mem_cons, hframe, true_and]
      exact ⟨rfl, rfl, rfl, rfl, rfl, rfl, List.forall_mem_nil _⟩

end Config

end PulseWidth
