import PulseWidth.Proofs.Chain.Build
import PulseWidth.Proofs.Replay.Engine

/-!
# Making an engine

A configuration that is accepted either is refused by the arena, and then nothing has been written, or leads to a
settled engine that runs: the blocks of its chain stand in the arena, all its channels are silent, and only its own
pins have been driven.  Until its last step the channel is not armed, so no slot is copied.
-/

namespace PulseWidth

open Program (Ensures ensures_log_iff ensures_pure_iff ensures_write_iff)

variable {α : Type} {r : Replay} {s : Plant} {post : α → Plant → Prop}

/-- Accepted words that are written while the channel is not armed. -/
theorem ensures_writeAll {l : ChainLayout} {writes : List (ArenaOffset × UInt32)} {f : Unit → Program α}
    (hfits : s.arena.Fits l) (harmed : s.armed = false)
    (haccepted : ∀ w ∈ writes, w.1.value.toNat % 4 = 0 ∧ w.1.value.toNat + 4 ≤ l.lengthBytes.toNat)
    (h : (f ()).Ensures r post { s with arena := s.arena.putAll writes }) :
    Ensures r ((Program.each writes fun (offset, value) => Program.write offset value) >>= f) post s := by
  induction writes generalizing s with
  | nil => exact h
  | cons w rest ih =>
    obtain ⟨halign, hend⟩ := haccepted w (by simp)
    show Ensures r ((Program.write w.1 w.2 >>= fun _ => Program.each rest _) >>= f) post s
    rw [bind_assoc, ensures_write_iff (hfits.write_eq_ok halign hend w.2)]
    intro slots
    rw [Plant.replay_of_not_armed harmed]
    exact ih ((Arena.fits_put_iff s.arena w.1 w.2 l).2 hfits) harmed (fun w' hw' => haccepted w' (by simp [hw'])) h

namespace Platform

theorem toNat_quotient (p : Platform) : (p.sourceHz / tickHz).toNat = p.sourceHz.toNat / 10000000 :=
  UInt32.toNat_div _ _

/-- The divisor is the whole quotient, for any rate of the source. -/
theorem toNat_clockDivisor (p : Platform) : p.clockDivisor.toNat = p.sourceHz.toNat / 10000000 := by
  have hsource := p.sourceHz.toNat_lt
  rw [clockDivisor, UInt32.toNat_toUInt16, toNat_quotient]
  omega

theorem clockDivisor_le (p : Platform) : p.clockDivisor.toNat ≤ 4095 := by
  have hsource := p.sourceHz.toNat_lt
  rw [toNat_clockDivisor]
  omega

end Platform

variable {config : Config} {n : UInt32}

namespace Config

/-- A configuration is accepted if it passes all checks. -/
theorem validate_eq_ok_iff :
    config.validate = .ok n ↔
      config.nrSamples? = some n ∧ n ≠ 0 ∧ n ≤ maxSamples ∧ config.sampleMicros ≤ config.pacer.maxSampleMicros ∧
        config.dmaChannel < Dma.channelCount ∧ Pin.check config.pins = .ok () := by
  constructor
  · intro valid
    unfold validate at valid
    split at valid
    · cases valid
    · rename_i m hcount
      split at valid
      · cases valid
      · rename_i hzero
        split at valid
        · cases valid
        · rename_i hmax
          split at valid
          · cases valid
          · rename_i hsample
            split at valid
            · cases valid
            · rename_i hchannel
              split at valid
              · cases valid
              · rename_i hpins
                cases valid
                exact ⟨hcount, hzero, UInt32.not_lt.1 hmax, UInt32.not_lt.1 hsample, UInt8.not_le.1 hchannel, hpins⟩
  · rintro ⟨hcount, hzero, hmax, hsample, hchannel, hpins⟩
    simp only [validate, hcount, if_neg hzero, if_neg (UInt32.not_lt.2 hmax), if_neg (UInt32.not_lt.2 hsample),
      if_neg (UInt8.not_le.2 hchannel), hpins]

/-- What is known of a configuration that is accepted. -/
theorem bounds_of_validate (valid : config.validate = .ok n) :
    0 < n ∧ n ≤ maxSamples ∧ Pin.check config.pins = .ok () := by
  obtain ⟨-, hzero, hmax, -, -, hpins⟩ := validate_eq_ok_iff.1 valid
  have hne : n.toNat ≠ 0 := fun h => hzero (UInt32.toNat_inj.1 h)
  exact ⟨UInt32.lt_iff_toNat_lt.2 (Nat.pos_of_ne_zero hne), hmax, hpins⟩

end Config

namespace Engine

variable {p : Program Engine}

/-- What holds of an engine that has just been made on a plant. -/
structure Assembled (config : Config) (n : UInt32) (s : Plant) (e : Engine) (s' : Plant) : Prop where
  settled : e.Settled config n s.levels s'
  state_eq : e.state = .running
  channels_eq : e.table.channels = config.pins.map .silent
  table_eq : s'.arena.table = s.arena.table
  holds : ∃ blocks, Chain.Planned s.arena.table ⟨n⟩ (.of config.invert config.pacer) blocks e.chain.head ∧
    s'.arena.Holds ⟨n⟩ blocks

theorem Assembled.replay {e : Engine} {s' : Plant} (h : Assembled config n s e s') (slots : List UInt32) :
    Assembled config n s e (s'.replay (.of config n) slots) where
  settled := h.settled.replay slots
  state_eq := h.state_eq
  channels_eq := h.channels_eq
  table_eq := by
    rw [Plant.arena_replay]
    exact h.table_eq
  holds := by
    rw [Plant.arena_replay]
    exact h.holds

/-- The stopped engine over a chain that has been written, after its pins have been claimed. -/
private theorem settled_stopped {found : UInt32} {table : ChannelTable} {chain : Chain} {sequencer : Sequencer}
    (hlayout : chain.layout = ⟨n⟩) (hlawful : table.Lawful config.pins n)
    (hdivisor : sequencer.clockDivisor.toNat ≤ 4095) (hclaimed : sequencer.claimed.map (·.1) = config.pins)
    (hfits : s.arena.Fits ⟨n⟩) (hcarries : s.arena.Carries ⟨n⟩ table.channels) (harmed : s.armed = false)
    (hfound : ∀ p : Pin, p.isIn s.levels = p.isIn found) :
    Settled config n found (stopped config table chain sequencer)
      { s with
        levels := drive s.levels (Block.register .gpio (Gpio.inactiveOffset config.invert))
          (Pin.maskOf config.pins) } where
  config_eq := rfl
  layout_eq := hlayout
  lawful := hlawful
  divisor_le := hdivisor
  claimed_eq := fun _ => hclaimed
  fits := hfits
  carries := hcarries
  armed_iff := by simp [stopped, harmed]
  foreign := by
    intro p hp
    have hrests : s.Rests (.of config n) p (p.isIn found) := ⟨hfound p, Plant.absent_of_not_armed harmed⟩
    exact hrests.drive_other (by simp [hp]) _
  idle := fun p hp _ => Plant.rests_drive_inactive (by simp [hp]) (Plant.absent_of_not_armed harmed) config.invert

theorem ensures_build (hp : build config n s.arena = .ok p) (harmed : s.armed = false) :
    p.Ensures (.of config n) (Assembled config n s) s := by
  unfold build at hp
  split at hp
  · cases hp
  · rename_i table htable
    split at hp
    · cases hp
    · rename_i writeChain hchain
      cases hp
      obtain ⟨hfits, blocks, head, hplanned, message, rfl⟩ := Chain.build_eq_ok hchain
      have hwritten : (s.arena.putAll (Chain.writes ⟨n⟩ blocks)).Fits ⟨n⟩ := (Arena.fits_putAll_iff _ _).2 hfits
      have haccepted : ∀ w ∈ Chain.writes ⟨n⟩ blocks, _ := fun w => Chain.accepted_of_mem_writes hplanned.length_eq
      simp only [bind_assoc, pure_bind, Chain.writeBlocks_eq_each_writes]
      apply ensures_writeAll hfits harmed haccepted
      rw [ensures_log_iff]
      apply ensures_regenerate (r := .of config n) (s := { s with arena := s.arena.putAll _ }) hwritten
      intro s₁ hs₁
      -- nothing is copied until the engine starts, which is the last thing that it does
      have harmed₁ : s₁.armed = false := hs₁.armed_eq.trans harmed
      apply Sequencer.ensures_claimPins
      intro slots previous hprevious
      rw [Plant.replay_of_not_armed harmed₁]
      have hfound : ∀ p : Pin, p.isIn s₁.levels = p.isIn s.levels := by
        intro p
        refine (hs₁.rests p _ ?_ ⟨rfl, Plant.absent_of_not_armed harmed⟩).level_eq
        intro harmed'
        rw [harmed] at harmed'
        cases harmed'
      have hsettled : Settled config n s.levels
          (stopped config table ⟨⟨n⟩, head⟩ ⟨config.pacer, config.platform.clockDivisor, [] ++ previous⟩) _ :=
        settled_stopped rfl (ChannelTable.ofPins_lawful htable) config.platform.clockDivisor_le hprevious
          (hs₁.same.fits hwritten) hs₁.carries harmed₁ hfound
      refine (hsettled.ensures_start rfl).mono ?_
      rintro _ s' ⟨rfl, hs', hsame⟩
      exact
        { settled := hs'
          state_eq := rfl
          channels_eq := ChannelTable.channels_ofPins htable
          table_eq := by rw [hsame.table_eq, hs₁.same.table_eq, Arena.table_putAll]
          holds := by
            refine ⟨blocks, hplanned, ?_⟩
            have hholds := Chain.holds_putAll hfits hplanned.length_eq
            exact Chain.holds_of_sameBeyond hplanned.length_eq hholds (hs₁.same.trans hsame) }

/-- A configuration that is accepted is refused by the arena before anything is written, or an engine is made. -/
theorem ensures_assemble (valid : config.validate = .ok n) (harmed : s.armed = false) :
    (assemble config s.arena).Ensures (.of config n)
      (fun result s' => match result with
        | .error reason => build config n s.arena = .error reason ∧ s' = s
        | .ok e => Assembled config n s e s') s := by
  refine Program.ensures_each (fun record g s hg => ?_) ?_
  · rwa [ensures_log_iff]
  rw [valid]
  dsimp only
  split
  · rename_i reason hbuild
    rw [ensures_pure_iff]
    intro slots
    exact ⟨hbuild, Plant.replay_of_not_armed harmed slots⟩
  · rename_i program hbuild
    apply Program.Ensures.bind
    refine (ensures_build hbuild harmed).mono ?_
    intro e s' hassembled slots
    exact hassembled.replay slots

end Engine

end PulseWidth
