import PulseWidth.Engine.Rig
import PulseWidth.Proofs.Lists
import PulseWidth.Proofs.Replay.Regenerate
import PulseWidth.Proofs.Replay.Sequencer

/-!
# Engines beside the DMA engine

`Settled` is what holds of an engine and its plant between two calls: the arena carries the table, the channel is
armed exactly while the engine runs, and a pin that the engine does not drive rests, at its inactive level if it is
configured and at the level it was found at if it is not.  Every call that is carried out leads from one such state to
another, whatever is copied on the way; what becomes of the engine itself is said in full.
-/

namespace PulseWidth

open Program (Ensures ensures_log_iff ensures_pause_iff ensures_pure_iff)

/-- A request to drive channels. -/
def Request.Drives : Request → Prop
  | set _ _ | setFraction _ _ | setMany _ _ => True
  | release _ | stop | start => False

namespace Engine

/-! ### What a call does to the engine -/

/-- The table that a request asks for, which is in force from the start of the call. -/
def revision (e : Engine) : Request → Except ChannelError ChannelTable
  | .set pin duty => e.table.set pin duty
  | .setFraction pin fraction =>
    match dutyOfFraction fraction e.table.nrSamples with
    | .error reason => .error reason
    | .ok duty => e.table.set pin duty
  | .setMany pins duty => e.table.setMany pins duty
  | .release pin => e.table.release pin
  | .stop => .ok (if e.state = .running then e.table.silence else e.table)
  | .start => .ok e.table

/-- The state after a request has been carried out. -/
def stateAfter (e : Engine) : Request → EngineState
  | .stop => if e.state = .running then .stopped else e.state
  | .start => if e.state = .stopped then .running else e.state
  | _ => e.state

/-- What a request that is not refused has an engine do. -/
inductive Responds (e : Engine) : Request → Program Engine → Prop
  | drive {q : Request} {pins : List Pin} {duty : UInt32} {t : ChannelTable} (message : String) (drives : q.Drives)
      (revised : e.revision q = .ok t) (changed : e.table.setMany pins duty = .ok t) :
      Responds e q (e.commit t message)
  | release {pin : Pin} {t : ChannelTable} (message : String) (changed : e.table.release pin = .ok t) :
      Responds e (.release pin) (do
        regenerate e.layout t.channels
        Sequencer.driveInactive pin.mask e.config.invert
        Program.log .debug "pwm_engine::engine" message
        return { e with table := t })
  | stop : Responds e .stop e.stop
  | start : Responds e .start e.start

theorem responds_of_respond {e : Engine} {q : Request} {p : Program Engine} (h : e.respond q = .ok p) :
    e.Responds q p := by
  cases q with
  | set pin duty =>
    obtain ⟨t, ht, rfl⟩ := map_eq_ok h
    exact .drive _ trivial ht ht
  | setFraction pin fraction =>
    simp only [respond, setChannelFraction] at h
    split at h
    · cases h
    · rename_i duty hduty
      obtain ⟨t, ht, rfl⟩ := map_eq_ok h
      refine .drive _ trivial ?_ ht
      simp only [revision, hduty]
      exact ht
  | setMany pins duty =>
    obtain ⟨t, ht, rfl⟩ := map_eq_ok h
    exact .drive _ trivial ht ht
  | release pin =>
    obtain ⟨t, ht, rfl⟩ := map_eq_ok h
    exact .release _ ht
  | stop =>
    cases h
    exact .stop
  | start =>
    cases h
    exact .start

/-- The pin is not driven: nothing is, or its channel is disabled. -/
def Idles (e : Engine) (p : Pin) : Prop :=
  e.state ≠ .running ∨ ∀ c ∈ e.table.channels, c.pin = p → c.enabled = false

/-- What holds of an engine and its plant between two calls, for an engine of a configuration with `n` samples that
was made when the levels were `found`. -/
structure Settled (config : Config) (n : UInt32) (found : UInt32) (e : Engine) (s : Plant) : Prop where
  config_eq : e.config = config
  layout_eq : e.chain.layout = ⟨n⟩
  lawful : e.table.Lawful config.pins n
  divisor_le : e.sequencer.clockDivisor.toNat ≤ 4095
  claimed_eq : e.state ≠ .exited → e.sequencer.claimed.map (·.1) = config.pins
  fits : s.arena.Fits ⟨n⟩
  carries : s.arena.Carries ⟨n⟩ e.table.channels
  armed_iff : s.armed = true ↔ e.state = .running
  foreign : ∀ p ∉ config.pins, s.Rests (.of config n) p (p.isIn found)
  idle : ∀ p ∈ config.pins, e.Idles p → s.Rests (.of config n) p config.invert

variable {config : Config} {n found : UInt32} {e : Engine} {s : Plant}

theorem Settled.replay (h : e.Settled config n found s) (slots : List UInt32) :
    e.Settled config n found (s.replay (.of config n) slots) where
  config_eq := h.config_eq
  layout_eq := h.layout_eq
  lawful := h.lawful
  divisor_le := h.divisor_le
  claimed_eq := h.claimed_eq
  fits := by
    rw [Plant.arena_replay]
    exact h.fits
  carries := by
    rw [Plant.arena_replay]
    exact h.carries
  armed_iff := by
    rw [Plant.armed_replay]
    exact h.armed_iff
  foreign := fun p hp => (h.foreign p hp).replay slots
  idle := fun p hp hidle => (h.idle p hp hidle).replay slots

/-- Only the pins that are not configured are compared with what was found. -/
theorem Settled.of_found (h : e.Settled config n found s) {other : UInt32}
    (heq : ∀ p ∉ config.pins, p.isIn found = p.isIn other) : e.Settled config n other s :=
  { h with foreign := fun p hp => heq p hp ▸ h.foreign p hp }

theorem Settled.not_armed (h : e.Settled config n found s) (hstate : e.state ≠ .running) : s.armed = false :=
  Bool.eq_false_iff.2 fun harmed => hstate (h.armed_iff.1 harmed)

/-- A pin that is not configured is in no word of a lawful table. -/
theorem isIn_slotMask_foreign {t : ChannelTable} (h : t.Lawful config.pins n) {p : Pin} (hp : p ∉ config.pins)
    (slot : UInt32) : p.isIn (slotMask t.channels slot) = false := by
  apply isIn_slotMask_eq_false
  intro c hc hpin
  exact absurd (h.pins_eq ▸ List.mem_map.2 ⟨c, hc, hpin⟩) hp

/-! ### Updates -/

/-- The plant after the sample words of a new table have been written.  Pins that were idle and stay so still rest. -/
private theorem settled_of_rewritten (h : e.Settled config n found s) {t : ChannelTable} (ht : t.Lawful config.pins n)
    {s' : Plant} (hs' : Plant.Rewritten (.of config n) t.channels (ChainLayout.slots ⟨n⟩) s s')
    (hidle : ∀ p ∈ config.pins, Idles { e with table := t } p → s'.Rests (.of config n) p config.invert) :
    Settled config n found { e with table := t } s' where
  config_eq := h.config_eq
  layout_eq := h.layout_eq
  lawful := ht
  divisor_le := h.divisor_le
  claimed_eq := h.claimed_eq
  fits := hs'.same.fits h.fits
  carries := hs'.carries
  armed_iff := by
    rw [hs'.armed_eq]
    exact h.armed_iff
  foreign := fun p hp => hs'.rests p _ (fun _ => isIn_slotMask_foreign ht hp) (h.foreign p hp)
  idle := hidle

private theorem rests_of_idles (h : e.Settled config n found s) {t : ChannelTable} {s' : Plant}
    (hs' : Plant.Rewritten (.of config n) t.channels (ChainLayout.slots ⟨n⟩) s s') {p : Pin} (hp : p ∈ config.pins)
    (hbefore : e.Idles p) (hafter : Idles { e with table := t } p) : s'.Rests (.of config n) p config.invert := by
  refine hs'.rests p _ ?_ (h.idle p hp hbefore)
  intro harmed slot
  rcases hafter with hstate | hdisabled
  · exact absurd (h.armed_iff.1 harmed) hstate
  · exact isIn_slotMask_eq_false hdisabled slot

/-- What a call ensures that ends with the given engine. -/
def Becomes (config : Config) (n found : UInt32) (s : Plant) (target : Engine) (e' : Engine) (s' : Plant) : Prop :=
  e' = target ∧ e'.Settled config n found s' ∧ Arena.SameBeyond n.toNat s.arena s'.arena

theorem Settled.becomes {target : Engine} {s' : Plant} (h : target.Settled config n found s')
    (hsame : Arena.SameBeyond n.toNat s.arena s'.arena) :
    Ensures (.of config n) (pure target) (Becomes config n found s target) s' := by
  intro slots
  refine ⟨rfl, h.replay slots, ?_⟩
  rw [Plant.arena_replay]
  exact hsame

theorem Settled.ensures_commit (h : e.Settled config n found s) {t : ChannelTable} (ht : t.Lawful config.pins n)
    (hidle : ∀ p, Idles { e with table := t } p → e.Idles p) (message : String) :
    (e.commit t message).Ensures (.of config n) (Becomes config n found s { e with table := t }) s := by
  unfold commit layout
  rw [h.layout_eq]
  apply ensures_regenerate (r := .of config n) h.fits
  intro s' hs'
  rw [ensures_log_iff]
  refine Settled.becomes (settled_of_rewritten h ht hs' ?_) hs'.same
  exact fun p hp hafter => rests_of_idles h hs' hp (hidle p hafter) hafter

theorem Settled.ensures_setMany (h : e.Settled config n found s) {pins : List Pin} {duty : UInt32} {t : ChannelTable}
    (ht : e.table.setMany pins duty = .ok t) (message : String) :
    (e.commit t message).Ensures (.of config n) (Becomes config n found s { e with table := t }) s := by
  apply h.ensures_commit (ChannelTable.setMany_lawful h.lawful ht)
  intro p hafter
  rcases hafter with hstate | hdisabled
  · exact .inl hstate
  · right
    intro c hc hpin
    obtain ⟨-, rfl⟩ := ChannelTable.setMany_eq_ok ht
    have hnew := hdisabled _ (List.mem_map_of_mem hc)
    split at hnew
    · cases hnew hpin
    · exact hnew hpin

/-- A release drives the pin inactive after its last bit has left the sample words. -/
theorem Settled.ensures_release (h : e.Settled config n found s) {pin : Pin} {t : ChannelTable}
    (ht : e.table.release pin = .ok t) (message : String) :
    Ensures (.of config n)
      (do
        regenerate e.layout t.channels
        Sequencer.driveInactive pin.mask e.config.invert
        Program.log .debug "pwm_engine::engine" message
        return { e with table := t })
      (Becomes config n found s { e with table := t }) s := by
  obtain ⟨hknown, heq⟩ := ChannelTable.release_eq_ok ht
  have hlawful := ChannelTable.release_lawful h.lawful ht
  obtain rfl := h.config_eq
  unfold layout
  rw [h.layout_eq]
  apply ensures_regenerate (r := .of e.config n) h.fits
  intro s₁ hs₁
  rw [Sequencer.ensures_driveInactive_iff]
  intro slots
  rw [ensures_log_iff]
  have hpin : pin ∈ e.config.pins := (h.lawful.get?_isSome_iff pin).1 hknown
  have hother : ∀ p, p ≠ pin → Idles { e with table := t } p → e.Idles p := by
    intro p hne hafter
    rcases hafter with hstate | hdisabled
    · exact .inl hstate
    · right
      intro c hc hp
      subst heq
      have hnew := hdisabled _ (List.mem_map_of_mem hc)
      rw [if_neg (fun hcp => hne (hp.symm.trans hcp))] at hnew
      exact hnew hp
  -- words may be copied up to the store and behind it, but none has the bit of the pin any more
  have habsent : (s₁.replay (.of e.config n) slots).Absent (.of e.config n) pin := by
    have hcarries : (s₁.replay (.of e.config n) slots).arena.Carries ⟨n⟩ t.channels := by
      rw [Plant.arena_replay]
      exact hs₁.carries
    refine Plant.absent_of_carries hcarries fun _ slot => ?_
    apply isIn_slotMask_eq_false
    intro c hc hp
    subst heq
    obtain ⟨b, -, rfl⟩ := List.mem_map.1 hc
    split
    · rfl
    · rename_i hne
      rw [if_neg hne] at hp
      exact absurd hp hne
  refine Settled.becomes ?_ ?_
  · exact
      { config_eq := h.config_eq
        layout_eq := h.layout_eq
        lawful := hlawful
        divisor_le := h.divisor_le
        claimed_eq := h.claimed_eq
        fits := by
          rw [Plant.arena_replay]
          exact hs₁.same.fits h.fits
        carries := by
          rw [Plant.arena_replay]
          exact hs₁.carries
        armed_iff := by
          rw [Plant.armed_replay, hs₁.armed_eq]
          exact h.armed_iff
        foreign := by
          intro p hp
          have hrests := hs₁.rests p _ (fun _ => isIn_slotMask_foreign hlawful hp) (h.foreign p hp)
          refine (hrests.replay slots).drive_other ?_ _
          rw [isIn_mask, decide_eq_false_iff_not]
          exact fun heq => hp (heq ▸ hpin)
        idle := by
          intro p hp hafter
          by_cases hne : p = pin
          · subst hne
            exact Plant.rests_drive_inactive (by simp) habsent e.config.invert
          · have hrests := rests_of_idles h hs₁ hp (hother p hne hafter) hafter
            refine (hrests.replay slots).drive_other ?_ _
            rw [isIn_mask, decide_eq_false_iff_not]
            exact hne }
  · rw [Plant.arena_replay]
    exact hs₁.same

/-! ### Stopping, starting and shutting down -/

/-- All pins of a plant that is not armed after they have been driven inactive. -/
private theorem rests_of_driven {p : Pin} {pins : List Pin} (hp : p ∈ pins) (h : s.armed = false) (invert : Bool) :
    Plant.Rests (.of config n) p invert
      { s with levels := drive s.levels (Block.register .gpio (Gpio.inactiveOffset invert)) (Pin.maskOf pins) } :=
  Plant.rests_drive_inactive (by simp [hp]) (Plant.absent_of_not_armed h) invert

private theorem rests_of_driven_others {p : Pin} {level : Bool} {pins : List Pin} (hp : p ∉ pins)
    (h : s.Rests (.of config n) p level) (address : BusAddress) :
    Plant.Rests (.of config n) p level { s with levels := drive s.levels address (Pin.maskOf pins) } :=
  h.drive_other (by simp [hp]) address

/-- Stopping a running engine: the words are silenced, the channel is reset, and only then are the pins driven. -/
theorem Settled.ensures_stop (h : e.Settled config n found s) (hstate : e.state = .running) :
    e.stop.Ensures (.of config n)
      (Becomes config n found s { e with table := e.table.silence, state := .stopped }) s := by
  have hlawful := ChannelTable.silence_lawful h.lawful
  have hmask : e.table.silence.pinMask = Pin.maskOf config.pins := by rw [ChannelTable.pinMask, hlawful.pins_eq]
  obtain rfl := h.config_eq
  unfold stop layout
  rw [if_neg (not_not_intro hstate)]
  simp only [hmask]
  rw [h.layout_eq]
  apply ensures_regenerate (r := .of e.config n) h.fits
  intro s₁ hs₁
  rw [ensures_pause_iff, Sequencer.ensures_haltDma_iff]
  -- the last copies are in front of the reset, so that the store behind it has the last word
  intro slots
  rw [Sequencer.ensures_driveInactive_iff]
  intro more
  rw [ensures_log_iff, Plant.replay_of_not_armed rfl]
  refine Settled.becomes ?_ ?_
  · exact
      { config_eq := h.config_eq
        layout_eq := h.layout_eq
        lawful := hlawful
        divisor_le := h.divisor_le
        claimed_eq := fun _ => h.claimed_eq (by rw [hstate]; decide)
        fits := by
          rw [Plant.arena_replay]
          exact hs₁.same.fits h.fits
        carries := by
          rw [Plant.arena_replay]
          exact hs₁.carries
        armed_iff := by simp
        foreign := by
          intro p hp
          have hrests := hs₁.rests p _ (fun _ => isIn_slotMask_foreign hlawful hp) (h.foreign p hp)
          apply rests_of_driven_others hp
          exact ⟨(hrests.replay slots).level_eq, Plant.absent_of_not_armed rfl⟩
        idle := fun p hp _ => rests_of_driven hp rfl _ }
  · rw [Plant.arena_replay]
    exact hs₁.same

theorem Settled.ensures_start (h : e.Settled config n found s) (hstate : e.state = .stopped) :
    e.start.Ensures (.of config n) (Becomes config n found s { e with state := .running }) s := by
  have hstill : e.state ≠ .running := by rw [hstate]; decide
  unfold start
  rw [if_neg (not_not_intro hstate), Sequencer.ensures_start_iff h.divisor_le (h.not_armed hstill), ensures_log_iff]
  refine Settled.becomes ?_ (.refl _ _)
  exact
    { config_eq := h.config_eq
      layout_eq := h.layout_eq
      lawful := h.lawful
      divisor_le := h.divisor_le
      claimed_eq := fun _ => h.claimed_eq (by rw [hstate]; decide)
      fits := h.fits
      carries := h.carries
      armed_iff := by simp
      foreign := by
        intro p hp
        refine ⟨(h.foreign p hp).level_eq, ?_⟩
        exact Plant.absent_of_carries h.carries fun _ => isIn_slotMask_foreign h.lawful hp
      idle := by
        intro p hp hidle
        refine ⟨(h.idle p hp (.inl hstill)).level_eq, ?_⟩
        apply Plant.absent_of_carries h.carries
        intro _ slot
        rcases hidle with hstate | hdisabled
        · exact absurd rfl hstate
        · exact isIn_slotMask_eq_false hdisabled slot }

/-- Releasing the pins of an engine that does not run, after it has switched its pacer off. -/
private theorem Settled.ensures_tearDown (h : e.Settled config n found s) (hstate : e.state = .stopped) :
    Ensures (.of config n)
      (do
        e.sequencer.quiescePacer
        let sequencer ← e.sequencer.releasePins e.config.invert
        Program.log .info "pwm_engine::engine" "pins released"
        return { e with sequencer, state := .exited })
      (fun e' s' => e'.state = .exited ∧ e'.Settled config n found s') s := by
  obtain rfl := h.config_eq
  have hstill : e.state ≠ .running := by rw [hstate]; decide
  have harmed := h.not_armed hstill
  have hclaimed := h.claimed_eq (by rw [hstate]; decide)
  have hrests : ∀ p ∈ e.config.pins, s.Rests (.of e.config n) p e.config.invert :=
    fun p hp => h.idle p hp (.inl hstill)
  rw [Sequencer.ensures_quiescePacer_iff]
  apply Sequencer.ensures_releasePins
  · intro hnone
    rw [ensures_log_iff, ensures_pure_iff]
    intro slots
    refine ⟨rfl, Settled.replay ?_ slots⟩
    exact
      { h with
        claimed_eq := fun hne => absurd rfl hne
        armed_iff := by simp [harmed]
        idle := fun p hp _ => hrests p hp }
  · intro _ slots
    rw [ensures_log_iff, ensures_pure_iff, Plant.replay_of_not_armed harmed, hclaimed]
    intro more
    refine ⟨rfl, Settled.replay ?_ more⟩
    exact
      { config_eq := h.config_eq
        layout_eq := h.layout_eq
        lawful := h.lawful
        divisor_le := h.divisor_le
        claimed_eq := fun hne => absurd rfl hne
        fits := h.fits
        carries := h.carries
        armed_iff := by simp [harmed]
        foreign := fun p hp => rests_of_driven_others hp (h.foreign p hp) _
        idle := fun p hp _ => rests_of_driven hp harmed _ }

/-- An engine that has been shut down is left alone. -/
theorem Settled.ensures_exit (h : e.Settled config n found s) :
    e.exit.Ensures (.of config n) (fun e' s' => e'.state = .exited ∧ e'.Settled config n found s') s := by
  unfold exit
  by_cases hexited : e.state = .exited
  · rw [if_pos hexited, ensures_pure_iff]
    exact fun slots => ⟨hexited, h.replay slots⟩
  · rw [if_neg hexited]
    apply Program.Ensures.bind
    by_cases hrunning : e.state = .running
    · refine (h.ensures_stop hrunning).mono ?_
      rintro _ s' ⟨rfl, hs', -⟩
      exact hs'.ensures_tearDown rfl
    · have hstopped : e.state = .stopped := by
        cases he : e.state with
        | running => exact absurd he hrunning
        | stopped => rfl
        | exited => exact absurd he hexited
      unfold stop
      rw [if_pos hrunning, ensures_pure_iff]
      exact fun slots => (h.replay slots).ensures_tearDown hstopped

/-! ### Requests -/

/-- A request that is carried out leads to the table that it asks for. -/
theorem Settled.ensures_respond (h : e.Settled config n found s) {q : Request} {p : Program Engine}
    (hp : e.respond q = .ok p) :
    ∃ t, e.revision q = .ok t ∧
      p.Ensures (.of config n) (Becomes config n found s { e with table := t, state := e.stateAfter q }) s := by
  cases responds_of_respond hp with
  | drive message drives revised changed =>
    refine ⟨_, revised, ?_⟩
    have hstate : e.stateAfter q = e.state := by
      cases q with
      | set | setFraction | setMany => rfl
      | release | stop | start => exact drives.elim
    rw [hstate]
    exact h.ensures_setMany changed message
  | release message changed => exact ⟨_, changed, h.ensures_release changed message⟩
  | stop =>
    refine ⟨_, rfl, ?_⟩
    by_cases hrunning : e.state = .running
    · simpa only [stateAfter, if_pos hrunning] using h.ensures_stop hrunning
    · simp only [stateAfter, if_neg hrunning, stop, if_pos (show e.state ≠ .running from hrunning)]
      exact h.becomes (.refl _ _)
  | start =>
    refine ⟨_, rfl, ?_⟩
    by_cases hstopped : e.state = .stopped
    · simpa only [stateAfter, if_pos hstopped] using h.ensures_start hstopped
    · simp only [stateAfter, if_neg hstopped, start, if_pos (show e.state ≠ .stopped from hstopped)]
      exact h.becomes (.refl _ _)

end Engine

end PulseWidth
