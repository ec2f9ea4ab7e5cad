import PulseWidth.Proofs.Replay.Session

/-!
# Pins that are not driven

Whatever engines are made one after the other, whatever is called and whatever is copied in between, at the end of
each call the pins that the engine does not drive are where they belong: configured pins at their inactive level, all
others at the level that they had at the start.
-/

namespace PulseWidth

/-- For every configuration that is accepted, arena, level word and run of a session: when a call has returned, a
configured pin is at its inactive level if its channel is disabled or the engine does not run, and a pin that is not
configured is as it was found.  That holds of such pins also when no engine could be made, and no run meets a
fault. -/
theorem quiet_of_run {config : Config} {n : UInt32} (valid : config.validate = .ok n) (arena : Arena)
    (levels : UInt32) (moves : List Move) :
    let x := (Session.start config arena levels).run config n moves
    (∀ e, x.control = .resting e →
      (∀ pin ∈ config.pins, ∃ c, e.channel? pin = some c ∧
        (c.enabled = false → pin.isIn x.plant.levels = config.invert)) ∧
      (e.state ≠ .running → ∀ pin ∈ config.pins, pin.isIn x.plant.levels = config.invert) ∧
      ∀ pin ∉ config.pins, pin.isIn x.plant.levels = pin.isIn levels) ∧
    (∀ reason, x.control = .refused reason → ∀ pin ∉ config.pins, pin.isIn x.plant.levels = pin.isIn levels) ∧
    ∀ reason, x.control ≠ .faulted reason := by
  intro x
  have hsound : x.Sound config n levels := (Session.sound_start valid arena levels).run valid moves
  unfold Session.Sound at hsound
  refine ⟨?_, ?_, ?_⟩
  · intro e hcontrol
    rw [hcontrol] at hsound
    refine ⟨?_, ?_, fun pin hpin => (hsound.foreign pin hpin).level_eq⟩
    · intro pin hpin
      obtain ⟨c, hc⟩ := Option.isSome_iff_exists.1 ((hsound.lawful.get?_isSome_iff pin).2 hpin)
      refine ⟨c, hc, fun hdisabled => (hsound.idle pin hpin (.inr ?_)).level_eq⟩
      intro c' hc' hpin'
      have hsame := (hsound.lawful.get?_eq_some_iff pin c').2 ⟨hc', hpin'⟩
      rw [hc] at hsame
      cases hsame
      exact hdisabled
    · exact fun hstate pin hpin => (hsound.idle pin hpin (.inl hstate)).level_eq
  · intro reason hcontrol
    rw [hcontrol] at hsound
    exact hsound.2
  · intro reason hcontrol
    rw [hcontrol] at hsound
    exact hsound

theorem quiet_of_released :
    let releasing := [.copy 0, .request (.release ⟨4⟩), .step 0, .copy 0, .step 0, .copy 1, .step 0, .step 0, .copy 0,
      .step 0, .step 0]
    let x := (Session.start Config.small Arena.small 0xFFFFFFFF).run Config.small 3
      (Session.drivingMoves ++ releasing)
    Config.small.validate = .ok 3 ∧ ∃ e, x.control = .resting e ∧ e.state = .running ∧
      Pin.isIn ⟨4⟩ x.plant.levels = false ∧ Pin.isIn ⟨5⟩ x.plant.levels = true := by
  intro releasing x
  have valid : Config.small.validate = .ok 3 := rfl
  obtain ⟨e, hresting, he⟩ := Session.resting_of_engine? (x := x)
    (P := fun e => e.state = .running && (e.channel? ⟨4⟩).all (!·.enabled)) (by decide +kernel)
  rw [Bool.and_eq_true, decide_eq_true_iff] at he
  have hquiet := quiet_of_run valid Arena.small 0xFFFFFFFF (Session.drivingMoves ++ releasing)
  -- the run has been evaluated for its end, and is not to be evaluated again
  have hx : Session.run Config.small 3 (Session.start Config.small Arena.small 0xFFFFFFFF)
    (Session.drivingMoves ++ releasing) = x := rfl
  clear_value x
  dsimp only at hquiet
  rw [hx] at hquiet
  obtain ⟨hpins, -, hforeign⟩ := hquiet.1 e hresting
  obtain ⟨c, hc, hlevel⟩ := hpins ⟨4⟩ (by decide)
  have hdisabled : c.enabled = false := by simpa [hc] using he.2
  have hfound : Pin.isIn ⟨5⟩ 0xFFFFFFFF = true := by decide
  exact ⟨valid, e, hresting, he.1, hlevel hdisabled, (hforeign ⟨5⟩ (by decide)).trans hfound⟩

end PulseWidth
