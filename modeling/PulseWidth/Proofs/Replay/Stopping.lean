import PulseWidth.Proofs.Replay.Session

/-!
# Pins while an engine is stopped

An engine that is stopped writes zeros to all its sample words and waits for a cycle before it resets the channel.  A
word of zeros turns no pin on and none off, so that the wait changes nothing: a pin that is active when the last word
has been written is active when the channel is reset, and is driven only after that.
-/

namespace PulseWidth

open Program (ensures_pause_iff ensures_pure_iff)

/-! ### Programs of a given number of actions -/

/-- The program is so many actions and no loads. -/
def Program.Acts {α : Type} : Program α → Nat → Prop
  | done _, count => count = 0
  | fault _, _ => False
  | load _ _ _, _ => False
  | act _ next, count => ∃ rest, count = rest + 1 ∧ (next ()).Acts rest

theorem Program.acts_each_write {α : Type} (items : List α) (offset : α → ArenaOffset) (value : α → UInt32) :
    (each items fun item => write (offset item) (value item)).Acts items.length := by
  induction items with
  | nil => exact rfl
  | cons item rest ih => exact ⟨rest.length, rfl, ih⟩

/-- A step of the control thread. -/
def Move.isStep : Move → Bool
  | step _ => true
  | _ => false

/-- The moves go on with a call, in so many steps; anything may be copied in between. -/
structure Move.Continue (moves : List Move) (steps : Nat) : Prop where
  only : ∀ m ∈ moves, m.isStep = true ∨ m.copied?.isSome = true
  countP_eq : moves.countP Move.isStep = steps

/-! ### Words of zeros -/

theorem slotMask_of_disabled {channels : List Channel} (h : ∀ c ∈ channels, c.enabled = false) (slot : UInt32) :
    slotMask channels slot = 0 := by
  have hnone : channels.filter (·.acts slot) = [] := by
    rw [List.filter_eq_nil_iff]
    intro c hc
    simp [Channel.acts, h c hc]
  rw [slotMask, hnone]
  rfl

theorem disabled_of_silence (t : ChannelTable) : ∀ c ∈ t.silence.channels, c.enabled = false := by
  intro c hc
  obtain ⟨old, -, rfl⟩ := List.mem_map.1 hc
  rfl

theorem slotMask_silence (t : ChannelTable) (slot : UInt32) : slotMask t.silence.channels slot = 0 :=
  slotMask_of_disabled (disabled_of_silence t) slot

/-- Copies of zeros change nothing. -/
theorem Plant.replay_of_zeros {r : Replay} {s : Plant}
    (h : ∀ slot < r.layout.nrSamples, s.arena.read (r.layout.sampleOffset slot) = .ok 0) (slots : List UInt32) :
    s.replay r slots = s := by
  have hdrive : ∀ address, drive s.levels address 0 = s.levels := by
    intro address
    unfold drive
    split
    · simp
    · split <;> simp
  have hcopy : ∀ slot, s.copy r slot = s := by
    intro slot
    unfold Plant.copy
    split
    · rename_i hcopies
      simp only [h slot hcopies.2, hdrive]
    · rfl
  induction slots with
  | nil => rfl
  | cons slot rest ih => rw [Plant.replay_cons, hcopy, ih]

namespace Session

variable {config : Config} {n : UInt32}

/-- The action that the control thread takes next. -/
def next? (x : Session) : Option Action :=
  match x.control with
  | .assembling (.act action _) => some action
  | .calling _ (.act action _) => some action
  | _ => none

/-- After as many steps as a program has actions, and any copies, the call goes on behind the program. -/
theorem run_acts {α : Type} {e : Engine} {f : α → Program Engine} {post : α → Plant → Prop} {moves : List Move}
    {steps : Nat} {p : Program α} {s : Plant} (hmoves : Move.Continue moves steps) (hacts : p.Acts steps)
    (hensures : p.Ensures (.of config n) post s) :
    ∃ a s', Session.run config n ⟨.calling e (p >>= f), s⟩ moves = ⟨.calling e (f a), s'⟩ ∧ post a s' := by
  induction moves generalizing p s steps with
  | nil =>
    obtain ⟨-, hcount⟩ := hmoves
    cases p with
    | done a => exact ⟨a, s, rfl, hensures []⟩
    | act action next =>
      obtain ⟨rest, hsteps, -⟩ := hacts
      rw [hsteps] at hcount
      cases hcount
    | fault _ => exact hacts.elim
    | load _ _ _ => exact hacts.elim
  | cons m rest ih =>
    obtain ⟨honly, hcount⟩ := hmoves
    obtain ⟨hm, honly'⟩ := List.forall_mem_cons.1 honly
    cases m with
    | step answer =>
      rw [List.countP_cons_of_pos rfl] at hcount
      cases p with
      | done a =>
        have hzero : steps = 0 := hacts
        omega
      | act action next =>
        obtain ⟨fewer, hsteps, hnext⟩ := hacts
        obtain ⟨s', hs', hensures'⟩ := hensures []
        rw [Plant.replay_nil] at hs'
        have hmove : Session.move config n ⟨.calling e (.act action next >>= f), s⟩ (.step answer) =
            ⟨.calling e (next () >>= f), s'⟩ := by
          show Session.step ⟨.calling e (.act action fun u => (next u).bind f), s⟩ answer = _
          simp only [step, Program.step, hs', Except.map]
          rfl
        rw [Session.run, List.foldl_cons, hmove]
        exact ih ⟨honly', by omega⟩ hnext hensures'
      | fault _ => exact hacts.elim
      | load _ _ _ => exact hacts.elim
    | copy slot =>
      rw [List.countP_cons_of_neg (by simp [Move.isStep])] at hcount
      exact ih ⟨honly', hcount⟩ hacts (hensures.replay [slot])
    | assemble arena => simp [Move.isStep, Move.copied?] at hm
    | request q => simp [Move.isStep, Move.copied?] at hm
    | exit => simp [Move.isStep, Move.copied?] at hm

end Session

/-- Take any run of a session of an accepted configuration up to a moment when a call has returned and the engine
runs, and stop the engine.  When all words have been written it waits, and whatever is copied in that time, no level
has changed when it comes to reset the channel. -/
theorem levels_of_wait {config : Config} {n : UInt32} (valid : config.validate = .ok n) (arena : Arena)
    (levels : UInt32) (before rewriting waiting : List Move) (e : Engine)
    (resting : ((Session.start config arena levels).run config n before).control = .resting e)
    (running : e.state = .running) (rewrites : Move.Continue rewriting n.toNat) (waits : Move.Continue waiting 1) :
    let x := (Session.start config arena levels).run config n before
    let y := x.run config n (.request .stop :: rewriting)
    let z := y.run config n waiting
    y.next? = some (.pause config.cycleMicros.toUInt64) ∧
      z.next? = some (.store .dma Dma.status.offset Dma.reset) ∧ z.plant.levels = y.plant.levels := by
  intro x y z
  have hsound : x.Sound config n levels := (Session.sound_start valid arena levels).run valid before
  obtain ⟨s, hx⟩ : ∃ s, x = ⟨.resting e, s⟩ := ⟨x.plant, by rw [← resting]⟩
  rw [hx] at hsound
  have hsettled : e.Settled config n levels s := hsound
  have hlayout : e.layout = ⟨n⟩ := hsettled.layout_eq
  -- the call is the rewrite, the wait and the rest
  let rest (_ : Unit) : Program Engine := do
    Sequencer.haltDma
    Sequencer.driveInactive e.table.silence.pinMask e.config.invert
    Program.log .info "pwm_engine::engine" "stopped"
    return { e with table := e.table.silence, state := .stopped }
  let wait (_ : Unit) : Program Engine := Program.pause e.config.cycleMicros.toUInt64 >>= rest
  have hstop : e.stop = regenerate ⟨n⟩ e.table.silence.channels >>= wait := by
    unfold Engine.stop
    rw [if_neg (not_not_intro running), hlayout]
  have hrewrite : (regenerate ⟨n⟩ e.table.silence.channels).Ensures (.of config n)
      (fun _ s' => s'.arena.Carries ⟨n⟩ e.table.silence.channels) s := by
    rw [← bind_pure (regenerate ⟨n⟩ e.table.silence.channels)]
    apply ensures_regenerate (r := .of config n) hsettled.fits
    intro s' hs'
    rw [ensures_pure_iff]
    intro slots
    rw [Plant.arena_replay]
    exact hs'.carries
  have hacts : (regenerate ⟨n⟩ e.table.silence.channels).Acts n.toNat := by
    have h := Program.acts_each_write (ChainLayout.mk n).slots (ChainLayout.mk n).sampleOffset
      (slotMask e.table.silence.channels)
    rwa [ChainLayout.length_slots] at h
  obtain ⟨_, s', hy, hcarries⟩ := Session.run_acts (e := e.during .stop) (f := wait) rewrites hacts hrewrite
  have hyx : y = ⟨.calling (e.during .stop) (wait ()), s'⟩ := by
    rw [← hy, ← hstop]
    show Session.run config n (x.move config n (.request .stop)) rewriting = _
    rw [hx]
    rfl
  have hzeros : ∀ slots, s'.replay (.of config n) slots = s' := by
    apply Plant.replay_of_zeros
    intro slot hslot
    have hword := hcarries slot hslot
    rwa [slotMask_silence] at hword
  have hwait : (Program.pause e.config.cycleMicros.toUInt64).Ensures (.of config n) (fun _ s'' => s'' = s') s' := by
    rw [← bind_pure (Program.pause e.config.cycleMicros.toUInt64), ensures_pause_iff, ensures_pure_iff]
    exact hzeros
  have hone : (Program.pause e.config.cycleMicros.toUInt64).Acts 1 := ⟨0, rfl, rfl⟩
  obtain ⟨_, s'', hz, rfl⟩ := Session.run_acts (e := e.during .stop) (f := rest) waits hone hwait
  have hzy : z = ⟨.calling (e.during .stop) (rest ()), s''⟩ := by
    rw [← hz]
    show y.run config n waiting = _
    rw [hyx]
  rw [hyx, hzy]
  refine ⟨?_, rfl, rfl⟩
  rw [← hsettled.config_eq]
  rfl

theorem levels_of_small :
    let x := (Session.start Config.small Arena.small 0).run Config.small 3 (Session.drivingMoves ++ [.copy 0])
    let rewriting := [.step 0, .step 0, .copy 1, .step 0]
    let waiting := [.copy 2, .step 0, .copy 0, .copy 1]
    let y := x.run Config.small 3 (.request .stop :: rewriting)
    Config.small.validate = .ok 3 ∧ (∃ e, x.control = .resting e ∧ e.state = .running) ∧
      Move.Continue rewriting 3 ∧ Move.Continue waiting 1 ∧
      (y.run Config.small 3 waiting).plant.levels = y.plant.levels := by
  intro x rewriting waiting y
  have valid : Config.small.validate = .ok 3 := rfl
  obtain ⟨e, resting, he⟩ :=
    Session.resting_of_engine? (x := x) (P := fun e => e.state = .running) (by decide +kernel)
  have running : e.state = .running := of_decide_eq_true he
  have rewrites : Move.Continue rewriting 3 := ⟨by simp [rewriting, Move.isStep, Move.copied?], rfl⟩
  have waits : Move.Continue waiting 1 := ⟨by simp [waiting, Move.isStep, Move.copied?], rfl⟩
  have hlevels := levels_of_wait valid Arena.small 0 (Session.drivingMoves ++ [.copy 0]) rewriting waiting e resting
    running rewrites waits
  -- the run has been evaluated for its end, and is not to be evaluated again
  have hx : (Session.start Config.small Arena.small 0).run Config.small 3 (Session.drivingMoves ++ [.copy 0]) = x := rfl
  clear_value x
  dsimp only at hlevels
  rw [hx] at hlevels
  exact ⟨valid, ⟨e, resting, running⟩, rewrites, waits, hlevels.2.2⟩

/-- A pin that is active when its engine is asked to stop is still active when the channel is reset, although all slots
have been copied in the meantime. -/
theorem active_after_wait :
    let x := (Session.start Config.small Arena.small 0).run Config.small 3 (Session.drivingMoves ++ [.copy 0])
    let waiting := [.step 0, .copy 1, .copy 2, .copy 0]
    let y := x.run Config.small 3 [.request .stop, .step 0, .step 0, .step 0]
    let z := y.run Config.small 3 waiting
    x.engine?.any (fun e => e.state = .running) = true ∧ y.next? = some (.pause 30) ∧
      waiting.filterMap Move.copied? = [1, 2, 0] ∧ z.next? = some (.store .dma Dma.status.offset Dma.reset) ∧
      Config.small.pins = [⟨4⟩] ∧ Pin.isIn ⟨4⟩ z.plant.levels ≠ Config.small.invert := by
  decide +kernel

end PulseWidth
