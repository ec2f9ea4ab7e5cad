import PulseWidth.Proofs.Replay.Assembly

/-!
# Sessions

A session is the control thread and the DMA engine side by side.  The control thread makes an engine and then calls
it, as often and with whatever it likes, and may make another one when it has shut the engine down; a call is carried
out one action at a time.  Between any two actions any slots may be copied.  A run is a list of moves, so that every
order of actions and copies is the run of some list.

`Sound` is what all sessions of a configuration have in common; it is kept by every move, and a sound session has met
no fault.
-/

namespace PulseWidth

/-! ### Moves -/

/-- One action of a program.  A load answers the given word; a program that has ended stays so. -/
def Program.step {α : Type} (s : Plant) (answer : UInt32) : Program α → Except Fault (Program α × Plant)
  | done result => .ok (.done result, s)
  | fault reason => .error reason
  | load _ _ next => .ok (next answer, s)
  | act action next => (s.perform action).map fun s' => (next (), s')

/-- What the control thread is doing. -/
inductive Control where
  | assembling (program : Program (Except InitError Engine))
  | resting (engine : Engine)
  /-- A call is being carried out; the engine already has the table that was asked for. -/
  | calling (engine : Engine) (program : Program Engine)
  | refused (reason : InitError)
  | faulted (reason : Fault)

/-- The control thread and what it shares with the DMA engine. -/
structure Session where
  control : Control
  plant : Plant

/-- What happens next. -/
inductive Move where
  /-- Another engine is made with an arena; the last one must have been shut down or refused. -/
  | assemble (arena : Arena)
  | request (q : Request)
  | exit
  | step (answer : UInt32)
  | copy (slot : UInt32)

/-- The slot that is copied. -/
def Move.copied? : Move → Option UInt32
  | copy slot => some slot
  | _ => none

/-- The engine with the table that it has during a call. -/
def Engine.during (e : Engine) (q : Request) : Engine := { e with table := (e.revision q).toOption.getD e.table }

namespace Session

/-- The control thread takes an action or, if there is none left, goes on to what comes after. -/
def step (x : Session) (answer : UInt32) : Session :=
  match x.control with
  | .assembling (.done (.ok e)) => { x with control := .resting e }
  | .assembling (.done (.error reason)) => { x with control := .refused reason }
  | .assembling p =>
    match p.step x.plant answer with
    | .ok (p, plant) => ⟨.assembling p, plant⟩
    | .error reason => { x with control := .faulted reason }
  | .calling _ (.done e) => { x with control := .resting e }
  | .calling e p =>
    match p.step x.plant answer with
    | .ok (p, plant) => ⟨.calling e p, plant⟩
    | .error reason => { x with control := .faulted reason }
  | _ => x

/-- A move; one that cannot be made now changes nothing. -/
def move (config : Config) (n : UInt32) (x : Session) : Move → Session
  | .assemble arena =>
    let next : Session := ⟨.assembling (Engine.assemble config arena), { x.plant with arena }⟩
    match x.control with
    | .refused _ => next
    | .resting e => if e.state = .exited then next else x
    | _ => x
  | .request q =>
    match x.control with
    | .resting e =>
      match e.respond q with
      | .ok p => { x with control := .calling (e.during q) p }
      | .error _ => x
    | _ => x
  | .exit =>
    match x.control with
    | .resting e => { x with control := .calling (e.during .stop) e.exit }
    | _ => x
  | .step answer => x.step answer
  | .copy slot => { x with plant := x.plant.copy (.of config n) slot }

/-- Some moves, one after the other. -/
def run (config : Config) (n : UInt32) (x : Session) (moves : List Move) : Session := moves.foldl (move config n) x

/-- The sessions that are passed through, the first and the last one included. -/
def visited (config : Config) (n : UInt32) (x : Session) : List Move → List Session
  | [] => [x]
  | m :: rest => x :: (x.move config n m).visited config n rest

/-- The session at the start: the channel is not armed. -/
def start (config : Config) (arena : Arena) (levels : UInt32) : Session :=
  ⟨.assembling (Engine.assemble config arena), ⟨arena, levels, false⟩⟩

/-- The table of the engine, from the time when the engine has been made. -/
def table? (x : Session) : Option ChannelTable :=
  match x.control with
  | .resting e | .calling e _ => some e.table
  | _ => none

/-- The duty of a pin whose channel is enabled. -/
def duty? (x : Session) (p : Pin) : Option UInt32 := do
  let table ← x.table?
  let channel ← table.get? p
  if channel.enabled then some channel.duty else none

/-- The engine between two calls. -/
def engine? (x : Session) : Option Engine :=
  match x.control with
  | .resting e => some e
  | _ => none

theorem resting_of_engine? {x : Session} {P : Engine → Bool} (h : x.engine?.any P = true) :
    ∃ e, x.control = .resting e ∧ P e = true := by
  obtain ⟨control, plant⟩ := x
  cases control with
  | resting e => exact ⟨e, rfl, h⟩
  | _ => cases h

theorem run_append (config : Config) (n : UInt32) (x : Session) (first second : List Move) :
    x.run config n (first ++ second) = (x.run config n first).run config n second := List.foldl_append

/-! ### What all sessions have in common -/

/-- What holds of every session of a configuration with `n` samples, if the levels were `found` at the start. -/
def Sound (config : Config) (n found : UInt32) (x : Session) : Prop :=
  match x.control with
  | .assembling p =>
    p.Ensures (.of config n)
      (fun result s => match result with
        | .ok e => e.Settled config n found s
        | .error _ => s.armed = false ∧ ∀ pin ∉ config.pins, pin.isIn s.levels = pin.isIn found) x.plant
  | .resting e => e.Settled config n found x.plant
  | .calling _ p => p.Ensures (.of config n) (fun e s => e.Settled config n found s) x.plant
  | .refused _ => x.plant.armed = false ∧ ∀ pin ∉ config.pins, pin.isIn x.plant.levels = pin.isIn found
  | .faulted _ => False

variable {config : Config} {n found : UInt32} {x : Session}

/-- What a program that makes an engine has to ensure. -/
private theorem sound_of_ensures {p : Program (Except InitError Engine)} {plant : Plant}
    (h : p.Ensures (.of config n)
      (fun result s => match result with
        | .ok e => e.Settled config n found s
        | .error _ => s.armed = false ∧ ∀ pin ∉ config.pins, pin.isIn s.levels = pin.isIn found) plant) :
    Sound config n found ⟨.assembling p, plant⟩ := h

/-- An engine is made while the channel is not armed and the pins that are not configured are as they were found. -/
theorem sound_assembling (valid : config.validate = .ok n) {s : Plant} (harmed : s.armed = false)
    (hfound : ∀ pin ∉ config.pins, pin.isIn s.levels = pin.isIn found) :
    Sound config n found ⟨.assembling (Engine.assemble config s.arena), s⟩ := by
  apply sound_of_ensures
  apply (Engine.ensures_assemble valid harmed).mono
  intro result s' hresult
  cases result with
  | error reason =>
    obtain ⟨-, rfl⟩ := hresult
    exact ⟨harmed, hfound⟩
  | ok e => exact hresult.settled.of_found hfound

theorem sound_start (valid : config.validate = .ok n) (arena : Arena) (levels : UInt32) :
    (start config arena levels).Sound config n levels :=
  sound_assembling valid (s := ⟨arena, levels, false⟩) rfl fun _ _ => rfl

/-- A step of a program in a session: the program is still there, or its end has been noticed. -/
private theorem sound_step (h : x.Sound config n found) (answer : UInt32) : (x.step answer).Sound config n found := by
  obtain ⟨control, plant⟩ := x
  cases control with
  | assembling p =>
    cases p with
    | done result =>
      have hresult := h []
      cases result with
      | error reason => exact hresult
      | ok e => exact hresult
    | fault reason => exact h.elim
    | load role offset next => exact h answer
    | act action next =>
      -- copies are moves of their own here, so that there are none in front of the action
      obtain ⟨plant', hplant', hnext⟩ := h []
      rw [Plant.replay_nil] at hplant'
      simp only [step, Program.step, hplant', Except.map]
      exact hnext
  | resting e => exact h
  | calling e p =>
    cases p with
    | done result => exact h []
    | fault reason => exact h.elim
    | load role offset next => exact h answer
    | act action next =>
      obtain ⟨plant', hplant', hnext⟩ := h []
      rw [Plant.replay_nil] at hplant'
      simp only [step, Program.step, hplant', Except.map]
      exact hnext
  | refused reason => exact h
  | faulted reason => exact h.elim

/-- Every move keeps a session sound. -/
theorem Sound.move (h : x.Sound config n found) (valid : config.validate = .ok n) (m : Move) :
    (x.move config n m).Sound config n found := by
  cases m with
  | assemble arena =>
    obtain ⟨control, plant⟩ := x
    cases control with
    | refused reason =>
      obtain ⟨harmed, hfound⟩ := h
      have hsound := sound_assembling valid (s := { plant with arena }) harmed hfound
      exact hsound
    | resting e =>
      have hsettled : e.Settled config n found plant := h
      simp only [Session.move]
      split
      · rename_i hexited
        have harmed := hsettled.not_armed (by rw [hexited]; decide)
        have hsound := sound_assembling valid (s := { plant with arena }) harmed
          fun pin hpin => (hsettled.foreign pin hpin).level_eq
        exact hsound
      · exact h
    | _ => exact h
  | request q =>
    obtain ⟨control, plant⟩ := x
    cases control with
    | resting e =>
      simp only [Session.move]
      split
      · rename_i p hp
        obtain ⟨t, -, hensures⟩ := Engine.Settled.ensures_respond h hp
        exact hensures.mono fun _ _ hbecomes => hbecomes.2.1
      · exact h
    | _ => exact h
  | exit =>
    obtain ⟨control, plant⟩ := x
    cases control with
    | resting e => exact (Engine.Settled.ensures_exit h).mono fun _ _ hexited => hexited.2
    | _ => exact h
  | step answer => exact sound_step h answer
  | copy slot =>
    obtain ⟨control, plant⟩ := x
    cases control with
    | assembling p => exact Program.Ensures.replay h [slot]
    | resting e => exact Engine.Settled.replay h [slot]
    | calling e p => exact Program.Ensures.replay h [slot]
    | refused reason =>
      obtain ⟨harmed, hfound⟩ := h
      simp only [Session.move, Plant.copy_of_not_armed harmed]
      exact ⟨harmed, hfound⟩
    | faulted reason => exact h

theorem Sound.run (h : x.Sound config n found) (valid : config.validate = .ok n) (moves : List Move) :
    (x.run config n moves).Sound config n found := by
  induction moves generalizing x with
  | nil => exact h
  | cons m rest ih => exact ih (h.move valid m)

/-- A call returns when the control thread is given enough steps. -/
theorem Sound.returns {e : Engine} {p : Program Engine} {plant : Plant}
    (h : Sound config n found ⟨.calling e p, plant⟩) :
    ∃ count e', (Session.run config n ⟨.calling e p, plant⟩ (List.replicate count (.step 0))).control =
      .resting e' := by
  induction p generalizing plant with
  | done e' => exact ⟨1, e', rfl⟩
  | fault reason => exact h.elim
  | load role offset next ih =>
    obtain ⟨count, e', hrest⟩ := ih 0 (h 0)
    exact ⟨count + 1, e', hrest⟩
  | act action next ih =>
    obtain ⟨plant', hplant', hnext⟩ := h []
    rw [Plant.replay_nil] at hplant'
    obtain ⟨count, e', hrest⟩ := ih () hnext
    refine ⟨count + 1, e', ?_⟩
    have hmove : Session.move config n ⟨.calling e (.act action next), plant⟩ (.step 0) =
        ⟨.calling e (next ()), plant'⟩ := by
      simp only [Session.move, step, Program.step, hplant', Except.map]
    rw [List.replicate_succ, Session.run, List.foldl_cons, hmove]
    exact hrest

end Session

/-! ### A small session -/

/-- One pin and three samples. -/
def Config.small : Config := { Config.standard with cycleMicros := 30, pins := Config.defaultPins.take 1 }

/-- An arena that is long enough for three samples. -/
def Arena.small : Arena := ⟨.locked .checked, Array.replicate 56 0, ⟨#[⟨⟨⟨0⟩⟩, ⟨⟨0x1000⟩⟩, ⟨0xC0001000⟩⟩]⟩⟩

/-- The engine of the small session has been made and its pin been set for one slice. -/
def Session.drivingMoves : List Move :=
  List.replicate 120 (.step 0) ++ .request (.setMany Config.small.pins 1) :: List.replicate 10 (.step 0)

end PulseWidth
