import PulseWidth.Proofs.Simulation.Starting

/-!
# What a run does

The journal shows nothing of the arena.  `performed` lists the actions of a run, writes included, in the order in which
they are carried out; of each of them the journal shows a store, a pause or nothing.
-/

namespace PulseWidth

open Simulation (Bench Panel Event)

variable {α β : Type} {config : Config}

namespace Program

variable {σ : Type} [Machine σ]

/-- The actions of a run, in their order. -/
def performed : Program α → σ → List Action
  | done _, _ => []
  | fault _, _ => []
  | load role offset next, machine =>
    match Machine.load role offset machine with
    | (.ok value, machine) => (next value).performed machine
    | (.error _, _) => []
  | act action next, machine =>
    match Machine.perform action machine with
    | (.ok (), machine) => action :: (next ()).performed machine
    | (.error _, _) => []

theorem performed_bind {p : Program α} {machine after : σ} {a : α} (h : p.run machine = (.ok a, after))
    (f : α → Program β) : (p >>= f).performed machine = p.performed machine ++ (f a).performed after := by
  show (p.bind f).performed machine = _
  induction p generalizing machine with
  | done result =>
    cases h
    rfl
  | fault reason => cases h
  | load role offset next ih =>
    rw [run] at h
    rw [Program.bind, performed, performed]
    revert h
    obtain ⟨answer, machine'⟩ := Machine.load role offset machine
    cases answer with
    | ok value => exact ih value
    | error reason =>
      intro h
      cases h
  | act action next ih =>
    rw [run] at h
    rw [Program.bind, performed, performed]
    revert h
    obtain ⟨answer, machine'⟩ := Machine.perform action machine
    cases answer with
    | ok _ =>
      intro h
      exact congrArg (action :: ·) (ih () h)
    | error reason =>
      intro h
      cases h

theorem performed_writes {items : List β} {offset : β → ArenaOffset} {value : β → UInt32} {machine after : σ}
    (h : (each items fun item => write (offset item) (value item)).run machine = (.ok (), after)) :
    (each items fun item => write (offset item) (value item)).performed machine =
      items.map fun item => .write (offset item) (value item) := by
  induction items generalizing machine with
  | nil => rfl
  | cons item rest ih =>
    rw [each, write, perform, Program.bind, run] at h
    rw [each, write, perform, Program.bind, performed]
    revert h
    obtain ⟨answer, machine'⟩ := Machine.perform (.write (offset item) (value item)) machine
    cases answer with
    | ok _ =>
      intro h
      exact congrArg (_ :: ·) (ih h)
    | error reason =>
      intro h
      cases h

theorem Only.performed {kind : Action → Prop} {p : Program α} (h : p.Only kind) (machine : σ) :
    ∀ a ∈ p.performed machine, kind a := by
  induction p generalizing machine with
  | done result => exact List.forall_mem_nil kind
  | fault reason => exact List.forall_mem_nil kind
  | load role offset next ih =>
    rw [Program.performed]
    obtain ⟨answer, machine'⟩ := Machine.load role offset machine
    cases answer with
    | ok value => exact ih value (h value) machine'
    | error reason => exact List.forall_mem_nil kind
  | act action next ih =>
    rw [Program.performed]
    obtain ⟨answer, machine'⟩ := Machine.perform action machine
    cases answer with
    | ok _ => exact List.forall_mem_cons.2 ⟨h.1, ih () h.2 machine'⟩
    | error reason => exact List.forall_mem_nil kind

end Program

/-! ### The journal -/

/-- What the journal shows of an action, if the blocks have these names. -/
def Action.event? (name : Role → String) : Action → Option Event
  | store role offset value => some (.store (name role) offset value)
  | pause micros => some (.delay micros)
  | write _ _ | log _ | print _ => none

/-- Whether the event is a load. -/
def Simulation.Event.isLoad : Event → Bool
  | load _ _ _ => true
  | _ => false

theorem Simulation.Journal.writesAndDelays_of_snoc {j j' : Journal} {event : Event}
    (h : j'.events.toList = j.events.toList ++ [event]) :
    j'.writesAndDelays = j.writesAndDelays ++ if event.isLoad then [] else [event] := by
  unfold writesAndDelays
  rw [h, List.filter_append]
  cases event <;> rfl

/-- What the journal shows after an action. -/
theorem Simulation.Bench.writesAndDelays_perform {b b' : Bench} (hnamed : b.panel.Named config) {action : Action}
    (h : b.perform action = (.ok (), b')) :
    b'.journal.writesAndDelays = b.journal.writesAndDelays ++ (action.event? config.blockName).toList := by
  have hevents : b'.panel.events = (b.panel.perform action).events := congrArg Panel.events (Bench.panel_perform h)
  cases action with
  | store role offset value =>
    rw [Action.event?, ← hnamed.block_eq]
    exact Journal.writesAndDelays_of_snoc hevents
  | pause micros => exact Journal.writesAndDelays_of_snoc hevents
  | write _ _ | log _ | print _ =>
    have hsame : b'.journal.events.toList = b.journal.events.toList := hevents
    rw [Journal.writesAndDelays, hsame]
    exact (List.append_nil _).symm

/-- But for loads, the journal shows what has been done. -/
theorem Program.writesAndDelays_run (p : Program α) {b : Bench} (h : b.panel.Named config) :
    (p.run b).2.journal.writesAndDelays =
      b.journal.writesAndDelays ++ (p.performed b).filterMap (Action.event? config.blockName) := by
  induction p generalizing b with
  | done result => exact (List.append_nil _).symm
  | fault reason => exact (List.append_nil _).symm
  | load role offset next ih =>
    have hmachine : Machine.load role offset b = (.ok (b.load role offset).1, (b.load role offset).2) := rfl
    have hpanel := (b.panel_load role offset).2
    have hnamed : (b.load role offset).2.panel.Named config := by
      rw [hpanel]
      exact h.note _
    have hshown := Simulation.Journal.writesAndDelays_of_snoc (congrArg Panel.events hpanel)
    rw [run, performed, hmachine]
    refine (ih _ hnamed).trans (congrArg (· ++ _) ?_)
    rw [hshown]
    exact List.append_nil _
  | act action next ih =>
    have hmachine : Machine.perform action b = b.perform action := rfl
    rw [run, performed, hmachine]
    obtain ⟨answer, b', hb'⟩ : ∃ answer b', b.perform action = (answer, b') := ⟨_, _, rfl⟩
    rw [hb']
    cases answer with
    | ok _ =>
      have hnamed : b'.panel.Named config := by
        rw [Bench.panel_perform hb']
        exact h.perform action
      show (((next ()).run b').2).journal.writesAndDelays = _
      rw [ih () hnamed, Bench.writesAndDelays_perform h hb', List.append_assoc, List.filterMap_cons]
      cases action.event? config.blockName <;> rfl
    | error reason =>
      have hsame : b'.panel.events = b.panel.events := congrArg Panel.events (Bench.panel_of_refused hb')
      have hshown : b'.journal.writesAndDelays = b.journal.writesAndDelays :=
        congrArg (List.filter _) hsame
      exact hshown.trans (List.append_nil _).symm

end PulseWidth
