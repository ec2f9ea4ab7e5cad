import PulseWidth.Proofs.Simulation.Panel

/-!
# Programs without output

What a program logs and prints makes no difference to anything else.  `hushed` leaves it out, and two programs are the
same but for their output if they are equal when hushed.
-/

namespace PulseWidth

open Simulation (Bench Panel)

/-- Logging and printing. -/
def Action.isOutput : Action → Bool
  | log _ | print _ => true
  | store _ _ _ | pause _ | write _ _ => false

namespace Program

variable {α β : Type}

/-- The program without its log records and its lines of output. -/
def hushed : Program α → Program α
  | done result => done result
  | fault reason => fault reason
  | load role offset next => load role offset fun value => (next value).hushed
  | act action next => if action.isOutput then (next ()).hushed else act action fun u => (next u).hushed

theorem hushed_bind (p : Program α) (f : α → Program β) :
    (p >>= f).hushed = p.hushed >>= fun a => (f a).hushed := by
  show (p.bind f).hushed = p.hushed.bind fun a => (f a).hushed
  induction p with
  | done result => rfl
  | fault reason => rfl
  | load role offset next ih => simp only [Program.bind, hushed, ih]
  | act action next ih =>
    rw [Program.bind, hushed, hushed]
    split
    · exact ih ()
    · simp only [Program.bind, ih]

@[simp] theorem hushed_pure (a : α) : (pure a : Program α).hushed = pure a := rfl

/-- What is logged and printed is not seen on the panel. -/
theorem leads_hushed_iff {p : Program α} {post : α → Panel → Prop} {g : Panel} :
    p.hushed.Leads post g ↔ p.Leads post g := by
  induction p generalizing g with
  | done result => exact Iff.rfl
  | fault reason => exact Iff.rfl
  | load role offset next ih => exact ih _
  | act action next ih =>
    rw [hushed]
    cases action <;> exact ih ()

/-- Nor does it matter to the plant. -/
theorem ensures_hushed_iff {r : Replay} {p : Program α} {post : α → Plant → Prop} {s : Plant} :
    p.hushed.Ensures r post s ↔ p.Ensures r post s := by
  induction p generalizing s with
  | done result => exact Iff.rfl
  | fault reason => exact Iff.rfl
  | load role offset next ih => exact forall_congr' fun answer => ih answer
  | act action next ih =>
    rw [hushed]
    cases action with
    | log record => exact (ih ()).trans (ensures_inert_iff (fun _ => rfl) next).symm
    | print line => exact (ih ()).trans (ensures_inert_iff (fun _ => rfl) next).symm
    | _ => exact forall_congr' fun slots => exists_congr fun s' => and_congr_right fun _ => ih ()

end Program

/-- The bench without what was logged and printed. -/
def Simulation.Bench.muted (b : Bench) : Bench := { b with journal.records := #[], printed := #[] }

variable {b b' : Bench}

theorem Simulation.Bench.load_muted (h : b.muted = b'.muted) (role : Role) (offset : UInt64) :
    (b.load role offset).1 = (b'.load role offset).1 ∧
      (b.load role offset).2.muted = (b'.load role offset).2.muted := by
  obtain ⟨windows, ⟨events, records⟩, arena, printed⟩ := b
  obtain ⟨windows', ⟨events', records'⟩, arena', printed'⟩ := b'
  cases h
  exact ⟨rfl, rfl⟩

theorem Simulation.Bench.perform_muted (h : b.muted = b'.muted) (action : Action) :
    (b.perform action).1 = (b'.perform action).1 ∧ (b.perform action).2.muted = (b'.perform action).2.muted := by
  obtain ⟨windows, ⟨events, records⟩, arena, printed⟩ := b
  obtain ⟨windows', ⟨events', records'⟩, arena', printed'⟩ := b'
  cases h
  cases action with
  | store role offset value =>
    refine ⟨rfl, ?_⟩
    simp only [perform, store, muted, Simulation.Window.store, Simulation.Window.events_noteStore]
  | write offset value =>
    simp only [perform]
    cases arena.refusal? offset <;> exact ⟨rfl, rfl⟩
  | _ => exact ⟨rfl, rfl⟩

/-- What is logged and printed makes no difference to anything else. -/
theorem Program.run_hushed {α : Type} (p : Program α) (h : b.muted = b'.muted) :
    (p.hushed.run b).1 = (p.run b').1 ∧ (p.hushed.run b).2.muted = (p.run b').2.muted := by
  induction p generalizing b b' with
  | done result => exact ⟨rfl, h⟩
  | fault reason => exact ⟨rfl, h⟩
  | load role offset next ih =>
    have hmachine : ∀ b : Bench, Machine.load role offset b = (.ok (b.load role offset).1, (b.load role offset).2) :=
      fun _ => rfl
    obtain ⟨hvalue, hmuted⟩ := Bench.load_muted h role offset
    rw [hushed, run, run, hmachine, hmachine, hvalue]
    exact ih _ hmuted
  | act action next ih =>
    have hmachine : ∀ b : Bench, Machine.perform action b = b.perform action := fun _ => rfl
    obtain ⟨hanswer, hmuted⟩ := Bench.perform_muted h action
    rw [hushed, run, hmachine]
    by_cases houtput : action.isOutput = true
    · -- such an action is always carried out, and leaves nothing but output
      rw [if_pos houtput]
      cases action with
      | log record => exact ih () h
      | print line => exact ih () h
      | _ => cases houtput
    · rw [if_neg houtput, run, hmachine]
      revert hanswer hmuted
      obtain ⟨answer, after⟩ := b.perform action
      obtain ⟨answer', after'⟩ := b'.perform action
      rintro hanswer hmuted
      cases hanswer
      cases answer with
      | ok _ => exact ih () hmuted
      | error reason => exact ⟨rfl, hmuted⟩

end PulseWidth
