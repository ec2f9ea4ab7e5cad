import PulseWidth.Proofs.Replay.Plant
import PulseWidth.Simulation.Bench

/-!
# Programs beside the DMA engine

`Ensures` is total correctness under interference: whatever the registers answer and whatever slots are copied in
front of each step and after the last one, the program meets no fault, and its result and the plant that it leaves
satisfy a predicate.  It is a recursion on the program, so a program is followed action by action, and sequencing is
one lemma.  A program that ensures something also runs to its end on a simulated machine (`run_of_ensures`), where
no slot is copied at all.

`Only` says that all actions of a program are of some kind.
-/

namespace PulseWidth

namespace Program

/-- All runs of a program beside the DMA engine end without a fault, in a result and a plant as asked for. -/
def Ensures {α : Type} (r : Replay) : Program α → (α → Plant → Prop) → Plant → Prop
  | done result, post, s => ∀ slots, post result (s.replay r slots)
  | fault _, _, _ => False
  | load _ _ next, post, s => ∀ answer, (next answer).Ensures r post s
  | act action next, post, s =>
    ∀ slots, ∃ s', (s.replay r slots).perform action = .ok s' ∧ (next ()).Ensures r post s'

section Ensures

variable {α β : Type} {r : Replay} {s : Plant} {post : α → Plant → Prop}

/-- Copies in front of a program are covered. -/
theorem Ensures.replay {p : Program α} (h : p.Ensures r post s) (slots : List UInt32) :
    p.Ensures r post (s.replay r slots) := by
  induction p generalizing s with
  | done result =>
    intro more
    rw [← Plant.replay_append]
    exact h (slots ++ more)
  | fault _ => exact h
  | load _ _ next ih => exact fun answer => ih answer (h answer)
  | act action next _ =>
    intro more
    rw [← Plant.replay_append]
    exact h (slots ++ more)

theorem Ensures.mono {p : Program α} {weaker : α → Plant → Prop} (h : p.Ensures r post s)
    (himp : ∀ a s', post a s' → weaker a s') : p.Ensures r weaker s := by
  induction p generalizing s with
  | done result => exact fun slots => himp _ _ (h slots)
  | fault _ => exact h
  | load _ _ next ih => exact fun answer => ih answer (h answer)
  | act action next ih =>
    intro slots
    obtain ⟨s', hs', hnext⟩ := h slots
    exact ⟨s', hs', ih () hnext⟩

/-- A program and then another: the second starts wherever the first may end. -/
theorem Ensures.bind {p : Program α} {f : α → Program β} {final : β → Plant → Prop}
    (h : p.Ensures r (fun a s' => (f a).Ensures r final s') s) : (p >>= f).Ensures r final s := by
  show (p.bind f).Ensures r final s
  induction p generalizing s with
  | done result => exact h []
  | fault _ => exact h
  | load _ _ next ih => exact fun answer => ih answer (h answer)
  | act action next ih =>
    intro slots
    obtain ⟨s', hs', hnext⟩ := h slots
    exact ⟨s', hs', ih () hnext⟩

theorem ensures_pure_iff (result : α) :
    Ensures r (pure result) post s ↔ ∀ slots, post result (s.replay r slots) := Iff.rfl

theorem ensures_read_iff (role : Role) (offset : UInt64) (f : UInt32 → Program α) :
    Ensures r (read role offset >>= f) post s ↔ ∀ answer, (f answer).Ensures r post s := Iff.rfl

theorem ensures_perform_iff (action : Action) (f : Unit → Program α) :
    Ensures r (perform action >>= f) post s ↔
      ∀ slots, ∃ s', (s.replay r slots).perform action = .ok s' ∧ (f ()).Ensures r post s' := Iff.rfl

/-- An action that changes nothing in the plant. -/
theorem ensures_inert_iff {action : Action} (h : ∀ s : Plant, s.perform action = .ok s) (f : Unit → Program α) :
    Ensures r (perform action >>= f) post s ↔ (f ()).Ensures r post s := by
  rw [ensures_perform_iff]
  constructor
  · intro hall
    obtain ⟨s', hs', hnext⟩ := hall []
    rw [h] at hs'
    cases hs'
    exact hnext
  · intro hnext slots
    exact ⟨_, h _, hnext.replay slots⟩

theorem ensures_pause_iff (micros : UInt64) (f : Unit → Program α) :
    Ensures r (pause micros >>= f) post s ↔ (f ()).Ensures r post s := ensures_inert_iff (fun _ => rfl) f

theorem ensures_log_iff (level : Level) (target message : String) (f : Unit → Program α) :
    Ensures r (log level target message >>= f) post s ↔ (f ()).Ensures r post s := ensures_inert_iff (fun _ => rfl) f

theorem ensures_store_clock_iff (offset : UInt64) (value : UInt32) (f : Unit → Program α) :
    Ensures r (store .clock offset value >>= f) post s ↔ (f ()).Ensures r post s :=
  ensures_inert_iff (fun _ => rfl) f

theorem ensures_store_pacer_iff (offset : UInt64) (value : UInt32) (f : Unit → Program α) :
    Ensures r (store .pacer offset value >>= f) post s ↔ (f ()).Ensures r post s :=
  ensures_inert_iff (fun _ => rfl) f

/-- A store to the GPIO block drives the levels as they are by then. -/
theorem ensures_store_gpio_iff (offset : UInt64) (value : UInt32) (f : Unit → Program α) :
    Ensures r (store .gpio offset value >>= f) post s ↔
      ∀ slots, (f ()).Ensures r post
        { s.replay r slots with levels := drive (s.replay r slots).levels (Block.register .gpio offset) value } := by
  refine forall_congr' fun slots => ?_
  constructor
  · rintro ⟨s', hs', hnext⟩
    cases hs'
    exact hnext
  · intro hnext
    exact ⟨_, rfl, hnext⟩

/-- A write to the arena that is accepted. -/
theorem ensures_write_iff {offset : ArenaOffset} {value : UInt32}
    (h : s.arena.write offset value = .ok (s.arena.put offset value)) (f : Unit → Program α) :
    Ensures r (write offset value >>= f) post s ↔
      ∀ slots, (f ()).Ensures r post { s.replay r slots with arena := s.arena.put offset value } := by
  refine forall_congr' fun slots => ?_
  have hperform : (s.replay r slots).perform (.write offset value) =
      .ok { s.replay r slots with arena := s.arena.put offset value } := by
    simp only [Plant.perform, Plant.arena_replay, h]
    rfl
  constructor
  · rintro ⟨s', hs', hnext⟩
    rw [hperform] at hs'
    cases hs'
    exact hnext
  · intro hnext
    exact ⟨_, hperform, hnext⟩

/-- Programs for the members of a list, none of which matters to what follows. -/
theorem ensures_each {items : List β} {body : β → Program Unit} {f : Unit → Program α}
    (hbody : ∀ item (g : Unit → Program α) (s : Plant), (g ()).Ensures r post s → (body item >>= g).Ensures r post s)
    (h : (f ()).Ensures r post s) : Ensures r (each items body >>= f) post s := by
  induction items with
  | nil => exact h
  | cons item rest ih =>
    show Ensures r (((body item).bind fun _ => each rest body).bind f) post s
    rw [Program.bind_assoc]
    exact hbody item _ s ih

/-- What certain programs ensure is what they ensure of their value. -/
theorem ensures_ofExcept_iff {x : Except Fault β} {value : β} (h : x = .ok value) (f : β → Program α) :
    Ensures r (ofExcept x >>= f) post s ↔ (f value).Ensures r post s := by
  subst h
  rfl

end Ensures

/-! ### Programs on a simulated machine -/

/-- A program that ensures something meets no fault on a bench with the same arena, and leaves the bench with an
arena as ensured. -/
theorem run_of_ensures {α : Type} {r : Replay} {p : Program α} {post : α → Plant → Prop} {s : Plant}
    (h : p.Ensures r post s) {b : Simulation.Bench} (harena : b.arena = s.arena) :
    ∃ a b' s', p.run b = (.ok a, b') ∧ b'.arena = s'.arena ∧ post a s' := by
  induction p generalizing s b with
  | done result => exact ⟨result, b, s, rfl, harena, h []⟩
  | fault _ => exact h.elim
  | load role offset next ih =>
    have hload : (Machine.load role offset b) = (.ok (b.load role offset).1, (b.load role offset).2) := rfl
    have hrest := ih (b.load role offset).1 (h _) (b := (b.load role offset).2) harena
    rw [run, hload]
    exact hrest
  | act action next ih =>
    obtain ⟨s', hs', hnext⟩ := h []
    rw [Plant.replay_nil] at hs'
    -- the two machines perform the action alike, as far as the arena is concerned
    have hperform : ∃ b', b.perform action = (.ok (), b') ∧ b'.arena = s'.arena := by
      cases action with
      | store role offset value =>
        refine ⟨b.store role offset value, rfl, ?_⟩
        cases role with
        | dma =>
          cases hs'
          show b.arena = Plant.arena (if _ then _ else _)
          split <;> exact harena
        | clock =>
          cases hs'
          exact harena
        | pacer =>
          cases hs'
          exact harena
        | gpio =>
          cases hs'
          exact harena
      | pause micros =>
        cases hs'
        exact ⟨_, rfl, harena⟩
      | write offset value =>
        simp only [Plant.perform, Arena.write, ← harena] at hs'
        cases hrefusal : b.arena.refusal? offset with
        | some reason =>
          rw [hrefusal] at hs'
          cases hs'
        | none =>
          rw [hrefusal] at hs'
          cases hs'
          exact ⟨{ b with arena := b.arena.put offset value }, by simp [Simulation.Bench.perform, hrefusal], rfl⟩
      | log record =>
        cases hs'
        exact ⟨_, rfl, harena⟩
      | print line =>
        cases hs'
        exact ⟨_, rfl, harena⟩
    obtain ⟨b', hb', harena'⟩ := hperform
    have hmachine : Machine.perform action b = (.ok (), b') := hb'
    rw [run, hmachine]
    exact ih () hnext harena'

/-! ### Programs with actions of a kind -/

/-- Every action of the program, whatever the registers answer, is of some kind. -/
def Only {α : Type} (kind : Action → Prop) : Program α → Prop
  | done _ => True
  | fault _ => True
  | load _ _ next => ∀ answer, (next answer).Only kind
  | act action next => kind action ∧ (next ()).Only kind

section Only

variable {α β : Type} {kind : Action → Prop}

@[simp] theorem only_pure (a : α) : Only kind (pure a : Program α) := trivial

@[simp] theorem only_perform {action : Action} : (perform action).Only kind ↔ kind action :=
  and_iff_left trivial

theorem only_bind {p : Program α} {f : α → Program β} (hp : p.Only kind) (hf : ∀ a, (f a).Only kind) :
    (p >>= f).Only kind := by
  show (p.bind f).Only kind
  induction p with
  | done a => exact hf a
  | fault _ => exact trivial
  | load _ _ next ih => exact fun answer => ih answer (hp answer)
  | act action next ih => exact ⟨hp.1, ih () hp.2⟩

theorem only_each {items : List α} {f : α → Program Unit} (h : ∀ x ∈ items, (f x).Only kind) :
    (each items f).Only kind := by
  induction items with
  | nil => exact trivial
  | cons x rest ih => exact only_bind (h x (by simp)) fun _ => ih fun y hy => h y (by simp [hy])

end Only

end Program

end PulseWidth
