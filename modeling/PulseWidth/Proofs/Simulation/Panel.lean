import PulseWidth.Proofs.Replay.Ensures

/-!
# Programs and the registers of a bench

A panel is what a bench shows of its registers: the windows, and the events of the journal in a list.  What a program
does to it depends on nothing else.  `Leads` follows a program over a panel, with the loads answered by the windows,
and says what holds of result and panel if the program comes to its end; `panel_of_run` takes that to a run on a bench.
What every action of some kind keeps is kept by every program that has actions of that kind only (`Only.leads`).
-/

namespace PulseWidth

namespace Simulation

/-- A word that is stored inside its window is read back, and all other words stay. -/
theorem Window.peek_poke (w : Window) (offset other : UInt64) (value : UInt32) :
    (w.poke offset value).peek other =
      if position offset = position other ∧ position offset < w.words.size then value else w.peek other := by
  simp only [peek, poke, Array.getD_eq_getD_getElem?, Array.getElem?_setIfInBounds]
  by_cases hpos : position offset = position other
  · by_cases hsize : position offset < w.words.size
    · simp [hpos, hpos ▸ hsize]
    · have hout : w.words.size ≤ position other := hpos ▸ Nat.le_of_not_lt hsize
      simp [hpos, Nat.not_lt.2 hout]
  · simp [hpos]

/-- The windows of a bench, and what has happened to them. -/
structure Panel where
  windows : Roles Window
  events : List Event

/-- The bench without its log. -/
def Bench.unlogged (b : Bench) : Bench := { b with journal.records := #[] }

def Bench.panel (b : Bench) : Panel := ⟨b.windows, b.journal.events.toList⟩

namespace Panel

def block (g : Panel) (role : Role) : String := (g.windows.get role).block

/-- The number of words of a window. -/
def size (g : Panel) (role : Role) : Nat := (g.windows.get role).words.size

def peek (g : Panel) (role : Role) (offset : UInt64) : UInt32 := (g.windows.get role).peek offset

def note (g : Panel) (event : Event) : Panel := { g with events := g.events ++ [event] }

def load (g : Panel) (role : Role) (offset : UInt64) : Panel :=
  g.note (.load (g.block role) offset (g.peek role offset))

def store (g : Panel) (role : Role) (offset : UInt64) (value : UInt32) : Panel where
  windows := g.windows.set ((g.windows.get role).poke offset value) role
  events := g.events ++ [.store (g.block role) offset value]

def perform (g : Panel) : Action → Panel
  | .store role offset value => g.store role offset value
  | .pause micros => g.note (.delay micros)
  | .write _ _ | .log _ | .print _ => g

variable {g : Panel} {role other : Role} {offset : UInt64} {value : UInt32}

@[simp] theorem block_store : (g.store role offset value).block other = g.block other := by
  rw [block, store, Roles.get_set]
  split
  · rename_i h
    rw [h]
    rfl
  · rfl

@[simp] theorem size_store : (g.store role offset value).size other = g.size other := by
  rw [size, store, Roles.get_set]
  split
  · rename_i h
    rw [h]
    exact Array.size_setIfInBounds
  · rfl

theorem peek_store (there : UInt64) : (g.store role offset value).peek other there =
    if role = other ∧ Window.position offset = Window.position there ∧ Window.position offset < g.size role then value
    else g.peek other there := by
  rw [peek, store, Roles.get_set]
  by_cases hrole : role = other
  · subst hrole
    rw [if_pos rfl, Window.peek_poke]
    simp [peek, size]
  · rw [if_neg hrole, if_neg fun h => hrole h.1, peek]

end Panel

theorem Bench.panel_load (b : Bench) (role : Role) (offset : UInt64) :
    (b.load role offset).1 = b.panel.peek role offset ∧ (b.load role offset).2.panel = b.panel.load role offset := by
  refine ⟨rfl, ?_⟩
  simp [Bench.load, Window.load, Journal.note, panel, Panel.load, Panel.note, Panel.block, Panel.peek]

theorem Window.events_noteStore (w : Window) (offset : UInt64) (value : UInt32) (j : Journal) :
    (w.noteStore offset value j).events = j.events.push (.store w.block offset value) := by
  rw [noteStore]
  by_cases hin : position offset < w.words.size <;> simp [hin, Journal.note, Journal.log]

theorem Bench.panel_store (b : Bench) (role : Role) (offset : UInt64) (value : UInt32) :
    (b.store role offset value).panel = b.panel.store role offset value := by
  simp [Bench.store, Window.store, panel, Panel.store, Panel.block, Window.events_noteStore]

theorem Bench.panel_perform {b b' : Bench} {action : Action} (h : b.perform action = (.ok (), b')) :
    b'.panel = b.panel.perform action := by
  cases action with
  | store role offset value =>
    cases h
    exact b.panel_store role offset value
  | pause micros =>
    cases h
    simp [panel, Panel.perform, Panel.note, Journal.note]
  | write offset value =>
    simp only [perform] at h
    split at h
    · cases h
    · cases h
      rfl
  | log record =>
    cases h
    rfl
  | print line =>
    cases h
    rfl

/-- An action that is refused is not seen. -/
theorem Bench.panel_of_refused {b b' : Bench} {action : Action} {reason : Fault}
    (h : b.perform action = (.error reason, b')) : b'.panel = b.panel := by
  cases action with
  | write offset value =>
    simp only [perform] at h
    split at h
    · cases h
      rfl
    · cases h
  | _ => cases h

end Simulation

/-- A wait, or a store to one of the blocks. -/
def Action.Within (roles : List Role) : Action → Prop
  | store role _ _ => role ∈ roles
  | pause _ => True
  | _ => False

namespace Program

open Simulation (Bench Panel)

/-- What holds of the result and of the panel when the program has come to its end. -/
def Leads {α : Type} : Program α → (α → Panel → Prop) → Panel → Prop
  | done result, post, g => post result g
  | fault _, _, _ => True
  | load role offset next, post, g => (next (g.peek role offset)).Leads post (g.load role offset)
  | act action next, post, g => (next ()).Leads post (g.perform action)

section Leads

variable {α β : Type} {post : α → Panel → Prop} {g : Panel}

theorem Leads.mono {p : Program α} {weaker : α → Panel → Prop} (h : p.Leads post g)
    (himp : ∀ a g', post a g' → weaker a g') : p.Leads weaker g := by
  induction p generalizing g with
  | done result => exact himp _ _ h
  | fault _ => exact trivial
  | load role offset next ih => exact ih _ h
  | act action next ih => exact ih () h

theorem Leads.and {p : Program α} {more : α → Panel → Prop} (h : p.Leads post g) (h' : p.Leads more g) :
    p.Leads (fun a g' => post a g' ∧ more a g') g := by
  induction p generalizing g with
  | done result => exact ⟨h, h'⟩
  | fault _ => exact trivial
  | load role offset next ih => exact ih _ h h'
  | act action next ih => exact ih () h h'

theorem leads_bind_iff {p : Program α} {f : α → Program β} {post : β → Panel → Prop} :
    (p >>= f).Leads post g ↔ p.Leads (fun a g' => (f a).Leads post g') g := by
  show (p.bind f).Leads post g ↔ _
  induction p generalizing g with
  | done result => exact Iff.rfl
  | fault _ => exact Iff.rfl
  | load role offset next ih => exact ih _
  | act action next ih => exact ih ()

theorem leads_pure_iff (result : α) : Leads (pure result) post g ↔ post result g := Iff.rfl

theorem leads_read_iff (role : Role) (offset : UInt64) (f : UInt32 → Program α) :
    Leads (read role offset >>= f) post g ↔ (f (g.peek role offset)).Leads post (g.load role offset) := Iff.rfl

theorem leads_store_iff (role : Role) (offset : UInt64) (value : UInt32) (f : Unit → Program α) :
    Leads (store role offset value >>= f) post g ↔ (f ()).Leads post (g.store role offset value) := Iff.rfl

theorem leads_log_iff (level : Level) (target message : String) (f : Unit → Program α) :
    Leads (log level target message >>= f) post g ↔ (f ()).Leads post g := Iff.rfl

theorem leads_ofExcept {x : Except Fault β} {f : β → Program α} (h : ∀ value, (f value).Leads post g) :
    Leads (ofExcept x >>= f) post g := by
  cases x with
  | error reason => exact trivial
  | ok value => exact h value

/-- Writes to the arena are not seen on the panel. -/
theorem leads_each_write_iff {items : List β} (offset : β → ArenaOffset) (value : β → UInt32)
    (f : Unit → Program α) :
    Leads ((each items fun item => write (offset item) (value item)) >>= f) post g ↔ (f ()).Leads post g := by
  induction items with
  | nil => exact Iff.rfl
  | cons item rest ih => exact ih

theorem leads_logAll_iff (records : List Record) (f : Unit → Program α) :
    Leads (Engine.logAll records >>= f) post g ↔ (f ()).Leads post g := by
  induction records with
  | nil => exact Iff.rfl
  | cons record rest ih => exact ih

theorem leads_regenerate_iff (l : ChainLayout) (channels : List Channel) (f : Unit → Program α) :
    Leads (regenerate l channels >>= f) post g ↔ (f ()).Leads post g :=
  leads_each_write_iff _ _ f

/-- What loads and all actions of some kind keep is kept by a program that has actions of that kind only. -/
theorem Only.leads {kind : Action → Prop} {P : Panel → Prop} {p : Program α} (h : p.Only kind)
    (hload : ∀ g role offset, P g → P (g.load role offset))
    (hperform : ∀ g action, kind action → P g → P (g.perform action)) (hg : P g) :
    p.Leads (fun _ g' => P g') g := by
  induction p generalizing g with
  | done result => exact hg
  | fault _ => exact trivial
  | load role offset next ih => exact ih _ (h _) (hload g role offset hg)
  | act action next ih => exact ih () h.2 (hperform g action h.1 hg)

/-- What loads, waits and stores to some blocks keep is kept by a program of those. -/
theorem Only.leads_within {roles : List Role} {P : Panel → Prop} {p : Program α} (h : p.Only (Action.Within roles))
    (hload : ∀ g role offset, P g → P (g.load role offset))
    (hpause : ∀ g micros, P g → P (g.note (.delay micros)))
    (hstore : ∀ g role offset value, role ∈ roles → P g → P (g.store role offset value)) (hg : P g) :
    p.Leads (fun _ g' => P g') g := by
  refine h.leads hload ?_ hg
  intro g action hwithin hg
  cases action with
  | store role offset value => exact hstore g role offset value hwithin hg
  | pause micros => exact hpause g micros hg
  | write _ _ | log _ | print _ => exact hwithin.elim

end Leads

/-- A program and then another are run one after the other. -/
theorem run_bind {σ α β : Type} [Machine σ] (p : Program α) (f : α → Program β) (machine : σ) :
    (p >>= f).run machine = match p.run machine with
      | (.ok a, machine) => (f a).run machine
      | (.error reason, machine) => (.error reason, machine) := by
  show (p.bind f).run machine = _
  induction p generalizing machine with
  | done result => rfl
  | fault reason => rfl
  | load role offset next ih =>
    rw [Program.bind, run, run]
    obtain ⟨answer, after⟩ := Machine.load role offset machine
    cases answer with
    | ok value => exact ih value after
    | error reason => rfl
  | act action next ih =>
    rw [Program.bind, run, run]
    obtain ⟨answer, after⟩ := Machine.perform action machine
    cases answer with
    | ok _ => exact ih () after
    | error reason => rfl

/-- Of two programs one after the other that have come to their end, the first one has. -/
theorem run_bind_eq_ok {σ α β : Type} [Machine σ] {p : Program α} {f : α → Program β} {machine machine' : σ} {b : β}
    (h : (p >>= f).run machine = (.ok b, machine')) :
    ∃ a after, p.run machine = (.ok a, after) ∧ (f a).run after = (.ok b, machine') := by
  rw [run_bind] at h
  split at h
  · rename_i a after hrun
    exact ⟨a, after, hrun, h⟩
  · cases h

/-- A run on a bench that has come to its end has led where the program leads. -/
theorem panel_of_run {α : Type} {p : Program α} {post : α → Panel → Prop} {b b' : Bench} {a : α}
    (h : p.Leads post b.panel) (hrun : p.run b = (.ok a, b')) : post a b'.panel := by
  induction p generalizing b with
  | done result =>
    cases hrun
    exact h
  | fault _ => cases hrun
  | load role offset next ih =>
    have hmachine : Machine.load role offset b = (.ok (b.load role offset).1, (b.load role offset).2) := rfl
    obtain ⟨hvalue, hpanel⟩ := b.panel_load role offset
    rw [run, hmachine] at hrun
    refine ih (b.load role offset).1 ?_ hrun
    rw [hvalue, hpanel]
    exact h
  | act action next ih =>
    have hmachine : Machine.perform action b = b.perform action := rfl
    rw [run, hmachine] at hrun
    split at hrun
    · rename_i b₁ hb₁
      refine ih () ?_ hrun
      rw [Bench.panel_perform hb₁]
      exact h
    · cases hrun

/-! ### On the way -/

section Visited

variable {α : Type}

/-- The machines that are passed on the way to the end, the first and the last one included. -/
def visited {σ : Type} [Machine σ] : Program α → σ → List σ
  | done _, machine => [machine]
  | fault _, machine => [machine]
  | load role offset next, machine =>
    machine :: match Machine.load role offset machine with
      | (.ok value, machine) => (next value).visited machine
      | (.error _, machine) => [machine]
  | act action next, machine =>
    machine :: match Machine.perform action machine with
      | (.ok (), machine) => (next ()).visited machine
      | (.error _, machine) => [machine]

theorem run_mem_visited {σ : Type} [Machine σ] (p : Program α) (machine : σ) :
    (p.run machine).2 ∈ p.visited machine := by
  induction p generalizing machine with
  | done result => exact List.mem_singleton.2 rfl
  | fault reason => exact List.mem_singleton.2 rfl
  | load role offset next ih =>
    rw [run, visited]
    obtain ⟨answer, after⟩ := Machine.load role offset machine
    cases answer with
    | ok value => exact List.mem_cons_of_mem _ (ih value after)
    | error reason => exact List.mem_cons_of_mem _ (List.mem_singleton.2 rfl)
  | act action next ih =>
    rw [run, visited]
    obtain ⟨answer, after⟩ := Machine.perform action machine
    cases answer with
    | ok _ => exact List.mem_cons_of_mem _ (ih () after)
    | error reason => exact List.mem_cons_of_mem _ (List.mem_singleton.2 rfl)

/-- What loads and all actions of some kind keep holds throughout the run of a program that has actions of that kind
only. -/
theorem Only.visited {kind : Action → Prop} {P : Panel → Prop} {p : Program α} (h : p.Only kind)
    (hload : ∀ g role offset, P g → P (g.load role offset))
    (hperform : ∀ g action, kind action → P g → P (g.perform action)) {b : Bench} (hb : P b.panel) :
    ∀ x ∈ p.visited b, P x.panel := by
  induction p generalizing b with
  | done result => simpa [Program.visited] using hb
  | fault reason => simpa [Program.visited] using hb
  | load role offset next ih =>
    have hmachine : Machine.load role offset b = (.ok (b.load role offset).1, (b.load role offset).2) := rfl
    rw [Program.visited, hmachine]
    refine List.forall_mem_cons.2 ⟨hb, ih _ (h _) ?_⟩
    rw [(b.panel_load role offset).2]
    exact hload _ _ _ hb
  | act action next ih =>
    have hmachine : Machine.perform action b = b.perform action := rfl
    rw [Program.visited, hmachine]
    refine List.forall_mem_cons.2 ⟨hb, ?_⟩
    split
    · rename_i b' hb'
      refine ih _ h.2 ?_
      rw [Bench.panel_perform hb']
      exact hperform _ _ h.1 hb
    · rename_i reason b' hb'
      rw [List.forall_mem_singleton, Bench.panel_of_refused hb']
      exact hb

end Visited

end Program

end PulseWidth
