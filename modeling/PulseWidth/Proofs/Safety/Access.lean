import PulseWidth.Chain.Layout
import PulseWidth.Program

/-!
# Accesses of programs

A program reaches registers through windows of fixed lengths, and words of the arena that a layout leaves room for.
`Stays` says that it asks for aligned words inside them only and comes to its end, whatever the registers answer.  It
is a recursion on the program and knows nothing of machines: on each of them the accesses of the program are inside
(`Stays.inside`), and a machine that grants such accesses runs it without a fault (`Grants.run`).
-/

namespace PulseWidth

/-- The number of bytes of the window with a role. -/
def Role.bytes : Role → Nat
  | dma => 0x100
  | clock | pacer | gpio => 0x1000

/-- The window has a whole word at the offset. -/
def Role.Admits (role : Role) (offset : UInt64) : Prop := offset.toNat % 4 = 0 ∧ offset.toNat + 4 ≤ role.bytes

instance (role : Role) (offset : UInt64) : Decidable (role.Admits offset) :=
  inferInstanceAs (Decidable (offset.toNat % 4 = 0 ∧ offset.toNat + 4 ≤ role.bytes))

/-- The layout has a whole word at the offset. -/
def ChainLayout.Admits (l : ChainLayout) (offset : ArenaOffset) : Prop :=
  offset.value.toNat % 4 = 0 ∧ offset.value.toNat + 4 ≤ l.lengthBytes.toNat

/-- A load or a store, of a register or of a word of the arena. -/
inductive Access where
  | register (role : Role) (offset : UInt64)
  | word (offset : ArenaOffset)

/-- The access is to an aligned word of its window or of the layout. -/
def Access.Inside (l : ChainLayout) : Access → Prop
  | register role offset => role.Admits offset
  | word offset => l.Admits offset

def Action.accesses : Action → List Access
  | store role offset _ => [.register role offset]
  | write offset _ => [.word offset]
  | pause _ | log _ | print _ => []

namespace Program

/-- The accesses of a run, in their order. -/
def accesses {σ α : Type} [Machine σ] : Program α → σ → List Access
  | done _, _ => []
  | fault _, _ => []
  | load role offset next, machine =>
    .register role offset :: match Machine.load role offset machine with
      | (.ok value, machine) => (next value).accesses machine
      | (.error _, _) => []
  | act action next, machine =>
    action.accesses ++ match Machine.perform action machine with
      | (.ok (), machine) => (next ()).accesses machine
      | (.error _, _) => []

/-- Whatever the registers answer, the program accesses nothing outside and ends with a result as asked for. -/
def Stays {α : Type} (l : ChainLayout) : Program α → (α → Prop) → Prop
  | done result, post => post result
  | fault _, _ => False
  | load role offset next, post => role.Admits offset ∧ ∀ answer, (next answer).Stays l post
  | act action next, post => (∀ x ∈ action.accesses, x.Inside l) ∧ (next ()).Stays l post

section Stays

variable {α β : Type} {l : ChainLayout} {post : α → Prop}

theorem Stays.mono {p : Program α} {weaker : α → Prop} (h : p.Stays l post) (himp : ∀ a, post a → weaker a) :
    p.Stays l weaker := by
  induction p with
  | done result => exact himp _ h
  | fault _ => exact h
  | load role offset next ih => exact ⟨h.1, fun answer => ih answer (h.2 answer)⟩
  | act action next ih => exact ⟨h.1, ih () h.2⟩

theorem stays_bind_iff {p : Program α} {f : α → Program β} {post : β → Prop} :
    (p >>= f).Stays l post ↔ p.Stays l fun a => (f a).Stays l post := by
  show (p.bind f).Stays l post ↔ _
  induction p with
  | done result => exact Iff.rfl
  | fault _ => exact Iff.rfl
  | load role offset next ih => exact and_congr_right fun _ => forall_congr' ih
  | act action next ih => exact and_congr_right fun _ => ih ()

/-- A program whose result does not matter, and then another. -/
theorem Stays.next {p : Program β} {f : β → Program α} (h : p.Stays l fun _ => True)
    (hnext : ∀ b, (f b).Stays l post) : (p >>= f).Stays l post :=
  stays_bind_iff.2 (h.mono fun b _ => hnext b)

theorem stays_read {role : Role} {offset : UInt64} (h : role.Admits offset) :
    (read role offset).Stays l fun _ => True :=
  ⟨h, fun _ => trivial⟩

theorem stays_store {role : Role} {offset : UInt64} (h : role.Admits offset) (value : UInt32) :
    (store role offset value).Stays l fun _ => True :=
  ⟨List.forall_mem_singleton.2 h, trivial⟩

theorem stays_write {offset : ArenaOffset} (h : l.Admits offset) (value : UInt32) :
    (write offset value).Stays l fun _ => True :=
  ⟨List.forall_mem_singleton.2 h, trivial⟩

theorem stays_pause (micros : UInt64) : (pause micros).Stays l fun _ => True :=
  ⟨List.forall_mem_nil _, trivial⟩

theorem stays_log (level : Level) (target message : String) : (log level target message).Stays l fun _ => True :=
  ⟨List.forall_mem_nil _, trivial⟩

theorem stays_ofExcept {x : Except Fault β} {value : β} (h : x = .ok value) :
    (ofExcept x).Stays l fun _ => True := by
  subst h
  exact trivial

theorem stays_each {items : List β} {f : β → Program Unit} (h : ∀ item ∈ items, (f item).Stays l fun _ => True) :
    (each items f).Stays l fun _ => True := by
  induction items with
  | nil => exact trivial
  | cons item rest ih =>
    exact Stays.next (h item List.mem_cons_self) fun _ => ih fun other hother => h other (List.mem_cons_of_mem _ hother)

/-- On any machine, the accesses of the program are inside. -/
theorem Stays.inside {σ : Type} [Machine σ] {p : Program α} (h : p.Stays l post) (machine : σ) :
    ∀ x ∈ p.accesses machine, x.Inside l := by
  induction p generalizing machine with
  | done result => exact List.forall_mem_nil _
  | fault _ => exact h.elim
  | load role offset next ih =>
    rw [accesses]
    refine List.forall_mem_cons.2 ⟨h.1, ?_⟩
    -- a machine that refuses the load ends the run, and there are no further accesses
    split
    · exact ih _ (h.2 _) _
    · exact List.forall_mem_nil _
  | act action next ih =>
    rw [accesses]
    refine List.forall_mem_append.2 ⟨h.1, ?_⟩
    split
    · exact ih () h.2 _
    · exact List.forall_mem_nil _

end Stays

end Program

/-! ### Machines that grant accesses -/

/-- Machines in a certain state have room for the layout, refuse no access inside, and stay in such a state. -/
structure Machine.Grants {σ : Type} [Machine σ] (l : ChainLayout) (ready : σ → Prop) : Prop where
  fits : ∀ machine, ready machine → l.lengthBytes ≤ (Machine.arena machine).length
  load : ∀ machine role offset, ready machine → role.Admits offset →
    ∃ value next, Machine.load role offset machine = (.ok value, next) ∧ ready next
  perform : ∀ machine action, ready machine → (∀ x ∈ action.accesses, x.Inside l) →
    ∃ next, Machine.perform action machine = (.ok (), next) ∧ ready next

/-- A program that stays inside is run to its end. -/
theorem Machine.Grants.run {σ α : Type} [Machine σ] {l : ChainLayout} {ready : σ → Prop} (h : Grants l ready)
    {p : Program α} {post : α → Prop} (hp : p.Stays l post) {machine : σ} (hready : ready machine) :
    ∃ a next, p.run machine = (.ok a, next) ∧ post a ∧ ready next := by
  induction p generalizing machine with
  | done result => exact ⟨result, machine, rfl, hp, hready⟩
  | fault _ => exact hp.elim
  | load role offset next ih =>
    obtain ⟨value, after, hload, hafter⟩ := h.load machine role offset hready hp.1
    obtain ⟨a, last, hrun, ha, hlast⟩ := ih value (hp.2 value) hafter
    refine ⟨a, last, ?_, ha, hlast⟩
    rw [Program.run, hload]
    exact hrun
  | act action next ih =>
    obtain ⟨after, hperform, hafter⟩ := h.perform machine action hready hp.1
    obtain ⟨a, last, hrun, ha, hlast⟩ := ih () hp.2 hafter
    refine ⟨a, last, ?_, ha, hlast⟩
    rw [Program.run, hperform]
    exact hrun

end PulseWidth
