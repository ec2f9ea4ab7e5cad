import PulseWidth.Log
import PulseWidth.Memory.Arena
import PulseWidth.Register.Field

/-!
# Programs of the control thread

A program is what the control thread does, step by step: it loads registers and acts on what it reads, stores to
registers, waits, writes words of the arena, logs and prints.  A program says nothing about what a load answers or
what a store does; that is up to the machine that runs it.  A simulated machine keeps a journal, a real one reaches
the mapped registers, and both run the same programs.

The control thread reaches four register windows.  It knows each by its role only: which block paces the samples, and
which DMA channel is used, is up to whoever maps the windows.
-/

namespace PulseWidth

/-! ### Roles of register windows -/

/-- What a register window is for. -/
inductive Role where
  | dma
  | clock
  | pacer
  | gpio
deriving DecidableEq, Repr

/-- One thing per role. -/
structure Roles (ω : Type) where
  dma : ω
  clock : ω
  pacer : ω
  gpio : ω
deriving DecidableEq, Repr

namespace Roles

/-- What has a role. -/
def get {ω : Type} (r : Roles ω) : Role → ω
  | .dma => r.dma
  | .clock => r.clock
  | .pacer => r.pacer
  | .gpio => r.gpio

/-- Gives a role to something else. -/
def set {ω : Type} (r : Roles ω) (x : ω) : Role → Roles ω
  | .dma => { r with dma := x }
  | .clock => { r with clock := x }
  | .pacer => { r with pacer := x }
  | .gpio => { r with gpio := x }

/-- What has the roles, in their order. -/
def toList {ω : Type} (r : Roles ω) : List ω := [r.dma, r.clock, r.pacer, r.gpio]

theorem get_set {ω : Type} (r : Roles ω) (x : ω) (a b : Role) :
    (r.set x a).get b = if a = b then x else r.get b := by
  cases a <;> cases b <;> rfl

end Roles

/-! ### Steps -/

/-- A step that answers nothing. -/
inductive Action where
  | store (role : Role) (offset : UInt64) (value : UInt32)
  | pause (micros : UInt64)
  | write (offset : ArenaOffset) (value : UInt32)
  | log (record : Record)
  | print (line : String)
deriving DecidableEq, Repr

/-- What the control thread does on the way to a result. -/
inductive Program (α : Type) where
  | done (result : α)
  | fault (reason : Fault)
  | load (role : Role) (offset : UInt64) (next : UInt32 → Program α)
  | act (action : Action) (next : Unit → Program α)

namespace Program

/-- One program and then another that depends on its result. -/
def bind {α β : Type} (p : Program α) (f : α → Program β) : Program β :=
  match p with
  | done result => f result
  | fault reason => fault reason
  | load role offset next => load role offset fun value => (next value).bind f
  | act action next => act action fun u => (next u).bind f

instance : Monad Program where
  pure := done
  bind := bind

theorem bind_done {α : Type} (p : Program α) : p.bind done = p := by
  induction p with
  | done _ => rfl
  | fault _ => rfl
  | load role offset next ih => simp only [bind, ih]
  | act action next ih => simp only [bind, ih]

theorem bind_assoc {α β γ : Type} (p : Program α) (f : α → Program β) (g : β → Program γ) :
    (p.bind f).bind g = p.bind fun a => (f a).bind g := by
  induction p with
  | done _ => rfl
  | fault _ => rfl
  | load role offset next ih => simp only [bind, ih]
  | act action next ih => simp only [bind, ih]

/-- One action. -/
def perform (action : Action) : Program Unit := act action done

/-- The value of a register. -/
def read (role : Role) (offset : UInt64) : Program UInt32 := load role offset done

/-- A store to a register. -/
def store (role : Role) (offset : UInt64) (value : UInt32) : Program Unit :=
  perform (.store role offset value)

/-- A pause of the control thread. -/
def pause (micros : UInt64) : Program Unit := perform (.pause micros)

/-- A write of a word of the arena. -/
def write (offset : ArenaOffset) (value : UInt32) : Program Unit := perform (.write offset value)

/-- A log record. -/
def log (level : Level) (target message : String) : Program Unit := perform (.log ⟨level, target, message⟩)

/-- A line of output. -/
def print (line : String) : Program Unit := perform (.print line)

/-- What is certain, or the fault that prevents it. -/
def ofExcept {α : Type} : Except Fault α → Program α
  | .ok result => done result
  | .error reason => fault reason

/-- A program for every item, one after the other. -/
def each {α : Type} (items : List α) (f : α → Program Unit) : Program Unit :=
  match items with
  | [] => done ()
  | item :: rest => (f item).bind fun _ => each rest f

theorem each_append {α : Type} (first second : List α) (f : α → Program Unit) :
    each (first ++ second) f = (each first f).bind fun _ => each second f := by
  induction first with
  | nil => rfl
  | cons item rest ih => simp only [List.cons_append, each, bind_assoc, ih]

theorem each_flatMap {α β : Type} (items : List α) (parts : α → List β) (f : β → Program Unit) :
    each (items.flatMap parts) f = each items fun item => each (parts item) f := by
  induction items with
  | nil => rfl
  | cons item rest ih => simp only [List.flatMap_cons, each_append, each, ih]

end Program

/-- Something that can run programs.  A step that is refused leaves the fault; what it did before is kept. -/
class Machine (σ : Type) where
  load : Role → UInt64 → σ → Except Fault UInt32 × σ
  perform : Action → σ → Except Fault Unit × σ
  /-- The arena as it stands. -/
  arena : σ → Arena

namespace Program

/-- Runs a program to its result or to its first fault. -/
def run {σ α : Type} [Machine σ] : Program α → σ → Except Fault α × σ
  | done result, machine => (.ok result, machine)
  | fault reason, machine => (.error reason, machine)
  | load role offset next, machine =>
    match Machine.load role offset machine with
    | (.ok value, machine) => (next value).run machine
    | (.error reason, machine) => (.error reason, machine)
  | act action next, machine =>
    match Machine.perform action machine with
    | (.ok (), machine) => (next ()).run machine
    | (.error reason, machine) => (.error reason, machine)

end Program

end PulseWidth
