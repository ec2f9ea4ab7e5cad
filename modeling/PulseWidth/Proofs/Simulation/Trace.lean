import Mathlib.Data.List.Induction
import Mathlib.Data.List.Nodup
import PulseWidth.Proofs.Lists
import PulseWidth.Proofs.Simulation.Panel
import PulseWidth.Register.Dma
import PulseWidth.Simulation.Window

/-!
# The journal of a rack

The journal that the windows of a rack share is a trace of all accesses to them.  As long as no two blocks have the same
name, it tells everything about the windows: each of them is what its stores make of zeros (`Window.replay`), and each
load shows what was last stored to the same word of the same block (`recalled`), however the accesses to the blocks are
mixed and whatever their offsets are.  Two offsets that stand for the same word are the same here.
-/

namespace PulseWidth.Simulation

/-! ### What a list of events tells -/

/-- The word that was stored last to a position of a block. -/
def latestWord (block : String) (position : Nat) (events : List Event) : Option UInt32 :=
  events.reverse.findSome? fun
    | .store b offset value => if b = block ∧ Window.position offset = position then some value else none
    | _ => none

/-- What a load has to show of a block of so many bytes. -/
def recalled (block : String) (bytes : UInt64) (offset : UInt64) (before : List Event) : UInt32 :=
  if Window.position offset < (bytes.toNat + 3) / 4 then (latestWord block (Window.position offset) before).getD 0
  else 0

/-- Every load shows what has been stored before. -/
def Truthful (blocks : List (String × UInt64)) (events : List Event) : Prop :=
  ∀ before block offset value after, events = before ++ .load block offset value :: after →
    ∃ bytes, (block, bytes) ∈ blocks ∧ value = recalled block bytes offset before

/-- The window after an event. -/
def Window.after (w : Window) : Event → Window
  | .store block offset value => if block = w.block then w.poke offset value else w
  | .load .. | .delay .. => w

/-- The window after its stores among some events. -/
def Window.replay (w : Window) (events : List Event) : Window := events.foldl Window.after w

section Events

variable {blocks : List (String × UInt64)} {events : List Event} {event : Event} {block : String} {position : Nat}

theorem latestWord_snoc (event : Event) : latestWord block position (events ++ [event]) =
    match event with
    | .store b offset value =>
      if b = block ∧ Window.position offset = position then some value else latestWord block position events
    | _ => latestWord block position events := by
  rw [latestWord, findSome?_reverse_snoc, latestWord]
  cases event with
  | store b offset value => by_cases h : b = block ∧ Window.position offset = position <;> simp [h]
  | load _ _ _ | delay _ => rfl

theorem Window.replay_snoc (w : Window) : w.replay (events ++ [event]) = (w.replay events).after event := by
  rw [replay, List.foldl_append]
  rfl

@[simp] theorem Window.block_after (w : Window) (event : Event) : (w.after event).block = w.block := by
  cases event with
  | store b offset value =>
    rw [after]
    split <;> rfl
  | load _ _ _ | delay _ => rfl

@[simp] theorem Window.size_after (w : Window) (event : Event) : (w.after event).words.size = w.words.size := by
  cases event with
  | store b offset value =>
    rw [after]
    split
    · exact Array.size_setIfInBounds
    · rfl
  | load _ _ _ | delay _ => rfl

@[simp] theorem Window.block_replay (w : Window) (events : List Event) : (w.replay events).block = w.block := by
  induction events generalizing w with
  | nil => rfl
  | cons event rest ih => exact (ih _).trans (w.block_after event)

@[simp] theorem Window.size_replay (w : Window) (events : List Event) :
    (w.replay events).words.size = w.words.size := by
  induction events generalizing w with
  | nil => rfl
  | cons event rest ih => exact (ih _).trans (w.size_after event)

theorem Window.size_zeros (block : String) (bytes : UInt64) :
    (zeros block bytes).words.size = (bytes.toNat + 3) / 4 := Array.size_replicate

/-- The words of a block of zeros after some events. -/
theorem Window.peek_replay (block : String) (bytes offset : UInt64) (events : List Event) :
    ((zeros block bytes).replay events).peek offset = recalled block bytes offset events := by
  induction events using List.reverseRecOn with
  | nil =>
    have hzero : (zeros block bytes).peek offset = 0 := by
      rw [peek, zeros, Array.getD_eq_getD_getElem?, Array.getElem?_replicate]
      split <;> rfl
    exact hzero.trans (ite_self (0 : UInt32)).symm
  | append_singleton events event ih =>
    rw [replay_snoc, recalled, latestWord_snoc]
    cases event with
    | store b there value =>
      have hblock : ((zeros block bytes).replay events).block = block := block_replay ..
      rw [after, hblock]
      by_cases hb : b = block
      · rw [if_pos hb, peek_poke, size_replay, size_zeros, ih, recalled]
        by_cases hplace : position there = position offset
        · by_cases hin : position offset < (bytes.toNat + 3) / 4 <;> simp [hb, hplace, hin]
        · simp [hplace]
      · rw [if_neg hb, ih, recalled]
        simp [hb]
    | load _ _ _ | delay _ => exact ih

theorem truthful_nil : Truthful blocks [] := by
  intro before block offset value after h
  cases before <;> cases h

/-- Events are truthful one by one. -/
theorem Truthful.snoc (h : Truthful blocks events) (hlast : ∀ block offset value, event = .load block offset value →
    ∃ bytes, (block, bytes) ∈ blocks ∧ value = recalled block bytes offset events) :
    Truthful blocks (events ++ [event]) := by
  intro before block offset value after heq
  rcases snoc_eq_append_cons_iff.1 heq with ⟨-, rfl, rfl⟩ | ⟨init, -, rfl⟩
  · exact hlast block offset value rfl
  · exact h before block offset value init rfl

end Events

/-! ### Accesses -/

/-- An access to a window of a rack. -/
inductive Rack.Access where
  | load (offset : UInt64)
  | store (offset : UInt64) (value : UInt32)
  | loadRegister (register : Register)
  | storeRegister (register : Register) (value : UInt32)
  /-- A change of a register by a function that may refuse. -/
  | modify (register : Register) (change : UInt32 → Except Fault UInt32)

/-- What an access to a block puts into the journal, one event after the other. -/
inductive Rack.Access.Shows (block : String) : Access → List Event → Prop where
  | load (offset : UInt64) (value : UInt32) : Shows block (.load offset) [.load block offset value]
  | store (offset : UInt64) (value : UInt32) : Shows block (.store offset value) [.store block offset value]
  | loadRegister (register : Register) (value : UInt32) :
    Shows block (.loadRegister register) [.load block register.offset value]
  | storeRegister (register : Register) (value : UInt32) :
    Shows block (.storeRegister register value) [.store block register.offset value]
  | modify (register : Register) (change : UInt32 → Except Fault UInt32) (word changed : UInt32)
    (h : change word = .ok changed) :
    Shows block (.modify register change) [.load block register.offset word, .store block register.offset changed]
  | refused (register : Register) (change : UInt32 → Except Fault UInt32) (word : UInt32) (reason : Fault)
    (h : change word = .error reason) : Shows block (.modify register change) [.load block register.offset word]

namespace Rack

/-- Windows of zeros with the given names and numbers of bytes, and a journal in which nothing has happened. -/
def fresh (blocks : List (String × UInt64)) : Rack :=
  ⟨(blocks.map fun (block, bytes) => Window.zeros block bytes).toArray, .empty⟩

/-- The rack after an access to the window at a position. -/
def access (r : Rack) (index : Nat) : Access → Rack
  | .load offset => (r.load index offset).2
  | .store offset value => r.store index offset value
  | .loadRegister register => (r.load index register.offset).2
  | .storeRegister register value => r.store index register.offset value
  | .modify register change => (r.modify index register change).2

/-- The rack after some accesses. -/
def accessAll {count : Nat} (r : Rack) (calls : List (Fin count × Access)) : Rack :=
  calls.foldl (fun r (index, a) => r.access index a) r

def events (r : Rack) : List Event := r.journal.events.toList

/-- The journal tells everything about the windows. -/
structure Faithful (blocks : List (String × UInt64)) (r : Rack) : Prop where
  size_eq : r.windows.size = blocks.length
  loads : Truthful blocks r.events
  /-- Each window is a block of zeros after its stores. -/
  window_eq : ∀ i : Fin blocks.length,
    r.windows[i.val]? = some ((Window.zeros (blocks.get i).1 (blocks.get i).2).replay r.events)

variable {blocks : List (String × UInt64)} {r : Rack}

theorem faithful_fresh (blocks : List (String × UInt64)) : (fresh blocks).Faithful blocks where
  size_eq := by simp [fresh]
  loads := truthful_nil
  window_eq := by
    intro i
    simp [fresh, events, Journal.empty, Window.replay]

/-! ### One access -/

/-- A load is shown with its value, and the windows stay. -/
theorem Faithful.load (h : r.Faithful blocks) (i : Fin blocks.length) (offset : UInt64) :
    (r.load i offset).2.events = r.events ++ [.load (blocks.get i).1 offset (r.load i offset).1] ∧
      (r.load i offset).2.Faithful blocks := by
  have hwindow := h.window_eq i
  have hvalue : (r.load i offset).1 = recalled (blocks.get i).1 (blocks.get i).2 offset r.events := by
    rw [Rack.load, hwindow]
    exact Window.peek_replay ..
  have hwindows : (r.load i offset).2.windows = r.windows := by
    rw [Rack.load, hwindow]
  have hevents : (r.load i offset).2.events =
      r.events ++ [.load (blocks.get i).1 offset (r.load i offset).1] := by
    rw [Rack.load, hwindow]
    simp [Window.load, events, Journal.note, Window.zeros]
  refine ⟨hevents, ?_⟩
  exact
    { size_eq := by rw [hwindows, h.size_eq]
      loads := by
        rw [hevents]
        refine h.loads.snoc ?_
        intro block' offset' value' heq
        cases heq
        exact ⟨(blocks.get i).2, List.get_mem blocks i, hvalue⟩
      window_eq := by
        intro j
        rw [hwindows, hevents, Window.replay_snoc]
        exact h.window_eq j }

private theorem name_inj (hdistinct : (blocks.map Prod.fst).Nodup) {i j : Fin blocks.length}
    (h : (blocks.get i).1 = (blocks.get j).1) : i = j := by
  have hmember : blocks.get i = blocks.get j :=
    List.inj_on_of_nodup_map hdistinct (List.get_mem blocks i) (List.get_mem blocks j) h
  exact hdistinct.of_map.injective_get hmember

/-- A store is shown, and is one more store to its window; the names tell the windows apart. -/
theorem Faithful.store (hdistinct : (blocks.map Prod.fst).Nodup) (h : r.Faithful blocks) (i : Fin blocks.length)
    (offset : UInt64) (value : UInt32) :
    (r.store i offset value).events = r.events ++ [.store (blocks.get i).1 offset value] ∧
      (r.store i offset value).Faithful blocks := by
  have hwindow := h.window_eq i
  have hwindows : (r.store i offset value).windows = r.windows.setIfInBounds i
      (((Window.zeros (blocks.get i).1 (blocks.get i).2).replay r.events).poke offset value) := by
    rw [Rack.store, hwindow]
    rfl
  have hevents : (r.store i offset value).events = r.events ++ [.store (blocks.get i).1 offset value] := by
    rw [Rack.store, hwindow]
    simp [Window.store, events, Window.events_noteStore, Window.zeros]
  refine ⟨hevents, ?_⟩
  exact
    { size_eq := by rw [hwindows, Array.size_setIfInBounds, h.size_eq]
      loads := by
        rw [hevents]
        refine h.loads.snoc ?_
        intro block' offset' value' heq
        cases heq
      window_eq := by
        intro j
        have hj : j.val < r.windows.size := by
          rw [h.size_eq]
          exact j.isLt
        rw [hwindows, hevents, Window.replay_snoc, Window.after, Window.block_replay]
        rw [Array.getElem?_setIfInBounds]
        by_cases heq : i = j
        · subst heq
          simp [hj, Window.zeros]
        · have hname : (blocks.get i).1 ≠ (blocks.get j).1 := fun hname => heq (name_inj hdistinct hname)
          rw [if_neg fun hval => heq (Fin.ext hval), h.window_eq j]
          exact congrArg some (if_neg hname).symm }

/-- An access is shown as what it is, and the journal still tells everything. -/
theorem Faithful.access (hdistinct : (blocks.map Prod.fst).Nodup) (h : r.Faithful blocks) (i : Fin blocks.length)
    (a : Access) : ∃ piece, a.Shows (blocks.get i).1 piece ∧ (r.access i a).events = r.events ++ piece ∧
      (r.access i a).Faithful blocks := by
  cases a with
  | load offset => exact ⟨_, .load offset _, h.load i offset⟩
  | store offset value => exact ⟨_, .store offset value, h.store hdistinct i offset value⟩
  | loadRegister register => exact ⟨_, .loadRegister register _, h.load i register.offset⟩
  | storeRegister register value => exact ⟨_, .storeRegister register value, h.store hdistinct i register.offset value⟩
  | modify register change =>
    obtain ⟨hshown, hloaded⟩ := h.load i register.offset
    cases hchange : change (r.load i register.offset).1 with
    | error reason =>
      have haccess : r.access i (.modify register change) = (r.load i register.offset).2 := by
        simp only [Rack.access, Rack.modify, hchange]
      rw [haccess]
      exact ⟨_, .refused register change _ reason hchange, hshown, hloaded⟩
    | ok changed =>
      obtain ⟨hstored, hfaithful⟩ := hloaded.store hdistinct i register.offset changed
      have haccess : r.access i (.modify register change) =
          (r.load i register.offset).2.store i register.offset changed := by
        simp only [Rack.access, Rack.modify, hchange]
      rw [haccess]
      refine ⟨_, .modify register change _ changed hchange, ?_, hfaithful⟩
      rw [hstored, hshown, List.append_assoc]
      rfl

/-! ### All accesses -/

/-- The accesses of a run are shown one after the other. -/
theorem Faithful.accessAll (hdistinct : (blocks.map Prod.fst).Nodup) (h : r.Faithful blocks)
    (calls : List (Fin blocks.length × Access)) :
    ∃ pieces, List.Forall₂ (fun call piece => call.2.Shows (blocks.get call.1).1 piece) calls pieces ∧
      (r.accessAll calls).events = r.events ++ pieces.flatten ∧ (r.accessAll calls).Faithful blocks := by
  induction calls generalizing r with
  | nil => exact ⟨[], .nil, (List.append_nil _).symm, h⟩
  | cons call rest ih =>
    obtain ⟨piece, hpiece, hevents, hnext⟩ := h.access hdistinct call.1 call.2
    obtain ⟨pieces, hpieces, hall, hfaithful⟩ := ih hnext
    refine ⟨piece :: pieces, .cons hpiece hpieces, ?_, hfaithful⟩
    rw [List.flatten_cons, ← List.append_assoc, ← hevents]
    exact hall

end Rack

/-- For all blocks with different names and every sequence of accesses to them, the journal shows each access in its
turn, each load shows the word that was stored last, and the windows are what their stores have made of zeros. -/
theorem trace_of_accesses {blocks : List (String × UInt64)} (hdistinct : (blocks.map Prod.fst).Nodup)
    (calls : List (Fin blocks.length × Rack.Access)) :
    let r := (Rack.fresh blocks).accessAll calls
    (∃ pieces, List.Forall₂ (fun call piece => call.2.Shows (blocks.get call.1).1 piece) calls pieces ∧
      r.events = pieces.flatten) ∧ r.Faithful blocks := by
  intro r
  obtain ⟨pieces, hpieces, hevents, hfaithful⟩ := (Rack.faithful_fresh blocks).accessAll hdistinct calls
  exact ⟨⟨pieces, hpieces, hevents⟩, hfaithful⟩

theorem trace_of_two_blocks :
    let blocks : List (String × UInt64) := [("dma", 8), ("gpio", 6)]
    let calls : List (Fin blocks.length × Rack.Access) :=
      [(⟨0, by decide⟩, .store 5 7), (⟨1, by decide⟩, .store 8 3), (⟨1, by decide⟩, .load 8),
       (⟨0, by decide⟩, .modify Dma.controlBlock fun word => .ok (word + 1)), (⟨0, by decide⟩, .load 6),
       (⟨1, by decide⟩, .loadRegister Dma.controlBlock)]
    let r := (Rack.fresh blocks).accessAll calls
    (blocks.map Prod.fst).Nodup ∧ r.Faithful blocks ∧ r.events =
      [.store "dma" 5 7, .store "gpio" 8 3, .load "gpio" 8 0, .load "dma" 4 7, .store "dma" 4 8, .load "dma" 6 8,
       .load "gpio" 4 0] := by
  intro blocks calls r
  have hdistinct : (blocks.map Prod.fst).Nodup := by decide
  obtain ⟨-, hfaithful⟩ := trace_of_accesses hdistinct calls
  refine ⟨hdistinct, hfaithful, ?_⟩
  decide +kernel

end PulseWidth.Simulation
