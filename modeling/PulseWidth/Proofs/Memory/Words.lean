import Mathlib.Data.List.Induction
import PulseWidth.Proofs.Board.BringUp

/-!
# Locked and simulated memory

Whatever is read from and written to an arena of zeros, a word holds what was last written to it, and an access that is
refused changes nothing.  A simulated arena refuses the accesses that are unaligned or behind its end.  So does a locked
one if sums are checked.  If they are modular, there is a single offset that it does not refuse: the sum in its check
wraps around to zero at the last multiple of four, so that the word in front of its memory is not told from one that is
inside.
-/

namespace PulseWidth

namespace Arena

/-! ### Accesses -/

/-- An access to a word of an arena. -/
inductive Access where
  | read (offset : ArenaOffset)
  | write (offset : ArenaOffset) (value : UInt32)

def Access.offset : Access → ArenaOffset
  | read offset | write offset _ => offset

/-- What an access answers, with the word if it is a read, and the arena that it leaves. -/
def access (a : Arena) : Access → Except Fault (Option UInt32) × Arena
  | .read offset => ((a.read offset).map some, a)
  | .write offset value =>
    match a.write offset value with
    | .error reason => (.error reason, a)
    | .ok written => (.ok none, written)

/-- The arena after some accesses, whether they are refused or not. -/
def after (a : Arena) (calls : List Access) : Arena := calls.foldl (fun a x => (a.access x).2) a

def Refuses (a : Arena) (x : Access) : Prop := ∃ reason, (a.access x).1 = .error reason

/-! ### Memory -/

/-- The offset is that of a word among the first `bytes` bytes. -/
def IsWord (bytes : Nat) (offset : ArenaOffset) : Prop := offset.value.toNat % 4 = 0 ∧ offset.value.toNat < bytes

instance (bytes : Nat) (offset : ArenaOffset) : Decidable (IsWord bytes offset) :=
  inferInstanceAs (Decidable (_ ∧ _))

/-- The last multiple of four, behind which the offsets start over. -/
def lastOffset : ArenaOffset := ⟨0xFFFFFFFFFFFFFFFC⟩

/-- What the last write to an offset has written. -/
def lastWritten (offset : ArenaOffset) (calls : List Access) : Option UInt32 :=
  calls.reverse.findSome? fun
    | .write there value => if there = offset then some value else none
    | .read _ => none

/-- The arena is `bytes` bytes of zeros that remember what is written to them, whatever is done with it; `missed` are
the offsets outside that it does not refuse. -/
structure Remembers (bytes : Nat) (missed : ArenaOffset → Prop) (a : Arena) : Prop where
  refuses_iff : ∀ calls x, (a.after calls).Refuses x ↔ ¬IsWord bytes x.offset ∧ ¬missed x.offset
  unchanged : ∀ calls x, (a.after calls).Refuses x → ((a.after calls).access x).2 = a.after calls
  /-- Writes to a word are all accepted, so that the last one counts. -/
  read_eq : ∀ calls offset, IsWord bytes offset →
    ((a.after calls).access (.read offset)).1 = .ok (some ((lastWritten offset calls).getD 0))

/-! ### What is refused -/

variable {a start : Arena} {offset : ArenaOffset} {x : Access} {calls : List Access}

theorem eq_lastOffset_iff : offset = lastOffset ↔ offset.value.toNat = 18446744073709551612 := by
  obtain ⟨value⟩ := offset
  rw [lastOffset, ArenaOffset.mk.injEq, ← UInt64.toNat_inj]
  rfl

/-- The accesses that an arena accepts.  Four more than an aligned offset is at most the length if and only if the
offset is below it, unless the sum wraps around. -/
theorem refusal?_eq_none_iff (h : 4 * a.words.size < UInt64.size) : a.refusal? offset = none ↔
    IsWord (4 * a.words.size) offset ∨ (a.discipline = .locked .modular ∧ offset = lastOffset) := by
  have haligned : offset.isAligned 4 = decide (offset.value.toNat % 4 = 0) := isAligned_four offset.value
  have hlt := offset.value.toNat_lt
  have hlength := toNat_length h
  rw [refusal?, IsWord, eq_lastOffset_iff, haligned]
  cases a.discipline with
  | simulated =>
    have hposition : position offset < a.words.size ↔ offset.value.toNat < 4 * a.words.size := by
      rw [toNat_position]
      omega
    by_cases halign : offset.value.toNat % 4 = 0 <;> by_cases hin : offset.value.toNat < 4 * a.words.size <;>
      simp [halign, hin, hposition]
  | locked m =>
    have hsum : offset.value + 4 ≤ a.length ↔
        (offset.value.toNat + 4) % 18446744073709551616 ≤ 4 * a.words.size := by
      rw [UInt64.le_iff_toNat_le, UInt64.toNat_add, hlength]
      rfl
    rw [UInt64.size] at h
    rw [Arithmetic.refusal?_eq_none_iff, hsum, decide_eq_true_eq, Discipline.locked.injEq, UInt64.size]
    by_cases hmodular : m = .modular
    · simp only [hmodular, or_true, true_and]
      omega
    · simp only [hmodular, or_false, false_and]
      omega

theorem refuses_iff_refusal? : a.Refuses x ↔ a.refusal? x.offset ≠ none := by
  cases x with
  | read offset =>
    show (∃ reason, (a.read offset).map some = .error reason) ↔ a.refusal? offset ≠ none
    rw [read]
    cases a.refusal? offset <;> simp [Except.map]
  | write offset value =>
    show _ ↔ a.refusal? offset ≠ none
    rw [Refuses, access, write]
    cases a.refusal? offset <;> simp

theorem access_of_refuses (h : a.Refuses x) : (a.access x).2 = a := by
  obtain ⟨reason, hreason⟩ := h
  cases x with
  | read offset => rfl
  | write offset value =>
    rw [access] at hreason ⊢
    split
    · rfl
    · rename_i written hwritten
      rw [hwritten] at hreason
      cases hreason

theorem access_write_of_accepted {value : UInt32} (h : a.refusal? offset = none) :
    (a.access (.write offset value)).2 = a.put offset value := by
  rw [access, write, h]

/-! ### What is remembered -/

theorem lastWritten_snoc : lastWritten offset (calls ++ [x]) =
    match x with
    | .write there value => if there = offset then some value else lastWritten offset calls
    | .read _ => lastWritten offset calls := by
  rw [lastWritten, findSome?_reverse_snoc, lastWritten]
  cases x with
  | read there => rfl
  | write there value => by_cases h : there = offset <;> simp [h]

theorem after_snoc : a.after (calls ++ [x]) = ((a.after calls).access x).2 := by
  rw [after, List.foldl_append]
  rfl

/-- An arena that comes of another by some accesses. -/
structure Follows (start : Arena) (calls : List Access) (a : Arena) : Prop where
  discipline_eq : a.discipline = start.discipline
  size_eq : a.words.size = start.words.size
  word_eq : ∀ offset, IsWord (4 * start.words.size) offset →
    a.words[offset.value.toNat / 4]? = some ((lastWritten offset calls).getD 0)

/-- One more write that is accepted.  Different offsets that are multiples of four are different words. -/
theorem Follows.put (hsize : 4 * start.words.size < UInt64.size) (h : Follows start calls a) {there : ArenaOffset}
    (haccepted : a.refusal? there = none) (value : UInt32) :
    Follows start (calls ++ [.write there value]) (a.put there value) where
  discipline_eq := h.discipline_eq
  size_eq := (size_put a there value).trans h.size_eq
  word_eq := by
    intro offset hoffset
    have haligned : there.value.toNat % 4 = 0 := by
      rcases (refusal?_eq_none_iff (h.size_eq ▸ hsize)).1 haccepted with hword | ⟨-, hlast⟩
      · exact hword.1
      · rw [eq_lastOffset_iff.1 hlast]
    have hin : offset.value.toNat / 4 < a.words.size := by
      have hlt := hoffset.2
      rw [h.size_eq]
      omega
    rw [getElem?_put, toNat_position, lastWritten_snoc]
    by_cases hsame : there = offset
    · subst hsame
      simp [hin]
    · have hplace : ¬there.value.toNat / 4 = offset.value.toNat / 4 := by
        intro hplace
        have hvalue : there.value.toNat = offset.value.toNat := by
          have halign := hoffset.1
          omega
        obtain ⟨there⟩ := there
        obtain ⟨offset⟩ := offset
        exact hsame (congrArg _ (UInt64.toNat_inj.1 hvalue))
      rw [if_neg fun hboth => hplace hboth.1, h.word_eq offset hoffset]
      simp [hsame]

/-- One more access. -/
theorem Follows.access (hsize : 4 * start.words.size < UInt64.size) (h : Follows start calls a) (x : Access) :
    Follows start (calls ++ [x]) (a.access x).2 := by
  cases x with
  | read there =>
    refine ⟨h.discipline_eq, h.size_eq, fun offset hoffset => ?_⟩
    rw [lastWritten_snoc]
    exact h.word_eq offset hoffset
  | write there value =>
    by_cases haccepted : a.refusal? there = none
    · rw [access_write_of_accepted haccepted]
      exact h.put hsize haccepted value
    · rw [access_of_refuses (refuses_iff_refusal?.2 haccepted)]
      refine ⟨h.discipline_eq, h.size_eq, fun offset hoffset => ?_⟩
      -- a write that is refused was not to this word
      have hother : there ≠ offset := by
        rintro rfl
        exact haccepted ((refusal?_eq_none_iff (h.size_eq ▸ hsize)).2 (.inl (h.size_eq ▸ hoffset)))
      rw [lastWritten_snoc, h.word_eq offset hoffset]
      simp [hother]

theorem follows_after (hsize : 4 * start.words.size < UInt64.size)
    (hzero : start.words = Array.replicate start.words.size 0) (calls : List Access) :
    Follows start calls (start.after calls) := by
  induction calls using List.reverseRecOn with
  | nil =>
    refine ⟨rfl, rfl, fun offset hoffset => ?_⟩
    have hin : offset.value.toNat / 4 < start.words.size := by
      have hlt := hoffset.2
      omega
    show start.words[offset.value.toNat / 4]? = some 0
    rw [hzero, Array.getElem?_replicate, if_pos hin]
  | append_singleton calls x ih =>
    rw [after_snoc]
    exact ih.access hsize x

/-- An arena of zeros is memory. -/
theorem remembers_of_zeros {count : Nat} {missed : ArenaOffset → Prop} (hzero : a.words = Array.replicate count 0)
    (hcount : 4 * count < UInt64.size)
    (hmissed : ∀ offset, missed offset ↔ a.discipline = .locked .modular ∧ offset = lastOffset) :
    a.Remembers (4 * count) missed := by
  have hsize : a.words.size = count := by rw [hzero, Array.size_replicate]
  have hfollows : ∀ calls, Follows a calls (a.after calls) :=
    follows_after (hsize ▸ hcount) (by rw [hsize]; exact hzero)
  have haccepted : ∀ calls offset, (a.after calls).refusal? offset = none ↔
      IsWord (4 * count) offset ∨ missed offset := by
    intro calls offset
    have hafter := hfollows calls
    have hbytes : (a.after calls).words.size = count := hafter.size_eq.trans hsize
    rw [refusal?_eq_none_iff (hbytes ▸ hcount), hbytes, hafter.discipline_eq, hmissed]
  exact
    { refuses_iff := by
        intro calls x
        rw [refuses_iff_refusal?, ne_eq, haccepted, not_or]
      unchanged := fun calls x => access_of_refuses
      read_eq := by
        intro calls offset hoffset
        have hword := (hfollows calls).word_eq offset (hsize ▸ hoffset)
        have hnone := (haccepted calls offset).2 (.inl hoffset)
        show ((a.after calls).read offset).map some = _
        rw [read, hnone, toNat_position, Array.getD_eq_getD_getElem?, hword]
        rfl }

end Arena

/-- A locked arena and a simulated one of the same number of pages are the same memory, whatever is read and written at
whatever offsets, except that a locked one whose sums are modular does not refuse the last offset of all.  Nothing is
said about what an access there finds in front of the arena. -/
theorem memory_of_arenas {h h' : Host} {pages : UInt64} {resolver : Resolver} {dram dram' : DramAlias}
    {locked simulated : Arena} (hlocked : h.allocateArena pages resolver dram = (.ok locked, h'))
    (hsimulated : Arena.simulated pages dram' = .ok simulated) :
    locked.length.toNat = 4096 * pages.toNat ∧ simulated.length = locked.length ∧
      simulated.Remembers (4096 * pages.toNat) (fun _ => False) ∧
      locked.Remembers (4096 * pages.toNat) (fun offset => h.arithmetic = .modular ∧ offset = Arena.lastOffset) := by
  obtain ⟨hmax, hdiscipline, hwords, -⟩ := Host.allocateArena_eq_ok hlocked
  obtain ⟨-, -, hsame⟩ := Arena.isSimulated_of_simulated hsimulated
  have hbytes : 4096 * pages.toNat = 4 * (1024 * pages.toNat) := by omega
  have hcount : 4 * (1024 * pages.toNat) < UInt64.size := by
    rw [UInt64.size]
    omega
  have hlength : ∀ a : Arena, a.words = Array.replicate (1024 * pages.toNat) 0 →
      a.length.toNat = 4096 * pages.toNat := by
    intro a hzero
    have hsize : a.words.size = 1024 * pages.toNat := by rw [hzero, Array.size_replicate]
    rw [Arena.toNat_length (hsize ▸ hcount), hsize, hbytes]
  refine ⟨hlength _ hwords, ?_, ?_, ?_⟩
  · rw [← UInt64.toNat_inj, hlength _ hwords, hlength _ hsame.words_eq]
  · rw [hbytes]
    exact Arena.remembers_of_zeros hsame.words_eq hcount fun offset => by simp [hsame.discipline_eq]
  · rw [hbytes]
    exact Arena.remembers_of_zeros hwords hcount fun offset => by simp [hdiscipline]

/-- What a host that refuses nothing answers when it is asked for one page by a program whose sums are modular. -/
def Host.onePage : Except ArenaError Arena × Host :=
  { Host.small fun _ _ => none with arithmetic := .modular }.allocateArena 1
    (.ofList ⟨0x10000⟩ #[fun _ => .ok ⟨0x1000⟩]) .uncached

theorem memory_of_one_page : ∃ locked h' simulated,
    Host.onePage = (.ok locked, h') ∧ Arena.simulated 1 .l2Coherent = .ok simulated ∧
      simulated.Remembers 4096 (fun _ => False) ∧
      locked.Remembers 4096 (fun offset => offset = Arena.lastOffset) := by
  obtain ⟨locked, h', hlocked⟩ : ∃ locked h', Host.onePage = (.ok locked, h') := ⟨_, _, rfl⟩
  obtain ⟨simulated, hsimulated⟩ : ∃ simulated, Arena.simulated 1 .l2Coherent = .ok simulated :=
    Arena.simulated_ok (by decide) (by decide) _
  obtain ⟨-, -, hsame, hmemory⟩ := memory_of_arenas hlocked hsimulated
  simp only [true_and] at hmemory
  exact ⟨locked, h', simulated, hlocked, hsimulated, hsame, hmemory⟩

/-- The word in front of a locked arena is written, where the simulated one refuses it. -/
theorem locked_accepts_last_offset : ∃ locked h' simulated,
    Host.onePage = (.ok locked, h') ∧ Arena.simulated 1 .uncached = .ok simulated ∧
      locked.length ≤ Arena.lastOffset.value ∧ ¬locked.Refuses (.write Arena.lastOffset 0) ∧
      simulated.Refuses (.write Arena.lastOffset 0) := by
  obtain ⟨locked, h', hlocked⟩ : ∃ locked h', Host.onePage = (.ok locked, h') := ⟨_, _, rfl⟩
  obtain ⟨simulated, hsimulated⟩ : ∃ simulated, Arena.simulated 1 .uncached = .ok simulated :=
    Arena.simulated_ok (by decide) (by decide) _
  obtain ⟨-, hdiscipline, hwords, -⟩ := Host.allocateArena_eq_ok hlocked
  obtain ⟨-, -, hsame⟩ := Arena.isSimulated_of_simulated hsimulated
  have hsize : locked.words.size = 1024 := by rw [hwords, Array.size_replicate]; rfl
  have hsize' : simulated.words.size = 1024 := by rw [hsame.words_eq, Array.size_replicate]; rfl
  refine ⟨locked, h', simulated, hlocked, hsimulated, ?_, ?_, ?_⟩
  · rw [UInt64.le_iff_toNat_le, Arena.toNat_length (by rw [hsize]; decide), hsize]
    decide
  · rw [Arena.refuses_iff_refusal?, not_not, Arena.refusal?_eq_none_iff (by rw [hsize]; decide)]
    exact .inr ⟨hdiscipline, rfl⟩
  · rw [Arena.refuses_iff_refusal?, ne_eq, Arena.refusal?_eq_none_iff (by rw [hsize']; decide), hsize',
      hsame.discipline_eq]
    decide

end PulseWidth
