import PulseWidth.Proofs.Simulation.Calls

/-!
# What an attempt to build a chain leaves

An attempt either fails and leaves everything as it was, or writes all control blocks and no other word.  It fails if
and only if the arena is too small or the table lacks an address that the chain uses; the table may be any, and the
arena of any length and discipline, since all addresses are looked up before the first word is written.
-/

namespace PulseWidth

open Simulation (Bench)

namespace Program

/-- Words that an arena accepts are put one after the other, and nothing else on the bench changes. -/
theorem run_writes {l : ChainLayout} {writes : List (ArenaOffset × UInt32)} {b : Bench} (hfits : b.arena.Fits l)
    (haccepted : ∀ w ∈ writes, w.1.value.toNat % 4 = 0 ∧ w.1.value.toNat + 4 ≤ l.lengthBytes.toNat) :
    (each writes fun (offset, word) => write offset word).run b =
      (.ok (), { b with arena := b.arena.putAll writes }) := by
  induction writes generalizing b with
  | nil => rfl
  | cons w rest ih =>
    obtain ⟨halign, hend⟩ := haccepted w (by simp)
    have hperform : Machine.perform (.write w.1 w.2) b = (.ok (), { b with arena := b.arena.put w.1 w.2 }) := by
      show b.perform (.write w.1 w.2) = _
      simp only [Bench.perform, hfits.refusal?_eq_none halign hend]
    show (act (.write w.1 w.2) fun _ => each rest fun (offset, word) => write offset word).run b = _
    rw [run, hperform]
    exact ih ((Arena.fits_put_iff b.arena w.1 w.2 l).2 hfits) fun w' hw' => haccepted w' (by simp [hw'])

end Program

namespace Chain

variable {l : ChainLayout} {targets : ChainTargets}

/-- The program that builds a chain in an arena, or says why that cannot be. -/
def attempt (arena : Arena) (l : ChainLayout) (targets : ChainTargets) : Program (Except ChainError Chain) :=
  match build arena l targets with
  | .error reason => return .error reason
  | .ok program => do
    let c ← program
    return .ok c

/-- A chain stands in an arena that was another before: the control blocks are there, and all else is as before. -/
structure Stands (c : Chain) (l : ChainLayout) (targets : ChainTargets) (before after : Arena) : Prop where
  layout_eq : c.layout = l
  head_eq : before.table.busOf? (l.blockOffset 0) = some c.head
  discipline_eq : after.discipline = before.discipline
  table_eq : after.table = before.table
  size_eq : after.words.size = before.words.size
  /-- The words in front of the control blocks and behind them are the old ones. -/
  rest : ∀ i, 4 * i < l.blocksOffset.value.toNat ∨ l.lengthBytes.toNat ≤ 4 * i → after.words[i]? = before.words[i]?
  block : ∀ index < 2 * l.nrSamples.toNat, ∃ b, c.read after (UInt64.ofNat index) = .ok b ∧
    Serves before.table l targets index b

/-- What an attempt answers, and what becomes of the bench. -/
structure Outcome (l : ChainLayout) (targets : ChainTargets) (before : Bench) (answer : Except ChainError Chain)
    (after : Bench) : Prop where
  tooSmall_iff : ∀ length need, answer = .error (.arenaTooSmall length need) ↔
    before.arena.length < l.lengthBytes ∧ length = before.arena.length ∧ need = l.lengthBytes
  unmapped_iff : (∃ offset, answer = .error (.unmapped offset)) ↔
    l.lengthBytes ≤ before.arena.length ∧ ∃ offset, l.Uses offset ∧ before.arena.table.busOf? offset = none
  /-- The offset that is named is one of those that lack an address. -/
  unmapped_names : ∀ offset, answer = .error (.unmapped offset) →
    l.Uses offset ∧ before.arena.table.busOf? offset = none
  unchanged : ∀ reason, answer = .error reason → after = before
  stands : ∀ c, answer = .ok c → c.Stands l targets before.arena after.arena

/-- The words behind and in front of the control blocks are not written. -/
private theorem getElem?_putAll_writes {a : Arena} {blocks : List ControlBlock}
    (hlength : blocks.length = 2 * l.nrSamples.toNat) {i : Nat}
    (hi : 4 * i < l.blocksOffset.value.toNat ∨ l.lengthBytes.toNat ≤ 4 * i) :
    (a.putAll (writes l blocks)).words[i]? = a.words[i]? := by
  apply Arena.getElem?_putAll_of_ne
  intro w hmem heq
  obtain ⟨index, hindex, word, hword, -, -, -, hoffset⟩ := exists_of_mem_writes hlength hmem
  rw [hoffset, Arena.toNat_position, ChainLayout.toNat_wordOffset hindex hword] at heq
  have halign := ChainLayout.word_aligned hindex hword
  rw [ChainLayout.toNat_wordOffset hindex hword] at halign
  rw [l.toNat_lengthBytes] at hi
  omega

private theorem stands_putAll {a : Arena} {blocks : List ControlBlock} {head : BusAddress} (hfits : a.Fits l)
    (hplanned : Planned a.table l targets blocks head) :
    (Chain.mk l head).Stands l targets a (a.putAll (writes l blocks)) where
  layout_eq := rfl
  head_eq := hplanned.head_eq
  discipline_eq := a.discipline_putAll
  table_eq := a.table_putAll
  size_eq := a.size_putAll
  rest := fun _ hi => getElem?_putAll_writes hplanned.length_eq hi
  block := by
    intro index hindex
    obtain ⟨b, hblock, hb⟩ := hplanned.serves hindex
    have hholds := holds_putAll hfits hplanned.length_eq
    have hread := read_eq_ok (c := ⟨l, head⟩) rfl ((Arena.fits_putAll_iff a l).2 hfits) hplanned.length_eq hholds hblock
    exact ⟨b, hread, hb⟩

section Outcome

variable {b : Bench}

private theorem outcome_of_small (h : b.arena.length < l.lengthBytes) :
    Outcome l targets b (.error (.arenaTooSmall b.arena.length l.lengthBytes)) b where
  tooSmall_iff := by
    intro length need
    rw [Except.error.injEq, ChainError.arenaTooSmall.injEq]
    exact ⟨fun heq => ⟨h, heq.1.symm, heq.2.symm⟩, fun heq => ⟨heq.2.1.symm, heq.2.2.symm⟩⟩
  unmapped_iff := by
    refine iff_of_false ?_ fun hfits => UInt64.not_lt.2 hfits.1 h
    rintro ⟨offset, heq⟩
    cases heq
  unmapped_names := by
    intro offset heq
    cases heq
  unchanged := fun _ _ => rfl
  stands := by
    intro c heq
    cases heq

private theorem outcome_of_misses {reason : ChainError} (hfits : b.arena.Fits l)
    (h : Misses b.arena.table l reason) : Outcome l targets b (.error reason) b := by
  obtain ⟨offset, huses, hnone, rfl⟩ := h
  exact
    { tooSmall_iff := by
        intro length need
        refine iff_of_false ?_ fun hsmall => UInt64.not_lt.2 hfits hsmall.1
        intro heq
        cases heq
      unmapped_iff := iff_of_true ⟨offset, rfl⟩ ⟨hfits, offset, huses, hnone⟩
      unmapped_names := by
        intro named heq
        cases heq
        exact ⟨huses, hnone⟩
      unchanged := fun _ _ => rfl
      stands := by
        intro c heq
        cases heq }

private theorem outcome_of_planned {blocks : List ControlBlock} {head : BusAddress} {after : Bench}
    (hfits : b.arena.Fits l) (hplanned : Planned b.arena.table l targets blocks head)
    (hafter : after.arena = b.arena.putAll (writes l blocks)) :
    Outcome l targets b (.ok ⟨l, head⟩) after where
  tooSmall_iff := by
    intro length need
    refine iff_of_false ?_ fun hsmall => UInt64.not_lt.2 hfits hsmall.1
    intro heq
    cases heq
  unmapped_iff := by
    refine iff_of_false ?_ ?_
    · rintro ⟨offset, heq⟩
      cases heq
    · rintro ⟨-, offset, huses, hnone⟩
      obtain ⟨address, haddress⟩ := hplanned.translates huses
      rw [hnone] at haddress
      cases haddress
  unmapped_names := by
    intro offset heq
    cases heq
  unchanged := by
    intro reason heq
    cases heq
  stands := by
    intro c heq
    cases heq
    rw [hafter]
    exact stands_putAll hfits hplanned

end Outcome

end Chain

/-- A chain is built exactly, or nothing at all: for every arena and page table and every number of samples, an attempt
meets no fault and has the outcome that the arena and the table determine. -/
theorem chain_of_attempt {l : ChainLayout} (hn : 0 < l.nrSamples) (targets : ChainTargets) (b : Bench) :
    ∃ answer b', (Chain.attempt b.arena l targets).run b = (.ok answer, b') ∧
      Chain.Outcome l targets b answer b' := by
  cases hbuild : Chain.build b.arena l targets with
  | error reason =>
    have hrun : (Chain.attempt b.arena l targets).run b = (.ok (.error reason), b) := by
      rw [Chain.attempt, hbuild]
      rfl
    refine ⟨.error reason, b, hrun, ?_⟩
    rcases Chain.build_eq_error hn hbuild with ⟨hsmall, rfl⟩ | ⟨hfits, hmisses⟩
    · exact Chain.outcome_of_small hsmall
    · exact Chain.outcome_of_misses hfits hmisses
  | ok program =>
    obtain ⟨hfits, blocks, head, hplanned, message, rfl⟩ := Chain.build_eq_ok hbuild
    have hwritten := Program.run_writes hfits fun w => Chain.accepted_of_mem_writes hplanned.length_eq
    let after : Bench :=
      { b with
        arena := b.arena.putAll (Chain.writes l blocks)
        journal := b.journal.log ⟨.debug, "pwm_engine::descriptor", message⟩ }
    have hrun : (Chain.attempt b.arena l targets).run b = (.ok (.ok ⟨l, head⟩), after) := by
      rw [Chain.attempt, hbuild]
      simp only [bind_assoc, Program.run_bind, Chain.writeBlocks_eq_each_writes, hwritten]
      rfl
    exact ⟨.ok ⟨l, head⟩, after, hrun, Chain.outcome_of_planned hfits hplanned rfl⟩

theorem chain_of_small :
    let b := Bench.fresh (Bench.windowsOf .pcm) Arena.small
    (0 : UInt32) < 3 ∧ ∃ c b', (Chain.attempt Arena.small ⟨3⟩ (.of true .pcm)).run b = (.ok (.ok c), b') ∧
      c.Stands ⟨3⟩ (.of true .pcm) Arena.small b'.arena := by
  intro b
  obtain ⟨hfits, hcovers⟩ := Arena.small_accepted
  obtain ⟨answer, b', hrun, outcome⟩ := chain_of_attempt (l := ⟨3⟩) (by decide) (.of true .pcm) b
  refine ⟨by decide, ?_⟩
  cases answer with
  | ok c => exact ⟨c, b', hrun, outcome.stands c rfl⟩
  | error reason =>
    cases reason with
    | arenaTooSmall length need =>
      exact absurd ((outcome.tooSmall_iff length need).1 rfl).1 (UInt64.not_lt.2 hfits)
    | unmapped offset =>
      obtain ⟨huses, hnone⟩ := outcome.unmapped_names offset rfl
      obtain ⟨address, haddress⟩ := hcovers.uses huses
      have hsome : b.arena.table.busOf? offset = some address := haddress
      rw [hnone] at hsome
      cases hsome

end PulseWidth
