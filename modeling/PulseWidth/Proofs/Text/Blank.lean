import Mathlib.Data.List.DropRight
import Mathlib.Data.List.TakeWhile
import PulseWidth.Text.Basic

/-!
# Gaps and words

A text lies between two gaps.  To trim it is to take them away, so that what is left does not depend on them
(`trim_gaps`).  The words of a text are found one by one from the left: the first one stands behind a gap, and what
follows it is apart from it (`words_eq_cons_iff`).
-/

namespace PulseWidth.Text

/-- A run of blanks, which may be empty. -/
structure Gap where
  text : List Char
  blank : ∀ c ∈ text, isBlank c = true

/-- The gap that is empty. -/
def Gap.none : Gap := ⟨[], fun _ hc => absurd hc List.not_mem_nil⟩

/-- The gap of one space. -/
def Gap.space : Gap := ⟨[' '], List.forall_mem_singleton.2 rfl⟩

variable {text rest w : List Char} {ws : List (List Char)}

/-! ### Trimming -/

theorem trimStart_gap (g : Gap) (text : List Char) : trimStart (g.text ++ text) = trimStart text :=
  List.dropWhile_append_of_pos g.blank

theorem trimEnd_gap (text : List Char) (g : Gap) : trimEnd (text ++ g.text) = trimEnd text := by
  have hblank : ∀ c ∈ g.text.reverse, isBlank c = true := fun c hc => g.blank c (List.mem_reverse.1 hc)
  rw [trimEnd, List.reverse_append, List.dropWhile_append_of_pos hblank, trimEnd]

theorem trim_gaps (g : Gap) (text : List Char) (h : Gap) : trim (g.text ++ text ++ h.text) = trim text := by
  rw [trim, List.append_assoc, trimStart_gap, trimStart, List.dropWhile_append]
  split
  · rename_i hempty
    have hnone : text.dropWhile isBlank = [] := List.isEmpty_iff.1 hempty
    have hgap : h.text.dropWhile isBlank = [] := List.dropWhile_eq_nil_iff.2 h.blank
    rw [trim, trimStart, hnone, hgap]
  · rw [trimEnd_gap, trim, trimStart]

theorem trimStart_eq_gap (text : List Char) : ∃ g : Gap, text = g.text ++ trimStart text :=
  ⟨⟨text.takeWhile isBlank, fun _ => List.mem_takeWhile_imp⟩, List.takeWhile_append_dropWhile.symm⟩

theorem trimEnd_eq_gap (text : List Char) : ∃ g : Gap, text = trimEnd text ++ g.text := by
  obtain ⟨g, hg⟩ := trimStart_eq_gap text.reverse
  refine ⟨⟨g.text.reverse, fun c hc => g.blank c (List.mem_reverse.1 hc)⟩, ?_⟩
  calc text = text.reverse.reverse := text.reverse_reverse.symm
    _ = (g.text ++ trimStart text.reverse).reverse := congrArg List.reverse hg
    _ = trimEnd text ++ g.text.reverse := List.reverse_append

/-- What is trimmed off a text is a gap at either end. -/
theorem exists_gaps (text : List Char) : ∃ g h : Gap, text = g.text ++ trim text ++ h.text := by
  obtain ⟨g, hg⟩ := trimStart_eq_gap text
  obtain ⟨h, hh⟩ := trimEnd_eq_gap (trimStart text)
  exact ⟨g, h, by rw [List.append_assoc, trim, ← hh, ← hg]⟩

theorem trim_trim (text : List Char) : trim (trim text) = trim text := by
  obtain ⟨g, h, heq⟩ := exists_gaps text
  conv_rhs => rw [heq, trim_gaps]

/-- A text that is trimmed neither starts nor ends with a gap. -/
theorem gaps_eq_nil {g h : Gap} (htrim : trim (g.text ++ text ++ h.text) = g.text ++ text ++ h.text) :
    g.text = [] ∧ h.text = [] := by
  have hlength : (trim text).length ≤ text.length := by
    obtain ⟨g', h', heq⟩ := exists_gaps text
    conv_rhs => rw [heq]
    simp only [List.length_append]
    omega
  rw [← trim_gaps g text h, htrim, List.length_append, List.length_append] at hlength
  exact ⟨List.length_eq_zero_iff.1 (by omega), List.length_eq_zero_iff.1 (by omega)⟩

/-- Blanks are trimmed up to the first character that is none. -/
theorem trimStart_append_cons {c : Char} (hc : isBlank c = false) (before after : List Char) :
    trimStart (before ++ c :: after) = trimStart before ++ c :: after := by
  have hkept : (c :: after).dropWhile isBlank = c :: after := List.dropWhile_cons_of_neg (by rw [hc]; decide)
  rw [trimStart, List.dropWhile_append, hkept, trimStart]
  split
  · rename_i hnone
    rw [List.isEmpty_iff.1 hnone, List.nil_append]
  · rfl

theorem trimEnd_append_cons {c : Char} (hc : isBlank c = false) (before after : List Char) :
    trimEnd (before ++ c :: after) = before ++ c :: trimEnd after := by
  have hreverse : (before ++ c :: after).reverse = after.reverse ++ c :: before.reverse := by simp
  have hstart := trimStart_append_cons hc after.reverse before.reverse
  unfold trimStart at hstart
  rw [trimEnd, hreverse, hstart, trimEnd]
  simp

/-- What is trimmed off a text stands on either side of a character that is not blank. -/
theorem trim_append_cons {c : Char} (hc : isBlank c = false) (before after : List Char) :
    trim (before ++ c :: after) = trimStart before ++ c :: trimEnd after := by
  rw [trim, trimStart_append_cons hc, trimEnd_append_cons hc]

theorem trim_trimStart (text : List Char) : trim (trimStart text) = trim text := by
  obtain ⟨g, hg⟩ := trimStart_eq_gap text
  have hgaps := trim_gaps g (trimStart text) .none
  rw [Gap.none, List.append_nil, ← hg] at hgaps
  exact hgaps.symm

/-! ### Words -/

/-- A text that is not empty and has no blanks. -/
def IsWord (w : List Char) : Prop := w ≠ [] ∧ ∀ c ∈ w, isBlank c = false

/-- A text that may follow a word without adding to it: it is empty or starts with a blank. -/
def Apart (rest : List Char) : Prop := ∀ c ∈ rest.head?, isBlank c = true

instance (rest : List Char) : Decidable (Apart rest) :=
  decidable_of_iff (rest.head?.all isBlank = true) (Option.all_eq_true isBlank rest.head?)

theorem apart_nil : Apart [] := fun _ hc => nomatch hc

theorem apart_gap {g : Gap} (hgap : g.text ≠ []) (text : List Char) : Apart (g.text ++ text) := by
  obtain ⟨b, blanks, hblanks⟩ := List.exists_cons_of_ne_nil hgap
  have hb : isBlank b = true := g.blank b (by simp [hblanks])
  intro c hc
  rw [hblanks] at hc
  cases hc
  exact hb

/-- There is no gap in a word. -/
theorem IsWord.gap_eq_nil {g : Gap} (h : IsWord (text ++ (g.text ++ rest))) : g.text = [] := by
  refine List.eq_nil_iff_forall_not_mem.2 fun b hb => ?_
  have hsolid := h.2 b (by simp [hb])
  rw [g.blank b hb] at hsolid
  cases hsolid

/-- A text that neither starts nor ends with a blank, and is not empty. -/
structure IsSolid (text : List Char) : Prop where
  head : ∃ c, text.head? = some c ∧ isBlank c = false
  last : ∃ c, text.getLast? = some c ∧ isBlank c = false

theorem IsWord.solid (h : IsWord w) : IsSolid w := by
  obtain ⟨hne, hblank⟩ := h
  exact ⟨⟨_, List.head?_eq_some_head hne, hblank _ (List.head_mem hne)⟩,
    ⟨_, List.getLast?_eq_some_getLast hne, hblank _ (List.getLast_mem hne)⟩⟩

namespace IsSolid

theorem ne_nil (h : IsSolid text) : text ≠ [] := by
  rintro rfl
  obtain ⟨c, hc, -⟩ := h.head
  cases hc

theorem append {first last : List Char} (hfirst : IsSolid first) (middle : List Char) (hlast : IsSolid last) :
    IsSolid (first ++ middle ++ last) := by
  obtain ⟨c, hc, hcblank⟩ := hfirst.head
  obtain ⟨d, hd, hdblank⟩ := hlast.last
  refine ⟨⟨c, ?_, hcblank⟩, ⟨d, ?_, hdblank⟩⟩
  · rw [List.append_assoc, List.head?_append, hc, Option.some_or]
  · rw [List.getLast?_append, hd, Option.some_or]

theorem trim_eq (h : IsSolid text) : trim text = text := by
  obtain ⟨⟨first, hfirst, hf⟩, ⟨last, hlast, hl⟩⟩ := h
  have hstart : trimStart text = text := by
    obtain ⟨tail, rfl⟩ := List.head?_eq_some_iff.1 hfirst
    exact List.dropWhile_cons_of_neg (by rw [hf]; decide)
  have hend : trimEnd text = text := by
    obtain ⟨init, rfl⟩ := List.getLast?_eq_some_iff.1 hlast
    exact List.rdropWhile_concat_neg _ _ _ (by rw [hl]; decide)
  rw [trim, hstart, hend]

theorem trim_between (h : IsSolid text) (g g' : Gap) : trim (g.text ++ text ++ g'.text) = text := by
  rw [trim_gaps, h.trim_eq]

theorem trim_before (h : IsSolid text) (g : Gap) : trim (text ++ g.text) = text := h.trim_between .none g

theorem trim_behind (h : IsSolid text) (g : Gap) : trim (g.text ++ text) = text := by
  have htrim := h.trim_between g .none
  rwa [Gap.none, List.append_nil] at htrim

/-- Between the gaps that are trimmed off there is nothing else. -/
theorem eq_of_trim {line : List Char} (h : IsSolid text) {g g' : Gap}
    (hline : trim line = g.text ++ text ++ g'.text) : trim line = text := by
  rw [← trim_trim, hline, h.trim_between]

end IsSolid

/-- What is left of a text that is trimmed, if anything is. -/
theorem solid_trim (h : trim text ≠ []) : IsSolid (trim text) := by
  have hself := trim_trim text
  generalize trim text = t at h hself
  refine ⟨⟨t.head h, List.head?_eq_some_head h, Bool.eq_false_iff.2 fun hblank => ?_⟩,
    ⟨t.getLast h, List.getLast?_eq_some_getLast h, Bool.eq_false_iff.2 fun hblank => ?_⟩⟩
  · let g : Gap := ⟨[t.head h], List.forall_mem_singleton.2 hblank⟩
    have hsplit : g.text ++ t.tail ++ Gap.none.text = t := (List.append_nil _).trans (List.cons_head_tail h)
    exact List.cons_ne_nil _ _ (gaps_eq_nil (hsplit.symm ▸ hself)).1
  · let g : Gap := ⟨[t.getLast h], List.forall_mem_singleton.2 hblank⟩
    have hsplit : Gap.none.text ++ t.dropLast ++ g.text = t := List.dropLast_concat_getLast h
    exact List.cons_ne_nil _ _ (gaps_eq_nil (hsplit.symm ▸ hself)).2

theorem words_of_nil (h : text.dropWhile isBlank = []) : words text = [] := by
  rw [words]
  split
  · rfl
  · rename_i hsome
    rw [h] at hsome
    cases hsome

theorem words_of_cons {c : Char} (h : text.dropWhile isBlank = c :: rest) :
    words text = (c :: rest.takeWhile (!isBlank ·)) :: words (rest.dropWhile (!isBlank ·)) := by
  rw [words]
  split
  · rename_i hnone
    rw [h] at hnone
    cases hnone
  · rename_i hsome
    rw [h] at hsome
    cases hsome
    rfl

theorem words_gap (g : Gap) (text : List Char) : words (g.text ++ text) = words text := by
  have hsame : (g.text ++ text).dropWhile isBlank = text.dropWhile isBlank := trimStart_gap g text
  cases hstart : text.dropWhile isBlank with
  | nil => rw [words_of_nil hstart, words_of_nil (hsame.trans hstart)]
  | cons c rest => rw [words_of_cons hstart, words_of_cons (hsame.trans hstart)]

/-- A text without words is a gap. -/
theorem words_eq_nil_iff : words text = [] ↔ ∃ g : Gap, text = g.text := by
  constructor
  · intro h
    cases hstart : text.dropWhile isBlank with
    | nil => exact ⟨⟨text, List.dropWhile_eq_nil_iff.1 hstart⟩, rfl⟩
    | cons c rest =>
      rw [words_of_cons hstart] at h
      cases h
  · rintro ⟨g, rfl⟩
    exact words_of_nil (List.dropWhile_eq_nil_iff.2 g.blank)

/-- What has words is more than the gaps around it. -/
theorem solid_trim_of_words (h : words text ≠ []) : IsSolid (trim text) := by
  refine solid_trim fun hnil => h ?_
  obtain ⟨g, g', heq⟩ := exists_gaps text
  rw [heq, hnil, List.append_nil, words_gap]
  exact words_eq_nil_iff.2 ⟨g', rfl⟩

/-- A word to which nothing is added is the first one. -/
theorem words_append (h : IsWord w) (hrest : Apart rest) : words (w ++ rest) = w :: words rest := by
  obtain ⟨hne, hblank⟩ := h
  obtain ⟨c, w, rfl⟩ := List.exists_cons_of_ne_nil hne
  obtain ⟨hc, hw⟩ := List.forall_mem_cons.1 hblank
  have hstart : (c :: w ++ rest).dropWhile isBlank = c :: (w ++ rest) :=
    List.dropWhile_cons_of_neg (by rw [hc]; decide)
  have hsolid : ∀ d ∈ w, (!isBlank d) = true := fun d hd => by rw [hw d hd]; rfl
  have hstop : rest.takeWhile (!isBlank ·) = [] ∧ rest.dropWhile (!isBlank ·) = rest := by
    cases rest with
    | nil => exact ⟨rfl, rfl⟩
    | cons b rest =>
      have hb : isBlank b = true := hrest b rfl
      simp [hb]
  rw [words_of_cons hstart, List.takeWhile_append_of_pos hsolid, List.dropWhile_append_of_pos hsolid, hstop.1,
    hstop.2, List.append_nil]

/-- The first word of a text stands behind a gap, and what follows it is apart from it. -/
theorem words_eq_cons_iff : words text = w :: ws ↔
    ∃ (g : Gap) (rest : List Char), text = g.text ++ (w ++ rest) ∧ IsWord w ∧ Apart rest ∧ words rest = ws := by
  constructor
  · intro h
    obtain ⟨g, hg⟩ := trimStart_eq_gap text
    cases hstart : text.dropWhile isBlank with
    | nil =>
      rw [words_of_nil hstart] at h
      cases h
    | cons c tail =>
      rw [words_of_cons hstart] at h
      cases h
      have hc : isBlank c = false := by
        have hhead := List.head?_dropWhile_not isBlank text
        rw [hstart] at hhead
        exact hhead
      refine ⟨g, tail.dropWhile (!isBlank ·), ?_, ⟨List.cons_ne_nil _ _, ?_⟩, ?_, rfl⟩
      · rw [List.cons_append, List.takeWhile_append_dropWhile, ← hstart]
        exact hg
      · refine List.forall_mem_cons.2 ⟨hc, fun d hd => ?_⟩
        have hsolid := List.all_eq_true.1 List.all_takeWhile d hd
        simpa using hsolid
      · intro b hb
        have hhead := List.head?_dropWhile_not (!isBlank ·) tail
        rw [Option.mem_def.1 hb] at hhead
        simpa using hhead
  · rintro ⟨g, rest, rfl, hw, hrest, rfl⟩
    rw [words_gap, words_append hw hrest]

theorem isWord_of_mem_words (h : w ∈ words text) : IsWord w := by
  generalize hws : words text = ws at h
  induction ws generalizing text with
  | nil => cases h
  | cons v ws ih =>
    obtain ⟨g, rest, -, hv, -, hrest⟩ := words_eq_cons_iff.1 hws
    rcases List.mem_cons.1 h with rfl | hmem
    · exact hv
    · exact ih hrest hmem

/-! ### Lines of words -/

section Lines

variable {line v : List Char}

/-- A line of one word is that word, without the blanks around it. -/
theorem trim_of_words_singleton (h : words (trim line) = [w]) : trim line = w := by
  obtain ⟨g, rest, hline, hw, -, hrest⟩ := words_eq_cons_iff.1 h
  obtain ⟨g', rfl⟩ := words_eq_nil_iff.1 hrest
  rw [← List.append_assoc] at hline
  exact hw.solid.eq_of_trim hline

/-- A line of two words or more starts with them, without the blanks in front. -/
theorem trim_of_words_pair (h : words (trim line) = v :: w :: ws) :
    ∃ (g : Gap) (rest : List Char), g.text ≠ [] ∧ trim line = v ++ g.text ++ w ++ rest ∧ Apart rest := by
  obtain ⟨before, behind, hline, -, hapart, hbehind⟩ := words_eq_cons_iff.1 h
  obtain ⟨g, rest, rfl, hw, hrest, -⟩ := words_eq_cons_iff.1 hbehind
  have hnil : before.text = [] := by
    have htrim := trim_trim line
    rw [hline, ← List.append_nil (v ++ _), ← List.append_assoc] at htrim
    exact (gaps_eq_nil (h := .none) htrim).1
  refine ⟨g, rest, fun hnone => ?_, ?_, hrest⟩
  · -- otherwise the two words would be one
    obtain ⟨c, tail, rfl⟩ := List.exists_cons_of_ne_nil hw.1
    have hblank := hapart c (by rw [hnone]; rfl)
    rw [hw.2 c List.mem_cons_self] at hblank
    cases hblank
  · rw [hline, hnil, List.nil_append, List.append_assoc, List.append_assoc]

end Lines

end PulseWidth.Text
