import PulseWidth.Decimal.Reader
import PulseWidth.Proofs.Text.Blank

/-!
# The characters of numerals

A word is read back from its plain decimal text (`word?_toString`).  The numerals of words and of doubles are made of
few characters (`isNumeral_of_word?`, `isNumeral_of_read?`).  No blank, no equals sign and no `s` is among them, so that
a numeral can be told apart from what stands around it.
-/

namespace PulseWidth

namespace Text

variable {text : List Char} {c : Char}

/-! ### Natural numbers -/

theorem isDigit_iff : c.isDigit = true ↔ '0' ≤ c ∧ c ≤ '9' := by
  simp [Char.isDigit, Char.le_def]

theorem digit?_eq_some_iff {d : Nat} : digit? c = some d ↔ c.isDigit = true ∧ c.toNat - '0'.toNat = d := by
  rw [digit?, isDigit_iff]
  split
  · rename_i hrange
    simp [hrange]
  · rename_i hrange
    simp [hrange]

theorem isDigit_of_digits? {acc n : Nat} (h : digits? acc text = some n) : ∀ c ∈ text, c.isDigit = true := by
  induction text generalizing acc with
  | nil => exact fun c hc => absurd hc List.not_mem_nil
  | cons c rest ih =>
    rw [digits?] at h
    obtain ⟨d, hd, hrest⟩ := Option.bind_eq_some_iff.1 h
    exact List.forall_mem_cons.2 ⟨(digit?_eq_some_iff.1 hd).1, ih hrest⟩

/-- A run of digits has the value that it is the positional text of. -/
theorem digits?_eq_some (acc : Nat) (h : ∀ c ∈ text, c.isDigit = true) :
    digits? acc text = some (Nat.ofDigitChars 10 text acc) := by
  induction text generalizing acc with
  | nil => rfl
  | cons c rest ih =>
    obtain ⟨hc, hrest⟩ := List.forall_mem_cons.1 h
    rw [digits?, digit?_eq_some_iff.2 ⟨hc, rfl⟩, Option.bind_some, ih _ hrest, Nat.ofDigitChars_cons]

theorem natural?_toDigits {n max : Nat} (h : n ≤ max) : natural? max (Nat.toDigits 10 n) = some n := by
  have hdigits : ∀ c ∈ Nat.toDigits 10 n, c.isDigit = true :=
    fun c hc => Nat.isDigit_of_mem_toDigits (by decide) (by decide) hc
  have hvalue := digits?_eq_some 0 hdigits
  rw [Nat.ofDigitChars_ten_toDigits] at hvalue
  obtain ⟨c, rest, htext⟩ := List.exists_cons_of_ne_nil (Nat.toDigits_ne_nil (n := n) (b := 10))
  rw [htext] at hdigits hvalue ⊢
  have hplus : c ≠ '+' := by
    rintro rfl
    exact absurd (hdigits '+' List.mem_cons_self) (by decide)
  simp [natural?, hplus, hvalue, h]

/-- A word is read back from its plain text. -/
theorem word?_toString (n : UInt32) : word? (toString n.toNat).toList = some n := by
  have hmax : n.toNat ≤ UInt32.size - 1 := Nat.le_sub_one_of_lt n.toNat_lt
  have htext : (toString n.toNat).toList = Nat.toDigits 10 n.toNat := Nat.toList_repr
  rw [word?, htext, natural?_toDigits hmax, Option.map_some, UInt32.ofNat_toNat]

/-- The numeral of a natural number is a run of digits, at least one, behind an optional plus sign. -/
theorem run_of_natural? {n max : Nat} (h : natural? max text = some n) :
    ∃ run : List Char, (text = run ∨ text = '+' :: run) ∧ run ≠ [] ∧ ∀ c ∈ run, c.isDigit = true := by
  have hread : ∀ run : List Char, (if run.isEmpty then none else (digits? 0 run).filter (· ≤ max)) = some n →
      run ≠ [] ∧ ∀ c ∈ run, c.isDigit = true := by
    intro run hrun
    split at hrun
    · cases hrun
    · rename_i hempty
      exact ⟨fun hnil => hempty (by rw [hnil]; rfl), isDigit_of_digits? (Option.filter_eq_some_iff.1 hrun).1⟩
  unfold natural? at h
  split at h
  · rename_i rest
    exact ⟨rest, .inr rfl, hread rest h⟩
  · exact ⟨text, .inl rfl, hread text h⟩

/-! ### Letter case -/

theorem isBlank_iff : isBlank c = true ↔ (9 ≤ c.toNat ∧ c.toNat ≤ 13) ∨ c.toNat = 32 ∨ c.toNat = 133 ∨ c.toNat = 160 ∨
    c.toNat = 5760 ∨ (8192 ≤ c.toNat ∧ c.toNat ≤ 8202) ∨ (8232 ≤ c.toNat ∧ c.toNat ≤ 8233) ∨ c.toNat = 8239 ∨
    c.toNat = 8287 ∨ c.toNat = 12288 := by
  simp only [isBlank, blankRanges, List.any_cons, List.any_nil, Bool.or_false, Bool.or_eq_true, Bool.and_eq_true,
    decide_eq_true_eq]
  omega

/-- Only letters have a lower case of their own. -/
theorem toLower_eq_self (h : ¬ (65 ≤ c.toNat ∧ c.toNat ≤ 90)) : c.toLower = c := dif_neg h

theorem toLower_of_isBlank (h : isBlank c = true) : c.toLower = c := by
  have := isBlank_iff.1 h
  exact toLower_eq_self (by omega)

/-- The characters of a text are some of these, whatever their case. -/
def Spelled (letters text : List Char) : Prop := ∀ c ∈ text, c.toLower ∈ letters

theorem Spelled.append {letters first second : List Char} (h₁ : Spelled letters first)
    (h₂ : Spelled letters second) : Spelled letters (first ++ second) :=
  List.forall_mem_append.2 ⟨h₁, h₂⟩

theorem Spelled.cons {letters : List Char} (hc : c.toLower ∈ letters) (h : Spelled letters text) :
    Spelled letters (c :: text) :=
  List.forall_mem_cons.2 ⟨hc, h⟩

theorem spelled_of_map_toLower {letters lower : List Char} (h : text.map Char.toLower = lower)
    (hletters : lower ⊆ letters) : Spelled letters text := by
  intro c hc
  exact hletters (h ▸ List.mem_map_of_mem hc)

/-- A character that is its own lower case is not in a text unless it is one of the letters. -/
theorem Spelled.not_mem {letters : List Char} (h : Spelled letters text) (hc : c.toLower = c)
    (hletters : c ∉ letters) : c ∉ text :=
  fun hmem => hletters (hc ▸ h c hmem)

theorem Spelled.isWord {letters : List Char} (h : Spelled letters text) (hne : text ≠ [])
    (hletters : letters.any isBlank = false) : IsWord text := by
  refine ⟨hne, fun c hc => ?_⟩
  cases hblank : isBlank c with
  | false => rfl
  | true =>
    have hletter := List.any_eq_false.1 hletters _ (h c hc)
    rw [toLower_of_isBlank hblank] at hletter
    exact absurd hblank hletter

/-! ### Numerals -/

/-- The characters of numerals. -/
def numeralLetters : List Char := "+-.0123456789aefinty".toList

/-- A text that is not empty and is made of the characters of numerals. -/
structure IsNumeral (text : List Char) : Prop where
  ne_nil : text ≠ []
  spelled : Spelled numeralLetters text

namespace IsNumeral

theorem isWord (h : IsNumeral text) : IsWord text := h.spelled.isWord h.ne_nil (by decide)

theorem equals_not_mem (h : IsNumeral text) : '=' ∉ text := h.spelled.not_mem rfl (by decide)

theorem s_not_mem (h : IsNumeral text) : 's' ∉ text := h.spelled.not_mem rfl (by decide)

theorem getLast?_ne (h : IsNumeral text) : text.getLast? ≠ some 's' :=
  fun hlast => h.s_not_mem (List.mem_of_getLast? hlast)

end IsNumeral

theorem spelled_of_isDigit (h : ∀ c ∈ text, c.isDigit = true) : Spelled numeralLetters text := by
  have hdigits : ∀ k < 58, 48 ≤ k → (Char.ofNat k).toLower ∈ numeralLetters := by decide
  intro c hc
  obtain ⟨hlow, hhigh⟩ := isDigit_iff.1 (h c hc)
  rw [← Char.ofNat_toNat c]
  exact hdigits c.toNat (Nat.lt_succ_of_le hhigh) hlow

theorem isNumeral_of_word? {n : UInt32} (h : word? text = some n) : IsNumeral text := by
  obtain ⟨k, hk, -⟩ := Option.map_eq_some_iff.1 h
  obtain ⟨run, htext, hne, hdigits⟩ := run_of_natural? hk
  have hrun := spelled_of_isDigit hdigits
  rcases htext with rfl | rfl
  · exact ⟨hne, hrun⟩
  · exact ⟨List.cons_ne_nil _ _, hrun.cons (by decide)⟩

end Text

namespace Decimal

open Text

variable {text : List Char}

theorem spelled_of_all_isDigit (h : ∀ c ∈ text, isDigit c = true) : Spelled numeralLetters text := by
  refine spelled_of_isDigit fun c hc => ?_
  obtain ⟨d, hd⟩ := Option.isSome_iff_exists.1 (h c hc)
  exact (digit?_eq_some_iff.1 hd).1

/-- A sign is split off, or there is none. -/
theorem splitSign_cases (text : List Char) :
    (∃ sign ∈ ['+', '-'], text = sign :: (splitSign text).2) ∨ text = (splitSign text).2 := by
  unfold splitSign
  split
  · exact .inl ⟨'-', by simp, rfl⟩
  · exact .inl ⟨'+', by simp, rfl⟩
  · exact .inr rfl

theorem spelled_of_splitSign (h : Spelled numeralLetters (splitSign text).2) : Spelled numeralLetters text := by
  rcases splitSign_cases text with ⟨sign, hsign, htext⟩ | htext
  · have hletter : ['+', '-'].map Char.toLower ⊆ numeralLetters := by decide
    rw [htext]
    exact h.cons (hletter (List.mem_map_of_mem hsign))
  · rw [htext]
    exact h

theorem spelled_of_exponent? {e : Int} (h : exponent? text = some e) : Spelled numeralLetters text := by
  cases text with
  | nil => exact fun c hc => absurd hc List.not_mem_nil
  | cons mark rest =>
    rw [exponent?] at h
    split at h
    · rename_i hmark
      have hrest : Spelled numeralLetters rest := by
        apply spelled_of_splitSign
        generalize splitSign rest = split at h ⊢
        obtain ⟨negative, run⟩ := split
        dsimp only at h ⊢
        split at h
        · cases h
        · rename_i hrun
          exact spelled_of_all_isDigit (by simpa using (not_or.1 hrun).2)
      refine hrest.cons ?_
      rcases hmark with rfl | rfl <;> decide
    · cases h

/-- A number without a sign is digits with a point among or around them, or without one, and then an exponent. -/
theorem isNumeral_of_parts? {found : List Char × List Char × Int} (h : parts? text = some found) :
    IsNumeral text := by
  have hdigits : ∀ run : List Char, Spelled numeralLetters (run.takeWhile isDigit) :=
    fun run => spelled_of_all_isDigit fun c hc => List.all_eq_true.1 List.all_takeWhile c hc
  have hsplit : ∀ run : List Char, run = run.takeWhile isDigit ++ run.dropWhile isDigit :=
    fun _ => List.takeWhile_append_dropWhile.symm
  have hread : ∀ fraction after : List Char,
      (if (text.takeWhile isDigit).isEmpty = true ∧ fraction.isEmpty = true then none
        else (exponent? after).map fun e => (text.takeWhile isDigit, fraction, e)) = some found →
      Spelled numeralLetters after ∧ ¬ (text.takeWhile isDigit = [] ∧ fraction = []) := by
    intro fraction after hfound
    split at hfound
    · cases hfound
    · rename_i hsome
      obtain ⟨e, he, -⟩ := Option.map_eq_some_iff.1 hfound
      exact ⟨spelled_of_exponent? he, by simpa using hsome⟩
  unfold parts? at h
  dsimp only at h
  split at h
  · rename_i rest hpoint
    obtain ⟨hexponent, -⟩ := hread _ _ h
    have hrest := (hdigits rest).append hexponent
    rw [← hsplit rest] at hrest
    rw [hsplit text, hpoint]
    exact ⟨by simp, (hdigits text).append (hrest.cons (by decide))⟩
  · obtain ⟨hexponent, hsome⟩ := hread _ _ h
    refine ⟨fun hnil => hsome ⟨by rw [hnil]; rfl, rfl⟩, ?_⟩
    rw [hsplit text]
    exact (hdigits text).append hexponent

theorem isNumeral_of_read? {x : Float} (h : read? text = some x) : IsNumeral text := by
  have hbody : IsNumeral (splitSign text).2 := by
    have hnamed : ∀ name ∈ ["nan".toList, "inf".toList, "infinity".toList],
        (splitSign text).2.map Char.toLower = name → IsNumeral (splitSign text).2 := by
      have hletters : ∀ name ∈ ["nan".toList, "inf".toList, "infinity".toList],
          name ≠ [] ∧ name ⊆ numeralLetters := by decide
      intro name hname hmap
      obtain ⟨hne, hletters⟩ := hletters name hname
      refine ⟨fun hnil => hne ?_, spelled_of_map_toLower hmap hletters⟩
      rw [← hmap, hnil, List.map_nil]
    unfold read? at h
    dsimp only at h
    split at h
    · rename_i hnan
      exact hnamed _ (by simp) hnan
    · split at h
      · rename_i hinf
        rcases hinf with hinf | hinf
        · exact hnamed _ (by simp) hinf
        · exact hnamed _ (by simp) hinf
      · obtain ⟨found, hfound, -⟩ := Option.map_eq_some_iff.1 h
        exact isNumeral_of_parts? hfound
  refine ⟨fun hnil => hbody.ne_nil ?_, spelled_of_splitSign hbody.spelled⟩
  rw [hnil]
  rfl

end Decimal

end PulseWidth
