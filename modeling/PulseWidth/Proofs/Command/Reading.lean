import PulseWidth.Proofs.Command.Grammar

/-!
# Commands are read as written

However a command is written, it is read, whatever the blanks around it and between its parts, and whatever the case
of its verb.  A text that names no pin is reported as the number that it is a numeral of, or as the largest number if
it is none; nothing else about the line is looked at before.
-/

namespace PulseWidth

open Text

variable {text : List Char}

/-! ### Pins -/

namespace Pin

/-- The plain text of a pin names it. -/
theorem named_text (p : Pin) : p.Named p.text.toList := by
  have htext := word?_toString (UInt32.ofNat p.index)
  rwa [p.toNat_ofNat_index] at htext

/-- No pin has a number that is too large. -/
theorem not_named_of_word? (h : (word? text).all (32 ≤ ·.toNat) = true) (p : Pin) : ¬ p.Named text := by
  intro hnamed
  have hlarge := of_decide_eq_true ((Option.all_eq_true _ _).1 h _ hnamed)
  have hlt := p.index.isLt
  rw [p.toNat_ofNat_index] at hlarge
  omega

/-- A text that names no pin is reported as a number. -/
theorem ofText_eq_error (h : ∀ p : Pin, ¬ p.Named (trim text)) :
    ofText text = .error (.invalidPin ((word? (trim text)).getD 4294967295)) := by
  cases hread : ofText text with
  | ok p => exact absurd (ofText_eq_ok_iff.1 hread) (h p)
  | error reason =>
    unfold ofText ofNumber at hread
    split at hread
    · rename_i n hn
      split at hread
      · cases hread
      · cases hread
        rw [hn, Option.getD_some]
    · rename_i hnone
      cases hread
      rw [hnone]
      rfl

end Pin

namespace Command

variable {c : Command}

/-! ### Answers -/

/-- The text has this answer, whatever the blanks around it. -/
def ReadAs (text : List Char) (answer : Except CommandError Command) : Prop :=
  ∀ before after : Gap, parse (before.text ++ text ++ after.text) = answer

theorem readAs_of_written (h : c.Written text) : ReadAs text (.ok c) := by
  intro before after
  apply parse_of_written
  rwa [h.solid.trim_between]

/-- In front of an equals sign there has to be a pin, whatever follows. -/
theorem readAs_of_no_pin {pin : List Char} (hpin : '=' ∉ pin) (h : ∀ p : Pin, ¬ p.Named (trim pin))
    (level : List Char) :
    ReadAs (pin ++ '=' :: level) (.error (.pin (.invalidPin ((word? (trim pin)).getD 4294967295)))) := by
  intro before after
  have hbefore : '=' ∉ trimStart pin := fun hmem => hpin ((List.dropWhile_sublist _).mem hmem)
  have hline : trim (before.text ++ (pin ++ '=' :: level) ++ after.text) = trimStart pin ++ '=' :: trimEnd level := by
    rw [trim_gaps, trim_append_cons (by decide)]
  have hrefused : Pin.ofText (trimStart pin) = .error (.invalidPin ((word? (trim pin)).getD 4294967295)) := by
    rw [Pin.ofText_eq_error (by rwa [trim_trimStart]), trim_trimStart]
  rw [parse_of_equals hline hbefore, ofAssignment, hrefused]

/-- Behind the verb to release there has to be a pin. -/
theorem readAs_of_no_pin_released {verb pin : List Char} {g : Gap} (hverb : verb.map Char.toLower = "release".toList)
    (hgap : g.text ≠ []) (hpin : IsWord pin) (hequals : '=' ∉ pin) (h : ∀ p : Pin, ¬ p.Named pin) :
    ReadAs (verb ++ g.text ++ pin) (.error (.pin (.invalidPin ((word? pin).getD 4294967295)))) := by
  intro before after
  obtain ⟨hverbword, hverbequals⟩ := isWord_of_release hverb
  have hline : trim (before.text ++ (verb ++ g.text ++ pin) ++ after.text) = verb ++ g.text ++ pin := by
    rw [(hverbword.solid.append g.text hpin.solid).trim_between]
  have hnone : '=' ∉ trim (before.text ++ (verb ++ g.text ++ pin) ++ after.text) := by
    rw [hline]
    simp [hverbequals, equals_not_mem_gap g, hequals]
  have hwords := words_release hverbword hgap hpin apart_nil
  rw [List.append_nil] at hwords
  have hrefused : Pin.ofText pin = .error (.invalidPin ((word? pin).getD 4294967295)) := by
    rw [Pin.ofText_eq_error (by rwa [hpin.solid.trim_eq]), hpin.solid.trim_eq]
  rw [parse_of_no_equals hnone, hline, hwords]
  simp only [ofWords, hverb, hrefused, if_true]

/-- Every command that is written is read, whatever the blanks around it and between its parts: a pin and a number of
slices or a fraction, neither of which can be taken for the other, the release of a pin, and the verbs in any case.
Among the numerals are the plain texts of words and pins.  If there is no pin where one has to be, the answer is the
number that stands there, or the largest number if there is none, whatever the level is. -/
theorem reading_of_lines :
    (∀ n : UInt32, word? (toString n.toNat).toList = some n) ∧ (∀ p : Pin, p.Named p.text.toList) ∧
    (∀ (p : Pin) (pin : List Char) (g₁ g₂ g₃ : Gap), p.Named pin →
      (∀ (n : UInt32) (digits : List Char), word? digits = some n →
        ReadAs (pin ++ g₁.text ++ '=' :: (g₂.text ++ (digits ++ g₃.text ++ ['s']))) (.ok (set p (.slices n)))) ∧
      (∀ (x : Float) (number : List Char), Decimal.read? number = some x → number.getLast? ≠ some 's' ∧
        ReadAs (pin ++ g₁.text ++ '=' :: (g₂.text ++ number)) (.ok (set p (.fraction x)))) ∧
      (∀ verb : List Char, verb.map Char.toLower = "release".toList → g₁.text ≠ [] →
        ReadAs (verb ++ g₁.text ++ pin) (.ok (release p)))) ∧
    (∀ found ∈ verbs, ∀ verb : List Char, verb.map Char.toLower = found.1.toList → ReadAs verb (.ok found.2)) ∧
    (∀ pin level : List Char, '=' ∉ pin → (∀ p : Pin, ¬ p.Named (trim pin)) →
      ReadAs (pin ++ '=' :: level) (.error (.pin (.invalidPin ((word? (trim pin)).getD 4294967295))))) ∧
    (∀ (verb pin : List Char) (g : Gap), verb.map Char.toLower = "release".toList → g.text ≠ [] → IsWord pin →
      '=' ∉ pin → (∀ p : Pin, ¬ p.Named pin) →
      ReadAs (verb ++ g.text ++ pin) (.error (.pin (.invalidPin ((word? pin).getD 4294967295))))) := by
  refine ⟨word?_toString, Pin.named_text, ?_, ?_, fun pin level hpin h => readAs_of_no_pin hpin h level,
    fun verb pin g hverb hgap hpin hequals h => readAs_of_no_pin_released hverb hgap hpin hequals h⟩
  · intro p pin g₁ g₂ g₃ hpin
    refine ⟨fun n digits hdigits => ?_, fun x number hnumber => ⟨?_, ?_⟩, fun verb hverb hgap => ?_⟩
    · exact readAs_of_written (.set g₁ g₂ hpin (.slices g₃ hdigits))
    · exact (Decimal.isNumeral_of_read? hnumber).getLast?_ne
    · exact readAs_of_written (.set g₁ g₂ hpin (.fraction hnumber))
    · exact readAs_of_written (.release g₁ hverb hgap hpin)
  · intro found hfound verb hverb
    exact readAs_of_written (.verb hfound hverb)

/-- Some lines that are commands and some that name no pin. -/
theorem reading_of_small :
    ReadAs "4 = 250 s".toList (.ok (set ⟨4⟩ (.slices 250))) ∧
    ReadAs "4=0.5".toList (.ok (set ⟨4⟩ (.fraction (Decimal.nearestDecimal false 5 (-1))))) ∧
    ReadAs "Release 17".toList (.ok (release ⟨17⟩)) ∧ ReadAs "STATUS".toList (.ok status) ∧
    ReadAs "40=half".toList (.error (.pin (.invalidPin 40))) ∧
    ReadAs "release x".toList (.error (.pin (.invalidPin 4294967295))) := by
  obtain ⟨hword, hnamed, hwritten, hverbs, hassigned, hreleased⟩ := reading_of_lines
  obtain ⟨hslices, hfraction, -⟩ := hwritten ⟨4⟩ "4".toList .space .space .space (hnamed ⟨4⟩)
  obtain ⟨-, hclose, -⟩ := hwritten ⟨4⟩ "4".toList .none .none .none (hnamed ⟨4⟩)
  obtain ⟨-, -, hrelease⟩ := hwritten ⟨17⟩ "17".toList .space .none .none (hnamed ⟨17⟩)
  have hhalf : Decimal.read? "0.5".toList = some (Decimal.nearestDecimal false 5 (-1)) := rfl
  have hforty : ∀ p : Pin, ¬ p.Named (trim "40".toList) := Pin.not_named_of_word? (by decide +kernel)
  have hx : ∀ p : Pin, ¬ p.Named "x".toList := Pin.not_named_of_word? (by decide +kernel)
  refine ⟨hslices 250 "250".toList (hword 250), (hclose _ "0.5".toList hhalf).2, ?_, ?_, ?_, ?_⟩
  · exact hrelease "Release".toList (by decide) (by decide)
  · exact hverbs ("status", status) (by simp [verbs]) "STATUS".toList (by decide)
  · exact hassigned "40".toList "half".toList (by decide) hforty
  · exact hreleased "release".toList "x".toList .space (by decide) (by decide)
      ⟨by decide, List.forall_mem_singleton.2 rfl⟩ (by decide) hx

end Command

end PulseWidth
