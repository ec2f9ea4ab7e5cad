import PulseWidth.Command.Basic
import PulseWidth.Proofs.Text.Numeral

/-!
# The grammar of commands

A line is a command if, without the blanks around it, it is written as one (`Command.Written`).  A line with anything
else in it is none, with one exception: what follows the pin to be released, apart from it, is not looked at
(`Command.parse_eq_ok_iff`).
-/

namespace PulseWidth

open Text

variable {text rest : List Char}

/-! ### Pins -/

/-- The text is a numeral of the pin. -/
def Pin.Named (p : Pin) (text : List Char) : Prop := word? text = some (UInt32.ofNat p.index)

namespace Pin

variable {p : Pin}

theorem Named.isNumeral (h : p.Named text) : IsNumeral text := isNumeral_of_word? h

theorem Named.isWord (h : p.Named text) : IsWord text := h.isNumeral.isWord

theorem toNat_ofNat_index (p : Pin) : (UInt32.ofNat p.index).toNat = p.index :=
  UInt32.toNat_ofNat_of_lt' (by rw [UInt32.size]; omega)

/-- The numbers below 32 are those of the pins. -/
theorem ofNumber_eq_ok_iff {n : UInt32} : ofNumber n = .ok p ↔ n = UInt32.ofNat p.index := by
  unfold ofNumber ofNat?
  split
  · rename_i found hfound
    split at hfound
    · rename_i hlt
      cases hfound
      rw [Except.ok.injEq, ← UInt32.toNat_inj, p.toNat_ofNat_index, Pin.mk.injEq, Fin.ext_iff]
    · cases hfound
  · rename_i hnone
    refine ⟨fun h => (by cases h), ?_⟩
    rintro rfl
    have hlt := p.index.isLt
    rw [p.toNat_ofNat_index, dif_pos hlt] at hnone
    cases hnone

theorem ofText_eq_ok_iff : ofText text = .ok p ↔ p.Named (trim text) := by
  unfold ofText Named
  split
  · rename_i n hn
    rw [ofNumber_eq_ok_iff, hn, Option.some_inj]
  · rename_i hnone
    rw [hnone]
    exact ⟨fun h => (by cases h), fun h => (by cases h)⟩

end Pin

/-! ### Levels -/

/-- A level is the numeral of a fraction, or the numeral of a number of slices and an `s`. -/
inductive DutyLevel.Written : DutyLevel → List Char → Prop
  | fraction {x : Float} {text : List Char} (h : Decimal.read? text = some x) : Written (.fraction x) text
  | slices {n : UInt32} {digits : List Char} (g : Gap) (h : word? digits = some n) :
    Written (.slices n) (digits ++ g.text ++ ['s'])

namespace DutyLevel

variable {l : DutyLevel}

theorem Written.solid (h : l.Written text) : IsSolid text := by
  cases h with
  | fraction h => exact (Decimal.isNumeral_of_read? h).isWord.solid
  | slices g h =>
    have hs : IsWord ['s'] := ⟨by decide, List.forall_mem_singleton.2 rfl⟩
    exact (isNumeral_of_word? h).isWord.solid.append g.text hs.solid

theorem ofText?_of_written (h : l.Written text) : ofText? text = some l := by
  cases h with
  | fraction h => rw [ofText?, if_neg (Decimal.isNumeral_of_read? h).getLast?_ne, h, Option.map_some]
  | @slices n digits g h =>
    have hdigits : trim (digits ++ g.text) = digits := (isNumeral_of_word? h).isWord.solid.trim_before g
    rw [ofText?, if_pos List.getLast?_concat, List.dropLast_concat, hdigits, h, Option.map_some]

/-- A text without blanks at its ends is a level if it is written as one. -/
theorem ofText?_eq_some_iff (htrim : trim text = text) : ofText? text = some l ↔ l.Written text := by
  refine ⟨fun h => ?_, ofText?_of_written⟩
  unfold ofText? at h
  split at h
  · rename_i hlast
    obtain ⟨init, rfl⟩ := List.getLast?_eq_some_iff.1 hlast
    rw [List.dropLast_concat] at h
    obtain ⟨n, hn, rfl⟩ := Option.map_eq_some_iff.1 h
    obtain ⟨g, after, hinit⟩ := exists_gaps init
    have htext : init ++ ['s'] = g.text ++ (trim init ++ after.text ++ ['s']) ++ Gap.none.text := by
      conv_lhs => rw [hinit]
      simp only [Gap.none, List.append_assoc, List.append_nil]
    have hnil : g.text = [] := (gaps_eq_nil (htext ▸ htrim)).1
    rw [htext, hnil, Gap.none, List.append_nil]
    exact .slices after hn
  · obtain ⟨x, hx, rfl⟩ := Option.map_eq_some_iff.1 h
    exact .fraction hx

/-- No level goes on behind a gap as a writing of itself. -/
theorem Written.not_append {g : Gap} (h : l.Written text) (hgap : g.text ≠ []) (hrest : IsSolid rest) :
    ¬ l.Written (text ++ (g.text ++ rest)) := by
  generalize hlonger : text ++ (g.text ++ rest) = longer
  intro hwritten
  cases h with
  | fraction h =>
    cases hwritten with
    | fraction h' =>
      have hword := (Decimal.isNumeral_of_read? h').isWord
      rw [← hlonger] at hword
      exact hgap hword.gap_eq_nil
  | slices before h =>
    cases hwritten with
    | @slices _ digits after h' =>
      -- the `s` of the shorter text stands in front of that of the longer one
      obtain ⟨last, hlast, -⟩ := hrest.last
      obtain ⟨init, rfl⟩ := List.getLast?_eq_some_iff.1 hlast
      rw [← List.append_assoc g.text, ← List.append_assoc] at hlonger
      have hs : 's' ∈ digits ++ after.text := by
        rw [← (List.append_singleton_inj.1 hlonger).1]
        simp
      rcases List.mem_append.1 hs with hs | hs
      · exact (isNumeral_of_word? h').s_not_mem hs
      · exact absurd (after.blank _ hs) (by decide)

end DutyLevel

/-! ### Commands -/

namespace Command

variable {c : Command} {line : List Char}

/-- The commands of a single word. -/
def verbs : List (String × Command) :=
  [("stop", stop), ("start", start), ("status", status), ("quit", quit), ("exit", quit)]

/-- The ways to write a command, the blanks around it left aside. -/
inductive Written : Command → List Char → Prop
  | set {p : Pin} {l : DutyLevel} {pin level : List Char} (before after : Gap) (hpin : p.Named pin)
    (hlevel : l.Written level) : Written (set p l) (pin ++ before.text ++ '=' :: (after.text ++ level))
  | release {p : Pin} {verb pin : List Char} (g : Gap) (hverb : verb.map Char.toLower = "release".toList)
    (hgap : g.text ≠ []) (hpin : p.Named pin) : Written (release p) (verb ++ g.text ++ pin)
  | verb {c : Command} {name : String} {text : List Char} (hname : (name, c) ∈ verbs)
    (htext : text.map Char.toLower = name.toList) : Written c text

theorem ofVerb?_eq_some_iff {verb : List Char} :
    ofVerb? verb = some c ↔ ∃ name, (name, c) ∈ verbs ∧ verb = name.toList := by
  constructor
  · intro h
    refine ⟨String.ofList verb, ?_, String.toList_ofList.symm⟩
    unfold ofVerb? at h
    split at h
    all_goals cases h
    all_goals
      rename_i hverb
      rw [hverb]
      simp [verbs]
  · rintro ⟨name, hname, rfl⟩
    rw [ofVerb?, String.ofList_toList]
    simp only [verbs, List.mem_cons, Prod.mk.injEq, List.not_mem_nil, or_false] at hname
    obtain ⟨rfl, rfl⟩ | ⟨rfl, rfl⟩ | ⟨rfl, rfl⟩ | ⟨rfl, rfl⟩ | ⟨rfl, rfl⟩ := hname <;> rfl

/-- The characters of the words that commands are written with. -/
def verbLetters : List Char := "aeiopqrstuxl".toList

theorem isWord_of_verb {name : String} (htext : text.map Char.toLower = name.toList) (hne : name.toList ≠ [])
    (hletters : name.toList ⊆ verbLetters) : IsWord text ∧ '=' ∉ text := by
  have hspelled : Spelled verbLetters text := spelled_of_map_toLower htext hletters
  refine ⟨hspelled.isWord (fun hnil => hne ?_) (by decide), hspelled.not_mem rfl (by decide)⟩
  rw [← htext, hnil, List.map_nil]

theorem isWord_of_mem_verbs {name : String} (hname : (name, c) ∈ verbs)
    (htext : text.map Char.toLower = name.toList) : IsWord text ∧ '=' ∉ text := by
  have hall : ∀ found ∈ verbs, found.1.toList ≠ [] ∧ found.1.toList ⊆ verbLetters := by decide
  obtain ⟨hne, hletters⟩ := hall _ hname
  exact isWord_of_verb htext hne hletters

theorem isWord_of_release (htext : text.map Char.toLower = "release".toList) : IsWord text ∧ '=' ∉ text :=
  isWord_of_verb htext (by decide) (by decide)

/-! ### Where a line is taken apart -/

theorem equals_not_mem_gap (g : Gap) : '=' ∉ g.text := by
  intro hmem
  have hblank := g.blank '=' hmem
  revert hblank
  decide

/-- A line with an equals sign is taken apart at the first one. -/
theorem parse_of_equals {before after : List Char} (htrim : trim line = before ++ '=' :: after)
    (hbefore : '=' ∉ before) : parse line = ofAssignment before after := by
  have hother : ∀ d ∈ before, (d != '=') = true := fun d hd => bne_iff_ne.2 fun heq => hbefore (heq ▸ hd)
  have htake : (before ++ '=' :: after).takeWhile (· != '=') = before := by
    rw [List.takeWhile_append_of_pos hother, List.takeWhile_cons_of_neg (by decide), List.append_nil]
  have hdrop : (before ++ '=' :: after).dropWhile (· != '=') = '=' :: after := by
    rw [List.dropWhile_append_of_pos hother, List.dropWhile_cons_of_neg (by decide)]
  have hcontains : (before ++ '=' :: after).contains '=' = true := by simp
  unfold parse
  simp only [htrim, hcontains, htake, hdrop, if_true, List.drop_succ_cons, List.drop_zero]

/-- A line without an equals sign is taken apart into its words. -/
theorem parse_of_no_equals (h : '=' ∉ trim line) : parse line = ofWords (trim line) (words (trim line)) := by
  have hcontains : (trim line).contains '=' = false := by simpa using h
  unfold parse
  simp only [hcontains, Bool.false_eq_true, if_false]

theorem equals_not_mem_pin {p : Pin} {pin : List Char} (h : p.Named pin) (g : Gap) : '=' ∉ pin ++ g.text := by
  simp [h.isNumeral.equals_not_mem, equals_not_mem_gap g]

theorem ofAssignment_eq_ok_iff {before after : List Char} : ofAssignment before after = .ok c ↔
    ∃ p l, c = set p l ∧ p.Named (trim before) ∧ l.Written (trim after) := by
  unfold ofAssignment
  constructor
  · intro h
    split at h
    · cases h
    · rename_i p hpin
      split at h
      · rename_i l hlevel
        cases h
        exact ⟨p, l, rfl, Pin.ofText_eq_ok_iff.1 hpin, (DutyLevel.ofText?_eq_some_iff (trim_trim after)).1 hlevel⟩
      · cases h
  · rintro ⟨p, l, rfl, hpin, hlevel⟩
    simp only [Pin.ofText_eq_ok_iff.2 hpin, DutyLevel.ofText?_of_written hlevel]

theorem ofWords_eq_ok_iff {ws : List (List Char)} (hwords : ∀ w ∈ ws, IsWord w) : ofWords line ws = .ok c ↔
    (∃ verb name, ws = [verb] ∧ (name, c) ∈ verbs ∧ verb.map Char.toLower = name.toList) ∨
    ∃ verb pin more p, ws = verb :: pin :: more ∧ verb.map Char.toLower = "release".toList ∧ p.Named pin ∧
      c = release p := by
  have hpin : ∀ {verb pin more p}, ws = verb :: pin :: more → (Pin.ofText pin = .ok p ↔ p.Named pin) := by
    intro verb pin more p hws
    have hword : IsWord pin := hwords pin (by simp [hws])
    rw [Pin.ofText_eq_ok_iff, hword.solid.trim_eq]
  constructor
  · intro h
    unfold ofWords at h
    split at h
    · cases h
    · rename_i verb rest
      dsimp only at h
      split at h
      · split at h
        · rename_i found hfound
          cases h
          obtain ⟨name, hname, hverb⟩ := ofVerb?_eq_some_iff.1 hfound
          exact .inl ⟨verb, name, rfl, hname, hverb⟩
        · cases h
      · rename_i pin more
        split at h
        · rename_i hverb
          split at h
          · rename_i p hp
            cases h
            exact .inr ⟨verb, pin, more, p, rfl, hverb, (hpin rfl).1 hp, rfl⟩
          · cases h
        · cases h
  · rintro (⟨verb, name, rfl, hname, hverb⟩ | ⟨verb, pin, more, p, rfl, hverb, hp, rfl⟩)
    · have hfound : ofVerb? (verb.map Char.toLower) = some c := ofVerb?_eq_some_iff.2 ⟨name, hname, hverb⟩
      simp only [ofWords, hfound]
    · simp only [ofWords, hverb, (hpin rfl).2 hp, if_true]

/-! ### Reading -/

theorem Written.solid (h : c.Written text) : IsSolid text := by
  cases h with
  | @set p l pin level before after hpin hlevel =>
    have hsplit : pin ++ before.text ++ '=' :: (after.text ++ level) =
        pin ++ (before.text ++ '=' :: after.text) ++ level := by simp
    rw [hsplit]
    exact hpin.isWord.solid.append _ hlevel.solid
  | release g hverb _ hpin => exact (isWord_of_release hverb).1.solid.append g.text hpin.isWord.solid
  | verb hname htext => exact (isWord_of_mem_verbs hname htext).1.solid

/-- The words of a release, and those of what follows it. -/
theorem words_release {verb pin : List Char} (hverb : IsWord verb) {g : Gap} (hgap : g.text ≠ []) (hpin : IsWord pin)
    (hrest : Apart rest) : words (verb ++ g.text ++ pin ++ rest) = verb :: pin :: words rest := by
  rw [List.append_assoc, List.append_assoc, words_append hverb (apart_gap hgap _), words_gap, words_append hpin hrest]

/-- What is read of a line with an equals sign is written. -/
theorem written_of_equals (hequals : '=' ∈ trim line) (h : parse line = .ok c) : c.Written (trim line) := by
  obtain ⟨before, after, hsplit, hbefore⟩ := List.eq_append_cons_of_mem hequals
  rw [parse_of_equals hsplit hbefore] at h
  obtain ⟨p, l, rfl, hpin, hlevel⟩ := ofAssignment_eq_ok_iff.1 h
  obtain ⟨g₁, g₂, hg⟩ := exists_gaps before
  obtain ⟨g₃, g₄, hg'⟩ := exists_gaps after
  have hwritten := Written.set g₂ g₃ hpin hlevel
  have hline : trim line = g₁.text ++ (trim before ++ g₂.text ++ '=' :: (g₃.text ++ trim after)) ++ g₄.text := by
    rw [hsplit]
    conv_lhs => rw [hg, hg']
    simp only [List.append_assoc, List.cons_append]
  rwa [hwritten.solid.eq_of_trim hline]

/-- What is read is written. -/
theorem written_of_parse (h : parse line = .ok c) : c.Written (trim line) ∨
    ∃ p text rest, c = release p ∧ trim line = text ++ rest ∧ rest ≠ [] ∧ Apart rest ∧ '=' ∉ rest ∧ c.Written text := by
  by_cases hequals : '=' ∈ trim line
  · exact .inl (written_of_equals hequals h)
  rw [parse_of_no_equals hequals] at h
  rcases (ofWords_eq_ok_iff fun _ => isWord_of_mem_words).1 h with
    ⟨verb, name, hwords, hname, hverb⟩ | ⟨verb, pin, more, p, hwords, hverb, hpin, rfl⟩
  · left
    rw [trim_of_words_singleton hwords]
    exact .verb hname hverb
  · obtain ⟨g, rest, hgap, hline, hapart⟩ := trim_of_words_pair hwords
    have hwritten := Written.release g hverb hgap hpin
    by_cases hmore : rest = []
    · left
      rwa [hline, hmore, List.append_nil]
    · refine .inr ⟨p, _, rest, rfl, hline, hmore, hapart, fun hmem => hequals ?_, hwritten⟩
      rw [hline]
      exact List.mem_append_right _ hmem

theorem equals_not_mem_release {p : Pin} (h : (release p).Written text) : '=' ∉ text := by
  cases h with
  | release g hverb _ hpin =>
    simp [(isWord_of_release hverb).2, equals_not_mem_gap g, hpin.isNumeral.equals_not_mem]
  | verb hname htext => exact (isWord_of_mem_verbs hname htext).2

/-- What is written is read, and what follows a pin to be released is not looked at. -/
theorem parse_of_release {p : Pin} (hline : trim line = text ++ rest) (h : (release p).Written text)
    (hapart : Apart rest) (hrest : '=' ∉ rest) : parse line = .ok (release p) := by
  have hequals : '=' ∉ trim line := by
    simp [hline, equals_not_mem_release h, hrest]
  rw [parse_of_no_equals hequals, ofWords_eq_ok_iff fun _ => isWord_of_mem_words, hline]
  cases h with
  | release g hverb hgap hpin =>
    have hwords := words_release (isWord_of_release hverb).1 hgap hpin.isWord hapart
    exact .inr ⟨_, _, _, p, hwords, hverb, hpin, rfl⟩
  | verb hname _ => simp [verbs] at hname

theorem parse_of_written (h : c.Written (trim line)) : parse line = .ok c := by
  generalize htext : trim line = text at h
  cases h with
  | @set p l pin level before after hpin hlevel =>
    rw [parse_of_equals htext (equals_not_mem_pin hpin before), ofAssignment_eq_ok_iff]
    refine ⟨p, l, rfl, ?_, ?_⟩
    · rwa [hpin.isWord.solid.trim_before]
    · rwa [hlevel.solid.trim_behind]
  | release g hverb hgap hpin =>
    have hline := htext.trans (List.append_nil _).symm
    exact parse_of_release hline (.release g hverb hgap hpin) apart_nil List.not_mem_nil
  | verb hname hlower =>
    obtain ⟨hword, hequals⟩ := isWord_of_mem_verbs hname hlower
    have hwords : words text = [text] := by
      have hnone : words [] = [] := words_of_nil rfl
      have hone := words_append hword apart_nil
      rwa [List.append_nil, hnone] at hone
    rw [parse_of_no_equals (htext ▸ hequals), ofWords_eq_ok_iff fun _ => isWord_of_mem_words, htext, hwords]
    exact .inl ⟨text, _, rfl, hname, hlower⟩

/-! ### Further words -/

theorem equals_not_mem_of_parse {p : Pin} (h : parse line = .ok (release p)) : '=' ∉ trim line := by
  rcases written_of_parse h with hwritten | ⟨_, text, rest, -, hline, -, -, hrest, hwritten⟩
  · exact equals_not_mem_release hwritten
  · simp [hline, equals_not_mem_release hwritten, hrest]

/-- Only a release is understood as before when there are further words behind it. -/
theorem release_of_parse_append {g : Gap} (h : c.Written text) (hgap : g.text ≠ []) (hrest : IsSolid rest)
    (hline : trim line = text ++ (g.text ++ rest)) (hparse : parse line = .ok c) : ∃ p, c = release p := by
  cases h with
  | @set p l pin level before after hpin hlevel =>
    have hsplit : trim line = pin ++ before.text ++ '=' :: (after.text ++ (level ++ (g.text ++ rest))) := by
      rw [hline, List.append_assoc (pin ++ before.text), List.cons_append, List.append_assoc after.text]
    rw [parse_of_equals hsplit (equals_not_mem_pin hpin before)] at hparse
    obtain ⟨_, _, hc, -, hlonger⟩ := ofAssignment_eq_ok_iff.1 hparse
    cases hc
    have hsolid : IsSolid (level ++ (g.text ++ rest)) := by
      rw [← List.append_assoc]
      exact hlevel.solid.append g.text hrest
    rw [hsolid.trim_behind] at hlonger
    exact absurd hlonger (hlevel.not_append hgap hrest)
  | release => exact ⟨_, rfl⟩
  | verb hname _ =>
    rcases written_of_parse hparse with hwritten | ⟨p, _, _, hc, -⟩
    · rw [hline] at hwritten
      generalize hlonger : text ++ (g.text ++ rest) = longer at hwritten
      cases hwritten with
      | set | release => simp [verbs] at hname
      | verb hname' htext' =>
        have hword := (isWord_of_mem_verbs hname' htext').1
        rw [← hlonger] at hword
        exact absurd hword.gap_eq_nil hgap
    · exact ⟨p, hc⟩

theorem parse_eq_ok_iff : parse line = .ok c ↔ c.Written (trim line) ∨
    ∃ p text rest, c = release p ∧ trim line = text ++ rest ∧ rest ≠ [] ∧ Apart rest ∧ '=' ∉ rest ∧ c.Written text := by
  refine ⟨written_of_parse, ?_⟩
  rintro (hwritten | ⟨p, text, rest, rfl, hline, -, hapart, hrest, hwritten⟩)
  · exact parse_of_written hwritten
  · exact parse_of_release hline hwritten hapart hrest

/-- Further words behind a complete command. -/
theorem parse_append_eq_ok_iff (hwritten : c.Written text) (hapart : Apart rest) (hwords : words rest ≠ []) :
    parse (text ++ rest) = .ok c ↔ (∃ p, c = release p) ∧ '=' ∉ rest := by
  have hsolid := solid_trim_of_words hwords
  obtain ⟨g, g', hrest⟩ := exists_gaps rest
  have hgap : g.text ≠ [] := by
    intro hnil
    obtain ⟨b, hb, hblank⟩ := hsolid.head
    have hhead : rest.head? = some b := by
      rw [hrest, hnil, List.nil_append, List.head?_append, hb, Option.some_or]
    rw [hapart b hhead] at hblank
    cases hblank
  have hline : trim (text ++ rest) = text ++ (g.text ++ trim rest) := by
    have hlonger : IsSolid (text ++ g.text ++ trim rest) := hwritten.solid.append g.text hsolid
    calc trim (text ++ rest) = trim (text ++ g.text ++ trim rest ++ g'.text) := by
          conv_lhs => rw [hrest]
          simp only [List.append_assoc]
      _ = text ++ g.text ++ trim rest := hlonger.trim_before g'
      _ = text ++ (g.text ++ trim rest) := List.append_assoc _ _ _
  have hequals : '=' ∈ rest ↔ '=' ∈ g.text ++ trim rest := by
    conv_lhs => rw [hrest]
    simp [equals_not_mem_gap g']
  rw [hequals]
  constructor
  · intro hparse
    obtain ⟨p, rfl⟩ := release_of_parse_append hwritten hgap hsolid hline hparse
    refine ⟨⟨p, rfl⟩, fun hmem => equals_not_mem_of_parse hparse ?_⟩
    rw [hline]
    exact List.mem_append_right _ hmem
  · rintro ⟨⟨p, rfl⟩, hnone⟩
    exact parse_of_release hline hwritten (apart_gap hgap _) hnone

/-- A line is read as a command exactly if, without the blanks around it, it is written as this command and nothing
else, or if it starts with a release; what follows the pin to be released is not looked at, as long as it is apart and
has no equals sign.  So if there are further words behind a complete command, the line is read as this command exactly
if it is such a release. -/
theorem grammar_of_parse (line : List Char) (c : Command) :
    (parse line = .ok c ↔ c.Written (trim line) ∨
      ∃ p text rest, c = release p ∧ trim line = text ++ rest ∧ rest ≠ [] ∧ Apart rest ∧ '=' ∉ rest ∧
        c.Written text) ∧
    ((∀ p, c ≠ release p) → (parse line = .ok c ↔ c.Written (trim line))) ∧
    ∀ text rest, line = text ++ rest → c.Written text → Apart rest → words rest ≠ [] →
      (parse line = .ok c ↔ (∃ p, c = release p) ∧ '=' ∉ rest) := by
  refine ⟨parse_eq_ok_iff, fun hother => parse_eq_ok_iff.trans (or_iff_left ?_), ?_⟩
  · rintro ⟨p, -, -, hp, -⟩
    exact hother p hp
  · rintro text rest rfl hwritten hapart hwords
    exact parse_append_eq_ok_iff hwritten hapart hwords

private theorem written_release : (release ⟨17⟩).Written "release 17".toList := by
  have hverb : "release".toList.map Char.toLower = "release".toList := by decide
  have hpin : Pin.Named ⟨17⟩ "17".toList := rfl
  exact .release .space hverb (by decide) hpin

/-- A further word spoils a stop, but not a release. -/
theorem grammar_of_further_word : Written stop "Stop".toList ∧ (release ⟨17⟩).Written "release 17".toList ∧
    Apart " now".toList ∧ words " now".toList ≠ [] ∧ parse "Stop".toList = .ok stop ∧
    parse "Stop now".toList ≠ .ok stop ∧
    parse "release 17 now".toList = .ok (release ⟨17⟩) := by
  have hname : ("stop", stop) ∈ verbs := List.mem_cons_self
  have hstop : Written stop "Stop".toList := .verb hname (by decide)
  have hapart : Apart " now".toList := by decide
  have hwords : words " now".toList ≠ [] := by decide +kernel
  obtain ⟨-, hother, -⟩ := grammar_of_parse "Stop".toList stop
  obtain ⟨-, -, hspoiled⟩ := grammar_of_parse "Stop now".toList stop
  obtain ⟨-, -, hfurther⟩ := grammar_of_parse "release 17 now".toList (release ⟨17⟩)
  refine ⟨hstop, written_release, hapart, hwords, ?_, fun hparse => ?_, ?_⟩
  · exact (hother (by nofun)).2 (by rwa [hstop.solid.trim_eq])
  · obtain ⟨⟨p, hp⟩, -⟩ := (hspoiled "Stop".toList " now".toList (by decide) hstop hapart hwords).1 hparse
    cases hp
  · exact (hfurther _ _ (by decide) written_release hapart hwords).2 ⟨⟨_, rfl⟩, by decide⟩

/-- A line that is read although no command is written so. -/
theorem word_behind_release : parse "release 17 now".toList = .ok (release ⟨17⟩) ∧
    ∀ c : Command, ¬ c.Written (trim "release 17 now".toList) := by
  have hline : trim "release 17 now".toList = "release 17".toList ++ " now".toList := by decide
  have hparse := parse_of_release hline written_release (by decide) (by decide)
  refine ⟨hparse, fun c hwritten => ?_⟩
  have hthree : words (trim "release 17 now".toList) = ["release".toList, "17".toList, "now".toList] := by
    decide +kernel
  have hc := (parse_of_written hwritten).symm.trans hparse
  cases hc
  generalize trim "release 17 now".toList = text at hthree hwritten
  cases hwritten with
  | release g hverb hgap hpin =>
    have htwo := words_release (isWord_of_release hverb).1 hgap hpin.isWord apart_nil
    rw [List.append_nil, hthree, words_of_nil rfl] at htwo
    cases htwo
  | verb hname _ => simp [verbs] at hname

end Command

end PulseWidth
