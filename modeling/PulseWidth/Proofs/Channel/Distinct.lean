import Mathlib.Data.List.Nodup
import PulseWidth.Proofs.Channel.Table

/-!
# Lists of distinct pins

The check of a list goes through it once and keeps the bits of the pins that it has met.  It finds the pin at the first
place where a pin stands again (`Pin.firstRepeated_eq_some_iff`).  The mask of distinct pins has one bit for each of
them (`Pin.cpop_maskOf`), so that there are no more than 32, and a list is refused for its length only if it names a
pin twice.  In a table of distinct pins each has one channel.
-/

namespace PulseWidth

namespace Pin

variable {pins : List Pin} {p : Pin} {seen : UInt32}

/-! ### Repetitions -/

/-- The pin stands at this place and at an earlier one. -/
def RepeatsAt (pins : List Pin) (i : Nat) (p : Pin) : Prop := pins[i]? = some p ∧ ∃ j < i, pins[j]? = some p

/-- The pin is the one at the first place where a pin stands that stands at an earlier one. -/
def FirstRepeat (pins : List Pin) (p : Pin) : Prop := ∃ i, RepeatsAt pins i p ∧ ∀ k < i, ∀ q, ¬RepeatsAt pins k q

theorem nodup_take_iff {n : Nat} : (pins.take n).Nodup ↔ ∀ k < n, ∀ q, ¬RepeatsAt pins k q := by
  rw [List.nodup_iff_getElem?_ne_getElem?]
  constructor
  · rintro h k hk q ⟨hq, j, hj, hjq⟩
    obtain ⟨hlength, -⟩ := List.getElem?_eq_some_iff.1 hq
    have hkn : k < (pins.take n).length := by
      rw [List.length_take]
      omega
    apply h j k hj hkn
    rw [List.getElem?_take_of_lt hk, List.getElem?_take_of_lt (by omega), hq, hjq]
  · intro h i j hij hj heq
    rw [List.length_take] at hj
    have hjn : j < n := by omega
    obtain ⟨q, hq⟩ : ∃ q, pins[j]? = some q := ⟨_, List.getElem?_eq_getElem (by omega)⟩
    rw [List.getElem?_take_of_lt hjn, List.getElem?_take_of_lt (by omega), hq] at heq
    exact h j hjn q ⟨hq, i, hij, heq⟩

/-- The first repetition is behind distinct pins of which it is one. -/
theorem firstRepeat_iff : FirstRepeat pins p ↔
    ∃ before after, pins = before ++ p :: after ∧ before.Nodup ∧ p ∈ before := by
  constructor
  · rintro ⟨i, ⟨hi, j, hj, hjp⟩, hfirst⟩
    obtain ⟨hlt, rfl⟩ := List.getElem?_eq_some_iff.1 hi
    refine ⟨pins.take i, pins.drop (i + 1), ?_, nodup_take_iff.2 hfirst, ?_⟩
    · rw [List.getElem_cons_drop, List.take_append_drop]
    · rw [← List.getElem?_take_of_lt hj] at hjp
      exact List.mem_of_getElem? hjp
  · rintro ⟨before, after, rfl, hnodup, hp⟩
    obtain ⟨j, hj, hjp⟩ := List.getElem_of_mem hp
    have hearlier : (before ++ p :: after)[j]? = some p := by
      rw [List.getElem?_append_left hj, List.getElem?_eq_getElem hj, hjp]
    refine ⟨before.length, ⟨by simp, j, hj, hearlier⟩, nodup_take_iff.1 ?_⟩
    rwa [List.take_left]

/-- What the check of a list finds, if the bits of some pins have been met already. -/
theorem firstRepeated_eq_some_iff : firstRepeated seen pins = some p ↔
    ∃ before after, pins = before ++ p :: after ∧ before.Nodup ∧ (∀ q ∈ before, q.isIn seen = false) ∧
      (p.isIn seen = true ∨ p ∈ before) := by
  induction pins generalizing seen with
  | nil => simp [firstRepeated]
  | cons q rest ih =>
    rw [firstRepeated]
    by_cases hq : q.isIn seen = false
    · -- the first pin is new and joins those that have been met
      rw [if_neg (not_not_intro ((and_mask_eq_zero_iff seen q).2 hq)), ih]
      simp only [isIn_or, isIn_mask, Bool.or_eq_false_iff, Bool.or_eq_true, decide_eq_false_iff_not, decide_eq_true_eq]
      constructor
      · rintro ⟨before, after, rfl, hnodup, hnew, hp⟩
        refine ⟨q :: before, after, rfl, ?_, ?_, ?_⟩
        · exact List.nodup_cons.2 ⟨fun hm => (hnew q hm).2 rfl, hnodup⟩
        · exact List.forall_mem_cons.2 ⟨hq, fun r hr => (hnew r hr).1⟩
        · rcases hp with (hp | rfl) | hp
          · exact .inl hp
          · exact .inr List.mem_cons_self
          · exact .inr (List.mem_cons_of_mem q hp)
      · rintro ⟨before, after, hsplit, hnodup, hnew, hp⟩
        cases before with
        | nil =>
          -- a pin that has not been met is no repetition
          obtain ⟨rfl, rfl⟩ := List.cons.inj hsplit
          simp [hq] at hp
        | cons r before =>
          obtain ⟨rfl, rfl⟩ := List.cons.inj hsplit
          obtain ⟨hm, hnodup⟩ := List.nodup_cons.1 hnodup
          refine ⟨before, after, rfl, hnodup, ?_, ?_⟩
          · intro r hr
            exact ⟨hnew r (List.mem_cons_of_mem _ hr), fun heq => hm (heq ▸ hr)⟩
          · rcases hp with hp | hp
            · exact .inl (.inl hp)
            · rcases List.mem_cons.1 hp with rfl | hp
              · exact .inl (.inr rfl)
              · exact .inr hp
    · rw [if_pos fun h => hq ((and_mask_eq_zero_iff seen q).1 h)]
      constructor
      · intro h
        cases h
        exact ⟨[], rest, rfl, List.nodup_nil, by simp, .inl (by simpa using hq)⟩
      · rintro ⟨before, after, hsplit, -, hnew, -⟩
        cases before with
        | nil =>
          obtain ⟨rfl, -⟩ := List.cons.inj hsplit
          rfl
        | cons r before =>
          obtain ⟨rfl, -⟩ := List.cons.inj hsplit
          exact absurd (hnew q List.mem_cons_self) hq

theorem isIn_zero (p : Pin) : p.isIn 0 = false := Nat.zero_testBit _

theorem firstRepeated_zero_iff : firstRepeated 0 pins = some p ↔ FirstRepeat pins p := by
  rw [firstRepeated_eq_some_iff, firstRepeat_iff]
  simp only [isIn_zero, implies_true, true_and, Bool.false_eq_true, false_or]

theorem firstRepeated_zero_eq_none_iff : firstRepeated 0 pins = none ↔ pins.Nodup := by
  rw [firstRepeated_eq_none_iff]
  simp only [isIn_zero, implies_true, and_true]

/-! ### The mask of distinct pins -/

theorem cpopNatRec_eq_countP (x : BitVec 32) (n : Nat) :
    x.cpopNatRec n 0 = (List.range n).countP fun bit => x.getLsbD bit := by
  induction n with
  | zero => rfl
  | succ n ih =>
    rw [BitVec.cpopNatRec_succ, BitVec.cpopNatRec_add, ih, List.range_succ, List.countP_append]
    cases h : x.getLsbD n <;> simp [h]

/-- The mask of distinct pins has as many bits as there are pins. -/
theorem cpop_maskOf (h : pins.Nodup) : (maskOf pins).toBitVec.cpop.toNat = pins.length := by
  have hindices : (pins.map fun p => p.index.val).Nodup :=
    h.map fun p q => Pin.ext_index
  have hbits : ((List.range 32).filter fun bit => (maskOf pins).toBitVec.getLsbD bit).Perm
      (pins.map fun p => p.index.val) := by
    rw [List.perm_ext_iff_of_nodup (List.nodup_range.filter _) hindices]
    intro bit
    have hbit : (maskOf pins).toBitVec.getLsbD bit = true ↔ ∃ p ∈ pins, p.index.val = bit := testBit_maskOf pins bit
    rw [List.mem_filter, List.mem_range, hbit, List.mem_map]
    constructor
    · exact fun hm => hm.2
    · rintro ⟨p, hp, rfl⟩
      exact ⟨p.index.isLt, p, hp, rfl⟩
  rw [BitVec.toNat_cpop, cpopNatRec_eq_countP, List.countP_eq_length_filter, hbits.length_eq, List.length_map]

/-- There are no more distinct pins than bits. -/
theorem length_le_of_nodup (h : pins.Nodup) : pins.length ≤ maxPins := by
  rw [← cpop_maskOf h]
  exact BitVec.toNat_cpop_le _

/-! ### The check -/

theorem check_eq_noPins_iff : check pins = .error .noPins ↔ pins = [] := by
  unfold check
  split
  · rename_i hempty
    simpa using hempty
  · rename_i hempty
    have hne : pins ≠ [] := by simpa using hempty
    split
    · simp [hne]
    · split <;> simp [hne]

theorem check_eq_tooMany_iff {count : Nat} :
    check pins = .error (.tooMany count) ↔ maxPins < pins.length ∧ count = pins.length := by
  unfold check
  split
  · rename_i hempty
    simp [List.isEmpty_iff.1 hempty]
  · split
    · rename_i hmany
      simp [hmany, eq_comm]
    · rename_i hfew
      split <;> simp [hfew]

theorem check_eq_duplicate_iff :
    check pins = .error (.duplicate p) ↔ pins.length ≤ maxPins ∧ FirstRepeat pins p := by
  rw [← firstRepeated_zero_iff]
  unfold check
  split
  · rename_i hempty
    simp [List.isEmpty_iff.1 hempty, firstRepeated]
  · split
    · rename_i hmany
      simp [Nat.not_le.2 hmany]
    · rename_i hfew
      split
      · rename_i hfirst
        simp [hfirst, Nat.le_of_not_lt hfew]
      · rename_i hnone
        simp [hnone]

theorem check_eq_ok_iff : check pins = .ok () ↔ pins ≠ [] ∧ pins.Nodup := by
  constructor
  · exact fun h => ⟨ne_nil_of_check h, nodup_of_check h⟩
  · rintro ⟨hne, hnodup⟩
    have hempty : ¬pins.isEmpty = true := by simpa using hne
    have hfew : ¬maxPins < pins.length := Nat.not_lt.2 (length_le_of_nodup hnodup)
    rw [check, if_neg hempty, if_neg hfew, firstRepeated_zero_eq_none_iff.2 hnodup]

theorem exists_firstRepeat_iff : (∃ p, FirstRepeat pins p) ↔ ¬pins.Nodup := by
  rw [← firstRepeated_zero_eq_none_iff, ← ne_eq, Option.ne_none_iff_exists']
  simp only [firstRepeated_zero_iff]

end Pin

/-! ### Tables -/

namespace ChannelTable

variable {pins : List Pin} {n : UInt32} {t : ChannelTable}

/-- A table is made of the lists that can be configured, and refused for the same reasons as these. -/
theorem ofPins_eq_error_iff {reason : PinListError} :
    ofPins pins n = .error reason ↔ Pin.check pins = .error reason := by
  unfold ofPins
  cases Pin.check pins <;> simp

theorem exists_ofPins_iff : (∃ t, ofPins pins n = .ok t) ↔ pins ≠ [] ∧ pins.Nodup := by
  rw [← Pin.check_eq_ok_iff]
  unfold ofPins
  cases Pin.check pins <;> simp

/-- The channel of a pin of a lawful table stands at one place, and is found there. -/
theorem Lawful.found (h : t.Lawful pins n) {p : Pin} (hp : p ∈ pins) :
    ∃ i c, t.channels.findIdx? (fun c => c.pin == p) = some i ∧ t.channels[i]? = some c ∧ c.pin = p ∧
      t.get? p = some c ∧ ∀ j b, t.channels[j]? = some b → b.pin = p → j = i := by
  have hnodup : (t.channels.map (·.pin)).Nodup := h.pins_eq ▸ h.nodup
  obtain ⟨c, hget⟩ := Option.isSome_iff_exists.1 ((h.get?_isSome_iff p).2 hp)
  obtain ⟨hc, hpin⟩ := (h.get?_eq_some_iff p c).1 hget
  obtain ⟨i, hi, hic⟩ := List.getElem_of_mem hc
  have hone : ∀ j b, t.channels[j]? = some b → b.pin = p → j = i := by
    intro j b hj hb
    obtain ⟨hjlt, rfl⟩ := List.getElem?_eq_some_iff.1 hj
    apply (List.getElem?_inj (by simpa) hnodup).1
    simp [hi, hjlt, hic, hpin, hb]
  refine ⟨i, c, ?_, ?_, hpin, hget, hone⟩
  · rw [List.findIdx?_eq_some_iff_getElem]
    refine ⟨hi, by simp [hic, hpin], ?_⟩
    intro j hj hb
    have hji := hone j _ (List.getElem?_eq_getElem (by omega)) (by simpa using hb)
    omega
  · rw [List.getElem?_eq_getElem hi, hic]

theorem Lawful.cpop_pinMask (h : t.Lawful pins n) : t.pinMask.toBitVec.cpop.toNat = t.channels.length := by
  have hnodup : (t.channels.map (·.pin)).Nodup := h.pins_eq ▸ h.nodup
  rw [pinMask, Pin.cpop_maskOf hnodup, List.length_map]

end ChannelTable

/-- The check of a list says which of four it is: empty, too long, with a repetition, of which the first is reported, or
a list of distinct pins, which is never too long.  It decides alone whether a table is made of the list, and in such a
table each pin has one channel, which is the one that is found, and one bit of the mask. -/
theorem distinct_of_check (pins : List Pin) :
    (Pin.check pins = .error .noPins ↔ pins = []) ∧
      (∀ count, Pin.check pins = .error (.tooMany count) ↔ 32 < pins.length ∧ count = pins.length) ∧
      (∀ p, Pin.check pins = .error (.duplicate p) ↔ pins.length ≤ 32 ∧ Pin.FirstRepeat pins p) ∧
      ((∃ p, Pin.check pins = .error (.duplicate p)) ↔ pins.length ≤ 32 ∧ ¬pins.Nodup) ∧
      (Pin.check pins = .ok () ↔ pins ≠ [] ∧ pins.Nodup) ∧
      ∀ n,
        (∀ reason, ChannelTable.ofPins pins n = .error reason ↔ Pin.check pins = .error reason) ∧
        ((∃ t, ChannelTable.ofPins pins n = .ok t) ↔ pins ≠ [] ∧ pins.Nodup) ∧
        ∀ t, ChannelTable.ofPins pins n = .ok t →
          t.channels.map (·.pin) = pins ∧
          (∀ p ∈ pins, ∃ i c, t.channels.findIdx? (fun c => c.pin == p) = some i ∧ t.channels[i]? = some c ∧
            c.pin = p ∧ t.get? p = some c ∧ ∀ j b, t.channels[j]? = some b → b.pin = p → j = i) ∧
          t.pinMask.toBitVec.cpop.toNat = t.channels.length := by
  refine ⟨Pin.check_eq_noPins_iff, fun count => Pin.check_eq_tooMany_iff, fun p => Pin.check_eq_duplicate_iff, ?_,
    Pin.check_eq_ok_iff, fun n => ⟨fun reason => ChannelTable.ofPins_eq_error_iff, ChannelTable.exists_ofPins_iff, ?_⟩⟩
  · simp only [Pin.check_eq_duplicate_iff, exists_and_left, Pin.exists_firstRepeat_iff]
    rfl
  · intro t ht
    have hlawful := ChannelTable.ofPins_lawful ht
    exact ⟨hlawful.pins_eq, fun p hp => hlawful.found hp, hlawful.cpop_pinMask⟩

/-- A pin that stands first and last is reported, the one between is not; without the last the table has two bits. -/
theorem distinct_of_three :
    Pin.check [⟨17⟩, ⟨4⟩, ⟨17⟩] = .error (.duplicate ⟨17⟩) ∧
      ∃ t, ChannelTable.ofPins [⟨17⟩, ⟨4⟩] 10 = .ok t ∧ (⟨4⟩ : Pin) ∈ [(⟨17⟩ : Pin), ⟨4⟩] ∧
        t.channels.findIdx? (fun c => c.pin == ⟨4⟩) = some 1 ∧ t.pinMask.toBitVec.cpop.toNat = 2 := by
  obtain ⟨-, -, hduplicate, -⟩ := distinct_of_check [⟨17⟩, ⟨4⟩, ⟨17⟩]
  obtain ⟨-, -, -, -, -, htables⟩ := distinct_of_check [⟨17⟩, ⟨4⟩]
  obtain ⟨-, hmade, htable⟩ := htables 10
  have hfirst : Pin.FirstRepeat [⟨17⟩, ⟨4⟩, ⟨17⟩] ⟨17⟩ := by
    refine ⟨2, ⟨rfl, 0, by decide, rfl⟩, ?_⟩
    rintro k hk q ⟨hq, j, hj, hjq⟩
    -- in front of the last place stand two different pins
    obtain rfl : k = 1 := by omega
    obtain rfl : j = 0 := by omega
    rw [← hq] at hjq
    exact absurd hjq (by decide)
  obtain ⟨t, ht⟩ := hmade.2 ⟨by simp, by decide⟩
  obtain ⟨-, hfound, hbits⟩ := htable t ht
  have hmem : (⟨4⟩ : Pin) ∈ [(⟨17⟩ : Pin), ⟨4⟩] := by decide
  obtain ⟨i, c, hi, -, -, -, hone⟩ := hfound ⟨4⟩ hmem
  cases ht
  have hplace : 1 = i := hone 1 _ rfl rfl
  exact ⟨(hduplicate ⟨17⟩).2 ⟨by decide, hfirst⟩, _, rfl, hmem, hplace ▸ hi, hbits⟩

end PulseWidth
