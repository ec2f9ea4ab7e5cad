import PulseWidth.Proofs.Word

/-!
# Channel tables and their sample words

A table that comes from a configuration has one channel per pin, and no request adds or removes one: every request
that is carried out changes some channels in place.  `Lawful` says what all tables have in common, and is kept by
all operations.  The word of a slot has the bit of a pin exactly when the pin's channel acts in that slot.
-/

namespace PulseWidth

/-! ### Lists of pins that can be configured -/

theorem and_mask_eq_zero_iff (word : UInt32) (p : Pin) : word &&& p.mask = 0 ↔ p.isIn word = false := by
  constructor
  · intro h
    have hbit : (word &&& p.mask).toNat.testBit p.index.val = false := by
      rw [h]
      exact Nat.zero_testBit _
    rw [UInt32.toNat_and, Nat.testBit_and, testBit_mask, decide_eq_true rfl, Bool.and_true] at hbit
    exact hbit
  · intro h
    rw [← UInt32.toNat_inj]
    apply Nat.eq_of_testBit_eq
    intro b
    rw [UInt32.toNat_and, Nat.testBit_and, testBit_mask]
    by_cases hb : p.index.val = b
    · subst hb
      rw [show word.toNat.testBit p.index.val = false from h]
      simp
    · simp [hb]

/-- Distinct pins that are not yet seen are the lists without a repetition. -/
theorem firstRepeated_eq_none_iff (seen : UInt32) (pins : List Pin) :
    Pin.firstRepeated seen pins = none ↔ pins.Nodup ∧ ∀ p ∈ pins, p.isIn seen = false := by
  induction pins generalizing seen with
  | nil => simp [Pin.firstRepeated]
  | cons p rest ih =>
    rw [Pin.firstRepeated, List.nodup_cons]
    by_cases hp : p.isIn seen = false
    · rw [if_neg (not_not_intro ((and_mask_eq_zero_iff seen p).2 hp)), ih]
      simp only [isIn_or, isIn_mask, Bool.or_eq_false_iff, decide_eq_false_iff_not, List.mem_cons, forall_eq_or_imp]
      constructor
      · rintro ⟨hnd, hrest⟩
        exact ⟨⟨fun hm => (hrest p hm).2 rfl, hnd⟩, hp, fun q hq => (hrest q hq).1⟩
      · rintro ⟨⟨hm, hnd⟩, -, hrest⟩
        exact ⟨hnd, fun q hq => ⟨hrest q hq, fun h => hm (h ▸ hq)⟩⟩
    · rw [if_pos (fun h => hp ((and_mask_eq_zero_iff seen p).1 h))]
      simp [hp]

theorem nodup_of_check {pins : List Pin} (h : Pin.check pins = .ok ()) : pins.Nodup := by
  unfold Pin.check at h
  split at h
  · cases h
  · split at h
    · cases h
    · split at h
      · cases h
      · rename_i hnone
        exact ((firstRepeated_eq_none_iff 0 pins).1 hnone).1

theorem ne_nil_of_check {pins : List Pin} (h : Pin.check pins = .ok ()) : pins ≠ [] := by
  rintro rfl
  cases h

/-! ### Tables -/

/-- What all tables of an engine with the given pins and `n` slices have in common. -/
structure ChannelTable.Lawful (pins : List Pin) (n : UInt32) (t : ChannelTable) : Prop where
  nrSamples_eq : t.nrSamples = n
  pins_eq : t.channels.map (·.pin) = pins
  nodup : pins.Nodup
  duty_le : ∀ c ∈ t.channels, c.duty ≤ n
  duty_of_disabled : ∀ c ∈ t.channels, c.enabled = false → c.duty = 0

namespace ChannelTable

variable {pins : List Pin} {n : UInt32} {t t' : ChannelTable}

/-- A change of each channel that leaves the pins keeps a table lawful if the new channels are. -/
theorem Lawful.map (h : t.Lawful pins n) (f : Channel → Channel) (hpin : ∀ c, (f c).pin = c.pin)
    (hduty : ∀ c ∈ t.channels, (f c).duty ≤ n ∧ ((f c).enabled = false → (f c).duty = 0)) :
    Lawful pins n { t with channels := t.channels.map f } where
  nrSamples_eq := h.nrSamples_eq
  pins_eq := by
    rw [← h.pins_eq, List.map_map]
    exact List.map_congr_left fun c _ => hpin c
  nodup := h.nodup
  duty_le := by
    intro c hc
    obtain ⟨b, hb, rfl⟩ := List.mem_map.1 hc
    exact (hduty b hb).1
  duty_of_disabled := by
    intro c hc
    obtain ⟨b, hb, rfl⟩ := List.mem_map.1 hc
    exact (hduty b hb).2

theorem get?_map (t : ChannelTable) (f : Channel → Channel) (hpin : ∀ c, (f c).pin = c.pin) (p : Pin) :
    get? { t with channels := t.channels.map f } p = (t.get? p).map f := by
  simp only [get?, List.find?_map]
  congr 2
  funext c
  simp [hpin]

theorem channels_ofPins (h : ofPins pins n = .ok t) : t.channels = pins.map .silent := by
  unfold ofPins at h
  split at h
  · cases h
  · cases h
    rfl

theorem ofPins_lawful (h : ofPins pins n = .ok t) : t.Lawful pins n := by
  unfold ofPins at h
  split at h
  · cases h
  · rename_i hcheck
    cases h
    exact
      { nrSamples_eq := rfl
        pins_eq := by simp [Channel.silent, Function.comp_def]
        nodup := nodup_of_check hcheck
        duty_le := by
          intro c hc
          obtain ⟨p, -, rfl⟩ := List.mem_map.1 hc
          exact UInt32.zero_le
        duty_of_disabled := by
          intro c hc _
          obtain ⟨p, -, rfl⟩ := List.mem_map.1 hc
          rfl }

/-- The table after `setMany`, and why it was not refused. -/
theorem setMany_eq_ok {ps : List Pin} {duty : UInt32} (h : t.setMany ps duty = .ok t') :
    (∀ p ∈ ps, duty ≤ t.nrSamples ∧ (t.get? p).isSome) ∧
      t' = { t with channels := t.channels.map fun c => if ps.contains c.pin then .driving c.pin duty else c } := by
  unfold setMany at h
  split at h
  · cases h
  · rename_i hnone
    cases h
    refine ⟨?_, rfl⟩
    intro p hp
    have := List.findSome?_eq_none_iff.1 hnone p hp
    simp only [refusal?] at this
    split at this
    · cases this
    · rename_i hle
      split at this
      · cases this
      · rename_i hknown
        exact ⟨UInt32.not_lt.1 hle, by simpa [Option.isSome_iff_ne_none] using hknown⟩

theorem setMany_lawful (h : t.Lawful pins n) {ps : List Pin} {duty : UInt32} (hok : t.setMany ps duty = .ok t') :
    t'.Lawful pins n := by
  obtain ⟨hps, rfl⟩ := setMany_eq_ok hok
  refine h.map _ ?_ ?_
  · intro c
    split <;> rfl
  · intro c hc
    split
    · rename_i hmem
      have hle := (hps c.pin (List.contains_iff_mem.1 hmem)).1
      rw [h.nrSamples_eq] at hle
      exact ⟨hle, fun hen => by cases hen⟩
    · exact ⟨h.duty_le c hc, h.duty_of_disabled c hc⟩

theorem get?_setMany {ps : List Pin} {duty : UInt32} (h : t.setMany ps duty = .ok t') (p : Pin) :
    t'.get? p = (t.get? p).map fun c => if p ∈ ps then .driving p duty else c := by
  obtain ⟨-, rfl⟩ := setMany_eq_ok h
  rw [get?_map]
  · cases hc : t.get? p with
    | none => rfl
    | some c =>
      have : c.pin = p := by simpa using List.find?_some hc
      subst this
      simp
  · intro c
    split <;> rfl

/-- The table after `release`, and why it was not refused. -/
theorem release_eq_ok {p : Pin} (h : t.release p = .ok t') :
    (t.get? p).isSome ∧ t' = { t with channels := t.channels.map fun c => if c.pin = p then .silent p else c } := by
  unfold release at h
  split at h
  · cases h
  · rename_i hknown
    cases h
    exact ⟨by simpa [Option.isSome_iff_ne_none] using hknown, rfl⟩

theorem release_lawful (h : t.Lawful pins n) {p : Pin} (hok : t.release p = .ok t') : t'.Lawful pins n := by
  obtain ⟨-, rfl⟩ := release_eq_ok hok
  refine h.map _ ?_ ?_
  · intro c
    split
    · rename_i hc
      exact hc.symm
    · rfl
  · intro c hc
    split
    · exact ⟨UInt32.zero_le, fun _ => rfl⟩
    · exact ⟨h.duty_le c hc, h.duty_of_disabled c hc⟩

theorem get?_release {p : Pin} (h : t.release p = .ok t') (q : Pin) :
    t'.get? q = (t.get? q).map fun c => if q = p then .silent p else c := by
  obtain ⟨-, rfl⟩ := release_eq_ok h
  rw [get?_map]
  · cases hc : t.get? q with
    | none => rfl
    | some c =>
      have : c.pin = q := by simpa using List.find?_some hc
      subst this
      rfl
  · intro c
    split
    · rename_i hc
      exact hc.symm
    · rfl

theorem silence_lawful (h : t.Lawful pins n) : t.silence.Lawful pins n :=
  h.map _ (fun _ => rfl) fun _ _ => ⟨UInt32.zero_le, fun _ => rfl⟩

theorem get?_silence (t : ChannelTable) (p : Pin) : t.silence.get? p = (t.get? p).map fun c => .silent c.pin :=
  get?_map t (fun c => .silent c.pin) (fun _ => rfl) p

/-- The pins of a lawful table are those for which it has a channel. -/
theorem Lawful.get?_isSome_iff (h : t.Lawful pins n) (p : Pin) : (t.get? p).isSome ↔ p ∈ pins := by
  rw [← h.pins_eq, get?, List.find?_isSome]
  simp

/-- A lawful table has at most one channel for each pin. -/
theorem Lawful.get?_eq_some_iff (h : t.Lawful pins n) (p : Pin) (c : Channel) :
    t.get? p = some c ↔ c ∈ t.channels ∧ c.pin = p := by
  constructor
  · intro hc
    exact ⟨List.mem_of_find?_eq_some hc, by simpa using List.find?_some hc⟩
  · rintro ⟨hc, rfl⟩
    have hnd : (t.channels.map (·.pin)).Nodup := h.pins_eq ▸ h.nodup
    have hsome : (t.get? c.pin).isSome := (h.get?_isSome_iff c.pin).2 (h.pins_eq ▸ List.mem_map_of_mem hc)
    obtain ⟨b, hb⟩ := Option.isSome_iff_exists.1 hsome
    have hbin : b ∈ t.channels := List.mem_of_find?_eq_some hb
    have hbpin : b.pin = c.pin := by simpa using List.find?_some hb
    -- the pins are distinct, so that the channel that is found stands where `c` does
    obtain ⟨i, hi, rfl⟩ := List.getElem_of_mem hbin
    obtain ⟨j, hj, rfl⟩ := List.getElem_of_mem hc
    have hij : i = j := (List.getElem?_inj (by simpa) hnd).1 (by simpa [hi, hj] using hbpin)
    subst hij
    exact hb

end ChannelTable

/-! ### Sample words -/

/-- A word has the bits of the channels that act in its slot. -/
theorem testBit_slotMask (channels : List Channel) (slot : UInt32) (b : Nat) :
    (slotMask channels slot).toNat.testBit b = true ↔
      ∃ c ∈ channels, c.pin.index.val = b ∧ c.acts slot = true := by
  rw [slotMask, testBit_maskOf]
  simp only [List.mem_map, List.mem_filter]
  constructor
  · rintro ⟨p, ⟨c, ⟨hc, hacts⟩, rfl⟩, hb⟩
    exact ⟨c, hc, hb, hacts⟩
  · rintro ⟨c, hc, hb, hacts⟩
    exact ⟨c.pin, ⟨c, ⟨hc, hacts⟩, rfl⟩, hb⟩

theorem isIn_slotMask (p : Pin) (channels : List Channel) (slot : UInt32) :
    p.isIn (slotMask channels slot) = true ↔ ∃ c ∈ channels, c.pin = p ∧ c.acts slot = true := by
  rw [Pin.isIn, testBit_slotMask]
  constructor
  · rintro ⟨c, hc, hb, hacts⟩
    exact ⟨c, hc, Pin.ext_index hb, hacts⟩
  · rintro ⟨c, hc, rfl, hacts⟩
    exact ⟨c, hc, rfl, hacts⟩

/-- The bit of a pin in the word of a slot is decided by the pin's own channel. -/
theorem ChannelTable.Lawful.isIn_slotMask_eq {pins : List Pin} {n : UInt32} {t : ChannelTable} (h : t.Lawful pins n)
    {p : Pin} {c : Channel} (hc : t.get? p = some c) (slot : UInt32) :
    p.isIn (slotMask t.channels slot) = c.acts slot := by
  rw [Bool.eq_iff_iff, isIn_slotMask]
  constructor
  · rintro ⟨b, hb, hpin, hacts⟩
    have := (h.get?_eq_some_iff p b).2 ⟨hb, hpin⟩
    rw [hc] at this
    cases this
    exact hacts
  · intro hacts
    have := (h.get?_eq_some_iff p c).1 hc
    exact ⟨c, this.1, this.2, hacts⟩

/-- A pin without an enabled channel is in no word. -/
theorem isIn_slotMask_eq_false {channels : List Channel} {p : Pin} (h : ∀ c ∈ channels, c.pin = p → c.enabled = false)
    (slot : UInt32) : p.isIn (slotMask channels slot) = false := by
  rw [Bool.eq_false_iff, ne_eq, isIn_slotMask]
  rintro ⟨c, hc, hp, hacts⟩
  simp [Channel.acts, h c hc hp] at hacts

end PulseWidth
