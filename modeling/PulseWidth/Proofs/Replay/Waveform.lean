import PulseWidth.Proofs.Replay.Session

/-!
# Waveforms while the table changes

The sample words are rewritten one by one while they are copied, so that within one cycle the words of several tables
can be met.  As long as the channel of a pin stays enabled, each word has the bit of the pin as one of the tables that
were in force had it: in slot 0 always, and in a later slot if that table's duty is below the slot.  `Tracks` is this
invariant, for a collection of duties; what is copied in a cycle then turns the pin on once and off at most once, not
before the least of the duties and not after the greatest.
-/

namespace PulseWidth

open Program (Only only_bind only_each only_perform only_pure)

/-! ### What calls write -/

/-- An action of a call with a table: a sample word of the table is written, or pins other than the given one are
driven, or nothing happens that could be seen. -/
def Updates (n : UInt32) (pin : Pin) (t : ChannelTable) : Action → Prop
  | .write offset value =>
    ∃ slot < n, offset = (ChainLayout.mk n).sampleOffset slot ∧ value = slotMask t.channels slot
  | .store .gpio _ value => pin.isIn value = false
  | .store _ _ _ => False
  | .pause _ | .log _ | .print _ => True

namespace Engine

variable {config : Config} {n found : UInt32} {e : Engine} {s : Plant} {pin : Pin}

private theorem only_regenerate (t : ChannelTable) :
    (regenerate ⟨n⟩ t.channels).Only (Updates n pin t) := by
  apply only_each
  intro slot hslot
  exact only_perform.2 ⟨slot, (ChainLayout.mk n).mem_slots.1 hslot, rfl, rfl⟩

private theorem only_commit (h : e.Settled config n found s) (t : ChannelTable) (message : String) :
    (e.commit t message).Only (Updates n pin t) := by
  unfold commit layout
  rw [h.layout_eq]
  refine only_bind (only_regenerate t) fun _ => ?_
  exact only_bind (only_perform.2 trivial) fun _ => only_pure _

theorem revision_lawful (h : e.table.Lawful config.pins n) {q : Request} {t : ChannelTable}
    (ht : e.revision q = .ok t) : t.Lawful config.pins n := by
  cases q with
  | set target duty => exact ChannelTable.setMany_lawful h ht
  | setFraction target fraction =>
    simp only [revision] at ht
    split at ht
    · cases ht
    · exact ChannelTable.setMany_lawful h ht
  | setMany targets duty => exact ChannelTable.setMany_lawful h ht
  | release target => exact ChannelTable.release_lawful h ht
  | stop =>
    cases ht
    split
    · exact ChannelTable.silence_lawful h
    · exact h
  | start =>
    cases ht
    exact h

/-- A running engine that is stopped has no enabled channel from the start of the call. -/
private theorem not_enabled_of_stop (hrunning : e.state = .running) {c : Channel}
    (hc : (e.during .stop).table.get? pin = some c) : c.enabled = false := by
  have htable : (e.during .stop).table = e.table.silence := by
    simp only [during, revision, if_pos hrunning]
    rfl
  rw [htable, ChannelTable.get?_silence] at hc
  cases hold : e.table.get? pin with
  | none =>
    rw [hold] at hc
    cases hc
  | some old =>
    rw [hold] at hc
    cases hc
    rfl

/-- A call to a running engine that leaves the channel of a pin enabled updates sample words and spares the pin. -/
theorem Settled.only_respond (h : e.Settled config n found s) (hrunning : e.state = .running) {q : Request}
    {p : Program Engine} (hp : e.respond q = .ok p) {c : Channel} (hc : (e.during q).table.get? pin = some c)
    (henabled : c.enabled = true) : p.Only (Updates n pin (e.during q).table) := by
  have hduring : ∀ {t}, e.revision q = .ok t → (e.during q).table = t := by
    intro t ht
    simp only [during, ht]
    rfl
  cases responds_of_respond hp with
  | drive message _ revised _ =>
    rw [hduring revised]
    exact only_commit h _ message
  | @release target t message changed =>
    rw [hduring changed] at hc ⊢
    have hother : pin ≠ target := by
      rintro rfl
      rw [ChannelTable.get?_release changed] at hc
      cases hold : e.table.get? pin with
      | none =>
        rw [hold] at hc
        cases hc
      | some old =>
        rw [hold, Option.map_some, if_pos rfl] at hc
        cases hc
        cases henabled
    unfold layout
    rw [h.layout_eq]
    refine only_bind (only_regenerate t) fun _ => ?_
    refine only_bind (only_perform.2 (by simp [Updates, hother])) fun _ => ?_
    exact only_bind (only_perform.2 trivial) fun _ => only_pure _
  | stop =>
    rw [not_enabled_of_stop hrunning hc] at henabled
    cases henabled
  | start =>
    have hstate : e.state ≠ .stopped := by rw [hrunning]; decide
    unfold start
    rw [if_pos hstate]
    exact only_pure _

end Engine

/-! ### The words that can be met -/

namespace Arena

/-- Each sample word has the bit of the pin as some duty in the collection has it. -/
def Mixes (a : Arena) (n : UInt32) (pin : Pin) (D : UInt32 → Prop) : Prop :=
  ∀ slot < n, ∃ word, a.read ((ChainLayout.mk n).sampleOffset slot) = .ok word ∧
    ∃ duty, D duty ∧ pin.isIn word = decide (slot = 0 ∨ duty < slot)

/-- A word of another duty in the collection may take the place of any word. -/
private theorem Mixes.put {a : Arena} {n slot word : UInt32} {pin : Pin} {D : UInt32 → Prop} (h : a.Mixes n pin D)
    (hfits : a.Fits ⟨n⟩) (hslot : slot < n)
    (hword : ∃ duty, D duty ∧ pin.isIn word = decide (slot = 0 ∨ duty < slot)) :
    (a.put ((ChainLayout.mk n).sampleOffset slot) word).Mixes n pin D := by
  intro other hother
  rw [hfits.read_put_sample hslot _ hother]
  by_cases heq : other = slot
  · rw [if_pos heq, heq]
    exact ⟨word, rfl, hword⟩
  · rw [if_neg heq]
    exact h other hother

end Arena

namespace Session

variable {config : Config} {n found : UInt32} {pin : Pin} {D : UInt32 → Prop} {x : Session}

/-- The channel is armed, the sample words mix those of duties in the collection, and the call that is being carried
out, if there is one, keeps to the table in force. -/
structure Tracks (config : Config) (n : UInt32) (pin : Pin) (D : UInt32 → Prop) (x : Session) : Prop where
  armed : x.plant.armed = true
  fits : x.plant.arena.Fits ⟨n⟩
  mixes : x.plant.arena.Mixes n pin D
  call : ∀ e p, x.control = .calling e p → e.table.Lawful config.pins n ∧ p.Only (Updates n pin e.table)

/-- The duty in force is one of the collection. -/
def InForce (pin : Pin) (D : UInt32 → Prop) (x : Session) : Prop := ∃ duty, x.duty? pin = some duty ∧ D duty

/-- The word of a slot for a table whose channel for the pin is enabled. -/
private theorem isIn_word {t : ChannelTable} (ht : t.Lawful config.pins n) {c : Channel} (hc : t.get? pin = some c)
    (henabled : c.enabled = true) (slot : UInt32) :
    pin.isIn (slotMask t.channels slot) = decide (slot = 0 ∨ c.duty < slot) := by
  rw [ht.isIn_slotMask_eq hc, Channel.acts, henabled, Bool.true_and, Bool.decide_or]
  rfl

private theorem channel_of_duty? {t : ChannelTable} {duty : UInt32} (ht : x.table? = some t)
    (h : x.duty? pin = some duty) : ∃ c, t.get? pin = some c ∧ c.enabled = true ∧ c.duty = duty := by
  simp only [duty?, ht, Option.bind_eq_bind, Option.bind_some] at h
  cases hc : t.get? pin with
  | none =>
    rw [hc] at h
    cases h
  | some c =>
    rw [hc, Option.bind_some] at h
    split at h
    · rename_i henabled
      exact ⟨c, rfl, henabled, Option.some.inj h⟩
    · cases h

/-- At rest the sample words are those of the table. -/
theorem tracks_of_resting {e : Engine} (hsound : x.Sound config n found) (hcontrol : x.control = .resting e)
    (hrunning : e.state = .running) (hforce : x.InForce pin D) : x.Tracks config n pin D := by
  obtain ⟨duty, hduty, hD⟩ := hforce
  have htable : x.table? = some e.table := by rw [table?, hcontrol]
  obtain ⟨c, hc, henabled, rfl⟩ := channel_of_duty? htable hduty
  rw [Sound, hcontrol] at hsound
  exact
    { armed := hsound.armed_iff.2 hrunning
      fits := hsound.fits
      mixes := fun slot hslot => ⟨_, hsound.carries slot hslot, c.duty, hD, isIn_word hsound.lawful hc henabled slot⟩
      call := by
        intro e' p hcalling
        rw [hcontrol] at hcalling
        cases hcalling }

/-- An action of a call that keeps to a table in force. -/
private theorem perform_of_updates {s s' : Plant} {t : ChannelTable} {c : Channel} {action : Action}
    (hfits : s.arena.Fits ⟨n⟩) (hmixes : s.arena.Mixes n pin D) (ht : t.Lawful config.pins n)
    (hc : t.get? pin = some c) (henabled : c.enabled = true) (hD : D c.duty) (haction : Updates n pin t action)
    (hs' : s.perform action = .ok s') :
    s'.armed = s.armed ∧ pin.isIn s'.levels = pin.isIn s.levels ∧ s'.arena.Fits ⟨n⟩ ∧ s'.arena.Mixes n pin D := by
  cases action with
  | store role offset value =>
    cases role with
    | gpio =>
      cases hs'
      exact ⟨rfl, Plant.isIn_drive_of_not_isIn haction _ _, hfits, hmixes⟩
    | _ => exact haction.elim
  | write offset value =>
    obtain ⟨slot, hslot, rfl, rfl⟩ := haction
    simp only [Plant.perform, hfits.write_sample hslot] at hs'
    cases hs'
    have hword := isIn_word ht hc henabled slot
    exact ⟨rfl, rfl, (Arena.fits_put_iff s.arena _ _ _).2 hfits, hmixes.put hfits hslot ⟨c.duty, hD, hword⟩⟩
  | pause micros =>
    cases hs'
    exact ⟨rfl, rfl, hfits, hmixes⟩
  | log record =>
    cases hs'
    exact ⟨rfl, rfl, hfits, hmixes⟩
  | print line =>
    cases hs'
    exact ⟨rfl, rfl, hfits, hmixes⟩

/-- A call that is begun keeps to the table that it asks for, if the channel stays enabled. -/
private theorem Tracks.request {e : Engine} {plant : Plant} (h : Tracks config n pin D ⟨.resting e, plant⟩)
    (hsettled : e.Settled config n found plant) {q : Request} {p : Program Engine} (hp : e.respond q = .ok p)
    (hnext : InForce pin D ⟨.calling (e.during q) p, plant⟩) :
    Tracks config n pin D ⟨.calling (e.during q) p, plant⟩ := by
  refine ⟨h.armed, h.fits, h.mixes, ?_⟩
  rintro _ _ ⟨⟩
  obtain ⟨duty, hduty, -⟩ := hnext
  obtain ⟨c, hc, henabled, -⟩ := channel_of_duty? rfl hduty
  obtain ⟨t, ht, -⟩ := hsettled.ensures_respond hp
  have htable : (e.during q).table = t := by
    simp only [Engine.during, ht]
    rfl
  refine ⟨?_, hsettled.only_respond (hsettled.armed_iff.1 h.armed) hp hc henabled⟩
  rw [htable]
  exact Engine.revision_lawful hsettled.lawful ht

/-- A step of a call. -/
private theorem Tracks.step {e : Engine} {p : Program Engine} {plant : Plant}
    (h : Tracks config n pin D ⟨.calling e p, plant⟩) (hsound : Sound config n found ⟨.calling e p, plant⟩)
    (hforce : InForce pin D ⟨.calling e p, plant⟩) (answer : UInt32) :
    (Session.step ⟨.calling e p, plant⟩ answer).Tracks config n pin D ∧
      pin.isIn (Session.step ⟨.calling e p, plant⟩ answer).plant.levels = pin.isIn plant.levels := by
  obtain ⟨hlawful, honly⟩ := h.call e p rfl
  cases p with
  | done e' =>
    refine ⟨⟨h.armed, h.fits, h.mixes, ?_⟩, rfl⟩
    rintro _ _ ⟨⟩
  | fault reason => exact hsound.elim
  | load role offset next =>
    refine ⟨⟨h.armed, h.fits, h.mixes, ?_⟩, rfl⟩
    rintro _ _ ⟨⟩
    exact ⟨hlawful, honly answer⟩
  | act action next =>
    obtain ⟨duty, hduty, hD⟩ := hforce
    obtain ⟨c, hc, henabled, rfl⟩ := channel_of_duty? rfl hduty
    obtain ⟨plant', hplant', -⟩ := hsound []
    rw [Plant.replay_nil] at hplant'
    obtain ⟨harmed, hlevel, hfits, hmixes⟩ :=
      perform_of_updates h.fits h.mixes hlawful hc henabled hD honly.1 hplant'
    have hstep : Session.step ⟨.calling e (.act action next), plant⟩ answer = ⟨.calling e (next ()), plant'⟩ := by
      simp only [Session.step, Program.step, hplant', Except.map]
    rw [hstep]
    refine ⟨⟨harmed.trans h.armed, hfits, hmixes, ?_⟩, hlevel⟩
    rintro _ _ ⟨⟩
    exact ⟨hlawful, honly.2⟩

/-- The control thread cannot move the pin, and what can be met stays in the collection. -/
private theorem Tracks.control (h : x.Tracks config n pin D) (hsound : x.Sound config n found)
    (hforce : x.InForce pin D) {m : Move} (hm : m.copied? = none) (hnext : (x.move config n m).InForce pin D) :
    (x.move config n m).Tracks config n pin D ∧
      pin.isIn (x.move config n m).plant.levels = pin.isIn x.plant.levels := by
  obtain ⟨control, plant⟩ := x
  cases m with
  | copy slot => cases hm
  | assemble arena =>
    cases control with
    | resting e =>
      -- the engine runs, and no other one is made beside it
      have hsettled : e.Settled config n found plant := hsound
      have hexited : e.state ≠ .exited := by
        rw [hsettled.armed_iff.1 h.armed]
        decide
      simp only [move, if_neg hexited]
      exact ⟨h, trivial⟩
    | refused reason =>
      obtain ⟨duty, hduty, -⟩ := hforce
      cases hduty
    | _ => exact ⟨h, rfl⟩
  | request q =>
    cases control with
    | resting e =>
      simp only [move] at hnext ⊢
      split at hnext
      · rename_i p hp
        exact ⟨h.request hsound hp hnext, rfl⟩
      · exact ⟨h, rfl⟩
    | _ => exact ⟨h, rfl⟩
  | exit =>
    cases control with
    | resting e =>
      obtain ⟨duty, hduty, -⟩ := hnext
      obtain ⟨c, hc, henabled, -⟩ := channel_of_duty? rfl hduty
      have hsettled : e.Settled config n found plant := hsound
      rw [Engine.not_enabled_of_stop (hsettled.armed_iff.1 h.armed) hc] at henabled
      cases henabled
    | _ => exact ⟨h, rfl⟩
  | step answer =>
    cases control with
    | calling e p => exact h.step hsound hforce answer
    | resting e => exact ⟨h, rfl⟩
    | refused reason => exact ⟨h, rfl⟩
    | faulted reason => exact ⟨h, rfl⟩
    | assembling p =>
      obtain ⟨duty, hduty, -⟩ := hforce
      cases hduty

/-! ### Copies -/

private theorem Tracks.copy (h : x.Tracks config n pin D) (slot : UInt32) :
    (x.move config n (.copy slot)).Tracks config n pin D := by
  have harena : (x.move config n (.copy slot)).plant.arena = x.plant.arena := Plant.arena_copy
  have harmed : (x.move config n (.copy slot)).plant.armed = x.plant.armed := Plant.armed_copy
  refine ⟨harmed.trans h.armed, ?_, ?_, h.call⟩
  · rw [harena]
    exact h.fits
  · rw [harena]
    exact h.mixes

/-- What the copy of a slot does to the pin: slot 0 turns it on, a later slot turns it off or leaves it. -/
private theorem Tracks.level_copy (h : x.Tracks config n pin D) {slot : UInt32} (hslot : slot < n) :
    ∃ duty, D duty ∧ pin.isIn (x.move config n (.copy slot)).plant.levels =
      if slot = 0 then !config.invert else if duty < slot then config.invert else pin.isIn x.plant.levels := by
  obtain ⟨word, hread, duty, hD, hbit⟩ := h.mixes slot hslot
  have hcopy : x.plant.copy (.of config n) slot =
      { x.plant with levels := drive x.plant.levels ((Replay.of config n).target slot) word } := by
    have hcopies : x.plant.armed = true ∧ slot < (Replay.of config n).layout.nrSamples := ⟨h.armed, hslot⟩
    rw [Plant.copy, if_pos hcopies]
    simp only [show x.plant.arena.read ((Replay.of config n).layout.sampleOffset slot) = .ok word from hread]
  refine ⟨duty, hD, ?_⟩
  show pin.isIn (x.plant.copy (.of config n) slot).levels = _
  rw [hcopy]
  by_cases hzero : slot = 0
  · rw [if_pos hzero, Replay.target, if_pos hzero]
    have hin : pin.isIn word = true := by rw [hbit]; exact decide_eq_true (.inl hzero)
    exact Plant.isIn_drive_inactive hin x.plant.levels (!config.invert)
  · rw [if_neg hzero, Replay.target, if_neg hzero]
    by_cases hlt : duty < slot
    · rw [if_pos hlt]
      have hin : pin.isIn word = true := by rw [hbit]; exact decide_eq_true (.inr hlt)
      exact Plant.isIn_drive_inactive hin x.plant.levels config.invert
    · rw [if_neg hlt]
      have hout : pin.isIn word = false := by
        rw [hbit]
        exact decide_eq_false fun hor => hor.elim hzero hlt
      exact Plant.isIn_drive_of_not_isIn hout _ _

/-! ### Runs -/

theorem mem_visited_self (x : Session) (moves : List Move) : x ∈ x.visited config n moves := by
  cases moves <;> simp [visited]

theorem mem_visited_append {y : Session} {first second : List Move} (h : y ∈ x.visited config n first) :
    y ∈ x.visited config n (first ++ second) := by
  induction first generalizing x with
  | nil =>
    obtain rfl := List.mem_singleton.1 h
    exact mem_visited_self _ _
  | cons m rest ih =>
    rcases List.mem_cons.1 h with rfl | hrest
    · exact List.mem_cons_self
    · exact List.mem_cons_of_mem _ (ih hrest)

private theorem Tracks.move (h : x.Tracks config n pin D) (hsound : x.Sound config n found) {m : Move}
    (hforce : x.InForce pin D) (hnext : (x.move config n m).InForce pin D) :
    (x.move config n m).Tracks config n pin D := by
  cases m with
  | copy slot => exact h.copy slot
  | _ => exact (h.control hsound hforce rfl hnext).1

/-- The invariant holds after the first part of a run if the duty in force stays in the collection. -/
private theorem Tracks.run (h : x.Tracks config n pin D) (hsound : x.Sound config n found)
    (valid : config.validate = .ok n) {first second : List Move}
    (hforce : ∀ y ∈ x.visited config n (first ++ second), y.InForce pin D) :
    (x.run config n first).Tracks config n pin D ∧
      ∀ y ∈ (x.run config n first).visited config n second, y.InForce pin D := by
  induction first generalizing x with
  | nil => exact ⟨h, hforce⟩
  | cons m rest ih =>
    have hrest : ∀ y ∈ (x.move config n m).visited config n (rest ++ second), y.InForce pin D :=
      fun y hy => hforce y (List.mem_cons_of_mem _ hy)
    have hhere := hforce x List.mem_cons_self
    exact ih (h.move hsound hhere (hrest _ (mem_visited_self _ _))) (hsound.move valid m) hrest

/-- A part of a cycle behind its slot 0: an inactive pin stays inactive, slots up to all the duties leave the pin as
it is, and a slot behind all of them has turned it off. -/
private theorem Tracks.cycle {cycle : List Move} (h : x.Tracks config n pin D) (hsound : x.Sound config n found)
    (valid : config.validate = .ok n) (hforce : ∀ y ∈ x.visited config n cycle, y.InForce pin D)
    (hslots : ∀ slot ∈ cycle.filterMap Move.copied?, slot ≠ 0 ∧ slot < n) :
    (pin.isIn x.plant.levels = config.invert →
      pin.isIn (x.run config n cycle).plant.levels = config.invert) ∧
    ((∀ slot ∈ cycle.filterMap Move.copied?, ∀ duty, D duty → slot ≤ duty) →
      pin.isIn (x.run config n cycle).plant.levels = pin.isIn x.plant.levels) ∧
    ((∃ slot ∈ cycle.filterMap Move.copied?, ∀ duty, D duty → duty < slot) →
      pin.isIn (x.run config n cycle).plant.levels = config.invert) := by
  induction cycle generalizing x with
  | nil => exact ⟨id, fun _ => rfl, by simp⟩
  | cons m rest ih =>
    have hhere := hforce x List.mem_cons_self
    have hrest : ∀ y ∈ (x.move config n m).visited config n rest, y.InForce pin D :=
      fun y hy => hforce y (List.mem_cons_of_mem _ hy)
    have hnext := hrest _ (mem_visited_self _ _)
    have hrun : x.run config n (m :: rest) = (x.move config n m).run config n rest := rfl
    rw [hrun]
    cases hm : m.copied? with
    | none =>
      obtain ⟨htracks, hlevel⟩ := h.control hsound hhere hm hnext
      rw [List.filterMap_cons_none hm] at hslots ⊢
      rw [← hlevel]
      exact ih htracks (hsound.move valid m) hrest hslots
    | some slot =>
      obtain rfl : m = .copy slot := by
        cases m with
        | copy slot' => exact congrArg Move.copy (Option.some.inj hm)
        | _ => cases hm
      rw [List.filterMap_cons_some hm] at hslots ⊢
      obtain ⟨hzero, hlt⟩ := hslots slot List.mem_cons_self
      obtain ⟨duty, hD, hlevel⟩ := h.level_copy hlt
      rw [if_neg hzero] at hlevel
      have hothers : ∀ slot' ∈ rest.filterMap Move.copied?, slot' ≠ 0 ∧ slot' < n :=
        fun slot' hmem => hslots slot' (List.mem_cons_of_mem _ hmem)
      obtain ⟨hstays, hkeeps, hturns⟩ := ih (h.copy slot) (hsound.move valid (.copy slot)) hrest hothers
      refine ⟨?_, ?_, ?_⟩
      · intro hinactive
        apply hstays
        rw [hlevel, hinactive, ite_self]
      · intro hall
        have hle := hall slot List.mem_cons_self duty hD
        rw [hkeeps fun slot' hmem => hall slot' (List.mem_cons_of_mem _ hmem), hlevel, if_neg (UInt32.not_lt.2 hle)]
      · rintro ⟨slot', hmem, hall⟩
        rcases List.mem_cons.1 hmem with rfl | hmem
        · apply hstays
          rw [hlevel, if_pos (hall duty hD)]
        · exact hturns ⟨slot', hmem, hall⟩

end Session

/-- The slots that are copied behind slot 0 in a cycle up to slot `j`. -/
private theorem mem_copied_iff {cycle : List Move} {j : UInt32}
    (inOrder : (.copy 0 :: cycle).filterMap Move.copied? = (List.range (j.toNat + 1)).map UInt32.ofNat)
    (slot : UInt32) : slot ∈ cycle.filterMap Move.copied? ↔ slot ≠ 0 ∧ slot ≤ j := by
  have hj := j.toNat_lt
  change 0 :: cycle.filterMap Move.copied? = _ at inOrder
  rw [List.range_succ_eq_map, List.map_cons, List.map_map] at inOrder
  rw [(List.cons.inj inOrder).2, List.mem_map, ne_eq, ← UInt32.toNat_inj, UInt32.le_iff_toNat_le]
  constructor
  · rintro ⟨i, hi, rfl⟩
    have hlt := List.mem_range.1 hi
    rw [Function.comp_apply, UInt32.toNat_ofNat_of_lt' (by rw [UInt32.size]; omega)]
    exact ⟨Nat.succ_ne_zero i, hlt⟩
  · rintro ⟨hzero, hle⟩
    have hpos : slot.toNat ≠ 0 := hzero
    refine ⟨slot.toNat - 1, List.mem_range.2 (by omega), ?_⟩
    rw [Function.comp_apply, Nat.succ_eq_add_one, Nat.sub_add_cancel (by omega), UInt32.ofNat_toNat]

/-- Take any run of a session of an accepted configuration up to a moment when a call has returned and the engine
runs, and let it go on with any moves and then with a cycle up to slot `j`, in the midst of any calls, such that the
channel of a pin is enabled all the time.  Behind the copy of slot `j` the pin is active if `j` is at most every duty
that the channel has had in that time, and inactive if it is greater than all of them; and once the pin has gone
inactive in the cycle it stays so. -/
theorem waveform_of_run {config : Config} {n : UInt32} (valid : config.validate = .ok n) (arena : Arena)
    (levels : UInt32) (before turn cycle : List Move) (e : Engine) (pin : Pin) (j : UInt32)
    (resting : ((Session.start config arena levels).run config n before).control = .resting e)
    (running : e.state = .running) (inside : j < n)
    (inOrder : (.copy 0 :: cycle).filterMap Move.copied? = (List.range (j.toNat + 1)).map UInt32.ofNat)
    (enabled : ∀ y ∈ ((Session.start config arena levels).run config n before).visited config n
      (turn ++ .copy 0 :: cycle), (y.duty? pin).isSome) :
    let x := (Session.start config arena levels).run config n before
    let duties := (x.visited config n (turn ++ .copy 0 :: cycle)).filterMap (·.duty? pin)
    let level (part : List Move) := pin.isIn (x.run config n (turn ++ .copy 0 :: part)).plant.levels
    ((∀ duty ∈ duties, j ≤ duty) → level cycle = !config.invert) ∧
    ((∀ duty ∈ duties, duty < j) → level cycle = config.invert) ∧
    ∀ first more rest, cycle = first ++ more ++ rest → level first = config.invert →
      level (first ++ more) = config.invert := by
  intro x duties level
  have hsound : x.Sound config n levels := (Session.sound_start valid arena levels).run valid before
  have hforce : ∀ y ∈ x.visited config n (turn ++ .copy 0 :: cycle), y.InForce pin (· ∈ duties) := by
    intro y hy
    obtain ⟨duty, hduty⟩ := Option.isSome_iff_exists.1 (enabled y hy)
    exact ⟨duty, hduty, List.mem_filterMap.2 ⟨y, hy, hduty⟩⟩
  have hhere := hforce x (Session.mem_visited_self _ _)
  have htracks : x.Tracks config n pin (· ∈ duties) := Session.tracks_of_resting hsound resting running hhere
  obtain ⟨hturn, hforce'⟩ := htracks.run hsound valid hforce
  -- the session behind the copy of slot 0, where the pin is active
  let y := (x.run config n turn).move config n (.copy 0)
  have htracks' : y.Tracks config n pin (· ∈ duties) := hturn.copy 0
  have hsound' : y.Sound config n levels := (hsound.run valid turn).move valid (.copy 0)
  have hcycle : ∀ z ∈ y.visited config n cycle, z.InForce pin (· ∈ duties) :=
    fun z hz => hforce' z (List.mem_cons_of_mem _ hz)
  have hstart : pin.isIn y.plant.levels = !config.invert := by
    obtain ⟨duty, -, hlevel⟩ := hturn.level_copy (config.bounds_of_validate valid).1
    exact hlevel
  have hlevel : ∀ part, level part = pin.isIn (y.run config n part).plant.levels := by
    intro part
    show pin.isIn (x.run config n (turn ++ .copy 0 :: part)).plant.levels = _
    rw [Session.run_append]
    rfl
  have hslots : ∀ slot ∈ cycle.filterMap Move.copied?, slot ≠ 0 ∧ slot < n := by
    intro slot hslot
    obtain ⟨hzero, hle⟩ := (mem_copied_iff inOrder slot).1 hslot
    exact ⟨hzero, UInt32.lt_of_le_of_lt hle inside⟩
  obtain ⟨-, hkeeps, hturns⟩ := htracks'.cycle hsound' valid hcycle hslots
  refine ⟨?_, ?_, ?_⟩
  · intro hall
    rw [hlevel, hkeeps, hstart]
    exact fun slot hslot duty hduty => UInt32.le_trans ((mem_copied_iff inOrder slot).1 hslot).2 (hall duty hduty)
  · intro hall
    rw [hlevel]
    apply hturns
    obtain ⟨duty, -, hduty⟩ := hhere
    have hzero : j ≠ 0 := by
      rintro rfl
      exact absurd (hall duty hduty) UInt32.not_lt_zero
    exact ⟨j, (mem_copied_iff inOrder j).2 ⟨hzero, UInt32.le_refl j⟩, hall⟩
  · rintro first more rest rfl hinactive
    rw [List.append_assoc] at hcycle
    obtain ⟨hfirst, hmore⟩ := htracks'.run hsound' valid hcycle
    rw [hlevel, Session.run_append]
    rw [hlevel] at hinactive
    have hsound'' := hsound'.run valid first
    refine (hfirst.cycle hsound'' valid (fun z hz => hmore z (Session.mem_visited_append hz)) ?_).1 hinactive
    intro slot hslot
    apply hslots
    rw [List.filterMap_append, List.filterMap_append]
    exact List.mem_append_left _ (List.mem_append_right _ hslot)

theorem waveform_of_shortened :
    let x := (Session.start Config.small Arena.small 0).run Config.small 3 Session.drivingMoves
    let turn := [.request (.set ⟨4⟩ 0), .step 0]
    let cycle := [.step 0, .copy 1, .step 0, .copy 2]
    Config.small.validate = .ok 3 ∧ (∃ e, x.control = .resting e ∧ e.state = .running) ∧
      (.copy 0 :: cycle).filterMap Move.copied? = (List.range 3).map UInt32.ofNat ∧
      (∀ y ∈ x.visited Config.small 3 (turn ++ .copy 0 :: cycle), (y.duty? ⟨4⟩).isSome) ∧
      Pin.isIn ⟨4⟩ (x.run Config.small 3 (turn ++ .copy 0 :: cycle)).plant.levels = false := by
  intro x turn cycle
  have valid : Config.small.validate = .ok 3 := rfl
  have inOrder : (.copy 0 :: cycle).filterMap Move.copied? = (List.range 3).map UInt32.ofNat := rfl
  have enabled : ∀ y ∈ x.visited Config.small 3 (turn ++ .copy 0 :: cycle), (y.duty? ⟨4⟩).isSome := by
    decide +kernel
  obtain ⟨e, resting, he⟩ :=
    Session.resting_of_engine? (x := x) (P := fun e => e.state = .running) (by decide +kernel)
  have running : e.state = .running := of_decide_eq_true he
  let duties := (x.visited Config.small 3 (turn ++ .copy 0 :: cycle)).filterMap (·.duty? ⟨4⟩)
  have behind : duties.all (· < 2) = true := by decide +kernel
  have hwaveform := waveform_of_run valid Arena.small 0 Session.drivingMoves turn cycle e ⟨4⟩ 2 resting running
    (by decide) inOrder enabled
  have hlow := hwaveform.2.1 fun duty hduty => of_decide_eq_true (List.all_eq_true.1 behind duty hduty)
  exact ⟨valid, ⟨e, resting, running⟩, inOrder, enabled, hlow⟩

end PulseWidth
