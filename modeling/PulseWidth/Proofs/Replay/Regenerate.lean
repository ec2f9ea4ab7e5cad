import PulseWidth.Proofs.Replay.Ensures

/-!
# Rewriting the sample words

The sample words are rewritten one by one while the DMA engine may copy them.  When all are written the arena
carries the new channels and is otherwise as before, and a pin that was in no word and is in none of the new ones
has kept its level.
-/

namespace PulseWidth

open Program (Ensures ensures_write_iff)

/-- The words of some slots have been rewritten from some channels. -/
structure Plant.Rewritten (r : Replay) (channels : List Channel) (slots : List UInt32) (s s' : Plant) : Prop where
  armed_eq : s'.armed = s.armed
  same : Arena.SameBeyond r.layout.nrSamples.toNat s.arena s'.arena
  read_eq : ∀ slot < r.layout.nrSamples, s'.arena.read (r.layout.sampleOffset slot) =
    if slot ∈ slots then .ok (slotMask channels slot) else s.arena.read (r.layout.sampleOffset slot)
  rests : ∀ p level, (s.armed = true → ∀ slot, p.isIn (slotMask channels slot) = false) →
    s.Rests r p level → s'.Rests r p level

variable {α : Type} {r : Replay} {s : Plant} {channels : List Channel}

theorem Plant.Rewritten.carries {s' : Plant} (h : Plant.Rewritten r channels r.layout.slots s s') :
    s'.arena.Carries r.layout channels := by
  intro slot hslot
  rw [h.read_eq slot hslot, if_pos (r.layout.mem_slots.2 hslot)]

/-- The plant after copies and one write of a sample word. -/
private theorem rewritten_put (hfits : s.arena.Fits r.layout) {slot : UInt32} (hslot : slot < r.layout.nrSamples)
    (copied : List UInt32) :
    Plant.Rewritten r channels [slot] s
      { s.replay r copied with arena := s.arena.put (r.layout.sampleOffset slot) (slotMask channels slot) } where
  armed_eq := Plant.armed_replay copied
  same := Arena.sameBeyond_put_sample s.arena hslot _
  read_eq := by
    intro other hother
    rw [hfits.read_put_sample hslot _ hother]
    by_cases heq : other = slot
    · rw [if_pos heq, if_pos (List.mem_singleton.2 heq), heq]
    · rw [if_neg heq, if_neg (fun hm => heq (List.mem_singleton.1 hm))]
  rests := by
    intro p level hp hrests
    refine ⟨(hrests.replay copied).level_eq, ?_⟩
    intro harmed other hother word hword
    rw [Plant.armed_replay] at harmed
    rw [hfits.read_put_sample hslot _ hother] at hword
    -- the word that was put lacks the bit, and the others have lacked it before
    split at hword
    · cases hword
      exact hp harmed slot
    · exact hrests.absent harmed other hother word hword

private theorem Plant.Rewritten.trans {slots more : List UInt32} {s' s'' : Plant}
    (h : Plant.Rewritten r channels slots s s') (h' : Plant.Rewritten r channels more s' s'') :
    Plant.Rewritten r channels (slots ++ more) s s'' where
  armed_eq := h'.armed_eq.trans h.armed_eq
  same := h.same.trans h'.same
  read_eq := by
    intro slot hslot
    rw [h'.read_eq slot hslot, h.read_eq slot hslot]
    by_cases h1 : slot ∈ more <;> by_cases h2 : slot ∈ slots <;> simp [h1, h2]
  rests := fun p level hp hrests =>
    h'.rests p level (fun harmed => hp (h.armed_eq ▸ harmed)) (h.rests p level hp hrests)

private theorem ensures_writeSamples (slots : List UInt32) (hslots : ∀ slot ∈ slots, slot < r.layout.nrSamples)
    (hfits : s.arena.Fits r.layout) :
    Ensures r
      (Program.each slots fun slot => Program.write (r.layout.sampleOffset slot) (slotMask channels slot))
      (fun _ s' => Plant.Rewritten r channels slots s s') s := by
  induction slots generalizing s with
  | nil =>
    intro copied
    exact
      { armed_eq := Plant.armed_replay copied
        same := by
          rw [Plant.arena_replay]
          exact .refl _ _
        read_eq := by simp
        rests := fun _ _ _ hrests => hrests.replay copied }
  | cons slot rest ih =>
    have hslot := hslots slot (by simp)
    show Ensures r (Program.write _ _ >>= fun _ => Program.each rest _) _ s
    rw [ensures_write_iff (hfits.write_sample hslot _)]
    intro copied
    have hput : Plant.Rewritten r channels [slot] s _ := rewritten_put hfits hslot copied
    refine (ih (fun x hx => hslots x (by simp [hx])) (hput.same.fits hfits)).mono ?_
    intro _ s' hrest
    exact hput.trans hrest

/-- What holds after the sample words have been rewritten. -/
theorem ensures_regenerate {post : α → Plant → Prop} {f : Unit → Program α} (hfits : s.arena.Fits r.layout)
    (h : ∀ s', Plant.Rewritten r channels r.layout.slots s s' → (f ()).Ensures r post s') :
    Ensures r (regenerate r.layout channels >>= f) post s := by
  refine Program.Ensures.bind ?_
  refine (ensures_writeSamples r.layout.slots (fun _ hslot => r.layout.mem_slots.1 hslot) hfits).mono ?_
  exact fun _ s' hs' => h s' hs'

end PulseWidth
