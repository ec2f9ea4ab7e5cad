import PulseWidth.Proofs.Replay.Ensures

/-!
# The hardware sequence beside the DMA engine

What each piece of the hardware sequence does to the plant.  Most stores do nothing at all there: only the stores to
the status register of the channel and to the set and clear registers count.  No piece touches the arena, and none
meets a fault when the divisor of the clock fits its field.
-/

namespace PulseWidth

instance : LawfulMonad Program := LawfulMonad.mk'
  Program
  (fun p => Program.bind_done p)
  (fun _ _ => rfl)
  (fun p f g => Program.bind_assoc p f g)

namespace Sequencer

open Program (Ensures store pause ensures_pause_iff ensures_log_iff ensures_inert_iff ensures_read_iff
  ensures_store_clock_iff ensures_store_pacer_iff ensures_store_gpio_iff ensures_ofExcept_iff)

variable {α : Type} {r : Replay} {s : Plant} {post : α → Plant → Prop}

/-! ### The channel -/

theorem ensures_store_status_iff (value : UInt32) (f : Unit → Program α) :
    Ensures r (store .dma Dma.status.offset value >>= f) post s ↔
      ∀ slots, (f ()).Ensures r post { s.replay r slots with armed := Plant.armedAfter s.armed value } := by
  refine forall_congr' fun slots => ?_
  have hperform : (s.replay r slots).perform (.store .dma Dma.status.offset value) =
      .ok { s.replay r slots with armed := Plant.armedAfter s.armed value } := by
    rw [Plant.perform, if_pos rfl, Plant.armed_replay]
  constructor
  · rintro ⟨s', hs', hnext⟩
    rw [hperform] at hs'
    cases hs'
    exact hnext
  · intro hnext
    exact ⟨_, hperform, hnext⟩

/-- A reset disarms the channel, after any copies. -/
theorem ensures_haltDma_iff (f : Unit → Program α) :
    Ensures r (haltDma >>= f) post s ↔ ∀ slots, (f ()).Ensures r post { s.replay r slots with armed := false } := by
  have hreset : ∀ armed, Plant.armedAfter armed Dma.reset = false := by decide
  simp only [haltDma, settled, bind_assoc, ensures_store_status_iff, ensures_pause_iff, hreset]

/-- A channel that is not armed is armed by the last store of the start sequence and by no other. -/
theorem ensures_startDma_iff (h : s.armed = false) (head : BusAddress) (f : Unit → Program α) :
    Ensures r (startDma head >>= f) post s ↔ (f ()).Ensures r post { s with armed := true } := by
  have hreset : Plant.armedAfter false Dma.reset = false := by decide
  have hclear : Plant.armedAfter false Dma.clearFlags = false := by decide
  have hstart : Plant.armedAfter false Dma.start = true := by decide
  have hblock : ∀ s : Plant, s.perform (.store .dma Dma.controlBlock.offset head.value) = .ok s := by
    intro s
    rw [Plant.perform, if_neg (by decide)]
  have herrors : ∀ s : Plant, s.perform (.store .dma Dma.errors.offset Dma.clearErrors) = .ok s := by
    intro s
    rw [Plant.perform, if_neg (by decide)]
  have hsame : ({ s with armed := false } : Plant) = s := by rw [← h]
  have hreplay : ∀ slots, s.replay r slots = s := Plant.replay_of_not_armed h
  simp only [startDma, settled, bind_assoc, ensures_pause_iff, ensures_store_status_iff, h, hreset, hreplay, hsame,
    hclear]
  rw [store, ensures_inert_iff hblock, ensures_pause_iff, store, ensures_inert_iff herrors, ensures_pause_iff]
  simp only [ensures_store_status_iff, ensures_pause_iff, h, hstart, hreplay, forall_const]

/-! ### Clock and pacer -/

theorem ensures_pacerStore_iff (register : Register) (value : UInt32) (micros : UInt64) (f : Unit → Program α) :
    Ensures r (pacerStore register value micros >>= f) post s ↔ (f ()).Ensures r post s := by
  simp only [pacerStore, settled, bind_assoc, ensures_store_pacer_iff, ensures_pause_iff]

theorem ensures_pacerModify_iff (register : Register) (change : UInt32 → UInt32) (f : Unit → Program α) :
    Ensures r (pacerModify register change >>= f) post s ↔ (f ()).Ensures r post s := by
  simp only [pacerModify, bind_assoc, ensures_read_iff, ensures_pacerStore_iff, forall_const]

theorem ensures_quiescePacer_iff (q : Sequencer) (f : Unit → Program α) :
    Ensures r (q.quiescePacer >>= f) post s ↔ (f ()).Ensures r post s := by
  unfold quiescePacer
  split <;> exact ensures_pacerStore_iff _ _ _ f

theorem wholeDivisor_eq_ok {divisor : UInt16} (h : divisor.toNat ≤ 4095) :
    ∃ word, Clock.wholeDivisor divisor = .ok word := by
  have hmax : Clock.integerPart.max = 4095 := by decide
  rw [Clock.wholeDivisor, Field.set, hmax, if_pos h]
  exact ⟨_, rfl⟩

theorem frame_eq_ok (ticks : UInt32) : ∃ word, Pcm.frame (frameLengthOf ticks) = .ok word := by
  have hmax : Pcm.frameLength.max = 1023 := by decide
  have hlength : (frameLengthOf ticks).toNat ≤ 1023 := by
    have hmin : min (ticks.toNat - 1) Pcm.maxFrameLength.toNat ≤ 1023 := Nat.min_le_right _ _
    rw [frameLengthOf, UInt16.toNat_ofNat_of_lt' (by rw [UInt16.size]; omega)]
    exact hmin
  rw [Pcm.frame, Field.set, hmax, if_pos hlength]
  exact ⟨_, rfl⟩

theorem ensures_startClock_iff {q : Sequencer} (h : q.clockDivisor.toNat ≤ 4095) (f : Unit → Program α) :
    Ensures r (q.startClock >>= f) post s ↔ (f ()).Ensures r post s := by
  obtain ⟨word, hword⟩ := wholeDivisor_eq_ok h
  simp only [startClock, settled, bind_assoc, ensures_store_clock_iff, ensures_pause_iff, ensures_ofExcept_iff hword]

/-- The start sequence arms a channel that is not armed, and does nothing else. -/
theorem ensures_start_iff {q : Sequencer} (hdivisor : q.clockDivisor.toNat ≤ 4095) (h : s.armed = false)
    (head : BusAddress) (micros : UInt32) (f : Unit → Program α) :
    Ensures r (q.start head micros >>= f) post s ↔ (f ()).Ensures r post { s with armed := true } := by
  unfold start
  rw [bind_assoc, ensures_log_iff]
  cases q.pacer with
  | pwm =>
    simp only [bind_assoc, ensures_pacerStore_iff, ensures_startClock_iff hdivisor, ensures_startDma_iff h]
  | pcm =>
    obtain ⟨word, hword⟩ := frame_eq_ok (ticksOf micros)
    simp only [bind_assoc, ensures_pacerStore_iff, ensures_pacerModify_iff, ensures_startClock_iff hdivisor,
      ensures_ofExcept_iff hword, ensures_startDma_iff h]

/-! ### Pins -/

theorem ensures_driveInactive_iff (mask : UInt32) (invert : Bool) (f : Unit → Program α) :
    Ensures r (driveInactive mask invert >>= f) post s ↔
      ∀ slots, (f ()).Ensures r post
        { s.replay r slots with
          levels := drive (s.replay r slots).levels (Block.register .gpio (Gpio.inactiveOffset invert)) mask } :=
  ensures_store_gpio_iff _ _ f

/-- A change of function leaves the plant alone, whatever function the pin had. -/
theorem ensures_setFunction {pin : Pin} {function : PinFunction} {f : PinFunction → Program α}
    (h : ∀ previous, (f previous).Ensures r post s) : Ensures r (setFunction pin function >>= f) post s := by
  simp only [setFunction, bind_assoc, pure_bind, ensures_read_iff, ensures_store_gpio_iff, Plant.drive_select]
  exact fun answer slots => (h _).replay slots

theorem ensures_makeOutputs {pins : List Pin} {f : List (Pin × PinFunction) → Program α}
    (h : ∀ previous, previous.map (·.1) = pins → (f previous).Ensures r post s) :
    Ensures r (makeOutputs pins >>= f) post s := by
  induction pins generalizing f with
  | nil => exact h [] rfl
  | cons pin rest ih =>
    simp only [makeOutputs, bind_assoc, pure_bind]
    apply ensures_setFunction
    intro previous
    rw [ensures_log_iff]
    apply ih
    intro others hothers
    exact h ((pin, previous) :: others) (by rw [List.map_cons, hothers])

/-- Claimed pins are driven to their inactive level and remembered. -/
theorem ensures_claimPins {q : Sequencer} {pins : List Pin} {invert : Bool} {f : Sequencer → Program α}
    (h : ∀ slots previous, previous.map (·.1) = pins →
      (f { q with claimed := q.claimed ++ previous }).Ensures r post
        { s.replay r slots with
          levels := drive (s.replay r slots).levels (Block.register .gpio (Gpio.inactiveOffset invert))
            (Pin.maskOf pins) }) :
    Ensures r (q.claimPins pins invert >>= f) post s := by
  simp only [claimPins, bind_assoc, pure_bind, ensures_driveInactive_iff]
  intro slots
  exact ensures_makeOutputs fun previous hprevious => h slots previous hprevious

/-- Released pins are driven to their inactive level and forgotten; without claimed pins nothing happens. -/
theorem ensures_releasePins {q : Sequencer} {invert : Bool} {f : Sequencer → Program α}
    (hnone : q.claimed = [] → (f q).Ensures r post s)
    (hsome : q.claimed ≠ [] → ∀ slots, (f { q with claimed := [] }).Ensures r post
      { s.replay r slots with
        levels := drive (s.replay r slots).levels (Block.register .gpio (Gpio.inactiveOffset invert))
          (Pin.maskOf (q.claimed.map (·.1))) }) :
    Ensures r (q.releasePins invert >>= f) post s := by
  unfold releasePins
  split
  · rename_i hempty
    exact hnone (List.isEmpty_iff.1 hempty)
  · rename_i hclaimed
    simp only [bind_assoc, pure_bind, ensures_driveInactive_iff]
    intro slots
    refine Program.ensures_each ?_ (hsome (fun h => hclaimed (by rw [h]; rfl)) slots)
    rintro ⟨pin, previous⟩ g s hg
    simp only [bind_assoc, pure_bind]
    exact ensures_setFunction fun _ => hg

end Sequencer

end PulseWidth
