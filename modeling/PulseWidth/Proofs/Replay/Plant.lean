import PulseWidth.Engine.Basic
import PulseWidth.Proofs.Memory.Arena

/-!
# The DMA engine beside the control thread

A plant is what the control thread and the DMA engine share: the arena, the levels of the pins, and whether the
channel is armed.  While it is armed, the engine copies sample words to the registers that set and clear pins, at
any time and from any slot; one copy is atomic.  `Rests` says that a pin has some level and that no copy can change
it; it is kept by copies of all slots.
-/

namespace PulseWidth

/-! ### What is replayed -/

/-- What the DMA engine replays: the slots of a cycle, and the registers that their words go to. -/
structure Replay where
  layout : ChainLayout
  targets : ChainTargets

namespace Replay

/-- The replay of a configuration with `n` samples. -/
def of (config : Config) (n : UInt32) : Replay := ⟨⟨n⟩, .of config.invert config.pacer⟩

/-- The register that the word of a slot goes to. -/
def target (r : Replay) (slot : UInt32) : BusAddress := if slot = 0 then r.targets.turnOn else r.targets.turnOff

end Replay

/-- The levels after a word has been written to a bus address: the bits of the word set or clear pins. -/
def drive (levels : UInt32) (address : BusAddress) (word : UInt32) : UInt32 :=
  if address = Block.register .gpio Gpio.setOffset then levels ||| word
  else if address = Block.register .gpio Gpio.clearOffset then levels &&& ~~~word
  else levels

/-- What the control thread and the DMA engine share. -/
structure Plant where
  arena : Arena
  levels : UInt32
  armed : Bool

namespace Plant

/-- The word of a slot is copied to its register, if the channel is armed. -/
def copy (r : Replay) (s : Plant) (slot : UInt32) : Plant :=
  if s.armed = true ∧ slot < r.layout.nrSamples then
    match s.arena.read (r.layout.sampleOffset slot) with
    | .ok word => { s with levels := drive s.levels (r.target slot) word }
    | .error _ => s
  else s

/-- Some slots are copied, one after the other. -/
def replay (r : Replay) (s : Plant) (slots : List UInt32) : Plant := slots.foldl (copy r) s

/-- The channel is armed by a store of its active bit and disarmed by a store of its reset bit. -/
def armedAfter (armed : Bool) (status : UInt32) : Bool :=
  if Dma.resetBit.isSet status then false else armed || Dma.active.isSet status

/-- The control thread carries an action out. -/
def perform (s : Plant) : Action → Except Fault Plant
  | .store .gpio offset value => .ok { s with levels := drive s.levels (Block.register .gpio offset) value }
  | .store .dma offset value =>
    .ok (if offset = Dma.status.offset then { s with armed := armedAfter s.armed value } else s)
  | .store .clock _ _ | .store .pacer _ _ => .ok s
  | .write offset value => (s.arena.write offset value).map fun arena => { s with arena }
  | .pause _ | .log _ | .print _ => .ok s

variable {r : Replay} {s : Plant} {slot : UInt32}

@[simp] theorem arena_copy : (s.copy r slot).arena = s.arena := by
  unfold copy
  split
  · split <;> rfl
  · rfl

@[simp] theorem armed_copy : (s.copy r slot).armed = s.armed := by
  unfold copy
  split
  · split <;> rfl
  · rfl

theorem copy_of_not_armed (h : s.armed = false) : s.copy r slot = s := by
  simp [copy, h]

@[simp] theorem replay_nil : s.replay r [] = s := rfl

theorem replay_cons (slots : List UInt32) : s.replay r (slot :: slots) = (s.copy r slot).replay r slots := rfl

theorem replay_append (first second : List UInt32) :
    s.replay r (first ++ second) = (s.replay r first).replay r second := List.foldl_append

@[simp] theorem arena_replay (slots : List UInt32) : (s.replay r slots).arena = s.arena := by
  induction slots generalizing s with
  | nil => rfl
  | cons slot slots ih => rw [replay_cons, ih, arena_copy]

@[simp] theorem armed_replay (slots : List UInt32) : (s.replay r slots).armed = s.armed := by
  induction slots generalizing s with
  | nil => rfl
  | cons slot slots ih => rw [replay_cons, ih, armed_copy]

theorem replay_of_not_armed (h : s.armed = false) (slots : List UInt32) : s.replay r slots = s := by
  induction slots with
  | nil => rfl
  | cons slot slots ih => rw [replay_cons, copy_of_not_armed h, ih]

/-! ### Levels -/

theorem isIn_drive_of_not_isIn {p : Pin} {word : UInt32} (h : p.isIn word = false) (levels : UInt32)
    (address : BusAddress) : p.isIn (drive levels address word) = p.isIn levels := by
  unfold drive
  split
  · simp [h]
  · split
    · simp [h]
    · rfl

/-- A word that has the bit of a pin, sent to the register for the active or for the inactive level. -/
theorem isIn_drive_inactive {p : Pin} {word : UInt32} (h : p.isIn word = true) (levels : UInt32) (invert : Bool) :
    p.isIn (drive levels (Block.register .gpio (Gpio.inactiveOffset invert)) word) = invert := by
  cases invert with
  | false =>
    have hne : Block.register .gpio (Gpio.inactiveOffset false) ≠ Block.register .gpio Gpio.setOffset := by decide
    have heq : Block.register .gpio (Gpio.inactiveOffset false) = Block.register .gpio Gpio.clearOffset := rfl
    rw [drive, if_neg hne, if_pos heq, isIn_andNot, h, Bool.not_true, Bool.and_false]
  | true => simp [drive, Gpio.inactiveOffset, h]

/-- A store to a function select register moves no level. -/
theorem drive_select (levels : UInt32) (pin : Pin) (word : UInt32) :
    drive levels (Block.register .gpio (Gpio.selectOffset pin.number)) word = levels := by
  have h : ∀ i : Fin 32,
      Block.register .gpio (Gpio.selectOffset (Pin.mk i).number) ≠ Block.register .gpio Gpio.setOffset ∧
        Block.register .gpio (Gpio.selectOffset (Pin.mk i).number) ≠ Block.register .gpio Gpio.clearOffset := by
    decide
  obtain ⟨hset, hclear⟩ := h pin.index
  rw [drive, if_neg hset, if_neg hclear]

/-! ### Pins that no copy reaches -/

/-- While the channel is armed, no sample word has the bit of the pin. -/
def Absent (r : Replay) (p : Pin) (s : Plant) : Prop :=
  s.armed = true → ∀ slot < r.layout.nrSamples, ∀ word,
    s.arena.read (r.layout.sampleOffset slot) = .ok word → p.isIn word = false

/-- The pin has the given level, and no copy can change it. -/
structure Rests (r : Replay) (p : Pin) (level : Bool) (s : Plant) : Prop where
  level_eq : p.isIn s.levels = level
  absent : Absent r p s

theorem absent_of_not_armed {p : Pin} (h : s.armed = false) : Absent r p s := by
  intro harmed
  rw [h] at harmed
  cases harmed

theorem absent_of_carries {p : Pin} {channels : List Channel} (h : s.arena.Carries r.layout channels)
    (hp : s.armed = true → ∀ slot, p.isIn (slotMask channels slot) = false) : Absent r p s := by
  intro harmed slot hslot word hword
  rw [h slot hslot] at hword
  cases hword
  exact hp harmed slot

theorem Rests.copy {p : Pin} {level : Bool} (h : Rests r p level s) (slot : UInt32) :
    Rests r p level (s.copy r slot) where
  level_eq := by
    unfold Plant.copy
    split
    · rename_i hcopies
      split
      · rename_i word hword
        show p.isIn (drive _ _ _) = level
        rw [isIn_drive_of_not_isIn (h.absent hcopies.1 slot hcopies.2 word hword), h.level_eq]
      · exact h.level_eq
    · exact h.level_eq
  absent := by
    rw [Absent, arena_copy, armed_copy]
    exact h.absent

theorem Rests.replay {p : Pin} {level : Bool} (h : Rests r p level s) (slots : List UInt32) :
    Rests r p level (s.replay r slots) := by
  induction slots generalizing s with
  | nil => exact h
  | cons slot slots ih => exact ih (h.copy slot)

/-- A store of a word without the bit of the pin. -/
theorem Rests.drive_other {p : Pin} {level : Bool} (h : Rests r p level s) {word : UInt32}
    (hp : p.isIn word = false) (address : BusAddress) :
    Rests r p level { s with levels := drive s.levels address word } :=
  ⟨(isIn_drive_of_not_isIn hp _ _).trans h.level_eq, h.absent⟩

/-- A store of a word with the bit of the pin to the register for the inactive level. -/
theorem rests_drive_inactive {p : Pin} {word : UInt32} (hp : p.isIn word = true) (h : Absent r p s) (invert : Bool) :
    Rests r p invert
      { s with levels := drive s.levels (Block.register .gpio (Gpio.inactiveOffset invert)) word } :=
  ⟨isIn_drive_inactive hp _ _, h⟩

end Plant

end PulseWidth
