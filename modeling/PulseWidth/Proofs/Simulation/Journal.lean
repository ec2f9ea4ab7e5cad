import PulseWidth.Config
import PulseWidth.Proofs.Lists
import PulseWidth.Simulation.Window

/-!
# The order of stores

What a list of events, the oldest first, tells about the DMA channel: it is armed if the word that was last stored to
its status register has the active bit.  `Orderly` is the order in which an engine stores to its registers.  It speaks
about each store and what came before it, so that it is shown one event at a time.
-/

namespace PulseWidth

/-- The control register of the block that paces. -/
def Pacer.control : Pacer → Register
  | pwm => Pwm.control
  | pcm => Pcm.control

namespace Simulation

/-- The word that was stored last to a register. -/
def latest (block : String) (offset : UInt64) (events : List Event) : Option UInt32 :=
  events.reverse.findSome? fun
    | .store b o value => if b = block ∧ o = offset then some value else none
    | _ => none

def armed (events : List Event) : Bool := (latest "dma" Dma.status.offset events).any Dma.active.isSet

/-- The given events are among those that have happened since the channel was last armed, in their order. -/
def SinceArmed (before wanted : List Event) : Prop :=
  ∃ old recent, before = old ++ recent ∧ (∀ part, part <+: recent → armed (old ++ part) = false) ∧
    wanted.Sublist recent

/-- The offset of a function select register. -/
def IsSelect (offset : UInt64) : Prop := offset < 0x18

instance (offset : UInt64) : Decidable (IsSelect offset) := inferInstanceAs (Decidable (offset < 0x18))

/-- The stores among some events. -/
def written (events : List Event) : List (String × UInt64 × UInt32) :=
  events.filterMap fun
    | .store block offset value => some (block, offset, value)
    | _ => none

/-- The configured pins are driven to their inactive level. -/
def settling (config : Config) : Event :=
  .store "gpio" (Gpio.inactiveOffset config.invert) (Pin.maskOf config.pins)

/-- What has to have happened before a store by an engine with a chain at `head`. -/
structure Permitted (config : Config) (head : BusAddress) (before : List Event) (block : String) (offset : UInt64)
    (value : UInt32) : Prop where
  /-- A channel that is armed has been reset and been given the head of the chain. -/
  arming : block = "dma" → offset = Dma.status.offset → Dma.active.isSet value = true →
    SinceArmed before
      [.store "dma" Dma.status.offset Dma.reset, .store "dma" Dma.controlBlock.offset head.value]
  spared : armed before = true →
    block ≠ "clk" ∧ ¬ (block = "gpio" ∧ IsSelect offset) ∧
      ¬ (block = "dma" ∧ (offset = Dma.controlBlock.offset ∨ offset = Dma.errors.offset))
  /-- An armed channel is paced by nothing new, except that transmission is turned on. -/
  pacing : armed before = true → block = config.pacer.block.name →
    config.pacer = .pcm ∧ offset = Pcm.control.offset ∧
      ∃ word, latest block offset before = some word ∧ Pcm.transmit.isSet word = false ∧
        value = Pcm.transmit.raise word
  /-- The pins have been driven before their functions change. -/
  driven : block = "gpio" → IsSelect offset → SinceArmed before [settling config]

/-- Every store is permitted after what came before it. -/
def Orderly (config : Config) (head : BusAddress) (events : List Event) : Prop :=
  ∀ before block offset value after, events = before ++ .store block offset value :: after →
    Permitted config head before block offset value

variable {config : Config} {head : BusAddress} {events before wanted : List Event} {event : Event} {block : String}
  {offset : UInt64} {value : UInt32}

@[simp] theorem latest_snoc_store (there : String) (place : UInt64) :
    latest block offset (events ++ [.store there place value]) =
      if there = block ∧ place = offset then some value else latest block offset events := by
  rw [latest, findSome?_reverse_snoc, latest]
  by_cases h : there = block ∧ place = offset <;> simp [h]

@[simp] theorem latest_snoc_load (there : String) (place : UInt64) :
    latest block offset (events ++ [.load there place value]) = latest block offset events :=
  findSome?_reverse_snoc

@[simp] theorem latest_snoc_delay (micros : UInt64) :
    latest block offset (events ++ [.delay micros]) = latest block offset events :=
  findSome?_reverse_snoc

/-- A store that is not to the status register arms nothing and disarms nothing. -/
theorem armed_snoc_store (h : ¬ (block = "dma" ∧ offset = Dma.status.offset)) :
    armed (events ++ [.store block offset value]) = armed events := by
  rw [armed, latest_snoc_store, if_neg h, armed]

theorem armed_snoc_status :
    armed (events ++ [.store "dma" Dma.status.offset value]) = Dma.active.isSet value := by
  rw [armed, latest_snoc_store, if_pos ⟨rfl, rfl⟩]
  rfl

@[simp] theorem armed_snoc_load : armed (events ++ [.load block offset value]) = armed events := by
  rw [armed, latest_snoc_load, armed]

@[simp] theorem armed_snoc_delay (micros : UInt64) : armed (events ++ [.delay micros]) = armed events := by
  rw [armed, latest_snoc_delay, armed]

/-- While the channel is not armed, nothing is asked of a store but what arming it and selecting functions need. -/
theorem Permitted.of_not_armed (h : armed before = false)
    (harming : block = "dma" → offset = Dma.status.offset → Dma.active.isSet value = true →
      SinceArmed before
        [.store "dma" Dma.status.offset Dma.reset, .store "dma" Dma.controlBlock.offset head.value])
    (hdriven : block = "gpio" → IsSelect offset → SinceArmed before [settling config]) :
    Permitted config head before block offset value where
  arming := harming
  spared := fun harmed => absurd (h.symm.trans harmed) Bool.false_ne_true
  pacing := fun harmed => absurd (h.symm.trans harmed) Bool.false_ne_true
  driven := hdriven

theorem written_append (first second : List Event) : written (first ++ second) = written first ++ written second :=
  List.filterMap_append

theorem SinceArmed.not_armed (h : SinceArmed before wanted) : armed before = false := by
  obtain ⟨old, recent, rfl, hrests, -⟩ := h
  exact hrests recent (List.prefix_refl recent)

theorem sinceArmed_nil (h : armed before = false) : SinceArmed before [] := by
  refine ⟨before, [], by simp, ?_, List.Sublist.refl _⟩
  intro part hpart
  rw [List.prefix_nil.1 hpart, List.append_nil]
  exact h

/-- One more event while the channel stays as it is. -/
private theorem rests_snoc {old recent : List Event}
    (h : ∀ part, part <+: recent → armed (old ++ part) = false)
    (hnext : armed (old ++ recent ++ [event]) = false) :
    ∀ part, part <+: recent ++ [event] → armed (old ++ part) = false := by
  intro part hpart
  rcases List.prefix_concat_iff.1 hpart with rfl | hpart
  · rw [← List.append_assoc]
    exact hnext
  · exact h part hpart

theorem SinceArmed.sublist {fewer : List Event} (h : SinceArmed before wanted) (hsub : fewer.Sublist wanted) :
    SinceArmed before fewer := by
  obtain ⟨old, recent, rfl, hrests, hwanted⟩ := h
  exact ⟨old, recent, rfl, hrests, hsub.trans hwanted⟩

theorem SinceArmed.snoc (h : SinceArmed before wanted) (hnext : armed (before ++ [event]) = false) :
    SinceArmed (before ++ [event]) (wanted ++ [event]) := by
  obtain ⟨old, recent, rfl, hrests, hwanted⟩ := h
  exact ⟨old, recent ++ [event], List.append_assoc .., rests_snoc hrests hnext, hwanted.append (.refl _)⟩

theorem SinceArmed.skip (h : SinceArmed before wanted) (hnext : armed (before ++ [event]) = false) :
    SinceArmed (before ++ [event]) wanted := by
  obtain ⟨old, recent, rfl, hrests, hwanted⟩ := h
  refine ⟨old, recent ++ [event], List.append_assoc .., rests_snoc hrests hnext, ?_⟩
  exact hwanted.trans (List.sublist_append_left _ _)

theorem orderly_nil : Orderly config head [] := by
  intro before block offset value after h
  cases before <;> cases h

/-- Events are orderly one by one. -/
theorem orderly_snoc_iff : Orderly config head (events ++ [event]) ↔
    Orderly config head events ∧
      ∀ block offset value, event = .store block offset value → Permitted config head events block offset value := by
  constructor
  · intro h
    refine ⟨?_, ?_⟩
    · rintro before block offset value after rfl
      exact h before block offset value (after ++ [event]) (by simp)
    · rintro block offset value rfl
      exact h events block offset value [] rfl
  · rintro ⟨h, hlast⟩ before block offset value after heq
    rcases snoc_eq_append_cons_iff.1 heq with ⟨-, rfl, rfl⟩ | ⟨init, -, rfl⟩
    · exact hlast block offset value rfl
    · exact h before block offset value init rfl

end Simulation

end PulseWidth
