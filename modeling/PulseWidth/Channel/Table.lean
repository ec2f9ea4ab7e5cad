import PulseWidth.Channel.Pin

/-!
# Channels

A channel is a pin with its duty, a number of sample slices.  A fraction of the cycle is turned into the nearest number
of slices, a half going up; fractions outside the unit interval, and what is no number, are refused.

The first slot of a cycle turns every enabled channel on.  Slot `j > 0` turns off every enabled channel whose duty
is below `j`, so that a channel is active for the slots up to its duty.

A table has one channel per configured pin, in the order of the configuration.  A request names pins; it is carried
out for all of them or, when one of them is unknown or the duty is too long, for none.
-/

namespace PulseWidth

open Text

/-- A pin with its duty in sample slices. -/
structure Channel where
  pin : Pin
  duty : UInt32
  enabled : Bool
deriving DecidableEq, Repr

namespace Channel

/-- A channel that drives its pin for `duty` slices. -/
def driving (pin : Pin) (duty : UInt32) : Channel := ⟨pin, duty, true⟩

/-- A channel that leaves its pin alone. -/
def silent (pin : Pin) : Channel := ⟨pin, 0, false⟩

/-- The text of the channel in listings. -/
def debug (c : Channel) : String :=
  fields "Channel"
    [("pin", c.pin.debug), ("duty", toString c.duty.toNat), ("enabled", toString c.enabled)]

end Channel

/-! ### Duties -/

/-- The duty that a fraction of the cycle stands for. -/
def dutyOfFraction (fraction : Float) (nrSamples : UInt32) : Except ChannelError UInt32 :=
  if 0.0 ≤ fraction ∧ fraction ≤ 1.0 then
    .ok (UInt32.ofNat (Decimal.nearestWhole (fraction * nrSamples.toFloat)))
  else .error (.fractionOutOfRange fraction)

/-- The duty is the number of slices nearest to the product of the fraction and their number; of the product of the two
doubles it is asked that it is finite and no more than that number. -/
theorem nearest_of_dutyOfFraction {fraction : Float} {nrSamples duty : UInt32} {negative : Bool} {significand : Nat}
    {exponent : Int} (h : dutyOfFraction fraction nrSamples = .ok duty)
    (hproduct : Decimal.Binary.ofFloat (fraction * nrSamples.toFloat) = .finite negative significand exponent)
    (hle : significand <<< exponent.toNat ≤ 1 <<< (-exponent).toNat * nrSamples.toNat) :
    duty ≤ nrSamples ∧
      Decimal.IsNearest (significand <<< exponent.toNat) (1 <<< (-exponent).toNat) duty.toNat := by
  obtain ⟨whole, hwhole⟩ : ∃ whole, Decimal.nearestWhole (fraction * nrSamples.toFloat) = whole := ⟨_, rfl⟩
  have hnearest := (Decimal.nearestWhole_eq_iff hproduct).1 hwhole
  have hmost : whole ≤ nrSamples.toNat :=
    hnearest.le (Decimal.isNearest_mul (Decimal.one_shiftLeft_pos _) nrSamples.toNat) hle
  unfold dutyOfFraction at h
  rw [hwhole] at h
  split at h
  · cases h
    have hduty : (UInt32.ofNat whole).toNat = whole :=
      UInt32.toNat_ofNat_of_lt' (Nat.lt_of_le_of_lt hmost nrSamples.toNat_lt)
    rw [UInt32.le_iff_toNat_le, hduty]
    exact ⟨hmost, hnearest⟩
  · cases h

example : (dutyOfFraction 0.5 5).toOption = some 3 := by decide +kernel

/-! ### Sample words -/

/-- Whether a channel has its bit in the word of a slot. -/
def Channel.acts (c : Channel) (slot : UInt32) : Bool := c.enabled && (slot == 0 || c.duty < slot)

/-- The word of a slot: the bits of the pins that it turns on or off. -/
def slotMask (channels : List Channel) (slot : UInt32) : UInt32 :=
  Pin.maskOf ((channels.filter (·.acts slot)).map (·.pin))

/-! ### Tables -/

/-- The channels of a cycle of `nrSamples` slices. -/
structure ChannelTable where
  channels : List Channel
  nrSamples : UInt32
deriving DecidableEq, Repr

namespace ChannelTable

/-- The table of silent channels for a list of pins that can be configured. -/
def ofPins (pins : List Pin) (nrSamples : UInt32) : Except PinListError ChannelTable :=
  match Pin.check pins with
  | .error e => .error e
  | .ok () => .ok ⟨pins.map Channel.silent, nrSamples⟩

/-- The channel of a pin. -/
def get? (t : ChannelTable) (pin : Pin) : Option Channel := t.channels.find? (·.pin == pin)

/-- The bits of the configured pins. -/
def pinMask (t : ChannelTable) : UInt32 := Pin.maskOf (t.channels.map (·.pin))

/-- Why a request for a pin is refused; the duty is looked at first. -/
def refusal? (t : ChannelTable) (duty : UInt32) (pin : Pin) : Option ChannelError :=
  if t.nrSamples < duty then some (.dutyOutOfRange pin duty t.nrSamples)
  else if (t.get? pin).isNone then some (.unknownPin pin)
  else none

/-- Drives the listed pins for `duty` slices. -/
def setMany (t : ChannelTable) (pins : List Pin) (duty : UInt32) : Except ChannelError ChannelTable :=
  match pins.findSome? (t.refusal? duty) with
  | some e => .error e
  | none =>
    .ok { t with channels := t.channels.map fun c => if pins.contains c.pin then .driving c.pin duty else c }

/-- Drives a pin for `duty` slices. -/
def set (t : ChannelTable) (pin : Pin) (duty : UInt32) : Except ChannelError ChannelTable := t.setMany [pin] duty

/-- Leaves a pin alone from now on. -/
def release (t : ChannelTable) (pin : Pin) : Except ChannelError ChannelTable :=
  if (t.get? pin).isNone then .error (.unknownPin pin)
  else .ok { t with channels := t.channels.map fun c => if c.pin = pin then .silent pin else c }

/-- Leaves all pins alone from now on. -/
def silence (t : ChannelTable) : ChannelTable :=
  { t with channels := t.channels.map fun c => .silent c.pin }

end ChannelTable

end PulseWidth
