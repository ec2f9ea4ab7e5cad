import PulseWidth.Address.Basic

/-!
# Faults

A fault is a broken contract between the parts of the program: a value too wide for its field, an access outside
an arena or outside a register window.  It ends the operation that met it; what happened before stays.

An access is to a word, which is four bytes.  Whether they are inside is decided by the place where they end.  For
the last offsets of all, that place is too large to be told: a program can be built so that this is a fault of its own,
or so that the sum is taken modulo `2 ^ 64` (`Arithmetic`).
-/

namespace PulseWidth

open Text

/-- A broken contract. -/
inductive Fault where
  /-- A value above `max` for a field that holds at most `max`. -/
  | tooWide (max : Nat)
  /-- A sum that is too large for a word of 64 bits. -/
  | sumTooLarge
  | unalignedAccess (offset : ArenaOffset)
  | accessOutside (offset : ArenaOffset)
  /-- A position that a vector of `length` items does not have. -/
  | missingIndex (length index : Nat)
  | outsideWindow (block : String) (offset : UInt64)
deriving DecidableEq, Repr

/-- The wording of a fault. -/
def Fault.message : Fault → String
  | tooWide max => "value out of bounds [0, " ++ toString max ++ "]"
  | sumTooLarge => "attempt to add with overflow"
  | unalignedAccess offset => "unaligned arena access at " ++ offset.debug
  | accessOutside offset => "arena access at " ++ offset.debug ++ " is out of bounds"
  | missingIndex length index =>
    "index out of bounds: the len is " ++ toString length ++ " but the index is " ++ toString index
  | outsideWindow block offset =>
    "register offset " ++ hex 1 offset.toNat ++ " outside the " ++ block ++ " window"

/-- How sums are formed that may be too large. -/
inductive Arithmetic where
  | checked
  | modular
deriving DecidableEq, Repr

namespace Arithmetic

/-- The sum of two words. -/
def add (m : Arithmetic) (x y : UInt64) : Except Fault UInt64 :=
  if m = .checked ∧ UInt64.size ≤ x.toNat + y.toNat then .error .sumTooLarge else .ok (x + y)

/-- The fault of an access to the word at an offset of `length` bytes, if it is refused; it is `outside` for a word
that is not aligned or does not end among them. -/
def refusal? (m : Arithmetic) (aligned : Bool) (offset length : UInt64) (outside : Fault) : Option Fault :=
  if aligned then
    match m.add offset 4 with
    | .error reason => some reason
    | .ok stop => if stop ≤ length then none else some outside
  else some outside

variable {m : Arithmetic} {x y sum offset length : UInt64} {aligned : Bool} {outside : Fault}

theorem add_eq_ok_iff : m.add x y = .ok sum ↔ sum = x + y ∧ (x.toNat + y.toNat < UInt64.size ∨ m = .modular) := by
  unfold add
  cases m with
  | checked =>
    by_cases hlarge : UInt64.size ≤ x.toNat + y.toNat
    · simp [hlarge]
    · simp [hlarge, eq_comm, Nat.not_le.1 hlarge]
  | modular => simp [eq_comm]

theorem refusal?_eq_none_iff : m.refusal? aligned offset length outside = none ↔
    aligned = true ∧ (offset.toNat + 4 < UInt64.size ∨ m = .modular) ∧ offset + 4 ≤ length := by
  cases aligned with
  | false => simp [refusal?]
  | true =>
    simp only [refusal?, if_true, true_and]
    constructor
    · intro h
      split at h
      · cases h
      · rename_i stop hstop
        obtain ⟨rfl, hfits⟩ := add_eq_ok_iff.1 hstop
        refine ⟨hfits, ?_⟩
        split at h
        · assumption
        · cases h
    · rintro ⟨hfits, hle⟩
      rw [add_eq_ok_iff.2 ⟨rfl, hfits⟩]
      exact if_pos hle

/-- An aligned word inside is not refused, in whatever way sums are formed. -/
theorem refusal?_eq_none (haligned : aligned = true) (hend : offset.toNat + 4 ≤ length.toNat) :
    m.refusal? aligned offset length outside = none := by
  have hlength := length.toNat_lt
  have hfour : (4 : UInt64).toNat = 4 := rfl
  have hfits : offset.toNat + 4 < UInt64.size := Nat.lt_of_le_of_lt hend hlength
  refine refusal?_eq_none_iff.2 ⟨haligned, .inl hfits, ?_⟩
  rw [UInt64.le_iff_toNat_le, UInt64.toNat_add, hfour, Nat.mod_eq_of_lt hfits]
  exact hend

end Arithmetic

end PulseWidth
