import PulseWidth.Proofs.Register.PinFunction
import PulseWidth.Proofs.Simulation.Panel

/-!
# Pin functions of a GPIO window

The first four words of a GPIO window hold the functions of the pins.  To change the function of a pin is to change
the bits that it owns; so pins that are claimed one after the other are all outputs in the end, each is remembered
with the function that it was found with, and giving these back leaves the words as they were found.
-/

namespace PulseWidth

/-- A bit of the `k`-th function select word belongs to the pin. -/
def Pin.Owns (p : Pin) (k bit : Nat) : Prop := p.index.val / 10 = k ∧ p.index.val % 10 = bit / 3

instance (p : Pin) (k bit : Nat) : Decidable (p.Owns k bit) :=
  inferInstanceAs (Decidable (p.index.val / 10 = k ∧ p.index.val % 10 = bit / 3))

theorem Pin.toNat_number (p : Pin) : p.number.toNat = p.index.val := by
  have h : ∀ i : Fin 32, (Pin.mk i).number.toNat = i.val := by decide
  exact h p.index

theorem Pin.selectOffset_eq (p : Pin) : Gpio.selectOffset p.number = UInt64.ofNat (4 * (p.index.val / 10)) := by
  have h : ∀ i : Fin 32, Gpio.selectOffset (Pin.mk i).number = UInt64.ofNat (4 * (i.val / 10)) := by decide
  exact h p.index

/-- Two pins that own the same bit are the same. -/
theorem Pin.eq_of_owns {p q : Pin} {k bit : Nat} (hp : p.Owns k bit) (hq : q.Owns k bit) : p = q := by
  obtain ⟨hp1, hp2⟩ := hp
  obtain ⟨hq1, hq2⟩ := hq
  cases p
  cases q
  congr 1
  apply Fin.ext
  dsimp only at *
  omega

namespace Simulation.Window

/-- The function of a pin, read from a GPIO window. -/
def functionOf (w : Window) (p : Pin) : PinFunction := Gpio.function (w.peek (Gpio.selectOffset p.number)) p.number

/-- A bit of the `k`-th function select word of a GPIO window. -/
def selectBit (w : Window) (k bit : Nat) : Bool := (w.peek (UInt64.ofNat (4 * k))).toNat.testBit bit

/-- A GPIO window after a pin's function has been changed. -/
def withPin (w : Window) (p : Pin) (f : PinFunction) : Window :=
  w.poke (Gpio.selectOffset p.number) (Gpio.withFunction (w.peek (Gpio.selectOffset p.number)) p.number f)

/-- Two GPIO windows agree in the function select bits that none of the pins owns. -/
def AgreeOff (pins : List Pin) (w w' : Window) : Prop :=
  ∀ k < 4, ∀ bit, (∀ p ∈ pins, ¬ p.Owns k bit) → w'.selectBit k bit = w.selectBit k bit

variable {w w' : Window} {p q : Pin} {f : PinFunction} {pins : List Pin}

theorem position_select {k : Nat} (hk : k < 4) : position (UInt64.ofNat (4 * k)) = k := by
  have h : ∀ i : Fin 4, position (UInt64.ofNat (4 * i.val)) = i.val := by decide
  exact h ⟨k, hk⟩

/-- The bits that a pin owns are the code of its function. -/
theorem selectBit_of_owns {k bit : Nat} (h : p.Owns k bit) :
    w.selectBit k bit = (w.functionOf p).code.toNat.testBit (bit % 3) := by
  obtain ⟨hword, hslot⟩ := h
  have hplace : 3 * (p.index.val % 10) + bit % 3 = bit := by omega
  have hin : bit % 3 < 3 := Nat.mod_lt _ (by decide)
  rw [functionOf, Gpio.testBit_code_function, p.toNat_number, hplace, decide_eq_true hin, Bool.true_and, selectBit,
    p.selectOffset_eq, hword]

theorem functionOf_eq_of_selectBit (h : ∀ bit, p.Owns (p.index.val / 10) bit →
    w'.selectBit (p.index.val / 10) bit = w.selectBit (p.index.val / 10) bit) : w'.functionOf p = w.functionOf p := by
  rw [functionOf, Gpio.function_eq_iff]
  intro bit hbit
  have howns : p.Owns (p.index.val / 10) (3 * (p.index.val % 10) + bit) := ⟨rfl, by omega⟩
  have hplace : (3 * (p.index.val % 10) + bit) % 3 = bit := by omega
  have hown := selectBit_of_owns (w := w) howns
  rw [hplace] at hown
  rw [p.toNat_number, ← hown, ← h _ howns, selectBit, p.selectOffset_eq]

theorem selectBit_withPin (hsize : 4 ≤ w.words.size) {k : Nat} (hk : k < 4) (bit : Nat) :
    (w.withPin p f).selectBit k bit =
      if p.Owns k bit then f.code.toNat.testBit (bit % 3) else w.selectBit k bit := by
  have hword : p.index.val / 10 < 4 := by have := p.index.isLt; omega
  rw [selectBit, withPin, peek_poke, p.selectOffset_eq, position_select hword, position_select hk]
  by_cases hsame : p.index.val / 10 = k
  · have hin : p.index.val / 10 < w.words.size := by omega
    rw [if_pos ⟨hsame, hin⟩, Gpio.testBit_withFunction, p.toNat_number, hsame]
    by_cases hslot : p.index.val % 10 = bit / 3
    · rw [if_pos hslot.symm, if_pos ⟨hsame, hslot⟩]
    · rw [if_neg fun h => hslot h.symm, if_neg fun h => hslot h.2, selectBit]
  · rw [if_neg fun h => hsame h.1, if_neg fun h => hsame h.1, selectBit]

theorem functionOf_withPin_self (hsize : 4 ≤ w.words.size) : (w.withPin p f).functionOf p = f := by
  have hword : p.index.val / 10 < 4 := by have := p.index.isLt; omega
  have hin : p.index.val / 10 < w.words.size := by omega
  rw [functionOf, withPin, peek_poke, p.selectOffset_eq, position_select hword, if_pos ⟨rfl, hin⟩,
    Gpio.function_withFunction, if_pos rfl]

theorem functionOf_withPin_of_ne (hsize : 4 ≤ w.words.size) (hne : q ≠ p) :
    (w.withPin p f).functionOf q = w.functionOf q := by
  have hword : q.index.val / 10 < 4 := by have := q.index.isLt; omega
  apply functionOf_eq_of_selectBit
  intro bit howns
  rw [selectBit_withPin hsize hword, if_neg]
  exact fun h => hne (Pin.eq_of_owns howns h)

theorem AgreeOff.refl (pins : List Pin) (w : Window) : AgreeOff pins w w := fun _ _ _ _ => rfl

theorem AgreeOff.trans {w'' : Window} (h : AgreeOff pins w w') (h' : AgreeOff pins w' w'') : AgreeOff pins w w'' :=
  fun k hk bit hfree => (h' k hk bit hfree).trans (h k hk bit hfree)

theorem AgreeOff.mono {more : List Pin} (h : AgreeOff pins w w') (hsub : pins ⊆ more) : AgreeOff more w w' :=
  fun k hk bit hfree => h k hk bit fun p hp => hfree p (hsub hp)

theorem AgreeOff.functionOf_eq (h : AgreeOff pins w w') (hp : p ∉ pins) : w'.functionOf p = w.functionOf p := by
  have hword : p.index.val / 10 < 4 := by have := p.index.isLt; omega
  apply functionOf_eq_of_selectBit
  intro bit howns
  apply h _ hword
  exact fun q hq howns' => hp (Pin.eq_of_owns howns' howns ▸ hq)

/-- The set and the clear register are behind the function select words. -/
theorem agreeOff_poke_inactive (w : Window) (invert : Bool) (value : UInt32) :
    AgreeOff [] w (w.poke (Gpio.inactiveOffset invert) value) := by
  intro k hk bit _
  have hposition : 4 ≤ position (Gpio.inactiveOffset invert) := by
    cases invert <;> decide
  rw [selectBit, peek_poke, position_select hk, if_neg, selectBit]
  rintro ⟨heq, -⟩
  omega

/-- A change of a pin's function is no difference among pins that have this one. -/
theorem AgreeOff.withPin (h : AgreeOff pins w w') (hsize : 4 ≤ w'.words.size) (hp : p ∈ pins) (f : PinFunction) :
    AgreeOff pins w (w'.withPin p f) := by
  intro k hk bit hfree
  rw [selectBit_withPin hsize hk, if_neg (hfree p hp), h k hk bit hfree]

/-- A pin that gets the function it was found with makes no difference any more. -/
theorem AgreeOff.giveBack (h : AgreeOff (p :: pins) w w') (hsize : 4 ≤ w'.words.size) :
    AgreeOff pins w (w'.withPin p (w.functionOf p)) := by
  intro k hk bit hfree
  rw [selectBit_withPin hsize hk]
  by_cases howns : p.Owns k bit
  · rw [if_pos howns, selectBit_of_owns howns]
  · rw [if_neg howns]
    apply h k hk bit
    intro q hq
    rcases List.mem_cons.1 hq with rfl | hq
    · exact howns
    · exact hfree q hq

theorem agreeOff_nil_iff : AgreeOff [] w w' ↔
    ∀ k < 4, w'.peek (UInt64.ofNat (4 * k)) = w.peek (UInt64.ofNat (4 * k)) := by
  constructor
  · intro h k hk
    apply UInt32.toNat_inj.1
    apply Nat.eq_of_testBit_eq
    exact fun bit => h k hk bit (by simp)
  · intro h k hk bit _
    rw [selectBit, h k hk, selectBit]

end Simulation.Window

end PulseWidth
