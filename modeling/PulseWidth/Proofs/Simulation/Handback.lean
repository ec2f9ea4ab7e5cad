import PulseWidth.Proofs.Simulation.Calls
import PulseWidth.Proofs.Simulation.PinFunctions

/-!
# Pins are handed back as they were found

An engine turns its pins into outputs one by one and remembers what each was found as; no request changes a function
select word after that; and when the engine is shut down, each pin is turned back.  As two pins have no bit in common,
it does not matter in which order that happens, and in the end all words are as they were found.
-/

namespace PulseWidth

open Simulation (Bench Panel Window)
open Program (Leads leads_log_iff leads_pure_iff)

variable {α : Type} {post : α → Panel → Prop} {g : Panel}

/-! ### Pins on a panel -/

namespace Simulation.Panel

def gpio (g : Panel) : Window := g.windows.get .gpio

/-- A pin's function has been read and changed. -/
def turn (g : Panel) (pin : Pin) (f : PinFunction) : Panel :=
  (g.load .gpio (Gpio.selectOffset pin.number)).store .gpio (Gpio.selectOffset pin.number)
    (Gpio.withFunction (g.peek .gpio (Gpio.selectOffset pin.number)) pin.number f)

/-- Some pins have been turned, one after the other. -/
def turnAll (g : Panel) (functions : List (Pin × PinFunction)) : Panel :=
  functions.foldl (fun g a => g.turn a.1 a.2) g

theorem size_turn (g : Panel) (pin : Pin) (f : PinFunction) (role : Role) : (g.turn pin f).size role = g.size role :=
  size_store

theorem functionOf_turn_of_ne (hsize : 4 ≤ g.size .gpio) {p q : Pin} (hne : q ≠ p) (f : PinFunction) :
    (g.turn p f).gpio.functionOf q = g.gpio.functionOf q :=
  Window.functionOf_withPin_of_ne (w := g.gpio) hsize hne

/-- The pins are outputs, and the bits of all other pins are as they were found. -/
structure Claimed (pins : List Pin) (found : Window) (g : Panel) : Prop where
  size_le : 4 ≤ g.size .gpio
  output : ∀ p ∈ pins, g.gpio.functionOf p = .output
  agree : Window.AgreeOff pins found g.gpio

variable {pins some : List Pin} {found : Window}

/-- Pins that are turned into outputs are outputs, and those that are outputs stay so. -/
private theorem functionOf_turnAll_output (hsize : 4 ≤ g.size .gpio) {p : Pin}
    (h : p ∈ some ∨ g.gpio.functionOf p = .output) :
    (g.turnAll (some.map (·, .output))).gpio.functionOf p = .output := by
  induction some generalizing g with
  | nil =>
    rcases h with h | h
    · cases h
    · exact h
  | cons q rest ih =>
    have hsize' : 4 ≤ (g.turn q .output).size .gpio := by rwa [size_turn]
    apply ih hsize'
    by_cases heq : p = q
    · rw [heq]
      exact .inr (Window.functionOf_withPin_self (w := g.gpio) hsize)
    · rw [functionOf_turn_of_ne hsize heq]
      exact h.imp_left fun hmem => (List.mem_cons.1 hmem).resolve_left heq

private theorem agreeOff_turnAll (hsize : 4 ≤ g.size .gpio) (hsome : some ⊆ pins)
    (h : Window.AgreeOff pins found g.gpio) (f : PinFunction) :
    Window.AgreeOff pins found (g.turnAll (some.map (·, f))).gpio ∧
      (g.turnAll (some.map (·, f))).size .gpio = g.size .gpio := by
  induction some generalizing g with
  | nil => exact ⟨h, rfl⟩
  | cons q rest ih =>
    obtain ⟨hq, hrest⟩ := List.cons_subset.1 hsome
    have hsize' : 4 ≤ (g.turn q f).size .gpio := by rwa [size_turn]
    obtain ⟨hagree, hsame⟩ := ih hsize' hrest (h.withPin hsize hq f)
    exact ⟨hagree, hsame.trans (g.size_turn q f .gpio)⟩

theorem claimed_turnAll (hsize : 4 ≤ g.size .gpio) (hfound : Window.AgreeOff [] found g.gpio)
    (pins : List Pin) : Claimed pins found (g.turnAll (pins.map (·, .output))) := by
  have hstart : Window.AgreeOff pins found g.gpio := hfound.mono (List.nil_subset pins)
  obtain ⟨hagree, hsame⟩ := agreeOff_turnAll hsize (List.Subset.refl pins) hstart .output
  exact
    { size_le := hsame ▸ hsize
      output := fun _ hp => functionOf_turnAll_output hsize (.inl hp)
      agree := hagree }

/-- When the pins have been turned back, all words are as they were found. -/
theorem agreeOff_turnAll_found (hsize : 4 ≤ g.size .gpio) (h : Window.AgreeOff pins found g.gpio) :
    Window.AgreeOff [] found (g.turnAll (pins.map fun p => (p, found.functionOf p))).gpio := by
  induction pins generalizing g with
  | nil => exact h
  | cons p rest ih =>
    have hsize' : 4 ≤ (g.turn p (found.functionOf p)).size .gpio := by rwa [size_turn]
    exact ih hsize' (h.giveBack hsize)

/-! ### What leaves the functions alone -/

theorem Claimed.of_agreeOff {g' : Panel} (h : g.Claimed pins found) (hsize : g'.size .gpio = g.size .gpio)
    (hsame : Window.AgreeOff [] g.gpio g'.gpio) : g'.Claimed pins found where
  size_le := hsize ▸ h.size_le
  output := fun p hp => (hsame.functionOf_eq List.not_mem_nil).trans (h.output p hp)
  agree := h.agree.trans (hsame.mono (List.nil_subset pins))

theorem Claimed.perform (h : g.Claimed pins found) (action : Action) (hspares : action.Spares) :
    (g.perform action).Claimed pins found := by
  cases action with
  | store role offset value =>
    cases role with
    | gpio =>
      obtain ⟨invert, rfl⟩ := hspares
      exact h.of_agreeOff size_store (Window.agreeOff_poke_inactive _ _ _)
    | _ => exact ⟨h.size_le, h.output, h.agree⟩
  | _ => exact ⟨h.size_le, h.output, h.agree⟩

theorem Claimed.leads (h : g.Claimed pins found) {p : Program α} (hp : p.Only Action.Spares) :
    p.Leads (fun _ g' => g'.Claimed pins found) g :=
  hp.leads (fun _ _ _ h => ⟨h.size_le, h.output, h.agree⟩) (fun _ action hspares h => h.perform action hspares) h

end Simulation.Panel

/-! ### Claiming and releasing -/

namespace Sequencer

theorem leads_setFunction_iff (pin : Pin) (f : PinFunction) (next : PinFunction → Program α) :
    Leads (setFunction pin f >>= next) post g ↔ (next (g.gpio.functionOf pin)).Leads post (g.turn pin f) := Iff.rfl

/-- Distinct pins are remembered as they were found, although they are changed one after the other. -/
theorem leads_makeOutputs_iff {pins : List Pin} (hnodup : pins.Nodup) (hsize : 4 ≤ g.size .gpio)
    (next : List (Pin × PinFunction) → Program α) :
    Leads (makeOutputs pins >>= next) post g ↔
      (next (pins.map fun p => (p, g.gpio.functionOf p))).Leads post (g.turnAll (pins.map (·, .output))) := by
  induction pins generalizing g next with
  | nil => exact Iff.rfl
  | cons p rest ih =>
    obtain ⟨hp, hrest⟩ := List.nodup_cons.1 hnodup
    have hsize' : 4 ≤ (g.turn p .output).size .gpio := by rwa [Panel.size_turn]
    have hfound : (rest.map fun q => (q, (g.turn p .output).gpio.functionOf q)) =
        rest.map fun q => (q, g.gpio.functionOf q) := by
      apply List.map_congr_left
      intro q hq
      have hne : q ≠ p := fun heq => hp (heq ▸ hq)
      rw [Panel.functionOf_turn_of_ne hsize hne]
    simp only [makeOutputs, bind_assoc, pure_bind]
    rw [leads_setFunction_iff, leads_log_iff, ih hrest hsize', hfound]
    exact Iff.rfl

/-- Pins are claimed by driving them, turning them into outputs and remembering them as they were found. -/
theorem leads_claimPins_iff {pins : List Pin} (hnodup : pins.Nodup) (hsize : 4 ≤ g.size .gpio) (s : Sequencer)
    (invert : Bool) (next : Sequencer → Program α) :
    Leads (s.claimPins pins invert >>= next) post g ↔
      (next { s with claimed := s.claimed ++ pins.map fun p => (p, g.gpio.functionOf p) }).Leads post
        ((g.store .gpio (Gpio.inactiveOffset invert) (Pin.maskOf pins)).turnAll (pins.map (·, .output))) := by
  have hdriven : Window.AgreeOff [] g.gpio (g.store .gpio (Gpio.inactiveOffset invert) (Pin.maskOf pins)).gpio :=
    Window.agreeOff_poke_inactive _ _ _
  have hsize' : 4 ≤ (g.store .gpio (Gpio.inactiveOffset invert) (Pin.maskOf pins)).size .gpio := by
    rwa [Panel.size_store]
  have hfound : (pins.map fun p =>
      (p, (g.store .gpio (Gpio.inactiveOffset invert) (Pin.maskOf pins)).gpio.functionOf p)) =
        pins.map fun p => (p, g.gpio.functionOf p) := by
    apply List.map_congr_left
    intro p _
    rw [hdriven.functionOf_eq List.not_mem_nil]
  simp only [claimPins, driveInactive, bind_assoc, pure_bind]
  rw [Program.leads_store_iff, leads_makeOutputs_iff hnodup hsize', hfound]

theorem leads_giveBack_iff (claimed : List (Pin × PinFunction)) (next : Unit → Program α) :
    Leads ((Program.each claimed fun (pin, previous) => do let _ ← setFunction pin previous) >>= next) post g ↔
      (next ()).Leads post (g.turnAll claimed) := by
  induction claimed generalizing g with
  | nil => exact Iff.rfl
  | cons a rest ih => exact ih

/-- The panel after the pacer has been switched off. -/
def quiesced (s : Sequencer) (g : Panel) : Panel :=
  match s.pacer with
  | .pwm => (g.store .pacer Pwm.control.offset 0).note (.delay shortSettle)
  | .pcm => (g.store .pacer Pcm.control.offset 0).note (.delay longSettle)

theorem leads_quiescePacer_iff (s : Sequencer) (next : Unit → Program α) :
    Leads (s.quiescePacer >>= next) post g ↔ (next ()).Leads post (s.quiesced g) := by
  unfold quiescePacer quiesced
  cases s.pacer <;> exact Iff.rfl

/-- The panel after the claimed pins have been released. -/
def released (s : Sequencer) (invert : Bool) (g : Panel) : Panel :=
  if s.claimed.isEmpty then g
  else (g.store .gpio (Gpio.inactiveOffset invert) (Pin.maskOf (s.claimed.map (·.1)))).turnAll s.claimed

theorem leads_releasePins_iff (s : Sequencer) (invert : Bool) (next : Sequencer → Program α) :
    Leads (s.releasePins invert >>= next) post g ↔
      (next { s with claimed := [] }).Leads post (s.released invert g) := by
  unfold releasePins released
  split
  · rename_i hempty
    rw [← List.isEmpty_iff.1 hempty]
    exact Iff.rfl
  · simp only [driveInactive, bind_assoc, pure_bind]
    rw [Program.leads_store_iff, leads_giveBack_iff]

end Sequencer

namespace Engine

/-- The panel after an engine has been shut down. -/
def shut (e : Engine) (g : Panel) : Panel :=
  e.sequencer.released e.config.invert (e.sequencer.quiesced (e.halted g))

theorem leads_exit {e : Engine} {P : Panel → Prop} (hstate : e.state ≠ .exited) (h : P (e.shut g)) :
    e.exit.Leads (fun _ g' => P g') g := by
  unfold exit
  rw [if_neg hstate, leads_stop_iff]
  simp only [Sequencer.leads_quiescePacer_iff, Sequencer.leads_releasePins_iff, leads_log_iff, leads_pure_iff]
  by_cases hrunning : e.state = .running
  · rw [if_pos hrunning]
    exact h
  · rw [if_neg hrunning]
    exact h

theorem claimed_halted {e : Engine} {pins : List Pin} {found : Window} (h : g.Claimed pins found) :
    (e.halted g).Claimed pins found := by
  unfold halted
  split
  · have hreset := h.perform (.store .dma Dma.status.offset Dma.reset) trivial
    have hdriven := hreset.perform
      (.store .gpio (Gpio.inactiveOffset e.config.invert) e.table.silence.pinMask) ⟨e.config.invert, rfl⟩
    exact ⟨hdriven.size_le, hdriven.output, hdriven.agree⟩
  · exact h

/-- The pins that were claimed are handed back as they were found. -/
theorem agreeOff_shut {e : Engine} {pins : List Pin} {found : Window} (h : g.Claimed pins found)
    (hclaimed : e.sequencer.claimed = pins.map fun p => (p, found.functionOf p)) :
    Window.AgreeOff [] found (e.shut g).gpio := by
  have hquiesced : (e.sequencer.quiesced (e.halted g)).Claimed pins found := by
    have hhalted := claimed_halted (e := e) h
    unfold Sequencer.quiesced
    split <;> exact ⟨hhalted.size_le, hhalted.output, hhalted.agree⟩
  unfold shut Sequencer.released
  rw [hclaimed]
  split
  · rename_i hempty
    have hnone : pins = [] := List.map_eq_nil_iff.1 (List.isEmpty_iff.1 hempty)
    exact hnone ▸ hquiesced.agree
  · have hdriven := hquiesced.perform
      (.store .gpio (Gpio.inactiveOffset e.config.invert)
        (Pin.maskOf ((pins.map fun p => (p, found.functionOf p)).map (·.1)))) ⟨e.config.invert, rfl⟩
    exact Panel.agreeOff_turnAll_found hdriven.size_le hdriven.agree

end Engine

namespace Engine

variable {config : Config} {n : UInt32}

/-- The engine that has been made remembers its pins as they were found, and they are outputs now. -/
theorem leads_assemble_claimed (valid : config.validate = .ok n) (hsize : 4 ≤ g.size .gpio) (arena : Arena) :
    (assemble config arena).Leads
      (fun result g' => ∀ e, result = .ok e →
        e.sequencer.claimed = config.pins.map (fun p => (p, g.gpio.functionOf p)) ∧
          g'.Claimed config.pins g.gpio) g := by
  have hnodup := nodup_of_check (config.bounds_of_validate valid).2.2
  apply leads_assemble
  · intro reason e h
    cases h
  · intro table chain
    rw [Sequencer.leads_claimPins_iff hnodup hsize]
    have hdriven := Window.agreeOff_poke_inactive g.gpio config.invert (Pin.maskOf config.pins)
    have hclaimed := Panel.claimed_turnAll
      (g := g.store .gpio (Gpio.inactiveOffset config.invert) (Pin.maskOf config.pins))
      (by rwa [Panel.size_store]) hdriven config.pins
    apply leads_start rfl
    apply (hclaimed.leads (Sequencer.spares_start _ _ _)).mono
    rintro _ g' hg' e h
    cases h
    exact ⟨rfl, hg'⟩

end Engine

/-- To shut down an engine that was running some requests ago. -/
theorem Rig.Settled.panel_close {config : Config} {n found : UInt32} {r : Rig Bench} (h : r.Settled config n found)
    (hrunning : r.engine.state = .running) (requests : List Request) :
    (r.handleAll requests).close.machine.panel =
      (r.handleAll requests).engine.shut (r.handleAll requests).machine.panel := by
  obtain ⟨-, -, -, hexited⟩ := h.frame_handleAll requests
  have hstate : (r.handleAll requests).engine.state ≠ .exited := by
    rw [ne_eq, hexited, hrunning]
    decide
  obtain ⟨e', hexit, -⟩ := (h.handleAll requests).1.run_exit
  exact Program.panel_of_run
    (Engine.leads_exit (P := fun g => g = (r.handleAll requests).engine.shut (r.handleAll requests).machine.panel)
      hstate rfl) hexit

theorem Simulation.Bench.size_over (config : Config) (contents : List (Role × UInt64 × UInt32)) (arena : Arena) :
    (Bench.over config contents arena).panel.size .gpio = 1024 := by
  have hlength : (Block.length.toNat + 3) / 4 = 1024 := by decide
  refine (Bench.get_preset (Bench.windowsOf config.pacer) contents .gpio).2.trans ?_
  exact Array.size_replicate.trans hlength

theorem Simulation.Bench.four_le_size_over (config : Config) (contents : List (Role × UInt64 × UInt32))
    (arena : Arena) : 4 ≤ (Bench.over config contents arena).panel.size .gpio := by
  rw [size_over]
  decide

/-- For every configuration that is accepted, all contents of the windows and every sequence of requests: from the
time when the engine has been made all its pins are outputs, and no other bit of the function select words differs
from what was found; when the engine has been shut down, once or twice, all these words are as they were found.  An
engine is made on every arena that is long enough and translates the offsets of the layout. -/
theorem functions_of_run {config : Config} {n : UInt32} (valid : config.validate = .ok n)
    (contents : List (Role × UInt64 × UInt32)) (arena : Arena) :
    let start := Bench.over config contents arena
    (arena.Fits ⟨n⟩ → arena.table.Covers ⟨n⟩ → ∃ e b, Simulation.assemble config start = .ok (e, b)) ∧
    ∀ e b, Simulation.assemble config start = .ok (e, b) → ∀ requests : List Request,
      let r := (Rig.mk e b).handleAll requests
      (∀ x ∈ (Rig.mk e b).visited requests,
        (∀ p ∈ config.pins, x.windows.gpio.functionOf p = .output) ∧
        Window.AgreeOff config.pins start.windows.gpio x.windows.gpio) ∧
      ∀ x ∈ [r.close, r.close.close], ∀ k < 4,
        x.machine.peek .gpio (UInt64.ofNat (4 * k)) = start.peek .gpio (UInt64.ofNat (4 * k)) := by
  intro start
  refine ⟨fun hfits hcovers => Simulation.assemble_eq_ok valid (b := start) hfits hcovers, ?_⟩
  intro e b hmade requests r
  have hsize : 4 ≤ start.panel.size .gpio := by
    rw [Bench.size_over]
    decide
  have hrun := Simulation.run_of_assemble hmade
  have hassembled := Program.panel_of_run (Engine.leads_assemble_claimed valid hsize start.arena) hrun
  obtain ⟨hclaimed, hfunctions⟩ := hassembled e rfl
  have hvisited := Rig.visited_of_spares (r := ⟨e, b⟩) (P := Panel.Claimed config.pins start.panel.gpio)
    (fun _ _ _ h => ⟨h.size_le, h.output, h.agree⟩) (fun _ action hspares h => h.perform action hspares) hfunctions
    requests
  refine ⟨fun x hx => ⟨(hvisited x hx).output, (hvisited x hx).agree⟩, ?_⟩
  obtain ⟨hsettled, hrunning⟩ := Rig.settled_of_assemble valid hmade
  obtain ⟨-, -, hsequencer, -⟩ := hsettled.frame_handleAll requests
  have hlast := hvisited r.machine (Rig.handleAll_mem_visited _ requests)
  have hclaimed' : r.engine.sequencer.claimed = config.pins.map fun p => (p, start.panel.gpio.functionOf p) :=
    hsequencer ▸ hclaimed
  have hclosed := Engine.agreeOff_shut hlast hclaimed'
  rw [← hsettled.panel_close hrunning requests] at hclosed
  rw [Rig.close_close]
  intro x hx
  have heq : x = r.close := by simpa using hx
  rw [heq]
  exact Window.agreeOff_nil_iff.1 hclosed

theorem functions_of_small :
    let start := Bench.over Config.small [(.gpio, 0, 0xC0005678), (.gpio, 4, 0x12345678)] Arena.small
    Config.small.validate = .ok 3 ∧ Arena.small.Fits ⟨3⟩ ∧ Arena.small.table.Covers ⟨3⟩ ∧
      ∃ e b, Simulation.assemble Config.small start = .ok (e, b) ∧ ∀ requests,
        let r := (Rig.mk e b).handleAll requests
        r.machine.windows.gpio.functionOf ⟨4⟩ = .output ∧ r.close.machine.peek .gpio 0 = 0xC0005678 := by
  intro start
  have valid : Config.small.validate = .ok 3 := rfl
  obtain ⟨fits, covers⟩ := Arena.small_accepted
  obtain ⟨hmake, hall⟩ := functions_of_run valid [(.gpio, 0, 0xC0005678), (.gpio, 4, 0x12345678)] Arena.small
  obtain ⟨e, b, hmade⟩ := hmake fits covers
  refine ⟨valid, fits, covers, e, b, hmade, ?_⟩
  intro requests r
  obtain ⟨hvisited, hclosed⟩ := hall e b hmade requests
  have hlast := hvisited r.machine (Rig.handleAll_mem_visited _ requests)
  have hword := hclosed r.close (by simp [r]) 0 (by decide)
  exact ⟨hlast.1 ⟨4⟩ (by decide), hword.trans (by decide +kernel)⟩

end PulseWidth
