import PulseWidth.Proofs.Engine.Simulated

/-!
# Sample words and the history of calls

The sample words of a simulated engine are a function of the calls that were made to it: the last call that had an
effect on a pin decides the pin's bits.  A call is remembered with what its caller saw of it, and its effect on a pin
is read off that; refused calls have none, and a stop has one only if the engine was running.
-/

namespace PulseWidth

open Simulation (Bench simulate)

variable {config : Config} {n : UInt32}

/-- A call as its caller has seen it. -/
structure Attempt where
  request : Request
  /-- Whether the engine was running when the call was made. -/
  running : Bool
  /-- Whether the call was successful. -/
  accepted : Bool

/-- What becomes of a pin. -/
inductive Effect where
  | driven (duty : UInt32)
  | quieted
deriving DecidableEq

namespace Effect

/-- The channel of a pin after an effect on it. -/
def channel (pin : Pin) : Effect → Channel
  | driven duty => .driving pin duty
  | quieted => .silent pin

/-- A channel that was silent acts in the slots behind the duty of its last effect, and in slot 0. -/
theorem acts_iff (pin : Pin) (last : Option Effect) (slot : UInt32) :
    Channel.acts ((last.map (channel pin)).getD (.silent pin)) slot = true ↔
      ∃ duty, last = some (driven duty) ∧ (slot = 0 ∨ duty < slot) := by
  cases last with
  | none => simp [Channel.acts, Channel.silent]
  | some effect =>
    cases effect with
    | driven duty =>
      show (true && (slot == 0 || decide (duty < slot))) = true ↔ _
      simp
    | quieted => simp [Channel.acts, Channel.silent, channel]

end Effect

namespace Attempt

/-- The effect of a call on a pin, for an engine with `n` samples. -/
def effect? (n : UInt32) (pin : Pin) (a : Attempt) : Option Effect :=
  match a.request with
  | .set target duty => if a.accepted = true ∧ target = pin then some (.driven duty) else none
  | .setFraction target fraction =>
    if a.accepted = true ∧ target = pin then (dutyOfFraction fraction n).toOption.map .driven else none
  | .setMany targets duty => if a.accepted = true ∧ pin ∈ targets then some (.driven duty) else none
  | .release target => if a.accepted = true ∧ target = pin then some .quieted else none
  | .stop => if a.running = true then some .quieted else none
  | .start => none

/-- The last effect that some calls have on a pin. -/
def lastEffect? (n : UInt32) (pin : Pin) (attempts : List Attempt) : Option Effect :=
  (attempts.filterMap (effect? n pin)).getLast?

theorem lastEffect?_cons (n : UInt32) (pin : Pin) (a : Attempt) (rest : List Attempt) :
    lastEffect? n pin (a :: rest) = (lastEffect? n pin rest).or (a.effect? n pin) := by
  unfold lastEffect?
  cases h : a.effect? n pin with
  | none => rw [List.filterMap_cons_none h, Option.or_none]
  | some effect =>
    rw [List.filterMap_cons_some h, List.getLast?_cons]
    cases (List.filterMap (effect? n pin) rest).getLast? <;> rfl

end Attempt

namespace Rig

/-- The calls that are made when some requests are carried out one after the other. -/
def attempts (r : Rig Bench) : List Request → List Attempt
  | [] => []
  | q :: rest => ⟨q, r.engine.state = .running, (r.handle q).1.isOk⟩ :: (r.handle q).2.attempts rest

end Rig

namespace Engine

variable {e : Engine} {t : ChannelTable}

/-- The table that a successful request asks for has the channels that its effects ask for. -/
theorem get?_revision (hlawful : e.table.Lawful config.pins n) {q : Request} (h : e.revision q = .ok t) (pin : Pin) :
    t.get? pin = (e.table.get? pin).map fun c =>
      ((Attempt.effect? n pin ⟨q, e.state = .running, true⟩).map (Effect.channel pin)).getD c := by
  cases q with
  | set target duty =>
    rw [ChannelTable.get?_setMany h]
    by_cases heq : target = pin
    · simp [Attempt.effect?, heq, Effect.channel]
    · simp [Attempt.effect?, heq, Ne.symm heq]
  | setFraction target fraction =>
    simp only [revision, hlawful.nrSamples_eq] at h
    split at h
    · cases h
    · rename_i duty hduty
      rw [ChannelTable.get?_setMany h]
      by_cases heq : target = pin
      · simp [Attempt.effect?, heq, Effect.channel, hduty, Except.toOption]
      · simp [Attempt.effect?, heq, Ne.symm heq]
  | setMany targets duty =>
    rw [ChannelTable.get?_setMany h]
    by_cases hmem : pin ∈ targets <;> simp [Attempt.effect?, hmem, Effect.channel]
  | release target =>
    rw [ChannelTable.get?_release h]
    by_cases heq : target = pin
    · simp [Attempt.effect?, heq, Effect.channel]
    · simp [Attempt.effect?, heq, Ne.symm heq]
  | stop =>
    cases h
    by_cases hrunning : e.state = .running
    · rw [if_pos hrunning, ChannelTable.get?_silence]
      cases hc : e.table.get? pin with
      | none => rfl
      | some c =>
        have hpin : c.pin = pin := ((hlawful.get?_eq_some_iff pin c).1 hc).2
        simp [Attempt.effect?, hrunning, Effect.channel, hpin]
    · simp [Attempt.effect?, hrunning]
  | start =>
    cases h
    simp [Attempt.effect?]

end Engine

namespace Rig

variable {found : UInt32} {r : Rig Bench}

/-- A call that is refused has no effect. -/
private theorem effect?_of_refused {q : Request} {reason : ChannelError}
    (h : r.handle q = (.error (.refused reason), r)) (pin : Pin) (running : Bool) :
    Attempt.effect? n pin ⟨q, running, (r.handle q).1.isOk⟩ = none := by
  cases q with
  | stop =>
    -- a stop is never refused
    simp only [Rig.handle, Engine.respond] at h
    split at h <;> cases h
  | _ =>
    rw [h]
    simp [Attempt.effect?, Except.isOk, Except.toBool]

/-- After some requests the channel of a pin is as their last effect on it has it. -/
theorem Settled.get?_handleAll (h : r.Settled config n found) (requests : List Request) (pin : Pin) :
    (r.handleAll requests).engine.table.get? pin = (r.engine.table.get? pin).map fun c =>
      ((Attempt.lastEffect? n pin (r.attempts requests)).map (Effect.channel pin)).getD c := by
  induction requests generalizing r with
  | nil => cases hc : r.engine.table.get? pin <;> simp [Rig.handleAll, Rig.attempts, Attempt.lastEffect?, hc]
  | cons q rest ih =>
    have hsplit : r.handleAll (q :: rest) = (r.handle q).2.handleAll rest := rfl
    rw [hsplit, Rig.attempts, Attempt.lastEffect?_cons]
    rcases h.handle q with ⟨reason, heq⟩ | ⟨t, r', heq, ht, hengine, hsettled, -⟩
    · rw [effect?_of_refused heq, Option.or_none, heq]
      exact ih h
    · -- the effect of this call counts only if no later one has any
      have hlawful : r.engine.table.Lawful config.pins n := by
        obtain ⟨s, -, hs⟩ := h
        exact hs.lawful
      have hstep := Engine.get?_revision hlawful ht pin
      have haccepted : (r.handle q).1.isOk = true := by
        rw [heq]
        rfl
      rw [haccepted, heq, ih hsettled, hengine]
      simp only [hstep, Option.map_map]
      congr 1
      funext c
      cases Attempt.lastEffect? n pin (r'.attempts rest) <;> rfl

end Rig

/-- The sample words of a table whose channels are as some last effects have them. -/
private theorem testBit_slotMask_of_effects {t : ChannelTable} (ht : t.Lawful config.pins n)
    {last : Pin → Option Effect}
    (hchannel : ∀ p ∈ config.pins, t.get? p = some (((last p).map (Effect.channel p)).getD (.silent p)))
    (slot : UInt32) (bit : Nat) :
    (slotMask t.channels slot).toNat.testBit bit = true ↔
      ∃ p ∈ config.pins, p.index.val = bit ∧ ∃ duty, last p = some (.driven duty) ∧ (slot = 0 ∨ duty < slot) := by
  rw [testBit_slotMask]
  constructor
  · rintro ⟨c, hc, hbit, hacts⟩
    have hp : c.pin ∈ config.pins := by
      rw [← ht.pins_eq]
      exact List.mem_map_of_mem hc
    have hget := (ht.get?_eq_some_iff c.pin c).2 ⟨hc, rfl⟩
    rw [hchannel c.pin hp, Option.some.injEq] at hget
    rw [← hget, Effect.acts_iff] at hacts
    exact ⟨c.pin, hp, hbit, hacts⟩
  · rintro ⟨p, hp, hbit, hduty⟩
    obtain ⟨hc, hpin⟩ := (ht.get?_eq_some_iff p _).1 (hchannel p hp)
    exact ⟨_, hc, by rw [hpin]; exact hbit, (Effect.acts_iff p (last p) slot).2 hduty⟩

/-- For every configuration that is accepted and every sequence of requests to its simulated engine, whether they
succeed or fail: each sample word has the bits of the configured pins whose last effect is a duty that the slot has
not yet reached, or any duty in slot 0; the channels are those of the configuration, with duties as agreed; and no
word behind the sample words has changed since the engine was made. -/
theorem samples_of_attempts (valid : config.validate = .ok n) :
    ∃ e b, simulate config = .ok (e, b) ∧ ∀ requests : List Request,
      let attempts := (Rig.mk e b).attempts requests
      let r := (Rig.mk e b).handleAll requests
      (∃ words, r.samples = .ok words ∧ words.length = n.toNat ∧
        ∀ (j : Nat) (h : j < words.length) (bit : Nat), words[j].toNat.testBit bit = true ↔
          ∃ p ∈ config.pins, p.index.val = bit ∧
            ∃ duty, Attempt.lastEffect? n p attempts = some (.driven duty) ∧ (j = 0 ∨ duty.toNat < j)) ∧
      r.engine.channels.map (·.pin) = config.pins ∧
      (∀ c ∈ r.engine.channels, c.duty ≤ n ∧ (c.enabled = false → c.duty = 0)) ∧
      ∀ i, n.toNat ≤ i → r.machine.arena.words[i]? = b.arena.words[i]? := by
  obtain ⟨e, b, s, s', hsimulate, hassembled, harena, -, -⟩ := simulate_eq_ok valid
  have hsettled : (Rig.mk e b).Settled config n s.levels := ⟨s', harena, hassembled.settled⟩
  refine ⟨e, b, hsimulate, ?_⟩
  intro requests
  obtain ⟨⟨s'', harena', hs''⟩, -, hsame⟩ := hsettled.handleAll requests
  have hlawful := hs''.lawful
  have hchannel : ∀ p ∈ config.pins, ((Rig.mk e b).handleAll requests).engine.table.get? p =
      some (((Attempt.lastEffect? n p ((Rig.mk e b).attempts requests)).map (Effect.channel p)).getD
        (.silent p)) := by
    intro p hp
    have hfirst : e.table.get? p = some (.silent p) := by
      rw [hassembled.settled.lawful.get?_eq_some_iff, hassembled.channels_eq]
      exact ⟨List.mem_map_of_mem hp, rfl⟩
    rw [hsettled.get?_handleAll, hfirst]
    rfl
  refine ⟨⟨_, (Rig.Settled.samples_eq ⟨s'', harena', hs''⟩), by simp, ?_⟩, hlawful.pins_eq, ?_, hsame.getElem?_eq⟩
  · intro j hj bit
    have hlt : j < n.toNat := by simpa using hj
    have hn := n.toNat_lt
    have hslot : (UInt32.ofNat j).toNat = j := UInt32.toNat_ofNat_of_lt' (by rw [UInt32.size]; omega)
    have hword := testBit_slotMask_of_effects hlawful hchannel (UInt32.ofNat j) bit
    simp only [← UInt32.toNat_inj, UInt32.lt_iff_toNat_lt, hslot] at hword
    rw [List.getElem_map, ChainLayout.getElem_slots]
    exact hword
  · exact fun c hc => ⟨hlawful.duty_le c hc, hlawful.duty_of_disabled c hc⟩

theorem samples_of_attempts_standard : Config.standard.validate = .ok 1000 ∧
    ∃ e b, simulate Config.standard = .ok (e, b) ∧ ∀ requests, ∃ words,
      ((Rig.mk e b).handleAll requests).samples = .ok words ∧ words.length = 1000 := by
  have valid : Config.standard.validate = .ok 1000 := rfl
  obtain ⟨e, b, hsimulate, hall⟩ := samples_of_attempts valid
  refine ⟨valid, e, b, hsimulate, ?_⟩
  intro requests
  obtain ⟨⟨words, hwords, hlength, -⟩, -⟩ := hall requests
  exact ⟨words, hwords, hlength⟩

end PulseWidth
