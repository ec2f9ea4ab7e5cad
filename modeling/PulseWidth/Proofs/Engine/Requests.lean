import PulseWidth.Proofs.Simulation.Calls

/-!
# What requests change

A request that sets or releases channels is refused for a reason that can be read off the configuration, and then
nothing at all happens.  If there is no such reason it is carried out: the channels that it names change, and nothing
else does, but that the sample words are written anew and that a pin which is released is driven.
-/

namespace PulseWidth

open Simulation (Bench Panel simulate)
open Program (leads_store_iff leads_log_iff leads_pure_iff leads_regenerate_iff)

variable {config : Config} {n found : UInt32} {r : Rig Bench}

/-- The reason not to drive some pins for a duty, for an engine with `n` slices.  A duty that is too long is reported
for the first pin, whether that one is configured or not. -/
def Config.objection? (config : Config) (n : UInt32) : List Pin → UInt32 → Option ChannelError
  | [], _ => none
  | first :: rest, duty =>
    if n < duty then some (.dutyOutOfRange first duty n)
    else ((first :: rest).find? (· ∉ config.pins)).map .unknownPin

theorem Config.objection?_eq_none_iff {pins : List Pin} {duty : UInt32} :
    config.objection? n pins duty = none ↔ ¬ (pins ≠ [] ∧ (n < duty ∨ ∃ p ∈ pins, p ∉ config.pins)) := by
  cases pins with
  | nil => simp [objection?]
  | cons first rest =>
    rw [objection?]
    by_cases hduty : n < duty
    · simp [hduty]
    · simp [hduty]

namespace Request

/-- A request for channels. -/
def Updates : Request → Prop
  | set _ _ | setFraction _ _ | setMany _ _ | release _ => True
  | stop | start => False

/-- The reason to refuse a request for channels. -/
def objection? (config : Config) (n : UInt32) : Request → Option ChannelError
  | set pin duty => config.objection? n [pin] duty
  | setFraction pin fraction =>
    match dutyOfFraction fraction n with
    | .error reason => some reason
    | .ok duty => config.objection? n [pin] duty
  | setMany pins duty => config.objection? n pins duty
  | release pin => if pin ∈ config.pins then none else some (.unknownPin pin)
  | stop | start => none

/-- A channel after a request for channels, which may name its pin or not. -/
def reassign (n : UInt32) (q : Request) (c : Channel) : Channel :=
  match q with
  | set pin duty => if c.pin = pin then .driving pin duty else c
  | setFraction pin fraction =>
    match dutyOfFraction fraction n with
    | .error _ => c
    | .ok duty => if c.pin = pin then .driving pin duty else c
  | setMany pins duty => if c.pin ∈ pins then .driving c.pin duty else c
  | release pin => if c.pin = pin then .silent pin else c
  | stop | start => c

/-- The registers after a request for channels. -/
def panelAfter (config : Config) (q : Request) (g : Panel) : Panel :=
  match q with
  | release pin => g.store .gpio (Gpio.inactiveOffset config.invert) pin.mask
  | _ => g

end Request

/-! ### Tables -/

namespace ChannelTable

variable {t : ChannelTable} {pins : List Pin} {duty : UInt32}

private theorem findSome?_refusal? (h : t.Lawful config.pins n) (pins : List Pin) (duty : UInt32) :
    pins.findSome? (t.refusal? duty) = config.objection? n pins duty := by
  have hrefusal : ∀ p, t.refusal? duty p =
      if n < duty then some (.dutyOutOfRange p duty n) else if p ∈ config.pins then none else some (.unknownPin p) := by
    intro p
    have hknown := h.get?_isSome_iff p
    rw [refusal?, h.nrSamples_eq]
    by_cases hp : p ∈ config.pins
    · obtain ⟨c, hc⟩ := Option.isSome_iff_exists.1 (hknown.2 hp)
      simp [hc, hp]
    · have hnone : t.get? p = none := by simpa [hp] using hknown
      simp [hnone, hp]
  cases pins with
  | nil => rfl
  | cons first rest =>
    rw [Config.objection?]
    by_cases hduty : n < duty
    · rw [if_pos hduty, List.findSome?_cons, hrefusal, if_pos hduty]
    · rw [if_neg hduty]
      induction first :: rest with
      | nil => rfl
      | cons p others ih =>
        rw [List.findSome?_cons, List.find?_cons, hrefusal, if_neg hduty]
        by_cases hp : p ∈ config.pins
        · simpa [hp] using ih
        · simp [hp]

/-- A lawful table refuses to drive some pins for the reason that there is, and changes their channels otherwise. -/
theorem setMany_eq (h : t.Lawful config.pins n) (pins : List Pin) (duty : UInt32) :
    t.setMany pins duty = match config.objection? n pins duty with
      | some reason => .error reason
      | none => .ok { t with channels := t.channels.map fun c => if c.pin ∈ pins then .driving c.pin duty else c } := by
  rw [setMany, findSome?_refusal? h]
  cases config.objection? n pins duty with
  | some reason => rfl
  | none => simp only [List.contains_iff_mem]

theorem release_eq (h : t.Lawful config.pins n) (pin : Pin) :
    t.release pin = if pin ∈ config.pins then
        .ok { t with channels := t.channels.map fun c => if c.pin = pin then .silent pin else c }
      else .error (.unknownPin pin) := by
  have hknown := h.get?_isSome_iff pin
  rw [release]
  by_cases hp : pin ∈ config.pins
  · have hsome : (t.get? pin).isNone = false := by simpa [hp] using hknown
    rw [hsome, if_neg Bool.false_ne_true, if_pos hp]
  · have hnone : (t.get? pin).isNone = true := by simpa [hp] using hknown
    rw [hnone, if_pos rfl, if_neg hp]

end ChannelTable

/-! ### Engines -/

namespace Engine

variable {e : Engine}

/-- What becomes of the table of an engine. -/
theorem revision_eq (h : e.table.Lawful config.pins n) {q : Request} (hq : q.Updates) :
    e.revision q = match q.objection? config n with
      | some reason => .error reason
      | none => .ok { e.table with channels := e.table.channels.map (q.reassign n) } := by
  have hset : ∀ pin duty, e.table.set pin duty = match config.objection? n [pin] duty with
      | some reason => .error reason
      | none => .ok { e.table with
          channels := e.table.channels.map fun c => if c.pin = pin then .driving pin duty else c } := by
    intro pin duty
    have hsame : (fun c : Channel => if c.pin ∈ [pin] then Channel.driving c.pin duty else c) =
        fun c => if c.pin = pin then .driving pin duty else c := by
      funext c
      by_cases hc : c.pin = pin <;> simp [hc]
    rw [ChannelTable.set, ChannelTable.setMany_eq h, hsame]
  cases q with
  | set pin duty => exact hset pin duty
  | setFraction pin fraction =>
    cases hduty : dutyOfFraction fraction n with
    | error reason => simp only [revision, Request.objection?, h.nrSamples_eq, hduty]
    | ok duty =>
      have hreassign : Request.reassign n (.setFraction pin fraction) =
          fun c => if c.pin = pin then .driving pin duty else c := by
        funext c
        simp only [Request.reassign, hduty]
      have hduty' : dutyOfFraction fraction e.table.nrSamples = .ok duty := by rw [h.nrSamples_eq, hduty]
      simp only [revision, Request.objection?, hduty, hduty', hset, hreassign]
  | setMany pins duty => exact ChannelTable.setMany_eq h pins duty
  | release pin =>
    rw [revision, ChannelTable.release_eq h, Request.objection?]
    by_cases hp : pin ∈ config.pins
    · rw [if_pos hp, if_pos hp]
      rfl
    · rw [if_neg hp, if_neg hp]
  | stop => exact hq.elim
  | start => exact hq.elim

/-- A request is refused for the reason for which its table is. -/
theorem respond_map_eq (e : Engine) (q : Request) :
    ((e.respond q).map fun _ => ()) = (e.revision q).map fun _ => () := by
  have hmap : ∀ {α β γ : Type} (x : Except α β) (f : β → γ), ((x.map f).map fun _ => ()) = x.map fun _ => () := by
    intro α β γ x f
    cases x <;> rfl
  cases q with
  | set pin duty => exact hmap (e.table.set pin duty) _
  | setFraction pin fraction =>
    simp only [respond, setChannelFraction, revision]
    cases dutyOfFraction fraction e.table.nrSamples with
    | error reason => rfl
    | ok duty => exact hmap (e.table.set pin duty) _
  | setMany pins duty => exact hmap (e.table.setMany pins duty) _
  | release pin => exact hmap (e.table.release pin) _
  | stop => rfl
  | start => rfl

/-- Of the registers a request for channels touches the one for the inactive level, and only to release a pin. -/
theorem leads_respond_updates (hconfig : e.config = config) {q : Request} (hq : q.Updates) {p : Program Engine}
    (hp : e.respond q = .ok p) {g : Panel} : p.Leads (fun _ g' => g' = q.panelAfter config g) g := by
  cases responds_of_respond hp with
  | drive message drives =>
    rw [leads_commit_iff]
    cases q with
    | set | setFraction | setMany => rfl
    | release | stop | start => exact drives.elim
  | release =>
    rw [leads_regenerate_iff, Sequencer.driveInactive, leads_store_iff, leads_log_iff, leads_pure_iff, hconfig]
    rfl
  | stop => exact hq.elim
  | start => exact hq.elim

/-- The message of a commit goes into the log and nowhere else. -/
theorem run_commit (e : Engine) (t : ChannelTable) (message other : String) (b : Bench) :
    ((e.commit t message).run b).1 = ((e.commit t other).run b).1 ∧
      ((e.commit t message).run b).2.unlogged = ((e.commit t other).run b).2.unlogged := by
  unfold commit
  rw [Program.run_bind, Program.run_bind]
  obtain ⟨answer, after⟩ := (regenerate e.layout t.channels).run b
  cases answer with
  | error reason => exact ⟨rfl, rfl⟩
  | ok _ => exact ⟨rfl, rfl⟩

end Engine

/-! ### Rigs -/

namespace Rig

/-- A request for channels has been carried out. -/
structure Carried (config : Config) (n : UInt32) (q : Request) (r r' : Rig Bench) : Prop where
  engine_eq : r'.engine =
    { r.engine with table := { r.engine.table with channels := r.engine.table.channels.map (q.reassign n) } }
  panel_eq : r'.machine.panel = q.panelAfter config r.machine.panel
  block_eq : ∀ index < 2 * n.toNat, r'.block (UInt64.ofNat index) = r.block (UInt64.ofNat index)
  words_eq : ∀ i, n.toNat ≤ i → r'.machine.arena.words[i]? = r.machine.arena.words[i]?

/-- What a rig answers to requests for channels. -/
structure Answers (config : Config) (n : UInt32) (r : Rig Bench) : Prop where
  refused : ∀ q reason, q.Updates → q.objection? config n = some reason → r.handle q = (.error (.refused reason), r)
  carried : ∀ q, q.Updates → q.objection? config n = none → ∃ r', r.handle q = (.ok (), r') ∧ Carried config n q r r'
  many_iff : ∀ pins duty, (r.handle (.setMany pins duty)).1.isOk = false ↔
    pins ≠ [] ∧ (n < duty ∨ ∃ p ∈ pins, p ∉ config.pins)
  /-- A single pin is a list of one pin, but for what is logged. -/
  single : ∀ pin duty,
    let x := r.handle (.set pin duty)
    let y := r.handle (.setMany [pin] duty)
    x.1 = y.1 ∧ x.2.engine = y.2.engine ∧ x.2.machine.unlogged = y.2.machine.unlogged
  fraction : ∀ pin fraction,
    if 0.0 ≤ fraction ∧ fraction ≤ 1.0 then
      ∃ duty, dutyOfFraction fraction n = .ok duty ∧ r.handle (.setFraction pin fraction) = r.handle (.set pin duty)
    else r.handle (.setFraction pin fraction) = (.error (.refused (.fractionOutOfRange fraction)), r)
  release_iff : ∀ pin, (r.handle (.release pin)).1.isOk = false ↔ pin ∉ config.pins

theorem Settled.refused (h : r.Settled config n found) {q : Request} {reason : ChannelError} (hq : q.Updates)
    (hreason : q.objection? config n = some reason) : r.handle q = (.error (.refused reason), r) := by
  obtain ⟨s, -, hs⟩ := h
  have hmap := r.engine.respond_map_eq q
  rw [Engine.revision_eq hs.lawful hq, hreason] at hmap
  cases hresponse : r.engine.respond q with
  | error other =>
    rw [hresponse] at hmap
    cases hmap
    exact handle_of_refused hresponse
  | ok p =>
    rw [hresponse] at hmap
    cases hmap

theorem Settled.carried (h : r.Settled config n found) {q : Request} (hq : q.Updates)
    (hnone : q.objection? config n = none) : ∃ r', r.handle q = (.ok (), r') ∧
      r'.engine = { r.engine with
        table := { r.engine.table with channels := r.engine.table.channels.map (q.reassign n) } } ∧
      r'.machine.panel = q.panelAfter config r.machine.panel ∧
      Arena.SameBeyond n.toNat r.machine.arena r'.machine.arena := by
  have hhandle := h.handle q
  obtain ⟨s, harena, hs⟩ := h
  have hrevision := Engine.revision_eq hs.lawful hq
  have hmap := r.engine.respond_map_eq q
  rw [hnone] at hrevision
  rw [hrevision] at hmap
  cases hresponse : r.engine.respond q with
  | error reason =>
    rw [hresponse] at hmap
    cases hmap
  | ok p =>
    obtain ⟨t, -, hensures⟩ := hs.ensures_respond hresponse
    obtain ⟨e', b', -, hrun, -⟩ := Program.run_of_ensures hensures harena
    have heq : r.handle q = (.ok (), ⟨e', b'⟩) := by
      simp only [Rig.handle, hresponse, Rig.run, hrun]
    have hpanel := Program.panel_of_run (Engine.leads_respond_updates hs.config_eq hq hresponse) hrun
    have hstate : r.engine.stateAfter q = r.engine.state := by
      cases q with
      | stop | start => exact hq.elim
      | _ => rfl
    rw [heq] at hhandle ⊢
    rcases hhandle with ⟨reason, hrefused⟩ | ⟨t', r', hr', ht', hengine, -, hsame⟩
    · cases hrefused
    · cases hr'
      rw [hrevision] at ht'
      cases ht'
      rw [hstate] at hengine
      exact ⟨_, rfl, hengine, hpanel, hsame⟩

theorem Settled.isOk_handle_iff (h : r.Settled config n found) {q : Request} (hq : q.Updates) :
    (r.handle q).1.isOk = false ↔ q.objection? config n ≠ none := by
  cases hobjection : q.objection? config n with
  | some reason =>
    rw [h.refused hq hobjection]
    simp [Except.isOk, Except.toBool]
  | none =>
    obtain ⟨r', heq, -⟩ := h.carried hq hobjection
    rw [heq]
    simp [Except.isOk, Except.toBool]

theorem handle_set (r : Rig Bench) (pin : Pin) (duty : UInt32) :
    let x := r.handle (.set pin duty)
    let y := r.handle (.setMany [pin] duty)
    x.1 = y.1 ∧ x.2.engine = y.2.engine ∧ x.2.machine.unlogged = y.2.machine.unlogged := by
  simp only [Rig.handle, Engine.respond, Engine.setChannel, Engine.setChannels, ChannelTable.set]
  cases r.engine.table.setMany [pin] duty with
  | error reason => exact ⟨rfl, rfl, rfl⟩
  | ok t =>
    simp only [Except.map, Rig.run]
    obtain ⟨hanswer, hmachine⟩ := r.engine.run_commit t (pin.debug ++ " duty " ++ r.engine.ofSteps duty)
      (toString [pin].length ++ " channel(s) duty " ++ r.engine.ofSteps duty) r.machine
    revert hanswer hmachine
    obtain ⟨answer, after⟩ := (r.engine.commit t (pin.debug ++ " duty " ++ r.engine.ofSteps duty)).run r.machine
    obtain ⟨other, after'⟩ := (r.engine.commit t
      (toString [pin].length ++ " channel(s) duty " ++ r.engine.ofSteps duty)).run r.machine
    rintro hanswer hmachine
    cases hanswer
    cases answer <;> exact ⟨rfl, rfl, hmachine⟩

theorem Settled.handle_fraction (h : r.Settled config n found) (pin : Pin) (fraction : Float) :
    if 0.0 ≤ fraction ∧ fraction ≤ 1.0 then
      ∃ duty, dutyOfFraction fraction n = .ok duty ∧ r.handle (.setFraction pin fraction) = r.handle (.set pin duty)
    else r.handle (.setFraction pin fraction) = (.error (.refused (.fractionOutOfRange fraction)), r) := by
  obtain ⟨s, -, hs⟩ := h
  split
  · rename_i hin
    refine ⟨_, if_pos hin, ?_⟩
    simp only [Rig.handle, Engine.respond, Engine.setChannelFraction, hs.lawful.nrSamples_eq, dutyOfFraction,
      if_pos hin]
  · rename_i hout
    apply handle_of_refused
    simp only [Engine.respond, Engine.setChannelFraction, dutyOfFraction, if_neg hout]

/-- Control blocks that an arena holds are read from it. -/
theorem Settled.block_eq (h : r.Settled config n found) {blocks : List ControlBlock}
    (hlength : blocks.length = 2 * n.toNat) (hholds : r.machine.arena.Holds ⟨n⟩ blocks) {index : Nat}
    (hindex : index < blocks.length) : r.block (UInt64.ofNat index) = .ok blocks[index] := by
  obtain ⟨s, harena, hs⟩ := h
  have hfits : r.machine.arena.Fits ⟨n⟩ := harena ▸ hs.fits
  exact Chain.read_eq_ok hs.layout_eq hfits hlength hholds (List.getElem?_eq_getElem hindex)

theorem Settled.answers (h : r.Settled config n found) {blocks : List ControlBlock}
    (hlength : blocks.length = 2 * n.toNat) (hholds : r.machine.arena.Holds ⟨n⟩ blocks) :
    r.Answers config n where
  refused := fun _ _ hq hreason => h.refused hq hreason
  carried := by
    intro q hq hnone
    obtain ⟨r', heq, hengine, hpanel, hsame⟩ := h.carried hq hnone
    have hsettled : r'.Settled config n found := by
      have := (h.handleAll [q]).1
      rwa [show r.handleAll [q] = (r.handle q).2 from rfl, heq] at this
    refine ⟨r', heq, hengine, hpanel, ?_, hsame.getElem?_eq⟩
    intro index hindex
    have hholds' := Chain.holds_of_sameBeyond hlength hholds hsame
    rw [hsettled.block_eq hlength hholds' (hlength ▸ hindex), h.block_eq hlength hholds (hlength ▸ hindex)]
  many_iff := by
    intro pins duty
    have hiff := h.isOk_handle_iff (q := .setMany pins duty) trivial
    rw [hiff, ne_eq, Request.objection?, Config.objection?_eq_none_iff, Classical.not_not]
  single := handle_set r
  fraction := h.handle_fraction
  release_iff := by
    intro pin
    have hiff := h.isOk_handle_iff (q := .release pin) trivial
    rw [hiff, Request.objection?]
    by_cases hp : pin ∈ config.pins <;> simp [hp]

end Rig

/-- For every configuration that is accepted and after any requests to its simulated engine: a request for channels
that there is a reason to refuse is refused for that reason and changes nothing, and all others are carried out and
change what they name. -/
theorem answers_of_simulated (valid : config.validate = .ok n) :
    ∃ e b, simulate config = .ok (e, b) ∧ ∀ requests : List Request,
      ((Rig.mk e b).handleAll requests).Answers config n := by
  obtain ⟨e, b, s, s', hsimulate, hassembled, harena, -, -⟩ := simulate_eq_ok valid
  have hsettled : (Rig.mk e b).Settled config n s.levels := ⟨s', harena, hassembled.settled⟩
  obtain ⟨blocks, hplanned, hholds⟩ := hassembled.holds
  rw [← harena] at hholds
  refine ⟨e, b, hsimulate, ?_⟩
  intro requests
  obtain ⟨hlast, -, hsame⟩ := hsettled.handleAll requests
  exact hlast.answers hplanned.length_eq (Chain.holds_of_sameBeyond hplanned.length_eq hholds hsame)

theorem answers_of_standard : Config.standard.validate = .ok 1000 ∧
    ∃ e b, simulate Config.standard = .ok (e, b) ∧ ∀ requests,
      let r := (Rig.mk e b).handleAll requests
      r.handle (.setMany [⟨4⟩, ⟨5⟩, ⟨6⟩] 1000) = (.error (.refused (.unknownPin ⟨5⟩)), r) ∧
        r.handle (.setMany [⟨5⟩, ⟨4⟩] 1001) = (.error (.refused (.dutyOutOfRange ⟨5⟩ 1001 1000)), r) := by
  have valid : Config.standard.validate = .ok 1000 := rfl
  obtain ⟨e, b, hsimulate, hall⟩ := answers_of_simulated valid
  refine ⟨valid, e, b, hsimulate, ?_⟩
  intro requests r
  obtain ⟨hrefused, -⟩ := hall requests
  exact ⟨hrefused _ _ trivial rfl, hrefused _ _ trivial rfl⟩

end PulseWidth
