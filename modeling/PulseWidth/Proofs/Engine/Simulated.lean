import PulseWidth.Proofs.Memory.Translation
import PulseWidth.Proofs.Replay.Assembly

/-!
# Simulated engines

Every configuration that is accepted can be simulated: the simulated arena is long enough and translates every offset
of the layout, and no program of the engine meets a fault on a bench.  From there on each request either is refused
and changes nothing, or leads to the engine that it asks for, and an arena that differs in its sample words at most.
-/

namespace PulseWidth

open Simulation (Bench simulate)

variable {config : Config} {n found : UInt32}

/-! ### Making a simulated engine -/

namespace Engine

/-- An arena that is long enough and translates every offset of the layout is not refused. -/
theorem build_ok (valid : config.validate = .ok n) {arena : Arena} (hfits : arena.Fits ⟨n⟩)
    (hcovers : arena.table.Covers ⟨n⟩) : ∃ p, build config n arena = .ok p := by
  obtain ⟨hpos, -, hpins⟩ := config.bounds_of_validate valid
  obtain ⟨planned, hplanned⟩ := Chain.plan_ok hpos (.of config.invert config.pacer) fun _ => hcovers.uses
  obtain ⟨writeChain, hwrite⟩ := Chain.build_ok hfits hplanned
  rw [build, ChannelTable.ofPins, hpins]
  simp only [hwrite]
  exact ⟨_, rfl⟩

end Engine

/-- An accepted configuration is simulated by an engine that has just been made on an arena whose pages are all
different. -/
theorem simulate_eq_ok (valid : config.validate = .ok n) :
    ∃ e b s s', simulate config = .ok (e, b) ∧ Engine.Assembled config n s e s' ∧ b.arena = s'.arena ∧
      s.arena.table.Separate ∧ s.arena.table.Covers ⟨n⟩ := by
  obtain ⟨hpos, hmax, -⟩ := config.bounds_of_validate valid
  have hbounds := ChainLayout.pages_bounds (l := ⟨n⟩) hpos hmax
  obtain ⟨arena, harena, hsize, hpages, hseparate⟩ :=
    Arena.simulated_eq_ok hbounds.1 hbounds.2 config.platform.dramAlias
  have hcovers : arena.table.Covers ⟨n⟩ := by
    intro offset hoffset
    have hpage : offset.value.toNat / 4096 < arena.table.entries.size := by
      rw [hpages, ChainLayout.toNat_pages]
      omega
    obtain ⟨address, haddress, -⟩ := hseparate.busOf?_eq_some hpage
    exact ⟨address, haddress⟩
  obtain ⟨p, hp⟩ := Engine.build_ok valid (ChainLayout.fits_of_size hmax hsize) hcovers
  -- a bench has no levels, so that any will do
  let s : Plant := ⟨arena, 0, false⟩
  let b : Bench := { Bench.fresh (Bench.windowsOf config.pacer) arena with journal.records := config.remarks.toArray }
  obtain ⟨result, b', s', hrun, harena', hpost⟩ :=
    Program.run_of_ensures (Engine.ensures_assemble (s := s) valid rfl) (b := b) rfl
  cases result with
  | error reason =>
    rw [hpost.1] at hp
    cases hp
  | ok e =>
    refine ⟨e, b', s, s', ?_, hpost, harena', hseparate, hcovers⟩
    have hassemble : Simulation.assemble config b = .ok (e, b') := by
      rw [Simulation.assemble, show b.arena = s.arena from rfl, hrun]
    simp only [simulate, valid, harena]
    rw [show Simulation.assemble config _ = _ from hassemble]

/-! ### Requests to a simulated engine -/

namespace Rig

/-- The engine of a rig is settled, whatever the levels of the pins are. -/
def Settled (config : Config) (n found : UInt32) (r : Rig Bench) : Prop :=
  ∃ s : Plant, r.machine.arena = s.arena ∧ r.engine.Settled config n found s

variable {r : Rig Bench}

/-- The sample words are those of the channels. -/
theorem Settled.samples_eq (h : r.Settled config n found) :
    r.samples = .ok ((ChainLayout.slots ⟨n⟩).map (slotMask r.engine.channels)) := by
  obtain ⟨s, harena, hs⟩ := h
  show r.engine.samples r.machine.arena = _
  rw [Engine.samples, Engine.layout, hs.layout_eq, harena]
  apply mapM_eq_ok_map
  intro slot hslot
  exact hs.carries slot ((ChainLayout.mk n).mem_slots.1 hslot)

/-- A request is refused or carried out; there is nothing else that becomes of it. -/
theorem Settled.handle (h : r.Settled config n found) (q : Request) :
    (∃ reason, r.handle q = (.error (.refused reason), r)) ∨
      ∃ t r', r.handle q = (.ok (), r') ∧ r.engine.revision q = .ok t ∧
        r'.engine = { r.engine with table := t, state := r.engine.stateAfter q } ∧ r'.Settled config n found ∧
        Arena.SameBeyond n.toNat r.machine.arena r'.machine.arena := by
  cases hresponse : r.engine.respond q with
  | error reason => exact .inl ⟨reason, handle_of_refused hresponse⟩
  | ok p =>
    right
    obtain ⟨s, harena, hsettled⟩ := h
    obtain ⟨t, ht, hensures⟩ := hsettled.ensures_respond hresponse
    obtain ⟨e', b', s', hrun, harena', heq, hsettled', hsame⟩ := Program.run_of_ensures hensures harena
    refine ⟨t, ⟨e', b'⟩, ?_, ht, heq, ⟨s', harena', hsettled'⟩, ?_⟩
    · simp only [Rig.handle, hresponse, Rig.run, hrun]
    · show Arena.SameBeyond n.toNat r.machine.arena b'.arena
      rw [harena, harena']
      exact hsame

/-- A stop is never refused, and does nothing unless the engine runs. -/
theorem Settled.handle_stop (h : r.Settled config n found) :
    ∃ r', r.handle .stop = (.ok (), r') ∧ r'.Settled config n found ∧ r'.engine =
      if r.engine.state = .running then { r.engine with table := r.engine.table.silence, state := .stopped }
      else r.engine := by
  rcases h.handle .stop with ⟨reason, heq⟩ | ⟨t, r', heq, ht, hengine, hsettled, -⟩
  · simp only [Rig.handle, Engine.respond] at heq
    split at heq <;> cases heq
  · refine ⟨r', heq, hsettled, ?_⟩
    cases ht
    rw [hengine]
    by_cases hrunning : r.engine.state = .running
    · simp only [Engine.stateAfter, if_pos hrunning]
    · simp only [Engine.stateAfter, if_neg hrunning]

theorem Settled.handleAll (h : r.Settled config n found) (requests : List Request) :
    (r.handleAll requests).Settled config n found ∧ (r.handleAll requests).engine.chain = r.engine.chain ∧
      Arena.SameBeyond n.toNat r.machine.arena (r.handleAll requests).machine.arena := by
  induction requests generalizing r with
  | nil => exact ⟨h, rfl, .refl _ _⟩
  | cons q rest ih =>
    have hsplit : r.handleAll (q :: rest) = (r.handle q).2.handleAll rest := rfl
    rw [hsplit]
    rcases h.handle q with ⟨reason, heq⟩ | ⟨t, r', heq, -, hengine, hsettled, hsame⟩
    · rw [heq]
      exact ih h
    · rw [heq]
      obtain ⟨hnext, hchain, hrest⟩ := ih hsettled
      exact ⟨hnext, hchain.trans (by rw [hengine]), hsame.trans hrest⟩

end Rig

end PulseWidth
