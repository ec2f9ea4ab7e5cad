import PulseWidth.Proofs.Engine.History
import PulseWidth.Proofs.Engine.Requests
import PulseWidth.Proofs.Replay.Stopping

/-!
# After a stop

When a running engine has been stopped, all its channels are disabled and all its sample words are zero.  Only a
request to drive channels can change that: releases, stops and starts leave it so, and so does whatever is refused.  As
long as it is so the DMA engine drives no pin, started or not.  An engine that has been stopped before is left alone, so
that channels which were set in the meantime stay as they are.
-/

namespace PulseWidth

open Simulation (Bench simulate)

variable {config : Config} {n found : UInt32}

/-- No channel is enabled. -/
def ChannelTable.Disabled (t : ChannelTable) : Prop := ∀ c ∈ t.channels, c.enabled = false

/-- A request that does not ask to drive channels enables none. -/
theorem Engine.disabled_revision {e : Engine} (h : e.table.Disabled) {q : Request} (hq : ¬ q.Drives) {t : ChannelTable}
    (ht : e.revision q = .ok t) : t.Disabled := by
  cases q with
  | set | setFraction | setMany => exact absurd trivial hq
  | release pin =>
    obtain ⟨-, rfl⟩ := ChannelTable.release_eq_ok ht
    intro c hc
    obtain ⟨old, hold, rfl⟩ := List.mem_map.1 hc
    split
    · rfl
    · exact h old hold
  | stop =>
    cases ht
    split
    · exact disabled_of_silence e.table
    · exact h
  | start =>
    cases ht
    exact h

namespace Rig

variable {r : Rig Bench}

/-- A call keeps all channels disabled unless it is a successful request to drive some. -/
theorem Settled.disabled_handle (h : r.Settled config n found) (hr : r.engine.table.Disabled) (q : Request)
    (hq : (r.handle q).1.isOk = true → ¬ q.Drives) : (r.handle q).2.engine.table.Disabled := by
  rcases h.handle q with ⟨reason, heq⟩ | ⟨t, r', heq, ht, hengine, -, -⟩
  · rw [heq]
    exact hr
  · rw [heq] at hq ⊢
    rw [hengine]
    exact Engine.disabled_revision hr (hq rfl) ht

theorem Settled.disabled_handleAll (h : r.Settled config n found) (hr : r.engine.table.Disabled)
    (requests : List Request) (hrequests : ∀ a ∈ r.attempts requests, a.accepted = true → ¬ a.request.Drives) :
    (r.handleAll requests).engine.table.Disabled := by
  induction requests generalizing r with
  | nil => exact hr
  | cons q rest ih =>
    obtain ⟨hq, hrest⟩ := List.forall_mem_cons.1 hrequests
    have hsettled : (r.handle q).2.Settled config n found := (h.handleAll [q]).1
    exact ih hsettled (h.disabled_handle hr q hq) hrest

/-- The sample words of an engine without enabled channels. -/
theorem Settled.samples_of_disabled (h : r.Settled config n found) (hr : r.engine.table.Disabled) :
    r.samples = .ok (List.replicate n.toNat 0) := by
  have hwords : (ChainLayout.slots ⟨n⟩).map (slotMask r.engine.channels) = List.replicate n.toNat 0 := by
    rw [List.eq_replicate_iff]
    refine ⟨by simp, ?_⟩
    intro word hword
    obtain ⟨slot, -, rfl⟩ := List.mem_map.1 hword
    exact slotMask_of_disabled hr slot
  rw [h.samples_eq, hwords]

/-- The DMA engine drives nothing, whether the channel is armed or not. -/
theorem Settled.replay_of_disabled (h : r.Settled config n found) (hr : r.engine.table.Disabled) (levels : UInt32)
    (armed : Bool) (slots : List UInt32) :
    (Plant.mk r.machine.arena levels armed).replay (.of config n) slots = ⟨r.machine.arena, levels, armed⟩ := by
  obtain ⟨s, harena, hs⟩ := h
  apply Plant.replay_of_zeros
  intro slot hslot
  show r.machine.arena.read ((ChainLayout.mk n).sampleOffset slot) = .ok 0
  rw [harena, hs.carries slot hslot, slotMask_of_disabled hr]

end Rig

/-- For every configuration that is accepted and after any requests to its simulated engine: when the engine runs and
is stopped, all sample words are zero and all channels are disabled, and they stay so, whatever is requested, until a
request to drive channels is successful; meanwhile no copy of a sample word changes a level, whether the engine has
been started again or not.  To stop an engine that has been stopped is to do nothing. -/
theorem silence_of_stop (valid : config.validate = .ok n) :
    ∃ e b, simulate config = .ok (e, b) ∧ ∀ requests : List Request,
      let r := (Rig.mk e b).handleAll requests
      (r.engine.state = .running → ∃ r', r.handle .stop = (.ok (), r') ∧ r'.engine.state = .stopped ∧
        ∀ later : List Request, (∀ a ∈ r'.attempts later, a.accepted = true → ¬ a.request.Drives) →
          let x := r'.handleAll later
          x.samples = .ok (List.replicate n.toNat 0) ∧ (∀ c ∈ x.engine.channels, c.enabled = false) ∧
          ∀ levels armed slots, (Plant.mk x.machine.arena levels armed).replay (.of config n) slots =
            ⟨x.machine.arena, levels, armed⟩) ∧
      (r.engine.state = .stopped → r.handle .stop = (.ok (), r)) := by
  obtain ⟨e, b, s, s', hsimulate, hassembled, harena, -, -⟩ := simulate_eq_ok valid
  have hmade : (Rig.mk e b).Settled config n s.levels := ⟨s', harena, hassembled.settled⟩
  refine ⟨e, b, hsimulate, ?_⟩
  intro requests r
  have hsettled : r.Settled config n s.levels := (hmade.handleAll requests).1
  refine ⟨?_, ?_⟩
  · intro hrunning
    obtain ⟨r', heq, hsettled', hengine⟩ := hsettled.handle_stop
    rw [if_pos hrunning] at hengine
    refine ⟨r', heq, by rw [hengine], ?_⟩
    intro later hlater x
    have hsilent : r'.engine.table.Disabled := by
      rw [hengine]
      exact disabled_of_silence r.engine.table
    have hlast : x.Settled config n s.levels := (hsettled'.handleAll later).1
    have hdisabled : x.engine.table.Disabled := hsettled'.disabled_handleAll hsilent later hlater
    exact ⟨hlast.samples_of_disabled hdisabled, hdisabled, hlast.replay_of_disabled hdisabled⟩
  · intro hstopped
    have hstill : r.engine.state ≠ .running := by
      rw [hstopped]
      decide
    have hstop : r.engine.stop = .done r.engine := if_pos hstill
    simp only [Rig.handle, Engine.respond, hstop, Rig.run, Program.run]

theorem silence_of_small : Config.small.validate = .ok 3 ∧ ∃ e b, simulate Config.small = .ok (e, b) ∧
    ∃ r', (Rig.mk e b).handle .stop = (.ok (), r') ∧
      (r'.handleAll [.release ⟨4⟩, .start, .stop, .start]).samples = .ok [0, 0, 0] := by
  have valid : Config.small.validate = .ok 3 := rfl
  obtain ⟨e, b, hsimulate, hall⟩ := silence_of_stop valid
  obtain ⟨e', b', s, s', hsimulate', hassembled, -⟩ := simulate_eq_ok valid
  rw [hsimulate] at hsimulate'
  cases hsimulate'
  obtain ⟨r', heq, -, hlater⟩ := (hall []).1 hassembled.state_eq
  obtain ⟨hsamples, -⟩ := hlater [.release ⟨4⟩, .start, .stop, .start] (by simp [Rig.attempts, Request.Drives])
  exact ⟨valid, e, b, hsimulate, r', heq, hsamples⟩

/-- A channel that is set after a stop survives a second stop, with its bit in the first sample word. -/
theorem channel_survives_stop : Config.small.validate = .ok 3 ∧ ∃ e b, simulate Config.small = .ok (e, b) ∧
    let r := (Rig.mk e b).handleAll [.stop, .set ⟨4⟩ 3]
    let x := (r.handle .stop).2
    (r.handle .stop).1 = .ok () ∧ x.engine.state = .stopped ∧ x.engine.channels = [.driving ⟨4⟩ 3] ∧
      x.samples = .ok [16, 0, 0] ∧
      ¬ (x.samples = .ok (List.replicate 3 0) ∧ ∀ c ∈ x.engine.channels, c.enabled = false) := by
  have valid : Config.small.validate = .ok 3 := rfl
  obtain ⟨e, b, s, s', hsimulate, hassembled, harena, -, -⟩ := simulate_eq_ok valid
  have hmade : (Rig.mk e b).Settled Config.small 3 s.levels := ⟨s', harena, hassembled.settled⟩
  refine ⟨valid, e, b, hsimulate, ?_⟩
  -- the first stop takes effect, the set is carried out, and the second stop does nothing
  obtain ⟨r₁, hstop, hsettled₁, hengine₁⟩ := hmade.handle_stop
  obtain ⟨r₂, hset, hengine₂, -, -⟩ := hsettled₁.carried (q := .set ⟨4⟩ 3) trivial rfl
  have hboth : (Rig.mk e b).handleAll [.stop, .set ⟨4⟩ 3] = r₂ := by
    show ((((Rig.mk e b).handle .stop).2).handle (.set ⟨4⟩ 3)).2 = r₂
    rw [hstop, hset]
  have hsettled₂ : r₂.Settled Config.small 3 s.levels := hboth ▸ (hmade.handleAll [.stop, .set ⟨4⟩ 3]).1
  obtain ⟨r₃, hagain, hsettled₃, hengine₃⟩ := hsettled₂.handle_stop
  rw [if_pos hassembled.state_eq] at hengine₁
  have hstate₂ : r₂.engine.state = .stopped := by rw [hengine₂, hengine₁]
  have hchannels : r₃.engine.channels = [.driving ⟨4⟩ 3] := by
    have hsilent : e.table.silence.channels = [.silent ⟨4⟩] := by
      rw [ChannelTable.silence, hassembled.channels_eq]
      rfl
    rw [hengine₃, if_neg (by rw [hstate₂]; decide), Engine.channels, hengine₂, hengine₁, hsilent]
    rfl
  have hsamples : r₃.samples = .ok [16, 0, 0] := by
    have hwords : (ChainLayout.slots ⟨3⟩).map (slotMask [.driving ⟨4⟩ 3]) = [16, 0, 0] := by decide
    rw [hsettled₃.samples_eq, hchannels, hwords]
  simp only [hboth, hagain]
  refine ⟨trivial, ?_, hchannels, hsamples, ?_⟩
  · rw [hengine₃, if_neg (by rw [hstate₂]; decide), hstate₂]
  · rintro ⟨-, hdisabled⟩
    rw [hchannels] at hdisabled
    exact absurd (hdisabled _ (List.mem_singleton_self _)) (by decide)

end PulseWidth
