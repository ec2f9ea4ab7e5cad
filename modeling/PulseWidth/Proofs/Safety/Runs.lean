import PulseWidth.Proofs.Safety.Machines
import PulseWidth.Proofs.Safety.Numbers

/-!
# Runs without faults

An engine of an accepted configuration meets no fault, whatever is asked of it, on a bench as well as on a board:
`Safe` says so of the next call, whichever it is, and each call leads from a state with `Safe` to another.  The
machine has to be ready and the engine to be bounded; that is how engines are made, and all that calls rely on.
-/

namespace PulseWidth

open Simulation (Bench simulate)

variable {σ : Type} [Machine σ] {config : Config} {n : UInt32}

/-! ### Reading the arena -/

namespace Arena

variable {a : Arena} {l : ChainLayout}

theorem Fits.read_ok (h : a.Fits l) {offset : ArenaOffset} (hinside : l.Admits offset) :
    ∃ word, a.read offset = .ok word := by
  rw [read, h.refusal?_eq_none hinside.1 hinside.2]
  exact ⟨_, rfl⟩

theorem Fits.readMany_ok (h : a.Fits l) {offset : ArenaOffset} {count : Nat} (haligned : offset.value.toNat % 4 = 0)
    (hend : offset.value.toNat + 4 * count ≤ l.lengthBytes.toNat) : ∃ words, a.readMany offset count = .ok words := by
  induction count generalizing offset with
  | zero => exact ⟨[], rfl⟩
  | succ count ih =>
    have hbound := l.lengthBytes_bound
    -- the layout ends below the largest offset, so the next one does not wrap around
    have hnext : (offset.advance 4).value.toNat = offset.value.toNat + 4 := by
      rw [UInt64.size] at hbound
      show (offset.value + 4).toNat = _
      rw [UInt64.toNat_add]
      simp
      omega
    have hinside : l.Admits offset := ⟨haligned, by omega⟩
    have halignedNext : (offset.advance 4).value.toNat % 4 = 0 := by omega
    have hendNext : (offset.advance 4).value.toNat + 4 * count ≤ l.lengthBytes.toNat := by omega
    obtain ⟨word, hword⟩ := h.read_ok hinside
    obtain ⟨words, hwords⟩ := ih halignedNext hendNext
    rw [readMany, hword]
    simp only [hwords]
    exact ⟨_, rfl⟩

end Arena

/-! ### Calls -/

namespace Rig

/-- No call meets a fault or accesses anything outside.  The engine is bounded and its machine ready. -/
structure Safe (ready : σ → Prop) (config : Config) (n : UInt32) (r : Rig σ) : Prop where
  bounded : r.engine.Bounded config n
  ready : ready r.machine
  handle_ok : ∀ q reason, (r.handle q).1 ≠ .error (.fault reason)
  handle_inside : ∀ q p, r.engine.respond q = .ok p → ∀ x ∈ p.accesses r.machine, x.Inside ⟨n⟩
  exit_ok : ∃ e machine, r.engine.exit.run r.machine = (.ok e, machine)
  exit_inside : ∀ x ∈ r.engine.exit.accesses r.machine, x.Inside ⟨n⟩
  status_ok : ∃ word r', r.status = (.ok word, r')
  status_inside : ∀ x ∈ Sequencer.dmaStatus.accesses r.machine, x.Inside ⟨n⟩
  samples_ok : ∃ words, r.samples = .ok words
  block_ok : ∀ index < 2 * n.toNat, ∃ block, r.block (UInt64.ofNat index) = .ok block

variable {ready : σ → Prop} {r : Rig σ}

private theorem run_handle (hgrants : Machine.Grants ⟨n⟩ ready) (hbounded : r.engine.Bounded config n)
    (hready : ready r.machine) (q : Request) :
    (∃ reason, r.handle q = (.error (.refused reason), r)) ∨
      ∃ r', r.handle q = (.ok (), r') ∧ r'.engine.Bounded config n ∧ ready r'.machine := by
  cases hresponse : r.engine.respond q with
  | error reason => exact .inl ⟨reason, handle_of_refused hresponse⟩
  | ok p =>
    obtain ⟨e, machine, hrun, he, hmachine⟩ := hgrants.run (hbounded.stays_respond hresponse) hready
    refine .inr ⟨⟨e, machine⟩, ?_, he, hmachine⟩
    simp only [handle, hresponse, run, hrun]

/-- What calls rely on is enough for each of them. -/
theorem safe_of_ready (hgrants : Machine.Grants ⟨n⟩ ready) (hbounded : r.engine.Bounded config n)
    (hready : ready r.machine) : r.Safe ready config n := by
  have hfits : (Machine.arena r.machine).Fits ⟨n⟩ := hgrants.fits r.machine hready
  exact
    { bounded := hbounded
      ready := hready
      handle_ok := by
        intro q reason h
        rcases run_handle hgrants hbounded hready q with ⟨_, heq⟩ | ⟨_, heq, -⟩
        · rw [heq] at h
          cases h
        · rw [heq] at h
          cases h
      handle_inside := fun q p hp => (hbounded.stays_respond hp).inside r.machine
      exit_ok := by
        obtain ⟨e, machine, hrun, -⟩ := hgrants.run hbounded.stays_exit hready
        exact ⟨e, machine, hrun⟩
      exit_inside := hbounded.stays_exit.inside r.machine
      status_ok := by
        obtain ⟨word, machine, hrun, -⟩ := hgrants.run Sequencer.stays_dmaStatus hready
        refine ⟨word, ⟨r.engine, machine⟩, ?_⟩
        rw [status, hrun]
      status_inside := Sequencer.stays_dmaStatus.inside r.machine
      samples_ok := by
        rw [samples, Engine.samples, hbounded.layout_eq]
        apply mapM_ok_of_forall
        intro slot hmem
        have hslot := (ChainLayout.mk n).mem_slots.1 hmem
        exact hfits.read_ok ⟨Arena.sample_aligned _ slot, Arena.sample_end hslot⟩
      block_ok := by
        intro index hindex
        have hlayout : r.engine.chain.layout = ⟨n⟩ := hbounded.layout_eq
        have hoffset := ChainLayout.toNat_blockOffset_ofNat (l := ⟨n⟩) (Nat.le_of_lt hindex)
        have hblocks := (ChainLayout.mk n).toNat_blocksOffset
        have hlength := (ChainLayout.mk n).toNat_lengthBytes
        dsimp only at hblocks hlength
        have haligned : ((ChainLayout.mk n).blockOffset (UInt64.ofNat index)).value.toNat % 4 = 0 := by omega
        have hend : ((ChainLayout.mk n).blockOffset (UInt64.ofNat index)).value.toNat + 4 * 8 ≤
            (ChainLayout.mk n).lengthBytes.toNat := by omega
        obtain ⟨words, hwords⟩ := hfits.readMany_ok haligned hend
        rw [block, Chain.read, hlayout, hwords]
        exact ⟨_, rfl⟩ }

theorem Safe.handle (h : r.Safe ready config n) (hgrants : Machine.Grants ⟨n⟩ ready) (q : Request) :
    (r.handle q).2.Safe ready config n := by
  rcases run_handle hgrants h.bounded h.ready q with ⟨reason, heq⟩ | ⟨r', heq, hbounded, hready⟩
  · rw [heq]
    exact h
  · rw [heq]
    exact safe_of_ready hgrants hbounded hready

theorem Safe.handleAll (h : r.Safe ready config n) (hgrants : Machine.Grants ⟨n⟩ ready) (requests : List Request) :
    (r.handleAll requests).Safe ready config n := by
  induction requests generalizing r with
  | nil => exact h
  | cons q rest ih => exact ih (h.handle hgrants q)

theorem Safe.close (h : r.Safe ready config n) (hgrants : Machine.Grants ⟨n⟩ ready) :
    r.close.Safe ready config n := by
  obtain ⟨e, machine, hrun, -, hready⟩ := hgrants.run h.bounded.stays_exit h.ready
  have hmachine : r.close.machine = machine := by rw [Rig.close, hrun]
  apply safe_of_ready hgrants
  · exact { h.bounded with }
  · rw [hmachine]
    exact hready

/-- Any requests, and a shutdown after them. -/
def SafeThroughout (ready : σ → Prop) (config : Config) (n : UInt32) (r : Rig σ) : Prop :=
  ∀ requests, (r.handleAll requests).Safe ready config n ∧ (r.handleAll requests).close.Safe ready config n

theorem safeThroughout_of_ready (hgrants : Machine.Grants ⟨n⟩ ready) (hbounded : r.engine.Bounded config n)
    (hready : ready r.machine) : r.SafeThroughout ready config n := by
  intro requests
  have hsafe := (safe_of_ready hgrants hbounded hready).handleAll hgrants requests
  exact ⟨hsafe, hsafe.close hgrants⟩

end Rig

/-! ### Engines of accepted configurations -/

/-- For an accepted configuration no number is cut and each field holds what is put into it.  To make an engine takes
no access outside the windows and the layout, on any machine.  The configuration is simulated, and it is brought up on
any host, unless that has a reason to refuse; then no requests and no shutdown after them meet a fault or access
anything outside. -/
theorem safe_of_validate (valid : config.validate = .ok n) :
    config.Exact n ∧ (∀ word, ∀ s ∈ config.settings word, s.Accepted) ∧
    (∀ (τ : Type) [Machine τ] (arena : Arena) (machine : τ),
      ∀ x ∈ (Engine.assemble config arena).accesses machine, x.Inside ⟨n⟩) ∧
    (∃ e b, simulate config = .ok (e, b) ∧ (Rig.mk e b).SafeThroughout (Bench.Ready ⟨n⟩) config n) ∧
    ∀ host : Host, (∃ reason host', host.bringUp config = .error (.init reason, host')) ∨
      ∃ e b, host.bringUp config = .ok (e, b) ∧ (Rig.mk e b).SafeThroughout (Board.Ready ⟨n⟩) config n := by
  refine ⟨config.exact_of_validate valid, config.settings_accepted valid, ?_, ?_, ?_⟩
  · intro τ _ arena machine
    exact (Engine.stays_assemble valid arena).inside machine
  · obtain ⟨e, b, hsimulate, hbounded, hready⟩ := ready_of_simulate valid
    exact ⟨e, b, hsimulate, Rig.safeThroughout_of_ready (Bench.grants ⟨n⟩) hbounded hready⟩
  · intro host
    rcases Host.ready_of_bringUp valid host with hrefused | ⟨e, b, hbringUp, hbounded, hready⟩
    · exact .inl hrefused
    · exact .inr ⟨e, b, hbringUp, Rig.safeThroughout_of_ready (Board.grants ⟨n⟩) hbounded hready⟩

theorem safe_of_small : Config.small.validate = .ok 3 ∧ Config.small.Exact 3 ∧
    ∃ e b, simulate Config.small = .ok (e, b) ∧
      (Rig.mk e b).SafeThroughout (Bench.Ready ⟨3⟩) Config.small 3 := by
  have valid : Config.small.validate = .ok 3 := rfl
  obtain ⟨hexact, -, -, hsimulated, -⟩ := safe_of_validate valid
  exact ⟨valid, hexact, hsimulated⟩

end PulseWidth
