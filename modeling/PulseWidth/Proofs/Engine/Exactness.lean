import PulseWidth.Proofs.Engine.Simulated

/-!
# Validation is exact

The largest number of samples is computed as if 28 bytes were lost in front of the control blocks, while a layout loses
what its own number of samples asks for, and is then rounded up to whole pages.  All the same it is the largest number
whose layout fits the bus window without frame zero (`ChainLayout.nrSamples_le_iff_fits`), so that a configuration is
refused for its many samples only if they have no room.  A configuration that is not refused can be simulated.
-/

namespace PulseWidth

open Simulation (simulate)

/-! ### The bus window -/

namespace ChainLayout

/-- The layouts of up to `maxSamples` samples are those that the window holds next to frame zero. -/
theorem nrSamples_le_iff_fits (l : ChainLayout) :
    l.nrSamples ≤ maxSamples ↔ pageSize.toNat + l.lengthBytes.toNat ≤ busWindow.toNat := by
  have hlength := l.toNat_lengthBytes
  have hblocks := l.toNat_blocksOffset
  have hmax : maxSamples.toNat = 15790260 := rfl
  have hpage : pageSize.toNat = 4096 := rfl
  have hwindow : busWindow.toNat = 1073741824 := rfl
  rw [UInt32.le_iff_toNat_le]
  omega

/-- The window without frame zero is a whole number of pages, so that nothing is lost by rounding up. -/
theorem pages_le_iff_fits (l : ChainLayout) :
    l.pages ≤ maxArenaPages ↔ pageSize.toNat + l.lengthBytes.toNat ≤ busWindow.toNat := by
  have hpages := l.toNat_pages
  have hmax : maxArenaPages.toNat = 262143 := rfl
  have hpage : pageSize.toNat = 4096 := rfl
  have hwindow : busWindow.toNat = 1073741824 := rfl
  rw [UInt64.le_iff_toNat_le]
  omega

end ChainLayout

/-! ### Refusals -/

namespace Config

variable {config : Config} {n : UInt32}

theorem validate_eq_tooManySamples_iff :
    config.validate = .error (.tooManySamples n) ↔ config.nrSamples? = some n ∧ maxSamples < n := by
  have hzero : maxSamples < n → n ≠ 0 := by
    rintro hmax rfl
    exact absurd hmax (by decide)
  unfold validate
  constructor
  · intro h
    split at h
    · cases h
    · rename_i m hcount
      split at h
      · cases h
      · split at h
        · rename_i hmax
          cases h
          exact ⟨hcount, hmax⟩
        · -- no check behind this one has this outcome
          split at h
          · cases h
          · split at h
            · cases h
            · split at h <;> cases h
  · rintro ⟨hcount, hmax⟩
    simp only [hcount, if_neg (hzero hmax), if_pos hmax]

end Config

/-- A configuration that is accepted is simulated by a running engine over its layout; one that is refused is refused
for the same reason. -/
theorem simulate_cases (config : Config) :
    (∃ n e b, config.validate = .ok n ∧ simulate config = .ok (e, b) ∧ e.state = .running ∧ e.config = config ∧
        e.layout = ⟨n⟩) ∨
      ∃ reason, config.validate = .error reason ∧ simulate config = .error (.init (.config reason)) := by
  cases valid : config.validate with
  | ok n =>
    obtain ⟨e, b, s, s', hsimulate, hassembled, -⟩ := simulate_eq_ok valid
    exact .inl ⟨n, e, b, rfl, hsimulate, hassembled.state_eq, hassembled.settled.config_eq,
      hassembled.settled.layout_eq⟩
  | error reason =>
    refine .inr ⟨reason, rfl, ?_⟩
    simp only [simulate, valid]

/-- A configuration can be simulated exactly if it is accepted, and then its engine runs; there is no other error than
the one of its validation.  The numbers of samples that are accepted are those whose layouts have no more pages than
an arena may have, and if a number is refused, its layout and frame zero are larger than the bus window. -/
theorem validate_exact (config : Config) :
    ((∃ e b, simulate config = .ok (e, b) ∧ e.state = .running) ↔ ∃ n, config.validate = .ok n) ∧
    (∀ e b, simulate config = .ok (e, b) → e.state = .running ∧ e.config = config) ∧
    (∀ failure, simulate config = .error failure ↔
      ∃ reason, config.validate = .error reason ∧ failure = .init (.config reason)) ∧
    (∀ n : UInt32, n ≤ maxSamples ↔ (ChainLayout.mk n).pages ≤ maxArenaPages) ∧
    ∀ n, config.validate = .error (.tooManySamples n) ↔
      config.nrSamples? = some n ∧ busWindow.toNat < pageSize.toNat + (ChainLayout.mk n).lengthBytes.toNat := by
  refine ⟨?_, ?_, ?_, ?_, ?_⟩
  · rcases simulate_cases config with ⟨n, e, b, valid, hsimulate, hrunning, -⟩ | ⟨reason, refused, hsimulate⟩
    · exact ⟨fun _ => ⟨n, valid⟩, fun _ => ⟨e, b, hsimulate, hrunning⟩⟩
    · rw [refused, hsimulate]
      simp
  · intro e b h
    rcases simulate_cases config with ⟨n, e', b', -, hsimulate, hrunning, hconfig, -⟩ | ⟨reason, -, hsimulate⟩
    · rw [h] at hsimulate
      cases hsimulate
      exact ⟨hrunning, hconfig⟩
    · rw [h] at hsimulate
      cases hsimulate
  · intro failure
    rcases simulate_cases config with ⟨n, e, b, valid, hsimulate, -⟩ | ⟨reason, refused, hsimulate⟩
    · rw [valid, hsimulate]
      simp
    · rw [refused, hsimulate]
      simp [eq_comm]
  · intro n
    rw [ChainLayout.pages_le_iff_fits, ← ChainLayout.nrSamples_le_iff_fits]
  · intro n
    have hfits := (ChainLayout.mk n).nrSamples_le_iff_fits
    rw [Config.validate_eq_tooManySamples_iff, ← Nat.not_le, ← hfits, UInt32.not_le]

/-- One sample more takes another page. -/
example : (ChainLayout.mk maxSamples).pages = maxArenaPages ∧
    (ChainLayout.mk (maxSamples + 1)).pages = maxArenaPages + 1 := by decide

end PulseWidth
