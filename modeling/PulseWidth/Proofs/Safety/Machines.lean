import PulseWidth.Board.BringUp
import PulseWidth.Proofs.Board.Window
import PulseWidth.Proofs.Safety.Programs
import PulseWidth.Proofs.Simulation.Calls

/-!
# Machines that are ready

A bench and a board are ready for a layout if the arena has room for it and the windows have their lengths, and then
they refuse no access inside.  Nothing that a program does takes that away.  A configuration that is accepted is
simulated on such a bench, and if the host makes a board for it, it makes such a board.
-/

namespace PulseWidth

open Simulation (Bench Window simulate)

variable {config : Config} {n : UInt32} {l : ChainLayout} {e : Engine}

/-! ### Benches -/

namespace Simulation.Bench

/-- The arena has room for the layout, and each window has the words of its block. -/
structure Ready (l : ChainLayout) (b : Bench) : Prop where
  fits : b.arena.Fits l
  size_eq : ∀ role, 4 * b.panel.size role = role.bytes

theorem grants (l : ChainLayout) : Machine.Grants l (Ready l) where
  fits := fun b hready => hready.fits
  load := fun b role offset hready _ =>
    ⟨(b.load role offset).1, (b.load role offset).2, rfl, hready.fits, hready.size_eq⟩
  perform := by
    intro b action hready hinside
    cases action with
    | store role offset value =>
      refine ⟨b.store role offset value, rfl, hready.fits, fun other => ?_⟩
      rw [b.panel_store, Panel.size_store]
      exact hready.size_eq other
    | pause micros => exact ⟨{ b with journal := b.journal.note (.delay micros) }, rfl, hready.fits, hready.size_eq⟩
    | write offset value =>
      obtain ⟨haligned, hend⟩ := List.forall_mem_singleton.1 hinside
      have hrefusal := hready.fits.refusal?_eq_none haligned hend
      have hfits := (Arena.fits_put_iff b.arena offset value l).2 hready.fits
      refine ⟨{ b with arena := b.arena.put offset value }, ?_, hfits, hready.size_eq⟩
      show b.perform (.write offset value) = _
      simp only [Bench.perform, hrefusal]
    | log record => exact ⟨{ b with journal := b.journal.log record }, rfl, hready.fits, hready.size_eq⟩
    | print line => exact ⟨{ b with printed := b.printed.push line }, rfl, hready.fits, hready.size_eq⟩

private theorem size_zeros (block : String) (bytes : UInt64) :
    (Window.zeros block bytes).words.size = (bytes.toNat + 3) / 4 :=
  Array.size_replicate

theorem size_windowsOf (pacer : Pacer) (role : Role) :
    4 * ((windowsOf pacer).get role).words.size = role.bytes := by
  cases role with
  | dma =>
    show 4 * (Window.zeros _ _).words.size = _
    rw [size_zeros]
    rfl
  | clock | pacer | gpio =>
    show 4 * (Window.zeros _ _).words.size = _
    rw [size_zeros]
    rfl

end Simulation.Bench

theorem Simulation.ready_of_assemble (valid : config.validate = .ok n) {b b' : Bench} (hready : b.Ready ⟨n⟩)
    (h : Simulation.assemble config b = .ok (e, b')) : e.Bounded config n ∧ b'.Ready ⟨n⟩ := by
  have hstays := Engine.stays_assemble valid b.arena
  obtain ⟨result, after, hrun, hbounded, hafter⟩ := (Bench.grants ⟨n⟩).run hstays hready
  rw [run_of_assemble h] at hrun
  cases hrun
  exact ⟨hbounded e rfl, hafter⟩

/-- An accepted configuration is simulated on a bench that is ready. -/
theorem ready_of_simulate (valid : config.validate = .ok n) :
    ∃ e b, simulate config = .ok (e, b) ∧ e.Bounded config n ∧ b.Ready ⟨n⟩ := by
  obtain ⟨e, b, -, -, hsimulate, -⟩ := simulate_eq_ok valid
  refine ⟨e, b, hsimulate, ?_⟩
  obtain ⟨hpos, hmax, -⟩ := config.bounds_of_validate valid
  obtain ⟨hsome, hpages⟩ := ChainLayout.pages_bounds (l := ⟨n⟩) hpos hmax
  obtain ⟨arena, harena, hsize, -⟩ := Arena.simulated_eq_ok hsome hpages config.platform.dramAlias
  have hfits : arena.Fits ⟨n⟩ := ChainLayout.fits_of_size hmax hsize
  simp only [simulate, valid, harena] at hsimulate
  split at hsimulate
  · rename_i started hassemble
    cases hsimulate
    refine Simulation.ready_of_assemble valid ?_ hassemble
    constructor
    · exact hfits
    · exact Bench.size_windowsOf config.pacer
  · cases hsimulate

/-! ### Boards -/

namespace Board

/-- The arena has room for the layout, and each window has the length of its block. -/
structure Ready (l : ChainLayout) (b : Board) : Prop where
  fits : b.arena.Fits l
  length_eq : ∀ role, (b.windows.get role).length.toNat = role.bytes

variable {b : Board}

theorem Ready.holds (h : b.Ready l) {role : Role} {offset : UInt64} (hinside : role.Admits offset) :
    (b.windows.get role).Holds offset := by
  have hlength := h.length_eq role
  exact ⟨hinside.1, hlength ▸ hinside.2⟩

theorem grants (l : ChainLayout) : Machine.Grants l (Ready l) where
  fits := fun b hready => hready.fits
  load := by
    intro b role offset hready hinside
    refine ⟨b.host.memory.word ((b.windows.get role).address offset), b, ?_, hready⟩
    show (b.host.load (b.windows.get role) offset, b) = _
    rw [Host.load_of_holds _ (hready.holds hinside)]
  perform := by
    intro b action hready hinside
    obtain ⟨host, windows, arena⟩ := b
    cases action with
    | store role offset value =>
      have hadmits : role.Admits offset := hinside _ List.mem_cons_self
      obtain ⟨after, hstore, -⟩ := host.store_of_holds (hready.holds hadmits) value
      refine ⟨⟨after, windows, arena⟩, ?_, hready.fits, hready.length_eq⟩
      show Board.perform ⟨host, windows, arena⟩ (.store role offset value) = _
      simp only [Board.perform, hstore]
    | pause micros => exact ⟨_, rfl, hready⟩
    | write offset value =>
      obtain ⟨haligned, hend⟩ := List.forall_mem_singleton.1 hinside
      have hrefusal := hready.fits.refusal?_eq_none haligned hend
      have hfits := (Arena.fits_put_iff arena offset value l).2 hready.fits
      refine ⟨⟨host, windows, arena.put offset value⟩, ?_, hfits, hready.length_eq⟩
      show Board.perform ⟨host, windows, arena⟩ (.write offset value) = _
      simp only [Board.perform, hrefusal]
    | log record => exact ⟨_, rfl, hready.fits, hready.length_eq⟩
    | print line => exact ⟨_, rfl, hready.fits, hready.length_eq⟩

end Board

namespace Host

theorem length_of_mapBlock {h h' : Host} {platform : Platform} {block : Block} {offset length : UInt64}
    {w : MappedWindow} (hmap : h.mapBlock platform block offset length = (.ok w, h')) : w.length = length := by
  obtain ⟨rfl, -⟩ := MappedWindow.of_plan_eq_ok (plan_of_mapBlock hmap)
  rfl

theorem withWindow_eq_ok {mapped : Except MapError MappedWindow × Host} {before : List MappedWindow}
    {next : MappedWindow → Host → Except MapError (Roles MappedWindow) × Host} {windows : Roles MappedWindow}
    {h' : Host} (hmap : withWindow mapped before next = (.ok windows, h')) :
    ∃ w h, mapped = (.ok w, h) ∧ next w h = (.ok windows, h') := by
  obtain ⟨reason | w, h⟩ := mapped
  · cases hmap
  · exact ⟨w, h, rfl, hmap⟩

theorem length_of_mapWindows {h h' : Host} {windows : Roles MappedWindow}
    (hmap : h.mapWindows config = (.ok windows, h')) (role : Role) :
    (windows.get role).length.toNat = role.bytes := by
  unfold mapWindows at hmap
  obtain ⟨dma, h₁, hdma, hmap⟩ := withWindow_eq_ok hmap
  obtain ⟨clock, h₂, hclock, hmap⟩ := withWindow_eq_ok hmap
  obtain ⟨pacer, h₃, hpacer, hmap⟩ := withWindow_eq_ok hmap
  obtain ⟨gpio, h₄, hgpio, hmap⟩ := withWindow_eq_ok hmap
  cases hmap
  cases role with
  | dma => exact congrArg UInt64.toNat (length_of_mapBlock hdma)
  | clock => exact congrArg UInt64.toNat (length_of_mapBlock hclock)
  | pacer => exact congrArg UInt64.toNat (length_of_mapBlock hpacer)
  | gpio => exact congrArg UInt64.toNat (length_of_mapBlock hgpio)

theorem arithmetic_of_call {h h' : Host} {c : Call} {answer : Option Errno} (hcall : h.call c = (answer, h')) :
    h'.arithmetic = h.arithmetic := by
  cases hcall
  rfl

theorem arithmetic_of_mapArena {h h' : Host} {length : UInt64} (hmap : h.mapArena length = (.ok (), h')) :
    h'.arithmetic = h.arithmetic := by
  unfold mapArena at hmap
  split at hmap
  · cases hmap
  · rename_i hmapped
    split at hmap
    · cases hmap
    · rename_i hlocked
      cases hmap
      exact (arithmetic_of_call hlocked).trans (arithmetic_of_call hmapped)

theorem mapAndResolve_eq_ok {h h' : Host} {pages : UInt64} {resolver : Resolver} {dram : DramAlias} {arena : Arena}
    (hresolve : h.mapAndResolve pages resolver dram = (.ok arena, h')) :
    arena.discipline = .locked h.arithmetic ∧ arena.words = Array.replicate (pages * pageSize / 4).toNat 0 ∧
      ∃ base, PageTable.resolve base pages.toNat resolver dram = .ok arena.table := by
  unfold mapAndResolve at hresolve
  split at hresolve
  · cases hresolve
  · rename_i hmap
    dsimp only [PageTable.fill] at hresolve
    split at hresolve
    · cases hresolve
    · rename_i htable
      cases hresolve
      have hsame := arithmetic_of_mapArena hmap
      exact ⟨congrArg Discipline.locked hsame, rfl, _, htable⟩

/-- An arena that is made holds zeros, has the table of its pages and checks accesses as the host has it. -/
theorem allocateArena_eq_ok {h h' : Host} {pages : UInt64} {resolver : Resolver} {dram : DramAlias} {arena : Arena}
    (hallocate : h.allocateArena pages resolver dram = (.ok arena, h')) :
    pages.toNat ≤ 262143 ∧ arena.discipline = .locked h.arithmetic ∧
      arena.words = Array.replicate (1024 * pages.toNat) 0 ∧
      ∃ base, PageTable.resolve base pages.toNat resolver dram = .ok arena.table := by
  unfold allocateArena at hallocate
  split at hallocate
  · cases hallocate
  · rename_i hlarge
    have hmax : pages.toNat ≤ 262143 := UInt64.le_iff_toNat_le.1 (UInt64.not_lt.1 hlarge)
    split at hallocate
    · cases hallocate
    · split at hallocate
      · cases hallocate
      · rename_i hquery
        split at hallocate
        · obtain ⟨hdiscipline, hwords, htable⟩ := mapAndResolve_eq_ok hallocate
          rw [arithmetic_of_call hquery] at hdiscipline
          rw [Arena.toNat_words hmax] at hwords
          exact ⟨hmax, hdiscipline, hwords, htable⟩
        · cases hallocate

theorem makeArena_eq_ok {h h' : Host} {arena : Arena} (hmake : h.makeArena config n = (.ok arena, h')) :
    ∃ h₁ resolver, allocateArena h₁ (ChainLayout.mk n).pages resolver config.platform.dramAlias = (.ok arena, h') := by
  unfold makeArena at hmake
  split at hmake
  · cases hmake
  · split at hmake
    · cases hmake
    · rename_i hallocate
      cases hmake
      exact ⟨_, _, hallocate⟩

theorem fits_of_makeArena {h h' : Host} {arena : Arena} (hmax : n ≤ maxSamples)
    (hmake : h.makeArena config n = (.ok arena, h')) : arena.Fits ⟨n⟩ := by
  obtain ⟨h₁, resolver, hallocate⟩ := makeArena_eq_ok hmake
  obtain ⟨-, -, hwords, -⟩ := allocateArena_eq_ok hallocate
  exact ChainLayout.fits_of_size hmax (by rw [hwords, Array.size_replicate])

theorem makeBoard_eq_ok {h : Host} {b : Board} (hmake : h.makeBoard config n = .ok b) :
    ∃ h₁ h₂, mapWindows h₁ config = (.ok b.windows, h₂) ∧ makeArena h₂ config n = (.ok b.arena, b.host) := by
  unfold makeBoard at hmake
  split at hmake
  · cases hmake
  · split at hmake
    · cases hmake
    · rename_i hwindows
      split at hmake
      · cases hmake
      · rename_i harena
        cases hmake
        exact ⟨_, _, hwindows, harena⟩

theorem ready_of_makeBoard {h : Host} {b : Board} (hmax : n ≤ maxSamples) (hmake : h.makeBoard config n = .ok b) :
    b.Ready ⟨n⟩ := by
  obtain ⟨h₁, h₂, hwindows, harena⟩ := makeBoard_eq_ok hmake
  exact ⟨fits_of_makeArena hmax harena, length_of_mapWindows hwindows⟩

/-- An accepted configuration is started on a board that is ready, unless there is a reason not to make the board or
the chain. -/
theorem ready_of_bringUp (valid : config.validate = .ok n) (h : Host) :
    (∃ reason h', h.bringUp config = .error (.init reason, h')) ∨
      ∃ e b, h.bringUp config = .ok (e, b) ∧ e.Bounded config n ∧ b.Ready ⟨n⟩ := by
  obtain ⟨-, hmax, -⟩ := config.bounds_of_validate valid
  simp only [bringUp, valid]
  split
  · exact .inl ⟨_, _, rfl⟩
  · rename_i board hmake
    have hstays := Engine.stays_assemble valid board.arena
    obtain ⟨result, b, hrun, hbounded, hready⟩ := (Board.grants ⟨n⟩).run hstays (ready_of_makeBoard hmax hmake)
    rw [hrun]
    cases result with
    | error reason => exact .inl ⟨_, _, rfl⟩
    | ok e => exact .inr ⟨e, b, rfl, hbounded e rfl, hready⟩

end Host

end PulseWidth
