import PulseWidth.Proofs.Board.Attempt
import PulseWidth.Proofs.Memory.Resolution
import PulseWidth.Proofs.Safety.Machines

/-!
# Boards that are brought up or given back

An engine needs a board, and then its chain needs a place in the arena.  The second never fails: the arena of a board
has the pages of the layout, and each is a whole page of the bus.  So an accepted configuration is brought up if no
stage on the way fails (`Host.stages`), and otherwise the first failure is the error, and what had been granted is
given back.
-/

namespace PulseWidth

/-! ### Engines -/

/-- The bus sees the window above the alias. -/
theorem BusAddress.toNat_of_ofPhysical? {a : PhysicalAddress} {dram : DramAlias} {bus : BusAddress}
    (h : ofPhysical? a dram = some bus) :
    bus.value.toNat = dram.value.toNat + a.value.toNat ∧ dram.value.toNat % 4096 = 0 := by
  unfold ofPhysical? at h
  split at h
  · rename_i hwindow
    cases h
    rw [UInt64.lt_iff_toNat_lt, show busWindow.toNat = 1073741824 from rfl] at hwindow
    have hlow : a.value.toUInt32.toNat = a.value.toNat := by
      rw [UInt64.toNat_toUInt32]
      omega
    have haligned := dram.toNat_mod
    refine ⟨?_, by omega⟩
    show (a.value.toUInt32 ||| dram.value).toNat = _
    rw [UInt32.toNat_or, hlow, Nat.or_comm, dram.or_eq_add hwindow]
  · cases h

/-- A page that has been found is a whole page of the bus. -/
theorem PageTable.aligned_of_resolveEntry {resolver : Resolver} {dram : DramAlias} {address : VirtualAddress}
    {entry : PageEntry} (h : resolveEntry resolver dram address = .ok entry) :
    entry.bus.value.toNat % 4096 = 0 := by
  unfold resolveEntry PageEntry.ofPages at h
  split at h
  · cases h
  · rename_i physical _
    split at h
    · rename_i bus hbus
      cases h
      have hbase : physical.page.base.value.toNat = physical.value.toNat / 4096 * 4096 := toNat_pageBase _
      have hvalue := BusAddress.toNat_of_ofPhysical? hbus
      show bus.value.toNat % 4096 = 0
      omega
    · cases h

/-- An arena whose pages have all been found covers its layout. -/
theorem PageTable.covers_of_resolve {l : ChainLayout} {base : VirtualAddress} {resolver : Resolver} {dram : DramAlias}
    {t : PageTable} (h : resolve base l.pages.toNat resolver dram = .ok t) : t.Covers l := by
  obtain ⟨hlength, hget⟩ := mapM_eq_ok (resolve_eq_ok_iff.1 h)
  rw [length_addresses, Array.length_toList] at hlength
  intro offset hoffset
  have hpages := l.toNat_pages
  have hi : offset.value.toNat / 4096 < t.entries.size := by omega
  have hentry := hget (offset.value.toNat / 4096) (by rw [length_addresses]; omega) (by simpa using hi)
  rw [Array.getElem_toList] at hentry
  obtain ⟨bus, hbus, -⟩ := busOf?_eq_some hi (aligned_of_resolveEntry hentry)
  exact ⟨bus, hbus⟩

/-- The layout has its place in the arena of a board that is made for it. -/
theorem Host.covers_of_makeBoard {config : Config} {n : UInt32} {h : Host} {b : Board}
    (hmake : h.makeBoard config n = .ok b) : b.arena.table.Covers ⟨n⟩ := by
  obtain ⟨h₁, h₂, -, harena⟩ := makeBoard_eq_ok hmake
  obtain ⟨h₃, resolver, hallocate⟩ := makeArena_eq_ok harena
  obtain ⟨-, -, -, base, hresolve⟩ := allocateArena_eq_ok hallocate
  exact PageTable.covers_of_resolve hresolve

/-- An engine that has been assembled runs. -/
theorem Engine.running_of_assemble {σ : Type} [Machine σ] {config : Config} {n : UInt32}
    (valid : config.validate = .ok n) {arena : Arena} {p : Program Engine} (hbuild : build config n arena = .ok p)
    {machine machine' : σ} {result : Except InitError Engine}
    (h : (assemble config arena).run machine = (.ok result, machine')) :
    ∃ e, result = .ok e ∧ e.state = .running := by
  simp only [assemble, valid, hbuild] at h
  obtain ⟨-, after, -, h⟩ := Program.run_bind_eq_ok h
  rw [Program.run_bind] at h
  split at h
  · rename_i e after' hrun
    cases h
    refine ⟨e, rfl, ?_⟩
    unfold build at hbuild
    split at hbuild
    · cases hbuild
    split at hbuild
    · cases hbuild
    cases hbuild
    obtain ⟨chain, _, -, hrun⟩ := Program.run_bind_eq_ok hrun
    obtain ⟨-, _, -, hrun⟩ := Program.run_bind_eq_ok hrun
    obtain ⟨sequencer, _, -, hrun⟩ := Program.run_bind_eq_ok hrun
    unfold start at hrun
    obtain ⟨-, _, -, hrun⟩ := Program.run_bind_eq_ok hrun
    obtain ⟨-, _, -, hrun⟩ := Program.run_bind_eq_ok hrun
    cases hrun
    rfl
  · cases h

/-- An accepted configuration has a running engine on every board that is made for it. -/
theorem Board.running_of_makeBoard {config : Config} {n : UInt32} (valid : config.validate = .ok n) {h : Host}
    {b : Board} (hmake : h.makeBoard config n = .ok b) :
    ∃ e b', (Engine.assemble config b.arena).run b = (.ok (.ok e), b') ∧ e.state = .running ∧
      e.Bounded config n ∧ b'.Ready ⟨n⟩ := by
  obtain ⟨-, hmax, -⟩ := config.bounds_of_validate valid
  have hready := Host.ready_of_makeBoard hmax hmake
  obtain ⟨p, hbuild⟩ := Engine.build_ok valid hready.fits (Host.covers_of_makeBoard hmake)
  obtain ⟨result, b', hrun, hbounded, hready'⟩ :=
    (Board.grants ⟨n⟩).run (Engine.stays_assemble valid b.arena) hready
  obtain ⟨e, rfl, hrunning⟩ := Engine.running_of_assemble valid hbuild hrun
  exact ⟨e, b', hrun, hrunning, hbounded e rfl, hready'⟩

/-- A program makes no calls. -/
theorem Board.history_run {α : Type} (p : Program α) (b : Board) : (p.run b).2.host.history = b.host.history := by
  induction p generalizing b with
  | done result => rfl
  | fault reason => rfl
  | load role offset next ih =>
    have hload : Machine.load role offset b = (b.load role offset, b) := rfl
    rw [Program.run, hload]
    cases b.load role offset with
    | ok value => exact ih value b
    | error reason => rfl
  | act action next ih =>
    have hperform : (b.perform action).2.host.history = b.host.history := by
      cases action with
      | store role offset value =>
        simp only [Board.perform, Host.store, Host.log]
        split <;> rfl
      | write offset value =>
        simp only [Board.perform]
        split <;> rfl
      | pause _ | log _ | print _ => rfl
    have hmachine : Machine.perform action b = b.perform action := rfl
    rw [Program.run, hmachine]
    generalize b.perform action = outcome at hperform ⊢
    obtain ⟨reason | _, after⟩ := outcome
    · exact hperform
    · exact (ih () after).trans hperform

/-! ### Registers that are not touched -/

namespace Host

variable {α : Type}

/-- The host with another memory. -/
def withMemory (memory : PhysicalMemory) (h : Host) : Host := { h with memory }

/-- An answer and the host with another memory. -/
def exchange (memory : PhysicalMemory) : α × Host → α × Host
  | (answer, h) => (answer, h.withMemory memory)

variable (memory : PhysicalMemory) (h : Host) (config : Config)

theorem call_withMemory (c : Call) : (h.withMemory memory).call c = exchange memory (h.call c) := rfl

theorem unmapWindow_withMemory (w : MappedWindow) :
    (h.withMemory memory).unmapWindow w = (h.unmapWindow w).withMemory memory := by
  unfold unmapWindow
  rw [call_withMemory]
  obtain ⟨_ | reason, after⟩ := h.call (.unmapDevice w.block) <;> rfl

theorem unmapAll_withMemory (windows : List MappedWindow) :
    (h.withMemory memory).unmapAll windows = (h.unmapAll windows).withMemory memory := by
  induction windows generalizing h with
  | nil => rfl
  | cons w rest ih =>
    show ((h.withMemory memory).unmapWindow w).unmapAll rest = _
    rw [unmapWindow_withMemory, ih]
    rfl

theorem unmapArena_withMemory : (h.withMemory memory).unmapArena = h.unmapArena.withMemory memory := by
  unfold unmapArena
  rw [call_withMemory]
  obtain ⟨_ | reason, after⟩ := h.call .unmapArena <;> rfl

theorem releaseArena_withMemory : (h.withMemory memory).releaseArena = h.releaseArena.withMemory memory := by
  unfold releaseArena
  rw [call_withMemory]
  obtain ⟨_ | reason, after⟩ := h.call .unlockArena
  · exact after.unmapArena_withMemory memory
  · exact unmapArena_withMemory memory (after.log _ _ _)

theorem openDevice_withMemory : (h.withMemory memory).openDevice = exchange memory h.openDevice := by
  unfold openDevice
  rw [call_withMemory]
  obtain ⟨_ | reason, after⟩ := h.call .openDevice <;> rfl

theorem mapBlock_withMemory (platform : Platform) (block : Block) (offset length : UInt64) :
    (h.withMemory memory).mapBlock platform block offset length =
      exchange memory (h.mapBlock platform block offset length) := by
  unfold mapBlock mapWindow
  rw [call_withMemory]
  cases MappedWindow.plan block.name ((platform.blockBase block).advance offset) length with
  | error reason => rfl
  | ok w => obtain ⟨_ | reason, after⟩ := h.call (.mapDevice block.name) <;> rfl

theorem withWindow_exchange (mapped : Except MapError MappedWindow × Host) (before : List MappedWindow)
    {next : MappedWindow → Host → Except MapError (Roles MappedWindow) × Host}
    (hnext : ∀ w (h : Host), next w (h.withMemory memory) = exchange memory (next w h)) :
    withWindow (exchange memory mapped) before next = exchange memory (withWindow mapped before next) := by
  obtain ⟨reason | w, h⟩ := mapped
  · exact Prod.ext rfl (h.unmapAll_withMemory memory before)
  · exact hnext w h

theorem mapWindows_withMemory : (h.withMemory memory).mapWindows config = exchange memory (h.mapWindows config) := by
  simp only [mapWindows, mapBlock_withMemory]
  refine withWindow_exchange memory _ _ fun dma h => ?_
  rw [mapBlock_withMemory]
  refine withWindow_exchange memory _ _ fun clock h => ?_
  rw [mapBlock_withMemory]
  refine withWindow_exchange memory _ _ fun pacer h => ?_
  rw [mapBlock_withMemory]
  exact withWindow_exchange memory _ _ fun gpio h => rfl

theorem mapArena_withMemory (length : UInt64) :
    (h.withMemory memory).mapArena length = exchange memory (h.mapArena length) := by
  unfold mapArena
  rw [call_withMemory]
  obtain ⟨_ | reason, after⟩ := h.call .mapArena
  · dsimp only [exchange]
    rw [call_withMemory]
    obtain ⟨_ | reason, after⟩ := after.call .lockArena
    · rfl
    · exact Prod.ext rfl (after.unmapArena_withMemory memory)
  · rfl

theorem mapAndResolve_withMemory (pages : UInt64) (resolver : Resolver) (dram : DramAlias) :
    (h.withMemory memory).mapAndResolve pages resolver dram =
      exchange memory (h.mapAndResolve pages resolver dram) := by
  unfold mapAndResolve
  rw [mapArena_withMemory]
  obtain ⟨reason | _, after⟩ := h.mapArena (pages * pageSize)
  · rfl
  · have hbase : (after.withMemory memory).arenaBase = after.arenaBase := rfl
    dsimp only [exchange]
    rw [hbase]
    obtain ⟨reason | table, records⟩ := PageTable.fill after.arenaBase pages.toNat resolver dram
    · exact Prod.ext rfl (releaseArena_withMemory memory (after.logAll records))
    · rfl

theorem allocateArena_withMemory (pages : UInt64) (resolver : Resolver) (dram : DramAlias) :
    (h.withMemory memory).allocateArena pages resolver dram =
      exchange memory (h.allocateArena pages resolver dram) := by
  unfold allocateArena
  rw [call_withMemory]
  split_ifs
  · rfl
  · rfl
  · obtain ⟨_ | reason, after⟩ := h.call .queryPageSize
    · have hsize : (after.withMemory memory).reportedPageSize = after.reportedPageSize := rfl
      dsimp only [exchange]
      rw [hsize]
      split_ifs
      · exact after.mapAndResolve_withMemory memory pages resolver dram
      · rfl
    · rfl

theorem makeArena_withMemory (n : UInt32) :
    (h.withMemory memory).makeArena config n = exchange memory (h.makeArena config n) := by
  unfold makeArena openPagemap
  rw [call_withMemory]
  obtain ⟨_ | reason, after⟩ := h.call .openPagemap
  · have hpagemap : (after.withMemory memory).pagemap = after.pagemap := rfl
    dsimp only [exchange]
    rw [hpagemap, allocateArena_withMemory]
    obtain ⟨reason | arena, after⟩ := after.allocateArena _ _ _ <;> rfl
  · rfl

/-- A board is not made for the same reason and with the same calls, whatever the memory holds. -/
theorem makeBoard_withMemory {n : UInt32} {reason : InitError} {h' : Host}
    (hfailed : h.makeBoard config n = .error (reason, h')) :
    (h.withMemory memory).makeBoard config n = .error (reason, h'.withMemory memory) := by
  unfold makeBoard at hfailed ⊢
  rw [openDevice_withMemory]
  split at hfailed
  · rename_i hopen
    cases hfailed
    rw [hopen]
    rfl
  · rename_i h₁ hopen
    rw [hopen]
    dsimp only [exchange]
    rw [mapWindows_withMemory]
    split at hfailed
    · rename_i hmap
      cases hfailed
      rw [hmap]
      rfl
    · rename_i windows h₂ hmap
      rw [hmap]
      dsimp only [exchange]
      rw [makeArena_withMemory]
      split at hfailed
      · rename_i hmake
        cases hfailed
        rw [hmake, ← unmapAll_withMemory]
        rfl
      · cases hfailed

end Host
/-! ### Outcomes -/

namespace Host

variable {config : Config} {n : UInt32}

/-- A configuration that is refused is refused before anything is called. -/
theorem bringUp_of_refused (h : Host) {reason : ConfigError} (refused : config.validate = .error reason) :
    h.bringUp config = .error (.init (.config reason), h) := by
  simp only [bringUp, Config.remarks, refused]
  rfl

theorem bringUp_of_failed {h h' : Host} {reason : InitError} (valid : config.validate = .ok n)
    (hfailed : ((h.logAll config.remarks).logAll [announcement config]).makeBoard config n = .error (reason, h')) :
    h.bringUp config = .error (.init reason, h') := by
  simp only [bringUp, valid, hfailed]

theorem isStore_remarks (config : Config) : ∀ r ∈ config.remarks, isStore r = false := by
  intro r hr
  unfold Config.remarks at hr
  split at hr
  · exact absurd hr List.not_mem_nil
  · split_ifs at hr
    · exact absurd hr List.not_mem_nil
    · rw [List.mem_singleton.1 hr]
      rfl

/-- The stages are taken on a host to which nothing but records has been added. -/
theorem takes_announced (h : Host) (known : config.platform ∈ Platform.all) (hpos : 0 < n) (hmax : n ≤ maxSamples) :
    h.Takes [] (h.stages config n) id (fun b => dropping ++ unmapping b.windows.toList)
      (boardOutcome (((h.logAll config.remarks).logAll [announcement config]).makeBoard config n)) := by
  have hannounced : ∀ r ∈ [announcement config], isStore r = false := by
    intro r hr
    rw [List.mem_singleton.1 hr]
    rfl
  have hlogged := ((After.refl h).logAll (isStore_remarks config)).logAll hannounced
  have htakes := ((h.logAll config.remarks).logAll [announcement config]).takes_makeBoard known hpos hmax
  rw [hlogged.stages_eq] at htakes
  have hnothing : h.Takes [] [] id (fun _ : Unit => [])
      (.ok (), (h.logAll config.remarks).logAll [announcement config]) := ⟨[], rfl, hlogged, .refl _⟩
  exact hnothing.next htakes

end Host

/-- For every configuration of a known platform and every way in which the host can answer: a configuration that is
refused is refused before anything is called.  Otherwise the stages are taken one after the other, and the first failure
decides the error.  Behind the calls that were made up to there come those that take back what was granted, each once.
No register has been stored to, and whatever else the registers had held, it would have gone the same way.  If no stage
fails, the engine runs. -/
theorem bringUp_of_answers (config : Config) (known : config.platform ∈ Platform.all) (h : Host) :
    (∀ reason, config.validate = .error reason → h.bringUp config = .error (.init (.config reason), h)) ∧
    ∀ n, config.validate = .ok n →
      let (made, failure) := Stage.attempt h.refuses h.history (h.stages config n)
      match failure with
      | some reason => ∃ h' undone, h.bringUp config = .error (.init reason, h') ∧
          h'.history = undone ++ made ++ h.history ∧ (undone.map Prod.fst).Perm (undoing made) ∧
          h'.memory = h.memory ∧ h'.stores = h.stores ∧
          ∀ memory, (h.withMemory memory).bringUp config = .error (.init reason, h'.withMemory memory)
      | none => ∃ e b, h.bringUp config = .ok (e, b) ∧ e.state = .running ∧ e.Bounded config n ∧ b.Ready ⟨n⟩ ∧
          b.host.history = made ++ h.history := by
  refine ⟨fun reason refused => h.bringUp_of_refused refused, fun n valid => ?_⟩
  obtain ⟨hpos, hmax, -⟩ := config.bounds_of_validate valid
  have htakes := h.takes_announced known hpos hmax
  cases hmake : ((h.logAll config.remarks).logAll [Host.announcement config]).makeBoard config n with
  | error failed =>
    obtain ⟨reason, h'⟩ := failed
    rw [hmake] at htakes
    obtain ⟨made, hattempt, undone, hafter, hundone⟩ := htakes
    rw [hattempt]
    have hfailed := Host.bringUp_of_failed valid hmake
    refine ⟨h', undone, hfailed, hafter.history_eq, hundone, hafter.memory_eq, hafter.stores_eq, fun memory => ?_⟩
    exact Host.bringUp_of_failed valid (Host.makeBoard_withMemory memory _ config hmake)
  | ok board =>
    rw [hmake] at htakes
    obtain ⟨made, hattempt, hafter, -⟩ := htakes
    obtain ⟨e, b, hrun, hrunning, hbounded, hready⟩ := Board.running_of_makeBoard valid hmake
    rw [hattempt]
    refine ⟨e, b, ?_, hrunning, hbounded, hready, ?_⟩
    · simp only [Host.bringUp, valid, hmake, hrun]
    · have hhistory := Board.history_run (Engine.assemble config board.arena) board
      rw [hrun] at hhistory
      exact hhistory.trans hafter.history_eq

/-- A host with one page to lend, in frame seven. -/
def Host.small (refuses : List CallRecord → Call → Option Errno) : Host :=
  .fresh .zeros (.ofRecords 16 #[0x8000000000000007] 0) ⟨0x10000⟩ (some 4096) refuses

/-- The host that does not lock the arena gets everything back, and the one that refuses nothing runs the engine. -/
theorem bringUp_of_small :
    let unlocking := Host.small fun _ call => if call = .lockArena then some ⟨12⟩ else none
    let granting := Host.small fun _ _ => none
    Config.small.platform ∈ Platform.all ∧ Config.small.validate = .ok 3 ∧
      (∃ (h' : Host) (undone : List CallRecord),
        unlocking.bringUp Config.small = .error (.init (.arena (.unlocked 4096 ⟨12⟩)), h') ∧
        h'.history.take 5 = undone ∧ (undone.map Prod.fst).Perm
          [.unmapArena, .unmapDevice "gpio", .unmapDevice "pwm", .unmapDevice "clk", .unmapDevice "dma"]) ∧
      ∃ e b, granting.bringUp Config.small = .ok (e, b) ∧ e.state = .running := by
  intro unlocking granting
  have known : Config.small.platform ∈ Platform.all := by decide
  have valid : Config.small.validate = .ok 3 := rfl
  refine ⟨known, valid, ?_, ?_⟩
  · have houtcome := (bringUp_of_answers Config.small known unlocking).2 3 valid
    have hattempt : Stage.attempt unlocking.refuses unlocking.history (unlocking.stages Config.small 3) =
        ([(.lockArena, some ⟨12⟩), (.mapArena, none), (.queryPageSize, none), (.openPagemap, none),
          (.mapDevice "gpio", none), (.mapDevice "pwm", none), (.mapDevice "clk", none), (.mapDevice "dma", none),
          (.openDevice, none)], some (.arena (.unlocked 4096 ⟨12⟩))) := by rfl
    rw [hattempt] at houtcome
    obtain ⟨h', undone, hbringUp, hhistory, hundone, -⟩ := houtcome
    have hlength : undone.length = 5 := (List.length_map Prod.fst).symm.trans hundone.length_eq
    refine ⟨h', undone, hbringUp, ?_, hundone⟩
    rw [hhistory, List.append_assoc, ← hlength, List.take_left]
  · have houtcome := (bringUp_of_answers Config.small known granting).2 3 valid
    have hattempt : (Stage.attempt granting.refuses granting.history (granting.stages Config.small 3)).2 = none := by
      decide
    dsimp only at houtcome
    rw [hattempt] at houtcome
    obtain ⟨e, b, hbringUp, hrunning, -⟩ := houtcome
    exact ⟨e, b, hbringUp, hrunning⟩
end PulseWidth
