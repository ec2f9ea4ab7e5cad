import Mathlib.Tactic.SplitIfs
import PulseWidth.Board.BringUp
import PulseWidth.Proofs.Board.Window
import PulseWidth.Proofs.Memory.Translation

/-!
# Attempts to make a board

A board needs several things of its host, one after the other: calls that may be refused, and answers that must pass a
check.  They are listed as stages, and `Stage.attempt` finds the first failure among them.  `Host.Takes` says of each
function that makes a part of a board that it takes its stages: it stops at the first failure with the error of that
stage, and then every mapping that had been granted is given back exactly once.
-/

namespace PulseWidth

/-! ### Stages -/

/-- The call that takes back what a call has been granted. -/
def Call.undo? : Call → Option Call
  | .mapDevice block => some (.unmapDevice block)
  | .mapArena => some .unmapArena
  | .lockArena => some .unlockArena
  | _ => none

/-- The calls that take back what was granted. -/
def undoing (made : List CallRecord) : List Call :=
  made.filterMap fun
    | (call, none) => call.undo?
    | (_, some _) => none

/-- A stage on the way to an engine: a call, with the error that its refusal is, or a check of an answer, with the
error that is found. -/
inductive Stage where
  | call (call : Call) (refused : Errno → InitError)
  | check (failure : Option InitError)

/-- The calls that are made on the way through some stages after the given ones, the latest first, and the first
failure. -/
def Stage.attempt (refuses : List CallRecord → Call → Option Errno) :
    List CallRecord → List Stage → List CallRecord × Option InitError
  | _, [] => ([], none)
  | before, call c refused :: rest =>
    match refuses before c with
    | some reason => ([(c, some reason)], some (refused reason))
    | none =>
      let (made, failure) := attempt refuses ((c, none) :: before) rest
      (made ++ [(c, none)], failure)
  | _, check (some failure) :: _ => ([], some failure)
  | before, check none :: rest => attempt refuses before rest

/-- The blocks whose registers an engine needs, in the order in which they are mapped, and where in the block the
registers start. -/
def Config.blocks (config : Config) : List (Block × UInt64) :=
  [(.dma, Dma.channelOffset config.dmaChannel), (.clock, 0), (config.pacer.block, 0), (.gpio, 0)]

namespace Stage

/-- The registers of a block are mapped. -/
def block (platform : Platform) (block : Block) (offset : UInt64) : Stage :=
  call (.mapDevice block.name) fun reason =>
    .map (.refused block.name ((platform.blockBase block).advance offset) reason)

/-- A page of the arena is looked up. -/
def page (resolver : Resolver) (dram : DramAlias) (address : VirtualAddress) : Stage :=
  check <|
    match PageTable.resolveEntry resolver dram address with
    | .error reason => some (.arena (.unresolved reason))
    | .ok _ => none

end Stage

namespace Host

/-- The stages on the way to an arena of some pages. -/
def arenaStages (h : Host) (dram : DramAlias) (pages : UInt64) : List Stage :=
  [.call .openPagemap fun reason => .resolve (.unopened reason),
    .call .queryPageSize fun reason => .arena (.pageSizeQuery reason),
    .check (if h.reportedPageSize = pageSize then none else some (.arena (.unsupportedPageSize h.reportedPageSize))),
    .call .mapArena fun reason => .arena (.unmapped (pages * pageSize) reason),
    .call .lockArena fun reason => .arena (.unlocked (pages * pageSize) reason)] ++
  (PageTable.addresses h.arenaBase pages.toNat).map (.page h.pagemap.resolver dram)

/-- The stages on the way to an engine of an accepted configuration. -/
def stages (h : Host) (config : Config) (nrSamples : UInt32) : List Stage :=
  [.call .openDevice fun reason => .map (.unopened reason)] ++
    ((config.blocks.map fun part => .block config.platform part.1 part.2) ++
      h.arenaStages config.platform.dramAlias (ChainLayout.mk nrSamples).pages)

end Host

section Stages

variable {refuses : List CallRecord → Call → Option Errno} {before made : List CallRecord} {first second : List Stage}

theorem undoing_append (later earlier : List CallRecord) :
    undoing (later ++ earlier) = undoing later ++ undoing earlier :=
  List.filterMap_append

namespace Stage

theorem attempt_append_of_failed {e : InitError} (h : attempt refuses before first = (made, some e)) :
    attempt refuses before (first ++ second) = (made, some e) := by
  induction first generalizing before made with
  | nil => cases h
  | cons stage rest ih =>
    rw [List.cons_append]
    cases stage with
    | call c refused =>
      unfold attempt at h ⊢
      cases hanswer : refuses before c with
      | some reason => simpa only [hanswer] using h
      | none =>
        simp only [hanswer, Prod.mk.injEq] at h ⊢
        obtain ⟨rfl, hfailure⟩ := h
        rw [ih (Prod.ext rfl hfailure)]
        exact ⟨rfl, rfl⟩
    | check failure =>
      cases failure with
      | some found => exact h
      | none => exact ih h

theorem attempt_append_of_passed (h : attempt refuses before first = (made, none)) (second : List Stage) :
    attempt refuses before (first ++ second) =
      ((attempt refuses (made ++ before) second).1 ++ made, (attempt refuses (made ++ before) second).2) := by
  induction first generalizing before made with
  | nil =>
    cases h
    rw [List.nil_append, List.nil_append, List.append_nil]
  | cons stage rest ih =>
    rw [List.cons_append]
    cases stage with
    | call c refused =>
      unfold attempt at h
      rw [attempt]
      cases hanswer : refuses before c with
      | some reason =>
        rw [hanswer] at h
        cases h
      | none =>
        simp only [hanswer, Prod.mk.injEq] at h
        obtain ⟨rfl, hfailure⟩ := h
        simp only [ih (Prod.ext rfl hfailure), List.append_assoc, List.singleton_append]
    | check failure =>
      cases failure with
      | some found => cases h
      | none => exact ih h

/-- The first page that is not found is the failure. -/
theorem attempt_pages (refuses : List CallRecord → Call → Option Errno) (before : List CallRecord)
    (resolver : Resolver) (dram : DramAlias) (addresses : List VirtualAddress) :
    attempt refuses before (addresses.map (page resolver dram)) =
      match addresses.mapM (PageTable.resolveEntry resolver dram) with
      | .error reason => ([], some (.arena (.unresolved reason)))
      | .ok _ => ([], none) := by
  induction addresses with
  | nil => rfl
  | cons address rest ih =>
    rw [List.map_cons, List.mapM_cons, page]
    cases PageTable.resolveEntry resolver dram address with
    | error reason => rfl
    | ok entry =>
      rw [attempt, ih]
      cases rest.mapM (PageTable.resolveEntry resolver dram) <;> rfl

end Stage

end Stages

/-! ### Hosts that have been called -/

namespace Host

/-- Whether a record is that of a store to a register of the board. -/
def isStore (r : Record) : Bool := r.level == .trace && r.target == "pwm_memory::devmem"

/-- The stores that have been logged. -/
def stores (h : Host) : List Record := h.records.toList.filter isStore

/-- The host has been called, and is otherwise what it was, up to its log, and no store has been logged. -/
structure After (h' h : Host) (calls : List CallRecord) : Prop where
  memory_eq : h'.memory = h.memory
  pagemap_eq : h'.pagemap = h.pagemap
  arenaBase_eq : h'.arenaBase = h.arenaBase
  pageSizeAnswer_eq : h'.pageSizeAnswer = h.pageSizeAnswer
  refuses_eq : h'.refuses = h.refuses
  stores_eq : h'.stores = h.stores
  history_eq : h'.history = calls ++ h.history

variable {h h' h'' : Host} {calls later : List CallRecord}

theorem After.refl (h : Host) : h.After h [] := ⟨rfl, rfl, rfl, rfl, rfl, rfl, rfl⟩

theorem After.trans (hlater : h''.After h' later) (hcalls : h'.After h calls) : h''.After h (later ++ calls) where
  memory_eq := hlater.memory_eq.trans hcalls.memory_eq
  pagemap_eq := hlater.pagemap_eq.trans hcalls.pagemap_eq
  arenaBase_eq := hlater.arenaBase_eq.trans hcalls.arenaBase_eq
  pageSizeAnswer_eq := hlater.pageSizeAnswer_eq.trans hcalls.pageSizeAnswer_eq
  refuses_eq := hlater.refuses_eq.trans hcalls.refuses_eq
  stores_eq := hlater.stores_eq.trans hcalls.stores_eq
  history_eq := by rw [hlater.history_eq, hcalls.history_eq, List.append_assoc]

theorem after_call (h : Host) (c : Call) : (h.call c).2.After h [(c, h.refuses h.history c)] :=
  ⟨rfl, rfl, rfl, rfl, rfl, rfl, rfl⟩

theorem After.log (hcalls : h'.After h calls) {level : Level} {target message : String}
    (hquiet : isStore ⟨level, target, message⟩ = false) : (h'.log level target message).After h calls := by
  refine { hcalls with stores_eq := Eq.trans ?_ hcalls.stores_eq }
  simp [stores, Host.log, hquiet]

theorem After.logAll (hcalls : h'.After h calls) {records : List Record} (hquiet : ∀ r ∈ records, isStore r = false) :
    (h'.logAll records).After h calls := by
  induction records generalizing h' with
  | nil => exact hcalls
  | cons r rest ih => exact ih (hcalls.log (hquiet r (by simp))) fun r' hr' => hquiet r' (by simp [hr'])

theorem after_unmapWindow (h : Host) (w : MappedWindow) :
    ∃ answer, (h.unmapWindow w).After h [(.unmapDevice w.block, answer)] := by
  refine ⟨h.refuses h.history (.unmapDevice w.block), ?_⟩
  have hcall := h.after_call (.unmapDevice w.block)
  unfold unmapWindow
  split
  · rename_i after hafter
    rwa [hafter] at hcall
  · rename_i reason after hafter
    rw [hafter] at hcall
    exact hcall.log (by rfl)

/-- The calls that give some windows back. -/
def unmapping (windows : List MappedWindow) : List Call := windows.map fun w => .unmapDevice w.block

theorem after_unmapAll (h : Host) (windows : List MappedWindow) :
    ∃ undone, (h.unmapAll windows).After h undone ∧ (undone.map Prod.fst).Perm (unmapping windows) := by
  induction windows generalizing h with
  | nil => exact ⟨[], .refl h, .refl _⟩
  | cons w rest ih =>
    obtain ⟨answer, hfirst⟩ := h.after_unmapWindow w
    obtain ⟨undone, hrest, hcalls⟩ := ih (h.unmapWindow w)
    refine ⟨undone ++ [(.unmapDevice w.block, answer)], hrest.trans hfirst, ?_⟩
    rw [List.map_append]
    exact (List.perm_append_singleton _ _).trans (hcalls.cons _)

theorem after_unmapArena (h : Host) : ∃ answer, h.unmapArena.After h [(.unmapArena, answer)] := by
  refine ⟨h.refuses h.history .unmapArena, ?_⟩
  have hcall := h.after_call .unmapArena
  unfold unmapArena
  split
  · rename_i after hafter
    rwa [hafter] at hcall
  · rename_i reason after hafter
    rw [hafter] at hcall
    exact hcall.log (by rfl)

theorem after_releaseArena (h : Host) :
    ∃ undone, h.releaseArena.After h undone ∧ undone.map Prod.fst = [.unmapArena, .unlockArena] := by
  have hcall := h.after_call .unlockArena
  unfold releaseArena
  split
  · rename_i after hafter
    rw [hafter] at hcall
    obtain ⟨answer, hunmap⟩ := after.after_unmapArena
    exact ⟨_, hunmap.trans hcall, rfl⟩
  · rename_i reason after hafter
    rw [hafter] at hcall
    obtain ⟨answer, hunmap⟩ := (after.log .warn "pwm_memory::arena"
      ("munlock of " ++ after.arenaBase.text ++ " failed: " ++ reason.text)).after_unmapArena
    exact ⟨_, hunmap.trans (hcall.log (by rfl)), rfl⟩

end Host

/-! ### Attempts -/

namespace Host

variable {α β ε : Type}

/-- The outcome of taking some stages while some grants have to be taken back in the end.  If all goes well, the calls
that are still to be made in the end are those for the result; otherwise the first failure is the error, and they have
all been made. -/
def Takes (h : Host) (held : List Call) (stages : List Stage) (wrap : ε → InitError) (grants : α → List Call)
    (outcome : Except ε α × Host) : Prop :=
  ∃ made,
    match outcome.1 with
    | .ok a => Stage.attempt h.refuses h.history stages = (made, none) ∧ outcome.2.After h made ∧
        (held ++ undoing made).Perm (grants a)
    | .error e => Stage.attempt h.refuses h.history stages = (made, some (wrap e)) ∧
        ∃ undone, outcome.2.After h (undone ++ made) ∧ (undone.map Prod.fst).Perm (held ++ undoing made)

variable {h h₁ h₂ h₃ : Host} {held : List Call} {first second : List Stage} {wrap : ε → InitError} {a : α} {e : ε}
  {grants : α → List Call} {outcome : Except ε α × Host}

/-- After what has gone well, the rest is taken with what is held now. -/
theorem Takes.next {δ : Type} {wrap' : δ → InitError} {granted : β → List Call} {b : β}
    (hfirst : h.Takes held first wrap' granted (.ok b, h₁))
    (hsecond : h₁.Takes (granted b) second wrap grants outcome) :
    h.Takes held (first ++ second) wrap grants outcome := by
  obtain ⟨made, hattempt, hafter, hheld⟩ := hfirst
  obtain ⟨made', hsecond⟩ := hsecond
  have hboth := Stage.attempt_append_of_passed hattempt second
  rw [← hafter.history_eq, ← hafter.refuses_eq] at hboth
  refine ⟨made' ++ made, ?_⟩
  have hundo : (held ++ undoing (made' ++ made)).Perm (granted b ++ undoing made') := by
    rw [undoing_append]
    refine (List.perm_append_comm.append_left held).trans ?_
    rw [← List.append_assoc]
    exact hheld.append_right _
  obtain ⟨reason | a, after⟩ := outcome
  · obtain ⟨hfailed, undone, hafter', hundone⟩ := hsecond
    rw [hafter.refuses_eq] at hboth hfailed
    refine ⟨?_, undone, ?_, hundone.trans hundo.symm⟩
    · rw [hboth, hfailed]
    · rw [← List.append_assoc]
      exact hafter'.trans hafter
  · obtain ⟨hpassed, hafter', hgrants⟩ := hsecond
    rw [hafter.refuses_eq] at hboth hpassed
    refine ⟨?_, hafter'.trans hafter, hundo.trans hgrants⟩
    rw [hboth, hpassed]

theorem Takes.after (hpassed : h.Takes held first wrap grants (.ok a, h₁)) : ∃ calls, h₁.After h calls := by
  obtain ⟨made, -, hafter, -⟩ := hpassed
  exact ⟨made, hafter⟩

theorem Takes.rewrap {δ : Type} {wrap' : δ → InitError} {granted : β → List Call} {reason : δ}
    (hfailed : h.Takes held first wrap' granted (.error reason, h₁)) (hreason : wrap' reason = wrap e) :
    h.Takes held first wrap grants (.error e, h₁) := by
  obtain ⟨made, hattempt, hundone⟩ := hfailed
  rw [hreason] at hattempt
  exact ⟨made, hattempt, hundone⟩

theorem Takes.regrant {δ : Type} {wrap' : δ → InitError} {granted : β → List Call} {b : β}
    (hpassed : h.Takes held first wrap' granted (.ok b, h₁)) (hgrants : granted b = grants a) :
    h.Takes held first wrap grants (.ok a, h₁) := by
  obtain ⟨made, hattempt, hafter, hheld⟩ := hpassed
  rw [hgrants] at hheld
  exact ⟨made, hattempt, hafter, hheld⟩

/-- A failure ends the attempt, whatever stages are left. -/
theorem Takes.stop (hfailed : h.Takes held first wrap grants (.error e, h₁)) :
    h.Takes held (first ++ second) wrap grants (.error e, h₁) := by
  obtain ⟨made, hattempt, hundone⟩ := hfailed
  exact ⟨made, Stage.attempt_append_of_failed hattempt, hundone⟩

/-- What had been granted before is taken back behind a failure. -/
theorem Takes.release (hfailed : h.Takes [] first wrap grants (.error e, h₁)) {undone : List CallRecord}
    (hafter : h₂.After h₁ undone) (hundone : (undone.map Prod.fst).Perm held) :
    h.Takes held first wrap grants (.error e, h₂) := by
  obtain ⟨made, hattempt, undone', hafter', hundone'⟩ := hfailed
  refine ⟨made, hattempt, undone ++ undone', ?_, ?_⟩
  · rw [List.append_assoc]
    exact hafter.trans hafter'
  · rw [List.map_append]
    exact hundone.append hundone'

/-- What had been granted before is still held behind what has gone well. -/
theorem Takes.keep (hpassed : h.Takes [] first wrap grants (.ok a, h₁)) :
    h.Takes held first wrap (fun a => grants a ++ held) (.ok a, h₁) := by
  obtain ⟨made, hattempt, hafter, hgrants⟩ := hpassed
  refine ⟨made, hattempt, hafter, ?_⟩
  exact (hgrants.append_left held).trans List.perm_append_comm

/-- A refusal is a failure. -/
theorem takes_refused {c : Call} {refused : Errno → InitError} {reason : Errno}
    (hanswer : h.refuses h.history c = some reason) (hreason : refused reason = wrap e) :
    h.Takes [] (.call c refused :: first) wrap grants (.error e, (h.call c).2) := by
  have hafter := h.after_call c
  rw [hanswer] at hafter
  refine ⟨[(c, some reason)], ?_, [], hafter, .refl _⟩
  simp only [Stage.attempt, hanswer, hreason]

/-- What a call has been granted is held from then on. -/
theorem takes_granted {c : Call} {refused : Errno → InitError} (hanswer : h.refuses h.history c = none)
    (hnext : (h.call c).2.Takes (c.undo?.toList ++ held) first wrap grants outcome) :
    h.Takes held (.call c refused :: first) wrap grants outcome := by
  have hafter := h.after_call c
  rw [hanswer] at hafter
  have hgrant : h.Takes held [.call c refused] wrap (fun _ : Unit => c.undo?.toList ++ held)
      (.ok (), (h.call c).2) := by
    refine ⟨[(c, none)], ?_, hafter, ?_⟩
    · simp only [Stage.attempt, hanswer, List.nil_append]
    · refine List.Perm.trans ?_ List.perm_append_comm
      cases c <;> exact .refl _
  exact hgrant.next hnext

theorem takes_failed (h : Host) {reason : InitError} (hreason : reason = wrap e) :
    h.Takes [] (.check (some reason) :: first) wrap grants (.error e, h) := by
  refine ⟨[], ?_, [], .refl h, .refl _⟩
  rw [Stage.attempt, hreason]

theorem takes_passed (hnext : h.Takes held first wrap grants outcome) :
    h.Takes held (.check none :: first) wrap grants outcome :=
  hnext

/-- What is logged behind the last stage makes no difference. -/
theorem Takes.log {answer : Except ε α} (htakes : h.Takes held first wrap grants (answer, h₁)) {level : Level}
    {target message : String} (hquiet : isStore ⟨level, target, message⟩ = false) :
    h.Takes held first wrap grants (answer, h₁.log level target message) := by
  obtain ⟨made, htakes⟩ := htakes
  cases answer with
  | error e =>
    obtain ⟨hattempt, undone, hafter, hundone⟩ := htakes
    exact ⟨made, hattempt, undone, hafter.log hquiet, hundone⟩
  | ok a =>
    obtain ⟨hattempt, hafter, hgrants⟩ := htakes
    exact ⟨made, hattempt, hafter.log hquiet, hgrants⟩

theorem takes_nothing (h : Host) (hgrants : held.Perm (grants a)) : h.Takes held [] wrap grants (.ok a, h) :=
  ⟨[], rfl, .refl h, by simpa [undoing] using hgrants⟩

theorem call_eq {c : Call} {answer : Option Errno} (hanswer : h.refuses h.history c = answer) :
    h.call c = (answer, (h.call c).2) :=
  Prod.ext hanswer rfl

end Host

/-! ### Windows -/

/-- All registers of a known platform lie in the lower half of the memory. -/
theorem Platform.block_lt {p : Platform} (known : p ∈ all) (block : Block) {offset : UInt64}
    (hoffset : offset.toNat ≤ 0xFFFF) : ((p.blockBase block).advance offset).value.toNat < 1 <<< 63 := by
  have hbase : (p.blockBase block).value.toNat ≤ 0xFFFFFFFF := by
    simp only [all, List.mem_cons, List.not_mem_nil, or_false] at known
    rcases known with rfl | rfl | rfl <;> cases block <;> decide
  show ((p.blockBase block).value + offset).toNat < _
  rw [UInt64.toNat_add]
  omega

namespace Host

variable {h h₁ : Host} {config : Config} {first second : List Stage}

theorem takes_openDevice (h : Host) :
    h.Takes [] [.call .openDevice fun reason => .map (.unopened reason)] .map (fun _ => []) h.openDevice := by
  cases hanswer : h.refuses h.history .openDevice with
  | some reason =>
    rw [openDevice, call_eq hanswer]
    exact takes_refused hanswer rfl
  | none =>
    rw [openDevice, call_eq hanswer]
    exact takes_granted hanswer (takes_nothing _ (.refl _))

theorem takes_mapBlock (h : Host) {platform : Platform} (known : platform ∈ Platform.all) (block : Block)
    {offset length : UInt64} (hoffset : offset.toNat ≤ 0xFFFF) (hlength : 0 < length.toNat ∧ length.toNat ≤ 4096) :
    h.Takes [] [.block platform block offset] .map (fun w => unmapping [w])
      (h.mapBlock platform block offset length) := by
  have hplan := MappedWindow.plan_eq_ok block.name (Platform.block_lt known block hoffset) hlength.1 (by
    rw [UInt64.size]
    omega)
  simp only [mapBlock, mapWindow, hplan]
  cases hanswer : h.refuses h.history (.mapDevice block.name) with
  | some reason =>
    rw [call_eq hanswer]
    exact takes_refused hanswer rfl
  | none =>
    rw [call_eq hanswer]
    refine (takes_granted hanswer (takes_nothing _ ?_)).log (by rfl)
    exact .refl _

/-- A window is mapped and the others behind it; a failure takes back those that were mapped before. -/
theorem takes_withWindow {mapped : Except MapError MappedWindow × Host} {before : List MappedWindow}
    {next : MappedWindow → Host → Except MapError (Roles MappedWindow) × Host}
    (hfirst : h.Takes [] first .map (fun w => unmapping [w]) mapped)
    (hnext : ∀ (w : MappedWindow) (h₁ : Host),
      h₁.Takes (unmapping (w :: before)) second .map (fun ws => unmapping ws.toList) (next w h₁)) :
    h.Takes (unmapping before) (first ++ second) .map (fun ws => unmapping ws.toList)
      (withWindow mapped before next) := by
  obtain ⟨reason | w, h₁⟩ := mapped
  · obtain ⟨undone, hafter, hundone⟩ := h₁.after_unmapAll before
    exact ((hfirst.release hafter hundone).rewrap rfl).stop
  · exact hfirst.keep.next (hnext w h₁)

theorem takes_mapWindows (h : Host) (known : config.platform ∈ Platform.all) :
    h.Takes [] (config.blocks.map fun part => .block config.platform part.1 part.2) .map
      (fun ws => unmapping ws.toList) (h.mapWindows config) := by
  have hchannel : (Dma.channelOffset config.dmaChannel).toNat ≤ 0xFFFF := by
    have hlt := config.dmaChannel.toNat_lt
    have hstride : Dma.channelStride.toNat = 256 := rfl
    rw [Dma.channelOffset, UInt64.toNat_mul, UInt8.toNat_toUInt64, hstride]
    omega
  have hwhole (h : Host) (block : Block) : h.Takes [] [.block config.platform block 0] .map
      (fun w => unmapping [w]) (h.mapBlock config.platform block 0 Block.length) :=
    h.takes_mapBlock known block (by decide) (by decide)
  have hstages : (config.blocks.map fun part => Stage.block config.platform part.1 part.2) =
      [.block config.platform .dma (Dma.channelOffset config.dmaChannel)] ++ ([.block config.platform .clock 0] ++
        ([.block config.platform config.pacer.block 0] ++ ([.block config.platform .gpio 0] ++ []))) := rfl
  rw [hstages, mapWindows]
  -- nothing is held at first
  show h.Takes (unmapping []) _ _ _ _
  refine takes_withWindow (h.takes_mapBlock known .dma hchannel (by decide)) fun dma h => ?_
  refine takes_withWindow (hwhole h .clock) fun clock h => ?_
  refine takes_withWindow (hwhole h config.pacer.block) fun pacer h => ?_
  refine takes_withWindow (hwhole h .gpio) fun gpio h => h.takes_nothing ?_
  exact List.reverse_perm (unmapping [dma, clock, pacer, gpio])

/-! ### Arenas -/

variable {pages : UInt64} {resolver : Resolver} {dram : DramAlias}

/-- The calls that give the memory of an arena back. -/
def dropping : List Call := [.unmapArena, .unlockArena]

theorem takes_mapArena (h : Host) (length : UInt64) :
    h.Takes [] [.call .mapArena fun reason => .arena (.unmapped length reason),
      .call .lockArena fun reason => .arena (.unlocked length reason)] .arena (fun _ => dropping)
      (h.mapArena length) := by
  unfold mapArena
  cases hmap : h.refuses h.history .mapArena with
  | some reason =>
    rw [call_eq hmap]
    exact takes_refused hmap rfl
  | none =>
    rw [call_eq hmap]
    refine takes_granted hmap ?_
    cases hlock : (h.call .mapArena).2.refuses (h.call .mapArena).2.history .lockArena with
    | some reason =>
      dsimp only
      rw [call_eq hlock]
      obtain ⟨answer, hafter⟩ := ((h.call .mapArena).2.call .lockArena).2.after_unmapArena
      refine Takes.release ?_ hafter (.refl _)
      exact takes_refused hlock rfl
    | none =>
      dsimp only
      rw [call_eq hlock]
      exact takes_granted hlock (takes_nothing _ (.swap _ _ _))

private theorem entryRecords_quiet (i : Nat) (entries : List PageEntry) :
    ∀ r ∈ PageTable.entryRecords i entries, isStore r = false := by
  induction entries generalizing i with
  | nil => exact fun r hr => absurd hr List.not_mem_nil
  | cons e rest ih =>
    intro r hr
    obtain rfl | hr := List.mem_cons.1 hr
    · rfl
    · exact ih (i + 1) r hr

private theorem resolverRecords_quiet (hquiet : ∀ address, ∀ r ∈ resolver.records address, isStore r = false)
    (dram : DramAlias) (address : VirtualAddress) (count : Nat) :
    ∀ r ∈ PageTable.resolverRecords resolver dram address count, isStore r = false := by
  induction count generalizing address with
  | zero => exact fun r hr => absurd hr List.not_mem_nil
  | succ count ih =>
    intro r hr
    rw [PageTable.resolverRecords, List.mem_append] at hr
    obtain hr | hr := hr
    · exact hquiet address r hr
    · split at hr
      · exact absurd hr List.not_mem_nil
      · exact ih _ r hr

/-- Looking pages up logs no store, if the resolver does not. -/
theorem resolveRecords_quiet (hquiet : ∀ address, ∀ r ∈ resolver.records address, isStore r = false)
    (base : VirtualAddress) (count : Nat) (dram : DramAlias) :
    ∀ r ∈ PageTable.resolveRecords base count resolver dram, isStore r = false := by
  intro r hr
  rw [PageTable.resolveRecords, List.mem_append] at hr
  obtain hr | hr := hr
  · exact resolverRecords_quiet hquiet dram base count r hr
  · split at hr
    · exact absurd hr List.not_mem_nil
    · exact entryRecords_quiet 0 _ r hr

theorem takes_mapAndResolve (h : Host) (pages : UInt64)
    (hquiet : ∀ address, ∀ r ∈ resolver.records address, isStore r = false) (dram : DramAlias) :
    h.Takes [] ([.call .mapArena fun reason => .arena (.unmapped (pages * pageSize) reason),
        .call .lockArena fun reason => .arena (.unlocked (pages * pageSize) reason)] ++
          (PageTable.addresses h.arenaBase pages.toNat).map (.page resolver dram)) .arena (fun _ => dropping)
      (h.mapAndResolve pages resolver dram) := by
  have hmap := h.takes_mapArena (pages * pageSize)
  unfold mapAndResolve
  generalize h.mapArena (pages * pageSize) = outcome at hmap
  obtain ⟨reason | _, h₁⟩ := outcome
  · exact (hmap.rewrap rfl).stop
  · refine hmap.next ?_
    obtain ⟨calls, hafter⟩ := hmap.after
    have hpages := Stage.attempt_pages h₁.refuses h₁.history resolver dram
      (PageTable.addresses h.arenaBase pages.toNat)
    have hlogged := (After.refl h₁).logAll (resolveRecords_quiet hquiet h.arenaBase pages.toNat dram)
    dsimp only [PageTable.fill]
    rw [hafter.arenaBase_eq]
    generalize h₁.logAll (PageTable.resolveRecords h.arenaBase pages.toNat resolver dram) = h₂ at hlogged ⊢
    rw [PageTable.resolve_eq]
    cases hlookup : (PageTable.addresses h.arenaBase pages.toNat).mapM (PageTable.resolveEntry resolver dram) with
    | error reason =>
      rw [hlookup] at hpages
      obtain ⟨undone, hundone, hcalls⟩ := h₂.after_releaseArena
      refine Takes.release ⟨[], hpages, [], .refl h₁, .refl _⟩ (hundone.trans hlogged) ?_
      rw [List.append_nil, hcalls]
      exact .refl _
    | ok entries =>
      rw [hlookup] at hpages
      exact ⟨[], hpages, hlogged.log (by rfl), .refl _⟩

theorem takes_allocateArena (h : Host) (hpos : 0 < pages.toNat) (hmax : pages.toNat ≤ 262143)
    (hquiet : ∀ address, ∀ r ∈ resolver.records address, isStore r = false) (dram : DramAlias) :
    h.Takes [] (.call .queryPageSize (fun reason => .arena (.pageSizeQuery reason)) ::
      .check (if h.reportedPageSize = pageSize then none
        else some (.arena (.unsupportedPageSize h.reportedPageSize))) ::
      ([.call .mapArena fun reason => .arena (.unmapped (pages * pageSize) reason),
        .call .lockArena fun reason => .arena (.unlocked (pages * pageSize) reason)] ++
          (PageTable.addresses h.arenaBase pages.toNat).map (.page resolver dram))) .arena (fun _ => dropping)
      (h.allocateArena pages resolver dram) := by
  have hlarge : ¬maxArenaPages < pages := by
    rw [UInt64.not_lt, UInt64.le_iff_toNat_le]
    exact hmax
  have hempty : pages ≠ 0 := by
    rintro rfl
    exact absurd hpos (by decide)
  rw [allocateArena, if_neg hlarge, if_neg hempty]
  cases hquery : h.refuses h.history .queryPageSize with
  | some reason =>
    rw [call_eq hquery]
    exact takes_refused hquery rfl
  | none =>
    rw [call_eq hquery]
    refine takes_granted hquery ?_
    have hreported : (h.call .queryPageSize).2.reportedPageSize = h.reportedPageSize := rfl
    dsimp only
    rw [hreported]
    split_ifs with hsize
    · exact takes_passed ((h.call .queryPageSize).2.takes_mapAndResolve pages hquiet dram)
    · exact takes_failed _ rfl

private theorem pagemap_quiet (p : Pagemap) (address : VirtualAddress) :
    ∀ r ∈ p.resolver.records address, isStore r = false := by
  intro r hr
  unfold Pagemap.resolver at hr
  dsimp only at hr
  split at hr
  · exact absurd hr List.not_mem_nil
  · rw [List.mem_singleton] at hr
    rw [hr]
    rfl

theorem takes_makeArena (h : Host) (config : Config) {n : UInt32} (hpos : 0 < n) (hmax : n ≤ maxSamples) :
    h.Takes [] (h.arenaStages config.platform.dramAlias (ChainLayout.mk n).pages) id (fun _ => dropping)
      (h.makeArena config n) := by
  obtain ⟨hsome, hpages⟩ := ChainLayout.pages_bounds (l := ⟨n⟩) hpos hmax
  unfold makeArena openPagemap
  cases hopen : h.refuses h.history .openPagemap with
  | some reason =>
    rw [call_eq hopen]
    exact takes_refused hopen rfl
  | none =>
    rw [call_eq hopen]
    refine takes_granted hopen ?_
    dsimp only
    have hquiet := pagemap_quiet (h.call .openPagemap).2.pagemap
    have hallocate := (h.call .openPagemap).2.takes_allocateArena hsome hpages hquiet config.platform.dramAlias
    generalize (h.call .openPagemap).2.allocateArena _ _ _ = outcome at hallocate ⊢
    obtain ⟨reason | arena, h₁⟩ := outcome
    · exact hallocate.rewrap rfl
    · exact hallocate.regrant rfl

/-! ### Boards -/

theorem After.arenaStages_eq {calls : List CallRecord} (hafter : h₁.After h calls) (dram : DramAlias)
    (pages : UInt64) : h₁.arenaStages dram pages = h.arenaStages dram pages := by
  have hsize : h₁.reportedPageSize = h.reportedPageSize := by
    rw [reportedPageSize, hafter.pageSizeAnswer_eq, reportedPageSize]
  rw [arenaStages, hsize, hafter.arenaBase_eq, hafter.pagemap_eq, arenaStages]

theorem After.stages_eq {calls : List CallRecord} (hafter : h₁.After h calls) (config : Config) (n : UInt32) :
    h₁.stages config n = h.stages config n := by
  rw [stages, hafter.arenaStages_eq, stages]

/-- The board that is made, or the host that is left. -/
def boardOutcome : Except (InitError × Host) Board → Except InitError Board × Host
  | .error (reason, h) => (.error reason, h)
  | .ok b => (.ok b, b.host)

theorem takes_makeBoard (h : Host) (known : config.platform ∈ Platform.all) {n : UInt32} (hpos : 0 < n)
    (hmax : n ≤ maxSamples) :
    h.Takes [] (h.stages config n) id (fun b => dropping ++ unmapping b.windows.toList)
      (boardOutcome (h.makeBoard config n)) := by
  have hopen := h.takes_openDevice
  unfold makeBoard stages
  split
  · rename_i reason h₁ hanswer
    rw [hanswer] at hopen
    refine Takes.stop ?_
    exact hopen.rewrap rfl
  rename_i h₁ hanswer
  rw [hanswer] at hopen
  obtain ⟨calls, hafter⟩ := hopen.after
  refine hopen.next ?_
  have hmap := h₁.takes_mapWindows known
  split
  · rename_i reason h₂ hanswer
    rw [hanswer] at hmap
    refine Takes.stop ?_
    exact hmap.rewrap rfl
  rename_i windows h₂ hanswer
  rw [hanswer] at hmap
  obtain ⟨calls', hafter'⟩ := hmap.after
  refine hmap.next ?_
  rw [← hafter.arenaStages_eq, ← hafter'.arenaStages_eq]
  have hmake := h₂.takes_makeArena config hpos hmax
  split
  · rename_i reason h₃ hanswer
    rw [hanswer] at hmake
    obtain ⟨undone, hundone, hcalls⟩ := h₃.after_unmapAll windows.toList
    refine Takes.release ?_ hundone hcalls
    exact hmake.rewrap rfl
  · rename_i arena h₃ hanswer
    rw [hanswer] at hmake
    exact hmake.keep.regrant rfl

end Host

end PulseWidth
