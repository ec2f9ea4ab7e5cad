import PulseWidth.Board.Host
import PulseWidth.Memory.Arena

/-!
# Locked arenas

An arena on a board is anonymous memory that is locked and whose pages are then looked up.  What has been mapped or
locked before a failure is undone.
-/

namespace PulseWidth

namespace Host

/-- The page size that the host reports; none or a negative one counts as zero. -/
def reportedPageSize (h : Host) : UInt64 :=
  match h.pageSizeAnswer with
  | some (.ofNat size) => UInt64.ofNat size
  | _ => 0

/-- Unmaps the memory of an arena; a refusal is only logged. -/
def unmapArena (h : Host) : Host :=
  match h.call .unmapArena with
  | (none, h) => h
  | (some reason, h) =>
    h.log .error "pwm_memory::arena" ("munmap of " ++ h.arenaBase.text ++ " failed: " ++ reason.text)

/-- Unlocks the memory of an arena and unmaps it; a refusal is only logged. -/
def releaseArena (h : Host) : Host :=
  let h := match h.call .unlockArena with
    | (none, h) => h
    | (some reason, h) =>
      h.log .warn "pwm_memory::arena" ("munlock of " ++ h.arenaBase.text ++ " failed: " ++ reason.text)
  h.unmapArena

/-- Maps and locks memory for an arena of `length` bytes. -/
def mapArena (h : Host) (length : UInt64) : Except ArenaError Unit × Host :=
  match h.call .mapArena with
  | (some reason, h) => (.error (.unmapped length reason), h)
  | (none, h) =>
    match h.call .lockArena with
    | (some reason, h) => (.error (.unlocked length reason), h.unmapArena)
    | (none, h) => (.ok (), h)

/-- Maps and locks an arena and looks its pages up. -/
def mapAndResolve (h : Host) (pages : UInt64) (resolver : Resolver) (dram : DramAlias) :
    Except ArenaError Arena × Host :=
  match h.mapArena (pages * pageSize) with
  | (.error reason, h) => (.error reason, h)
  | (.ok (), h) =>
    let base := h.arenaBase
    let (answer, records) := PageTable.fill base pages.toNat resolver dram
    let h := h.logAll records
    match answer with
    | .error reason => (.error (.unresolved reason), h.releaseArena)
    | .ok table =>
      (.ok ⟨.locked h.arithmetic, Array.replicate (pages * pageSize / 4).toNat 0, table⟩,
        h.log .info "pwm_memory::arena" ("locked " ++ toString pages.toNat ++ " arena page(s) at " ++ base.text))

/-- An arena of locked pages, all zero. -/
def allocateArena (h : Host) (pages : UInt64) (resolver : Resolver) (dram : DramAlias) :
    Except ArenaError Arena × Host :=
  if maxArenaPages < pages then (.error (.tooLarge pages), h)
  else if pages = 0 then (.error .empty, h)
  else match h.call .queryPageSize with
    | (some reason, h) => (.error (.pageSizeQuery reason), h)
    | (none, h) =>
      if h.reportedPageSize = pageSize then h.mapAndResolve pages resolver dram
      else (.error (.unsupportedPageSize h.reportedPageSize), h)

/-- Opens the page records. -/
def openPagemap (h : Host) : Except ResolveError Pagemap × Host :=
  match h.call .openPagemap with
  | (some reason, h) => (.error (.unopened reason), h)
  | (none, h) => (.ok h.pagemap, h)

end Host

end PulseWidth
