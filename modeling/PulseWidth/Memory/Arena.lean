import PulseWidth.Fault
import PulseWidth.Memory.PageTable

/-!
# Arenas

An arena is a run of pages that the DMA engine can read: words that the control thread writes, and the table that
says where each page lives on the bus.  A simulated arena hands out its frames downwards with gaps between them,
so that nothing can rely on adjacent pages; no frame is handed out twice and none is frame zero.  Accesses must be
aligned and inside, and the two kinds of arena say so in different ways.
-/

namespace PulseWidth

open Text

/-- The most pages that fit the bus window, of which the first frame is left out. -/
def maxArenaPages : UInt64 := busWindow / pageSize - 1

/-- How an arena checks the accesses to it. -/
inductive Discipline where
  /-- Words in a vector: the alignment is checked, then the index. -/
  | simulated
  /-- Locked pages: the alignment is checked and where the word ends. -/
  | locked (arithmetic : Arithmetic)
deriving DecidableEq, Repr

/-- A run of pages. -/
structure Arena where
  discipline : Discipline
  words : Array UInt32
  table : PageTable
deriving DecidableEq, Repr

namespace Arena

/-- The number of bytes. -/
def length (a : Arena) : UInt64 := UInt64.ofNat a.words.size * 4

/-- The position of the word at an offset. -/
def position (offset : ArenaOffset) : Nat := (offset.value / 4).toNat

/-- The fault of an access, if it is refused. -/
def refusal? (a : Arena) (offset : ArenaOffset) : Option Fault :=
  match a.discipline with
  | .simulated =>
    if !offset.isAligned 4 then some (.unalignedAccess offset)
    else if position offset < a.words.size then none
    else some (.missingIndex a.words.size (position offset))
  | .locked arithmetic => arithmetic.refusal? (offset.isAligned 4) offset.value a.length (.accessOutside offset)

/-- The word at an offset. -/
def read (a : Arena) (offset : ArenaOffset) : Except Fault UInt32 :=
  match a.refusal? offset with
  | some reason => .error reason
  | none => .ok (a.words.getD (position offset) 0)

/-- The arena with another word at an offset, unchecked. -/
def put (a : Arena) (offset : ArenaOffset) (value : UInt32) : Arena :=
  { a with words := a.words.setIfInBounds (position offset) value }

/-- The arena with another word at an offset. -/
def write (a : Arena) (offset : ArenaOffset) (value : UInt32) : Except Fault Arena :=
  match a.refusal? offset with
  | some reason => .error reason
  | none => .ok (a.put offset value)

/-- The words from an offset on, one after the other. -/
def readMany (a : Arena) (offset : ArenaOffset) : Nat → Except Fault (List UInt32)
  | 0 => .ok []
  | count + 1 =>
    match a.read offset with
    | .error reason => .error reason
    | .ok word => (a.readMany (offset.advance 4) count).map (word :: ·)

end Arena

/-- Why an arena cannot be had. -/
inductive ArenaError where
  | empty
  | tooLarge (pages : UInt64)
  | pageSizeQuery (reason : Errno)
  | unsupportedPageSize (size : UInt64)
  | unmapped (length : UInt64) (reason : Errno)
  | unlocked (length : UInt64) (reason : Errno)
  | unresolved (reason : ResolveError)
deriving DecidableEq, Repr

namespace ArenaError

/-- The wording of the error. -/
def message : ArenaError → String
  | empty => "an arena needs at least one page"
  | tooLarge pages =>
    toString pages.toNat ++ " pages exceed the " ++ toString maxArenaPages.toNat ++ " the DMA bus window can hold"
  | pageSizeQuery reason => "failed to query the page size: " ++ reason.text
  | unsupportedPageSize size => "unsupported page size " ++ toString size.toNat ++ " (expected 4096)"
  | unmapped length reason =>
    "failed to map " ++ toString length.toNat ++ " bytes of anonymous memory: " ++ reason.text
  | unlocked length reason =>
    "failed to lock " ++ toString length.toNat ++ " bytes of memory (raise RLIMIT_MEMLOCK or run as root): "
      ++ reason.text
  | unresolved reason => reason.message

/-- The wording of the underlying error, if there is one. -/
def source? : ArenaError → Option String
  | pageSizeQuery reason | unmapped _ reason | unlocked _ reason => some reason.text
  | unresolved reason => reason.source?
  | _ => none

end ArenaError

/-! ### The simulated arena -/

namespace Arena

/-- Where a simulated arena starts in virtual memory. -/
def simulatedBase : VirtualAddress := ⟨0x7F000000⟩

/-- The first frame that a simulated arena hands out. -/
def firstFrame : UInt64 := 0x0F00

/-- The frame of a page: downwards by two, around inside the window. -/
def simulatedFrame (index : UInt64) : FrameNumber :=
  let step := 2 * index % maxArenaPages
  ⟨1 + (firstFrame - 1 + maxArenaPages - step) % maxArenaPages⟩

/-- The entry of a page of a simulated arena. -/
def simulatedEntry (dram : DramAlias) (index : UInt64) : Except ResolveError PageEntry :=
  PageEntry.ofPages (simulatedBase.advance (index * pageSize)).page (simulatedFrame index).page dram

/-- A simulated arena of zeros. -/
def simulated (pages : UInt64) (dram : DramAlias) : Except ArenaError Arena :=
  if pages = 0 then .error .empty
  else if maxArenaPages < pages then .error (.tooLarge pages)
  else match (List.range pages.toNat).mapM fun i => simulatedEntry dram (UInt64.ofNat i) with
    | .error e => .error (.unresolved e)
    | .ok entries =>
      .ok ⟨.simulated, Array.replicate (pages * pageSize / 4).toNat 0, ⟨entries.toArray⟩⟩

end Arena

end PulseWidth
