import PulseWidth.Board.Host
import PulseWidth.Errno
import PulseWidth.Platform
import PulseWidth.Register.Field

/-!
# Mapped register windows

A window makes the registers from a physical address on accessible.  The host maps whole pages, so the window knows
both the pages and where in them its registers start.  A register is found by its place among the mapped bytes, which
follow one another as they do in memory.  An access must be to an aligned word inside the window.

The windows that have been mapped on a host are kept by the order in which they were asked for (`Devices`).  A window
that was refused or has been unmapped is gone, but keeps its position.
-/

namespace PulseWidth

open Text

/-- Why a register window cannot be had. -/
inductive MapError where
  | unopened (reason : Errno)
  | empty (block : String)
  /-- The address is too large for the system call. -/
  | offsetTooLarge (block : String) (base : PhysicalAddress)
  | refused (block : String) (base : PhysicalAddress) (reason : Errno)
deriving DecidableEq, Repr

namespace MapError

/-- The wording of the reason. -/
def message : MapError → String
  | unopened reason => "failed to open /dev/mem (are you root?): " ++ reason.fileText
  | empty block => "register window " ++ block ++ " is empty"
  | offsetTooLarge block base =>
    "physical address " ++ base.text ++ " of " ++ block ++ " does not fit the mmap offset type"
  | refused block base reason =>
    "failed to map " ++ block ++ " registers at " ++ base.text ++ ": " ++ reason.text

/-- The wording of the underlying error, if there is one. -/
def source? : MapError → Option String
  | unopened reason => some reason.fileText
  | refused _ _ reason => some reason.text
  | _ => none

end MapError

/-! ### Windows -/

/-- The registers of a block of a board. -/
structure MappedWindow where
  block : String
  /-- The number of bytes of the registers. -/
  length : UInt64
  /-- The first mapped page. -/
  region : PhysicalPage
  /-- The number of mapped bytes. -/
  regionLength : UInt64
  /-- Where among the mapped bytes the first register is. -/
  start : UInt64
deriving DecidableEq, Repr

namespace MappedWindow

/-- The number of bytes up to the next multiple of the page size, modulo `2 ^ 64`. -/
def roundUp (bytes : UInt64) : UInt64 :=
  if bytes % pageSize = 0 then bytes else bytes + (pageSize - bytes % pageSize)

/-- The window of a run of bytes. -/
def ofRun (block : String) (base : PhysicalAddress) (length : UInt64) : MappedWindow where
  block := block
  length := length
  region := base.page
  regionLength := roundUp (inPage base.value + length)
  start := inPage base.value

/-- The window of a run of bytes, before it is mapped. -/
def plan (block : String) (base : PhysicalAddress) (length : UInt64) : Except MapError MappedWindow :=
  let window := ofRun block base length
  if length = 0 ∨ window.regionLength = 0 then .error (.empty block)
  else if 1 <<< 63 ≤ window.region.base.value.toNat then .error (.offsetTooLarge block base)
  else .ok window

/-- The place of a register among the mapped bytes. -/
def place (w : MappedWindow) (offset : UInt64) : UInt64 := w.start + offset

/-- The physical address of a register. -/
def address (w : MappedWindow) (offset : UInt64) : PhysicalAddress := w.region.join (w.place offset)

/-- The fault of an access, if it is refused. -/
def refusal? (w : MappedWindow) (m : Arithmetic) (offset : UInt64) : Option Fault :=
  m.refusal? (offset % 4 == 0) offset w.length (.outsideWindow w.block offset)

end MappedWindow

namespace Host

/-- Opens the device that gives access to physical memory. -/
def openDevice (h : Host) : Except MapError Unit × Host :=
  match h.call .openDevice with
  | (some reason, h) => (.error (.unopened reason), h)
  | (none, h) => (.ok (), h)

/-- Maps a run of bytes as the window of a block. -/
def mapWindow (h : Host) (block : String) (base : PhysicalAddress) (length : UInt64) :
    Except MapError MappedWindow × Host :=
  match MappedWindow.plan block base length with
  | .error reason => (.error reason, h)
  | .ok window =>
    match h.call (.mapDevice block) with
    | (some reason, h) => (.error (.refused block base reason), h)
    | (none, h) =>
      (.ok window,
        h.log .debug "pwm_memory::devmem"
          ("mapped " ++ block ++ " registers at " ++ base.text ++ " (" ++ hex 1 length.toNat ++ " bytes)"))

/-- Maps registers of a block of a platform. -/
def mapBlock (h : Host) (platform : Platform) (block : Block) (offset length : UInt64) :
    Except MapError MappedWindow × Host :=
  h.mapWindow block.name ((platform.blockBase block).advance offset) length

/-- Unmaps a window; a refusal is only logged. -/
def unmapWindow (h : Host) (w : MappedWindow) : Host :=
  match h.call (.unmapDevice w.block) with
  | (none, h) => h
  | (some reason, h) =>
    h.log .error "pwm_memory::devmem" ("failed to unmap " ++ w.block ++ " registers: " ++ reason.text)

/-- Unmaps some windows, one after the other. -/
def unmapAll (h : Host) (windows : List MappedWindow) : Host := windows.foldl unmapWindow h

/-- Loads a word through a window. -/
def load (h : Host) (w : MappedWindow) (offset : UInt64) : Except Fault UInt32 :=
  match w.refusal? h.arithmetic offset with
  | some reason => .error reason
  | none => .ok (h.memory.word (w.address offset))

/-- Stores a word through a window; the store is logged before it is checked. -/
def store (h : Host) (w : MappedWindow) (offset : UInt64) (value : UInt32) : Except Fault Unit × Host :=
  let h := h.log .trace "pwm_memory::devmem" (storeText w.block offset value)
  match w.refusal? h.arithmetic offset with
  | some reason => (.error reason, h)
  | none => (.ok (), { h with memory := h.memory.putWord (w.address offset) value })

/-- Loads a register, changes its word and stores it again. -/
def modify (h : Host) (w : MappedWindow) (register : Register) (change : UInt32 → Except Fault UInt32) :
    Except Fault UInt32 × Host :=
  match (h.load w register.offset).bind change with
  | .error reason => (.error reason, h)
  | .ok word =>
    let (answer, h) := h.store w register.offset word
    (answer.map fun _ => word, h)

end Host

/-! ### Open windows -/

/-- A host and the windows that have been asked for. -/
structure Devices where
  host : Host
  windows : Array (Option MappedWindow)

namespace Devices

/-- A host of which no window has been asked for. -/
def ofHost (host : Host) : Devices := ⟨host, #[]⟩

/-- The window at a position, unless it is gone. -/
def window? (d : Devices) (index : Nat) : Option MappedWindow := d.windows.getD index none

/-- Notes the outcome of a mapping; the answer is the block of the new window. -/
def add (d : Devices) : Except MapError MappedWindow × Host → Except MapError String × Devices
  | (.ok window, host) => (.ok window.block, ⟨host, d.windows.push (some window)⟩)
  | (.error reason, host) => (.error reason, ⟨host, d.windows.push none⟩)

/-- Unmaps the window at a position; a window that is already gone stays so, but it must have been asked for. -/
def unmap? (d : Devices) (index : Nat) : Option Devices :=
  match d.windows[index]? with
  | none => none
  | some none => some d
  | some (some window) => some ⟨d.host.unmapWindow window, d.windows.setIfInBounds index none⟩

/-- Unmaps the windows that are left, in their order. -/
def close (d : Devices) : Host := d.host.unmapAll (d.windows.toList.filterMap id)

end Devices

end PulseWidth
