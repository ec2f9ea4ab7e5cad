import Std.Data.HashMap
import PulseWidth.Fault
import PulseWidth.Log
import PulseWidth.Memory.Pagemap

/-!
# The host

The host is what a board's operating system offers: physical memory, page records, and calls that it may refuse.

Physical memory is bytes by their address, all zero at first.  A word is four bytes, the lowest first, at any address;
it reads back what was last stored to its bytes, through whatever window.

A call is answered by a rule that knows all earlier calls and their answers, so that every way the host can behave
is covered.  The calls are remembered together with their answers.  A host may also refuse the same calls for as long as
it lives, each with its own error number (`Refusals`).
-/

namespace PulseWidth

/-! ### Physical memory -/

/-- The bytes that have been stored. -/
structure PhysicalMemory where
  bytes : Std.HashMap UInt64 UInt8

namespace PhysicalMemory

/-- A memory of zeros. -/
def zeros : PhysicalMemory := ⟨∅⟩

/-- The byte at an address. -/
def byte (m : PhysicalMemory) (address : UInt64) : UInt8 := m.bytes.getD address 0

/-- The memory with another byte at an address. -/
def putByte (m : PhysicalMemory) (address : UInt64) (value : UInt8) : PhysicalMemory :=
  ⟨m.bytes.insert address value⟩

/-- The word at an address. -/
def word (m : PhysicalMemory) (address : PhysicalAddress) : UInt32 :=
  let a := address.value
  (m.byte a).toUInt32 ||| ((m.byte (a + 1)).toUInt32 <<< 8) ||| ((m.byte (a + 2)).toUInt32 <<< 16)
    ||| ((m.byte (a + 3)).toUInt32 <<< 24)

/-- The memory with another word at an address. -/
def putWord (m : PhysicalMemory) (address : PhysicalAddress) (value : UInt32) : PhysicalMemory :=
  let a := address.value
  (((m.putByte a value.toUInt8).putByte (a + 1) (value >>> 8).toUInt8).putByte (a + 2) (value >>> 16).toUInt8).putByte
    (a + 3) (value >>> 24).toUInt8

/-- The memory that holds the given words, the later ones on top, and zeros elsewhere. -/
def ofWords (words : List (PhysicalAddress × UInt32)) : PhysicalMemory :=
  words.foldl (fun m entry => m.putWord entry.1 entry.2) zeros

end PhysicalMemory

/-! ### Calls -/

/-- A call to the operating system. -/
inductive Call where
  | openDevice
  | mapDevice (block : String)
  | unmapDevice (block : String)
  | openPagemap
  | queryPageSize
  | mapArena
  | lockArena
  | unlockArena
  | unmapArena
deriving DecidableEq, Repr

/-- A call and the error number it was refused with, if it was. -/
abbrev CallRecord := Call × Option Errno

/-- An operating system with the memory of its board. -/
structure Host where
  memory : PhysicalMemory
  pagemap : Pagemap
  /-- Where the host puts an arena in virtual memory. -/
  arenaBase : VirtualAddress
  /-- The page size that the host reports, if any. -/
  pageSizeAnswer : Option Int
  /-- The answer to a call after the given ones, the latest first. -/
  refuses : List CallRecord → Call → Option Errno
  /-- The calls so far, the latest first. -/
  history : List CallRecord
  records : Array Record
  printed : Array String
  /-- How the program that runs on the host adds where it checks an access. -/
  arithmetic : Arithmetic

namespace Host

/-- A host to which no call has been made, for a program that checks its sums. -/
def fresh (memory : PhysicalMemory) (pagemap : Pagemap) (arenaBase : VirtualAddress) (pageSizeAnswer : Option Int)
    (refuses : List CallRecord → Call → Option Errno) : Host where
  memory := memory
  pagemap := pagemap
  arenaBase := arenaBase
  pageSizeAnswer := pageSizeAnswer
  refuses := refuses
  history := []
  records := #[]
  printed := #[]
  arithmetic := .checked

/-- Makes a call; the answer is an error number if it is refused. -/
def call (h : Host) (c : Call) : Option Errno × Host :=
  let answer := h.refuses h.history c
  (answer, { h with history := (c, answer) :: h.history })

/-- Logs a record. -/
def log (h : Host) (level : Level) (target message : String) : Host :=
  { h with records := h.records.push ⟨level, target, message⟩ }

/-- Logs some records. -/
def logAll (h : Host) (records : List Record) : Host :=
  { h with records := records.foldl Array.push h.records }

/-- The number of mappings of device memory that were granted. -/
def mappingsGranted (history : List CallRecord) : Nat :=
  history.countP fun
    | (.mapDevice _, none) => true
    | _ => false

end Host

/-! ### Standing refusals -/

/-- The error numbers that a host refuses calls with; a call without one is granted. -/
structure Refusals where
  openDevice : Option Errno := none
  mapDevice : Option Errno := none
  /-- The number of mappings of device memory that are granted even so. -/
  mapDeviceAfter : Nat := 0
  unmapDevice : Option Errno := none
  openPagemap : Option Errno := none
  queryPageSize : Option Errno := none
  mapArena : Option Errno := none
  lockArena : Option Errno := none
  unlockArena : Option Errno := none
  unmapArena : Option Errno := none
deriving DecidableEq, Repr

namespace Refusals

/-- The answer to a call after the given ones. -/
def answer (r : Refusals) (history : List CallRecord) : Call → Option Errno
  | .openDevice => r.openDevice
  | .mapDevice _ => if r.mapDeviceAfter ≤ Host.mappingsGranted history then r.mapDevice else none
  | .unmapDevice _ => r.unmapDevice
  | .openPagemap => r.openPagemap
  | .queryPageSize => r.queryPageSize
  | .mapArena => r.mapArena
  | .lockArena => r.lockArena
  | .unlockArena => r.unlockArena
  | .unmapArena => r.unmapArena

end Refusals

end PulseWidth
