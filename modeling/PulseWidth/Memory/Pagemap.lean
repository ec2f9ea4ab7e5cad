import PulseWidth.Memory.PageTable
import PulseWidth.Register.Field

/-!
# The kernel's page records

The kernel keeps a file with a 64-bit record per virtual page of the process.  A record says whether the page is
swapped out or resident and, to privileged readers, which frame backs it.  A page can be used if its record is
complete, not swapped, present and has a frame number other than zero; they are checked in this order.
-/

namespace PulseWidth

open Text

/-- A record of the file. -/
structure PageRecord where
  bits : UInt64
deriving DecidableEq, Repr, Inhabited

namespace PageRecord

/-- The frame number. -/
def frameField : Field := ⟨0, 55⟩

/-- Whether the page is in swap space. -/
def swappedBit : Field := .bit 62

/-- Whether the page is resident. -/
def presentBit : Field := .bit 63

/-- The layout of a record. -/
def layout : Layout where
  name := "PagemapEntry"
  slots :=
    [⟨"pfn", frameField, .number⟩] ++ Slot.flags 55 ["soft_dirty", "exclusive", "uffd_wp", "guard"]
      ++ Slot.flags 61 ["file_or_shared_anon", "swapped", "present"]

/-- The text of a record in listings. -/
def debug (r : PageRecord) : String := layout.debug r.bits.toBitVec

/-- The record with a number in the field of that name. -/
def set (r : PageRecord) (field : String) (number : Nat) : Except Fault PageRecord :=
  (layout.set field number r.bits.toBitVec).map fun bits => ⟨⟨bits⟩⟩

/-- Whether a field of one bit is set. -/
def has (r : PageRecord) (bit : Field) : Bool := bit.get r.bits.toBitVec != 0

/-- The frame. -/
def frame (r : PageRecord) : FrameNumber := ⟨⟨frameField.get r.bits.toBitVec⟩⟩

/-- The frame of a page that can be used. -/
def checkedFrame (r : PageRecord) (address : VirtualAddress) : Except ResolveError FrameNumber :=
  if r.has swappedBit then .error (.swapped address)
  else if !r.has presentBit then .error (.notPresent address)
  else if r.frame.value = 0 then .error (.zeroFrame address)
  else .ok r.frame

end PageRecord

/-- The file of records: its size in bytes and the record at each complete position. -/
structure Pagemap where
  size : Nat
  record : Nat → PageRecord

namespace Pagemap

/-- A file that holds nothing but zeros before page `first`, then the given records and then bytes of ones. -/
def ofRecords (first : Nat) (records : Array UInt64) (ones : Nat) : Pagemap where
  size := 8 * (first + records.size) + ones
  record := fun page =>
    if page < first then ⟨0⟩ else ⟨records.getD (page - first) (UInt64.ofNat (UInt64.size - 1))⟩

/-- The record of the page that an address lies in. -/
def entry (p : Pagemap) (address : VirtualAddress) : Except ResolveError PageRecord :=
  let page := (pageNumber address.value).toNat
  if 8 * page + 8 ≤ p.size then .ok (p.record page) else .error (.unread address)

/-- The frame of the page that an address lies in, which must be usable. -/
def frameOf (p : Pagemap) (address : VirtualAddress) : Except ResolveError FrameNumber :=
  match p.entry address with
  | .error e => .error e
  | .ok record => record.checkedFrame address

/-- Where an address lives. -/
def physicalOf (address : VirtualAddress) (frame : FrameNumber) : PhysicalAddress :=
  frame.page.join (inPage address.value)

/-- The resolver that reads the file. -/
def resolver (p : Pagemap) : Resolver where
  resolve address := (p.frameOf address).map (physicalOf address)
  records address :=
    match p.frameOf address with
    | .error _ => []
    | .ok frame =>
      [⟨.trace, "pwm_memory::pagemap",
        address.debug ++ " -> " ++ frame.debug ++ " -> " ++ (physicalOf address frame).debug⟩]

end Pagemap

end PulseWidth
