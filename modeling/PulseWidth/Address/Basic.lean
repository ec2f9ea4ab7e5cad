import PulseWidth.Text.Basic

/-!
# Virtual and physical addresses, offsets

A process dereferences virtual addresses, the kernel backs them with physical page frames.  The two are different
types; both split into a page and an offset in the page, and joining the two parts gives the address back.  So does an
offset from the start of a run of pages, whose high bits are the index of a page.  Pages have 4096 bytes, address
arithmetic is modulo `2 ^ 64`.
-/

namespace PulseWidth

open Text

/-- The number of bytes of a page. -/
def pageSize : UInt64 := 4096

/-- The offset of an address in its page. -/
def inPage (address : UInt64) : UInt64 := address &&& (pageSize - 1)

/-- The first address of the page that an address lies in. -/
def pageBase (address : UInt64) : UInt64 := address &&& ~~~(pageSize - 1)

/-- The number of the page that an address lies in. -/
def pageNumber (address : UInt64) : UInt64 := address >>> 12

/-- Whether an address is a multiple of `align`, for a power of two. -/
def isAligned (address align : UInt64) : Bool := address &&& (align - 1) == 0

/-- The number of pages that hold `bytes` bytes. -/
def pagesFor (bytes : UInt64) : UInt64 :=
  bytes / pageSize + if bytes % pageSize = 0 then 0 else 1

/-- An address in this process. -/
structure VirtualAddress where
  value : UInt64
deriving DecidableEq, Repr, Inhabited

/-- A page of this process, given by its first address. -/
structure VirtualPage where
  base : VirtualAddress
deriving DecidableEq, Repr, Inhabited

/-- An address of the memory as the processor sees it: a page frame and an offset in it. -/
structure PhysicalAddress where
  value : UInt64
deriving DecidableEq, Repr, Inhabited

/-- A page frame, given by its first address. -/
structure PhysicalPage where
  base : PhysicalAddress
deriving DecidableEq, Repr, Inhabited

/-- The number of a page frame as the kernel reports it. -/
structure FrameNumber where
  value : UInt64
deriving DecidableEq, Repr, Inhabited

namespace VirtualAddress

/-- The page that the address lies in. -/
def page (a : VirtualAddress) : VirtualPage := ⟨⟨pageBase a.value⟩⟩

/-- The address `bytes` further on. -/
def advance (a : VirtualAddress) (bytes : UInt64) : VirtualAddress := ⟨a.value + bytes⟩

/-- The plain text of the address. -/
def text (a : VirtualAddress) : String := hex 8 a.value.toNat

/-- The text of the address in listings. -/
def debug (a : VirtualAddress) : String := wrapped "VA" a.text

end VirtualAddress

namespace VirtualPage

/-- The address at an offset in the page. -/
def join (p : VirtualPage) (offset : UInt64) : VirtualAddress := p.base.advance offset

/-- The text of the page in listings. -/
def debug (p : VirtualPage) : String := wrapped "VirtualPage<4K>" p.base.text

end VirtualPage

namespace PhysicalAddress

/-- The page frame that the address lies in. -/
def page (a : PhysicalAddress) : PhysicalPage := ⟨⟨pageBase a.value⟩⟩

/-- The address `bytes` further on. -/
def advance (a : PhysicalAddress) (bytes : UInt64) : PhysicalAddress := ⟨a.value + bytes⟩

/-- The plain text of the address. -/
def text (a : PhysicalAddress) : String := hex 12 a.value.toNat

/-- The text of the address in listings. -/
def debug (a : PhysicalAddress) : String := wrapped "PA" a.text

end PhysicalAddress

namespace PhysicalPage

/-- The address at an offset in the page. -/
def join (p : PhysicalPage) (offset : UInt64) : PhysicalAddress := p.base.advance offset

/-- The plain text of the page. -/
def text (p : PhysicalPage) : String := p.base.text ++ "/4K"

/-- The text of the page in listings. -/
def debug (p : PhysicalPage) : String := wrapped "PhysicalPage<4K>" p.base.text

end PhysicalPage

namespace FrameNumber

/-- The page frame of that number; high bits that do not fit are lost. -/
def page (f : FrameNumber) : PhysicalPage := ⟨⟨pageBase (f.value <<< 12)⟩⟩

/-- The text of the frame number in listings. -/
def debug (f : FrameNumber) : String := wrapped "PFN" (hex 1 f.value.toNat)

end FrameNumber

/-- The name of the page size. -/
def pageSizeName : String := "4K"

/-- The text of an offset in a page in listings. -/
def pageOffsetDebug (offset : UInt64) : String :=
  wrapped "PageOffset<pwm_addresses::page_size::Size4K>" (hex 1 offset.toNat)

/-! ### Offsets into an arena -/

/-- A byte offset into a DMA arena. -/
structure ArenaOffset where
  value : UInt64
deriving DecidableEq, Repr, Inhabited

namespace ArenaOffset

/-- The index of the page that the offset lies in. -/
def pageIndex (o : ArenaOffset) : UInt64 := pageNumber o.value

/-- The offset in that page. -/
def inPage (o : ArenaOffset) : UInt64 := PulseWidth.inPage o.value

/-- Whether the offset is a multiple of `align`, for a power of two. -/
def isAligned (o : ArenaOffset) (align : UInt64) : Bool := PulseWidth.isAligned o.value align

/-- The least multiple of `align` from the offset on, for a power of two. -/
def alignUp (o : ArenaOffset) (align : UInt64) : ArenaOffset :=
  ⟨(o.value + align - 1) &&& ~~~(align - 1)⟩

/-- The offset `bytes` further on. -/
def advance (o : ArenaOffset) (bytes : UInt64) : ArenaOffset := ⟨o.value + bytes⟩

/-- The text of the offset in listings. -/
def debug (o : ArenaOffset) : String := wrapped "ArenaOffset" (hex 1 o.value.toNat)

end ArenaOffset

end PulseWidth
