import PulseWidth.Address.Bus
import PulseWidth.Errno
import PulseWidth.Log

/-!
# Page tables of an arena

The pages of an arena follow one another in virtual memory and are scattered in physical memory.  The table has an
entry per page with its place in each address space, so that an offset into the arena can be turned into a bus
address and back.  A table is filled from a resolver, which tells where a virtual page lives; the lowest page that
cannot be used decides the error.
-/

namespace PulseWidth

open Text

/-- Why a page cannot be handed to the DMA engine. -/
inductive ResolveError where
  | unopened (reason : Errno)
  /-- The record of the page is not wholly in the file. -/
  | unread (address : VirtualAddress)
  | notPresent (address : VirtualAddress)
  | swapped (address : VirtualAddress)
  | zeroFrame (address : VirtualAddress)
  | beyondBusWindow (address : PhysicalAddress)
deriving DecidableEq, Repr

namespace ResolveError

/-- What is said of a record that ends before it is complete. -/
def shortRead : String := "failed to fill whole buffer"

/-- The wording of the error. -/
def message : ResolveError → String
  | unopened reason => "failed to open /proc/self/pagemap: " ++ reason.fileText
  | unread address => "failed to read the pagemap entry for " ++ address.text ++ ": " ++ shortRead
  | notPresent address => "page at " ++ address.text ++ " is not resident"
  | swapped address => "page at " ++ address.text ++ " is swapped out"
  | zeroFrame address =>
    "page at " ++ address.text ++ " reports frame 0 (reading frame numbers requires CAP_SYS_ADMIN)"
  | beyondBusWindow address =>
    "physical address " ++ address.text ++ " is outside the DMA-addressable window"

/-- The wording of the underlying error, if there is one. -/
def source? : ResolveError → Option String
  | unopened reason => some reason.fileText
  | unread _ => some shortRead
  | _ => none

end ResolveError

/-- Where a page lives in each address space. -/
structure PageEntry where
  virtualPage : VirtualPage
  physicalPage : PhysicalPage
  bus : BusAddress
deriving DecidableEq, Repr, Inhabited

namespace PageEntry

/-- The entry of a page, whose frame must be in reach of the bus. -/
def ofPages (virtualPage : VirtualPage) (physicalPage : PhysicalPage) (dram : DramAlias) :
    Except ResolveError PageEntry :=
  match BusAddress.ofPhysical? physicalPage.base dram with
  | some bus => .ok ⟨virtualPage, physicalPage, bus⟩
  | none => .error (.beyondBusWindow physicalPage.base)

/-- The text of the entry in listings. -/
def debug (e : PageEntry) : String :=
  fields "PageMapEntry"
    [("virtual_base", e.virtualPage.debug), ("physical_base", e.physicalPage.debug), ("bus_base", e.bus.debug)]

end PageEntry

/-- Tells where virtual addresses live, and what it logs about a successful answer. -/
structure Resolver where
  resolve : VirtualAddress → Except ResolveError PhysicalAddress
  records : VirtualAddress → List Record

/-- The resolver that looks the pages from a base on up in a list and logs nothing; there is nothing behind the
end of the list. -/
def Resolver.ofList (base : VirtualAddress) (answers : Array (VirtualAddress → Except ResolveError PhysicalAddress)) :
    Resolver where
  resolve address := answers.getD ((address.value - base.value) / pageSize).toNat (.error ∘ .notPresent) address
  records _ := []

/-- The entries of an arena's pages, in order. -/
structure PageTable where
  entries : Array PageEntry
deriving DecidableEq, Repr, Inhabited

namespace PageTable

/-- The table of pages at given addresses; a page without a bus address gets the one that its frame has. -/
def ofAddresses (dram : DramAlias) (pages : List (VirtualAddress × PhysicalAddress × Option BusAddress)) :
    Except ResolveError PageTable :=
  let entry : VirtualAddress × PhysicalAddress × Option BusAddress → Except ResolveError PageEntry
    | (virtual, physical, some bus) => .ok ⟨virtual.page, physical.page, bus⟩
    | (virtual, physical, none) => PageEntry.ofPages virtual.page physical.page dram
  (pages.mapM entry).map fun entries => ⟨entries.toArray⟩

/-- The entry of the page at a virtual address. -/
def resolveEntry (resolver : Resolver) (dram : DramAlias) (address : VirtualAddress) :
    Except ResolveError PageEntry :=
  match resolver.resolve address with
  | .error e => .error e
  | .ok physical => PageEntry.ofPages address.page physical.page dram

/-- The addresses of the pages from a base on. -/
def addresses (base : VirtualAddress) (pages : Nat) : List VirtualAddress :=
  (List.range pages).map fun i => base.advance (UInt64.ofNat i * pageSize)

theorem addresses_succ (base : VirtualAddress) (pages : Nat) :
    addresses base (pages + 1) = base :: addresses (base.advance pageSize) pages := by
  have h (i : Nat) : base.advance (UInt64.ofNat (i + 1) * pageSize)
      = (base.advance pageSize).advance (UInt64.ofNat i * pageSize) := by
    have hi : UInt64.ofNat (i + 1) = UInt64.ofNat i + 1 := by simp
    simp only [VirtualAddress.advance, hi, UInt64.add_mul, UInt64.one_mul, UInt64.add_assoc]
    rw [UInt64.add_comm pageSize]
  simp only [addresses, List.range_succ_eq_map, List.map_cons, List.map_map, Function.comp_def, Nat.succ_eq_add_one, h]
  simp [VirtualAddress.advance]

/-- The entries of a run of pages from an address on, behind those that are done. -/
def resolveFrom (resolver : Resolver) (dram : DramAlias) (done : Array PageEntry) (address : VirtualAddress) :
    Nat → Except ResolveError (Array PageEntry)
  | 0 => .ok done
  | pages + 1 =>
    match resolveEntry resolver dram address with
    | .error e => .error e
    | .ok entry => resolveFrom resolver dram (done.push entry) (address.advance pageSize) pages

theorem resolveFrom_eq (resolver : Resolver) (dram : DramAlias) (done : Array PageEntry) (address : VirtualAddress)
    (pages : Nat) : resolveFrom resolver dram done address pages =
      ((addresses address pages).mapM (resolveEntry resolver dram)).map fun entries => done ++ entries.toArray := by
  induction pages generalizing done address with
  | zero => simp [resolveFrom, addresses, pure, Except.pure, Except.map]
  | succ pages ih =>
    rw [addresses_succ, List.mapM_cons, resolveFrom]
    cases resolveEntry resolver dram address with
    | error e => rfl
    | ok entry =>
      simp only [ih, bind, Except.bind]
      cases (addresses (address.advance pageSize) pages).mapM (resolveEntry resolver dram) with
      | error e => rfl
      | ok entries => simp [pure, Except.pure, Except.map]

/-- The table of a run of pages. -/
def resolve (base : VirtualAddress) (pages : Nat) (resolver : Resolver) (dram : DramAlias) :
    Except ResolveError PageTable :=
  (resolveFrom resolver dram #[] base pages).map PageTable.mk

theorem resolve_eq (base : VirtualAddress) (pages : Nat) (resolver : Resolver) (dram : DramAlias) :
    resolve base pages resolver dram =
      ((addresses base pages).mapM (resolveEntry resolver dram)).map fun entries => ⟨entries.toArray⟩ := by
  rw [resolve, resolveFrom_eq]
  cases (addresses base pages).mapM (resolveEntry resolver dram) <;> simp [Except.map]

/-- The log records of the entries, numbered from `i`. -/
def entryRecords (i : Nat) : List PageEntry → List Record
  | [] => []
  | e :: rest =>
    ⟨.debug, "pwm_memory::page_table",
      "arena page " ++ toString i ++ ": " ++ e.virtualPage.debug ++ " -> " ++ e.physicalPage.debug
        ++ " (bus " ++ e.bus.text ++ ")"⟩ :: entryRecords (i + 1) rest

/-- What the resolver logs up to the first page that fails. -/
def resolverRecords (resolver : Resolver) (dram : DramAlias) (address : VirtualAddress) : Nat → List Record
  | 0 => []
  | pages + 1 =>
    resolver.records address ++
      match resolveEntry resolver dram address with
      | .error _ => []
      | .ok _ => resolverRecords resolver dram (address.advance pageSize) pages

/-- What is logged while the table of a run of pages is filled. -/
def resolveRecords (base : VirtualAddress) (pages : Nat) (resolver : Resolver) (dram : DramAlias) : List Record :=
  resolverRecords resolver dram base pages ++
    match resolve base pages resolver dram with
    | .error _ => []
    | .ok table => entryRecords 0 table.entries.toList

/-- The table of a run of pages, with what is logged while it is filled. -/
def fill (base : VirtualAddress) (pages : Nat) (resolver : Resolver) (dram : DramAlias) :
    Except ResolveError PageTable × List Record :=
  (resolve base pages resolver dram, resolveRecords base pages resolver dram)

/-- Whether the pages follow one another in virtual memory from a base on. -/
def isContiguous (t : PageTable) (base : VirtualAddress) : Bool :=
  t.entries.toList.map (·.virtualPage.base) == addresses base t.entries.size

/-- The bus address of an offset into the arena. -/
def busOf? (t : PageTable) (offset : ArenaOffset) : Option BusAddress :=
  match t.entries[offset.pageIndex.toNat]? with
  | none => none
  | some entry => entry.bus.advance? offset.inPage.toUInt32

/-- The offset into the arena of a bus address. -/
def offsetOf? (t : PageTable) (bus : BusAddress) : Option ArenaOffset :=
  let low := pageSize.toUInt32 - 1
  (t.entries.findIdx? fun entry => entry.bus.value == bus.value &&& ~~~low).map fun index =>
    ⟨UInt64.ofNat index * pageSize + (bus.value &&& low).toUInt64⟩

end PageTable

end PulseWidth
