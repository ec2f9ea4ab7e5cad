import PulseWidth.Chain.Layout
import PulseWidth.Channel.Table
import PulseWidth.Config
import PulseWidth.Memory.Arena
import PulseWidth.Program

/-!
# The descriptor chain

Two control blocks belong to each slot: one copies the sample word to the register that sets or clears pins, the
other writes a word to the queue of the pacer and so waits for a sample time.  The blocks form a ring.  All their
addresses come from the page table; when one is missing, or the arena is too small, nothing is written.
-/

namespace PulseWidth

open Text

/-- Where the transfers of a chain go. -/
structure ChainTargets where
  /-- The register that turns pins on. -/
  turnOn : BusAddress
  /-- The register that turns pins off. -/
  turnOff : BusAddress
  queue : BusAddress
  permap : Permap
deriving DecidableEq, Repr

namespace ChainTargets

/-- The targets for a polarity and a pacer. -/
def of (invert : Bool) (pacer : Pacer) : ChainTargets where
  turnOn := Block.register .gpio (Gpio.inactiveOffset (!invert))
  turnOff := Block.register .gpio (Gpio.inactiveOffset invert)
  queue := pacer.queue
  permap := pacer.permap

/-- The text of the targets in listings. -/
def debug (t : ChainTargets) : String :=
  fields "ChainTargets"
    [("on", t.turnOn.debug), ("off", t.turnOff.debug), ("fifo", t.queue.debug), ("permap", t.permap.debug)]

end ChainTargets

/-- Why a chain cannot be built. -/
inductive ChainError where
  | arenaTooSmall (length need : UInt64)
  | unmapped (offset : ArenaOffset)
deriving DecidableEq, Repr

/-- The wording of the reason. -/
def ChainError.message : ChainError → String
  | arenaTooSmall length need =>
    "arena holds " ++ toString length.toNat ++ " bytes but the descriptor chain needs " ++ toString need.toNat
  | unmapped offset => "arena offset " ++ offset.debug ++ " has no bus address"

/-- A chain that has been written. -/
structure Chain where
  layout : ChainLayout
  /-- The bus address of the first control block. -/
  head : BusAddress
deriving DecidableEq, Repr

namespace Chain

/-- The bus address of an offset, which must have one. -/
def bus (table : PageTable) (offset : ArenaOffset) : Except ChainError BusAddress :=
  match table.busOf? offset with
  | some address => .ok address
  | none => .error (.unmapped offset)

/-- The two control blocks of a slot; `filler` is the word that is written to the queue. -/
def slotBlocks (table : PageTable) (layout : ChainLayout) (targets : ChainTargets) (filler : BusAddress)
    (slot : UInt32) : Except ChainError (List ControlBlock) := do
  let index := 2 * slot.toUInt64
  let source ← bus table (layout.sampleOffset slot)
  let pace ← bus table (layout.blockOffset (index + 1))
  let next ← bus table (layout.blockOffset ((index + 2) % layout.blockCount))
  return [
    { info := Dma.copyInfo
      source := source
      destination := if slot = 0 then targets.turnOn else targets.turnOff
      length := 4
      stride := 0
      next := pace
      reserved := (0, 0) },
    { info := Dma.pacedInfo targets.permap
      source := filler
      destination := targets.queue
      length := 4
      stride := 0
      next := next
      reserved := (0, 0) }]

/-- The control blocks of a chain and the address of the first. -/
def plan (table : PageTable) (layout : ChainLayout) (targets : ChainTargets) :
    Except ChainError (List ControlBlock × BusAddress) := do
  let filler ← bus table (layout.sampleOffset 0)
  let blocks ← layout.slots.mapM (slotBlocks table layout targets filler)
  let head ← bus table (layout.blockOffset 0)
  return (blocks.flatten, head)

/-- The words of a control block and where they are written. -/
def blockWrites (base : ArenaOffset) (block : ControlBlock) : List (ArenaOffset × UInt32) :=
  block.words.zipIdx.map fun (word, i) => (base.advance (UInt64.ofNat i * 4), word)

/-- The words of a list of control blocks and where they are written. -/
def writes (layout : ChainLayout) (blocks : List ControlBlock) : List (ArenaOffset × UInt32) :=
  blocks.zipIdx.flatMap fun (block, i) => blockWrites (layout.blockOffset (UInt64.ofNat i)) block

/-- The program that writes a list of control blocks, one block after the other. -/
def writeBlocks (layout : ChainLayout) (blocks : List ControlBlock) : Program Unit :=
  Program.each blocks.zipIdx fun (block, i) =>
    Program.each (blockWrites (layout.blockOffset (UInt64.ofNat i)) block) fun (offset, word) =>
      Program.write offset word

theorem writeBlocks_eq_each_writes (layout : ChainLayout) (blocks : List ControlBlock) :
    writeBlocks layout blocks =
      Program.each (writes layout blocks) fun (offset, word) => Program.write offset word :=
  (Program.each_flatMap blocks.zipIdx _ _).symm

/-- The program that writes a chain into an arena, if the arena can hold it. -/
def build (arena : Arena) (layout : ChainLayout) (targets : ChainTargets) :
    Except ChainError (Program Chain) :=
  if arena.length < layout.lengthBytes then .error (.arenaTooSmall arena.length layout.lengthBytes)
  else do
    let (blocks, head) ← plan arena.table layout targets
    return do
      writeBlocks layout blocks
      Program.log .debug "pwm_engine::descriptor"
        ("built " ++ toString layout.blockCount.toNat ++ " control blocks for " ++ toString layout.nrSamples.toNat
          ++ " samples, head at " ++ head.text)
      return ⟨layout, head⟩

/-- A control block as it stands in an arena. -/
def read (c : Chain) (arena : Arena) (index : UInt64) : Except Fault ControlBlock :=
  (arena.readMany (c.layout.blockOffset index) 8).map ControlBlock.ofWords

/-- The offsets that are met from a bus address on, at most `count` of them: where the address lies in the arena, and
then where the control block that it falls into goes on.  The walk ends at an address outside the arena. -/
def walk (c : Chain) (arena : Arena) (bus : BusAddress) : Nat → Except Fault (List ArenaOffset)
  | 0 => .ok []
  | count + 1 =>
    match arena.table.offsetOf? bus with
    | none => .ok []
    | some offset =>
      match c.read arena (c.layout.blockIndex offset) with
      | .error reason => .error reason
      | .ok block => (c.walk arena block.next count).map (offset :: ·)

/-- The text of the chain in listings. -/
def debug (c : Chain) : String :=
  fields "DescriptorChain" [("layout", c.layout.debug), ("head", c.head.debug)]

end Chain

/-- The program that writes the sample words of a table. -/
def regenerate (layout : ChainLayout) (channels : List Channel) : Program Unit :=
  Program.each layout.slots fun slot => Program.write (layout.sampleOffset slot) (slotMask channels slot)

end PulseWidth
