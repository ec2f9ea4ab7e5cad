import PulseWidth.Board.LockedArena
import PulseWidth.Board.Registers
import PulseWidth.Engine.Basic

/-!
# Bringing a board up

An engine on a board needs the windows of four blocks and a locked arena.  They are made in a fixed order; the first
refusal ends the attempt, and all that was made before is given back.
-/

namespace PulseWidth

/-- A board with the windows and the arena of an engine. -/
structure Board where
  host : Host
  windows : Roles MappedWindow
  arena : Arena

namespace Board

/-- Loads a word from the window with a role. -/
def load (b : Board) (role : Role) (offset : UInt64) : Except Fault UInt32 :=
  b.host.load (b.windows.get role) offset

/-- Carries an action out; a pause takes time and nothing else. -/
def perform : Board → Action → Except Fault Unit × Board
  | ⟨host, windows, arena⟩, .store role offset value =>
    let (answer, host) := host.store (windows.get role) offset value
    (answer, ⟨host, windows, arena⟩)
  | b, .pause _ => (.ok (), b)
  | ⟨host, windows, arena⟩, .write offset value =>
    match arena.refusal? offset with
    | some reason => (.error reason, ⟨host, windows, arena⟩)
    | none => (.ok (), ⟨host, windows, arena.put offset value⟩)
  | ⟨host, windows, arena⟩, .log record =>
    (.ok (), ⟨host.log record.level record.target record.message, windows, arena⟩)
  | ⟨host, windows, arena⟩, .print line =>
    (.ok (), ⟨{ host with printed := host.printed.push line }, windows, arena⟩)

instance : Machine Board where
  load role offset b := (b.load role offset, b)
  perform action b := b.perform action
  arena := Board.arena

/-- Gives the arena and then the windows back. -/
def release (b : Board) : Host := b.host.releaseArena.unmapAll b.windows.toList

end Board

namespace Host

/-- Goes on with a window that has been mapped; if it was refused, those mapped before it are unmapped. -/
def withWindow (mapped : Except MapError MappedWindow × Host) (before : List MappedWindow)
    (next : MappedWindow → Host → Except MapError (Roles MappedWindow) × Host) :
    Except MapError (Roles MappedWindow) × Host :=
  match mapped with
  | (.error reason, h) => (.error reason, h.unmapAll before)
  | (.ok window, h) => next window h

/-- Maps the windows of an engine; those mapped before a refusal are unmapped, the last one first. -/
def mapWindows (h : Host) (config : Config) : Except MapError (Roles MappedWindow) × Host :=
  let map (h : Host) := h.mapBlock config.platform
  withWindow (map h .dma (Dma.channelOffset config.dmaChannel) Dma.channelStride) [] fun dma h =>
    withWindow (map h .clock 0 Block.length) [dma] fun clock h =>
      withWindow (map h config.pacer.block 0 Block.length) [clock, dma] fun pacer h =>
        withWindow (map h .gpio 0 Block.length) [pacer, clock, dma] fun gpio h =>
          (.ok ⟨dma, clock, pacer, gpio⟩, h)

/-- Makes an arena for a chain over the host's page records. -/
def makeArena (h : Host) (config : Config) (nrSamples : UInt32) : Except InitError Arena × Host :=
  match h.openPagemap with
  | (.error reason, h) => (.error (.resolve reason), h)
  | (.ok pagemap, h) =>
    match h.allocateArena (ChainLayout.mk nrSamples).pages pagemap.resolver config.platform.dramAlias with
    | (.error reason, h) => (.error (.arena reason), h)
    | (.ok arena, h) => (.ok arena, h)

/-- Makes what an engine needs on a board. -/
def makeBoard (h : Host) (config : Config) (nrSamples : UInt32) : Except (InitError × Host) Board :=
  match h.openDevice with
  | (.error reason, h) => .error (.map reason, h)
  | (.ok (), h) =>
    match h.mapWindows config with
    | (.error reason, h) => .error (.map reason, h)
    | (.ok windows, h) =>
      match h.makeArena config nrSamples with
      | (.error reason, h) => .error (reason, h.unmapAll windows.toList)
      | (.ok arena, h) => .ok ⟨h, windows, arena⟩

/-- What is logged when a board is brought up. -/
def announcement (config : Config) : Record :=
  ⟨.info, "pwm_engine::engine",
    "initializing " ++ toString config.pins.length ++ " channel(s) on " ++ config.platform.name ++ ", "
      ++ config.pacer.text ++ " pacing, DMA channel " ++ toString config.dmaChannel.toNat⟩

/-- Starts an engine on a board; whatever the outcome, the host is left as the attempt has made it. -/
def bringUp (h : Host) (config : Config) : Except (StartError × Host) (Engine × Board) :=
  let h := h.logAll config.remarks
  match config.validate with
  | .error reason => .error (.init (.config reason), h)
  | .ok nrSamples =>
    match (h.logAll [announcement config]).makeBoard config nrSamples with
    | .error (reason, h) => .error (.init reason, h)
    | .ok board =>
      match (Engine.assemble config board.arena).run board with
      | (.ok (.ok engine), board) => .ok (engine, board)
      | (.ok (.error reason), board) => .error (.init reason, board.release)
      | (.error reason, board) => .error (.fault reason, board.release)

end Host

end PulseWidth
