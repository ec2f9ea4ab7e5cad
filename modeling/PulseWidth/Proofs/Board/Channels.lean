import PulseWidth.Proofs.Board.BringUp
import PulseWidth.Proofs.Safety.Numbers

/-!
# Windows of channels

An engine maps the registers of its own channel and not those of the whole block.  A window gives access to the bytes
that were asked for, wherever in a page they start.  So the windows of two channels reach different bytes, and what is
stored in the registers of one channel is not loaded from those of another.
-/

namespace PulseWidth

/-! ### Accesses -/

namespace MappedWindow

variable {w : MappedWindow} {base : PhysicalAddress} {length : UInt64}

/-- Loads and stores through the window are those of the words behind the address. -/
def Accesses (w : MappedWindow) (base : PhysicalAddress) : Prop :=
  ∀ (g : Host) (offset : UInt64), w.Holds offset →
    g.load w offset = .ok (g.memory.word (base.advance offset)) ∧
      ∀ value, ∃ g', g.store w offset value = (.ok (), g') ∧
        g'.memory = g.memory.putWord (base.advance offset) value

theorem Spans.accesses (h : w.Spans base length) : w.Accesses base := by
  intro g offset hoffset
  rw [← h.address_eq hoffset]
  exact ⟨g.load_of_holds hoffset, g.store_of_holds hoffset⟩

end MappedWindow

/-! ### The registers of a channel -/

namespace Platform

variable {p : Platform} {channel other : UInt8} {a : UInt64}

/-- Where the registers of a channel are. -/
def channelBase (p : Platform) (channel : UInt8) : PhysicalAddress :=
  (p.blockBase .dma).advance (Dma.channelOffset channel)

/-- The window of a channel's registers. -/
def channelWindow (p : Platform) (channel : UInt8) : MappedWindow :=
  .ofRun Block.dma.name (p.channelBase channel) Dma.channelStride

/-- The pages of a channel's registers can be counted. -/
theorem channelBase_room (p : Platform) (channel : UInt8) :
    (p.channelBase channel).value.toNat % 4096 + Dma.channelStride.toNat + 4095 < UInt64.size := by
  have hstride : Dma.channelStride.toNat = 0x100 := rfl
  rw [hstride, UInt64.size]
  omega

theorem channelWindow_spans : (p.channelWindow channel).Spans (p.channelBase channel) Dma.channelStride :=
  MappedWindow.spans_ofRun (p.channelBase_room channel)

/-- On a known platform the registers of every channel can be mapped. -/
theorem plan_channelWindow (known : p ∈ all) (channel : UInt8) :
    MappedWindow.plan Block.dma.name (p.channelBase channel) Dma.channelStride = .ok (p.channelWindow channel) := by
  have hchannel := channel.toNat_lt
  have hoffset : (Dma.channelOffset channel).toNat ≤ 0xFFFF := by
    rw [Config.toNat_channelOffset]
    omega
  exact MappedWindow.plan_eq_ok _ (block_lt known .dma hoffset) (by decide) (p.channelBase_room channel)

/-- The address is one of the 256 bytes of the channel. -/
def OwnedBy (p : Platform) (channel : UInt8) (a : UInt64) : Prop :=
  (p.channelBase channel).value.toNat ≤ a.toNat ∧ a.toNat < (p.channelBase channel).value.toNat + 0x100

theorem mem_reach_channelWindow (hlow : (p.channelBase channel).value.toNat < 1 <<< 63) :
    a ∈ (p.channelWindow channel).reach ↔ p.OwnedBy channel a := by
  have hstride : Dma.channelStride.toNat = 0x100 := rfl
  refine channelWindow_spans.mem_reach_iff (by rw [hstride]) ?_
  rw [hstride, UInt64.size]
  omega

/-- A byte belongs to one channel at most. -/
theorem OwnedBy.not_of_ne (h : p.OwnedBy channel a) (hne : channel ≠ other) : ¬p.OwnedBy other a := by
  have hbase : ∀ c : UInt8, (p.channelBase c).value.toNat =
      ((p.blockBase .dma).value.toNat + 256 * c.toNat) % 18446744073709551616 := by
    intro c
    show ((p.blockBase .dma).value + Dma.channelOffset c).toNat = _
    rw [UInt64.toNat_add, Config.toNat_channelOffset]
  have hnumber : channel.toNat ≠ other.toNat := fun heq => hne (UInt8.toNat_inj.1 heq)
  have hchannel := channel.toNat_lt
  have hother := other.toNat_lt
  intro hboth
  unfold OwnedBy at h hboth
  -- sums that wrap around still differ by a multiple of the stride
  rw [hbase] at h hboth
  omega

end Platform

/-! ### Windows of engines -/

namespace Host

variable {h h' : Host} {config : Config} {windows : Roles MappedWindow}

theorem dma_of_mapWindows (hmap : h.mapWindows config = (.ok windows, h')) :
    windows.dma = config.platform.channelWindow config.dmaChannel ∧
      (config.platform.channelBase config.dmaChannel).value.toNat < 1 <<< 63 := by
  unfold mapWindows at hmap
  obtain ⟨dma, h₁, hdma, hmap⟩ := withWindow_eq_ok hmap
  obtain ⟨clock, h₂, -, hmap⟩ := withWindow_eq_ok hmap
  obtain ⟨pacer, h₃, -, hmap⟩ := withWindow_eq_ok hmap
  obtain ⟨gpio, h₄, -, hmap⟩ := withWindow_eq_ok hmap
  cases hmap
  exact MappedWindow.of_plan_eq_ok (plan_of_mapBlock hdma)

theorem mem_reach_of_mapWindows (hmap : h.mapWindows config = (.ok windows, h')) (a : UInt64) :
    a ∈ windows.dma.reach ↔ config.platform.OwnedBy config.dmaChannel a := by
  obtain ⟨hdma, hlow⟩ := dma_of_mapWindows hmap
  rw [hdma]
  exact Platform.mem_reach_channelWindow hlow

end Host

/-- If the bytes up to the end of the last page can be counted, a window is made of whole pages, has each of its words
inside of them and where its offset says, and accesses these words of the memory; whether it is mapped is up to the
host.  The windows of all channels of the known platforms are of this kind.  On a board of any platform, the window of
an engine's channel reaches just the bytes of the channel.  So the windows of two channels reach no common byte, and
what is stored through the one is not loaded through the other. -/
theorem reach_of_windows :
    (∀ (h : Host) (block : String) (base : PhysicalAddress) (length : UInt64),
      base.value.toNat < 1 <<< 63 → 0 < length.toNat →
      base.value.toNat % 4096 + length.toNat + 4095 < UInt64.size →
      ∃ w : MappedWindow, w.Spans base length ∧ w.Accesses base ∧
        match h.refuses h.history (.mapDevice block) with
        | some reason => ∃ h', h.mapWindow block base length = (.error (.refused block base reason), h')
        | none => ∃ h', h.mapWindow block base length = (.ok w, h') ∧ h'.memory = h.memory) ∧
    (∀ p ∈ Platform.all, ∀ channel,
      MappedWindow.plan Block.dma.name (p.channelBase channel) Dma.channelStride = .ok (p.channelWindow channel)) ∧
    ∀ config other : Config, config.platform = other.platform → config.dmaChannel ≠ other.dmaChannel →
      ∀ (h h₁ h' h₁' : Host) (windows windows' : Roles MappedWindow),
        h.mapWindows config = (.ok windows, h₁) → h'.mapWindows other = (.ok windows', h₁') →
        windows.dma = config.platform.channelWindow config.dmaChannel ∧
        (∀ a, a ∈ windows.dma.reach ↔ config.platform.OwnedBy config.dmaChannel a) ∧
        Disjoint windows.dma.reach windows'.dma.reach ∧
        ∀ (g : Host) (offset offset' : UInt64), windows.dma.Holds offset → windows'.dma.Holds offset' → ∀ value,
          (g.store windows.dma offset value).2.load windows'.dma offset' = g.load windows'.dma offset' := by
  refine ⟨?_, fun p known => Platform.plan_channelWindow known, ?_⟩
  · intro h block base length hbase hlength hroom
    have hspans : (MappedWindow.ofRun block base length).Spans base length := MappedWindow.spans_ofRun hroom
    have hplan := MappedWindow.plan_eq_ok block hbase hlength hroom
    exact ⟨_, hspans, hspans.accesses, h.mapWindow_of_planned hplan⟩
  · intro config other hplatform hne h h₁ h' h₁' windows windows' hmap hmap'
    have hreach := Host.mem_reach_of_mapWindows hmap
    have hdisjoint : Disjoint windows.dma.reach windows'.dma.reach := by
      refine Set.disjoint_left.2 fun a ha ha' => ?_
      have howned := (hreach a).1 ha
      have howned' := (Host.mem_reach_of_mapWindows hmap' a).1 ha'
      rw [← hplatform] at howned'
      exact howned.not_of_ne hne howned'
    exact ⟨(Host.dma_of_mapWindows hmap).1, hreach, hdisjoint, fun g offset offset' hoffset hoffset' value =>
      g.load_store_of_disjoint hdisjoint hoffset hoffset' value⟩

/-- The small configuration on the channel before its own. -/
def Config.neighbour : Config := { Config.small with dmaChannel := 13 }

/-- A window of two words on two pages, and the windows of two engines on neighbouring channels. -/
theorem reach_of_neighbours :
    let host := Host.small fun _ _ => none
    (∃ w h', host.mapWindow "pwm" ⟨0x3F200FFC⟩ 8 = (.ok w, h') ∧ w.regionLength.toNat = 8192 ∧
      (w.place 4).toNat + 4 ≤ w.regionLength.toNat ∧ host.load w 4 = .ok (host.memory.word ⟨0x3F201000⟩)) ∧
    Config.small.dmaChannel ≠ Config.neighbour.dmaChannel ∧
    ∃ windows windows' h₁ h₁', host.mapWindows Config.small = (.ok windows, h₁) ∧
      host.mapWindows Config.neighbour = (.ok windows', h₁') ∧ Disjoint windows.dma.reach windows'.dma.reach := by
  intro host
  obtain ⟨hwindow, -, hchannels⟩ := reach_of_windows
  have hne : Config.small.dmaChannel ≠ Config.neighbour.dmaChannel := by decide
  refine ⟨?_, hne, ?_⟩
  · obtain ⟨w, hspans, haccesses, hmap⟩ := hwindow host "pwm" ⟨0x3F200FFC⟩ 8 (by decide) (by decide) (by decide)
    obtain ⟨h', hmap, -⟩ : ∃ h', host.mapWindow "pwm" ⟨0x3F200FFC⟩ 8 = (.ok w, h') ∧ h'.memory = host.memory := hmap
    have hoffset : w.Holds 4 := by
      rw [MappedWindow.Holds, hspans.length_eq]
      decide
    have hlength : w.regionLength.toNat = 8192 := by
      cases hmap
      rfl
    exact ⟨w, h', hmap, hlength, hspans.inside 4 hoffset, (haccesses host 4 hoffset).1⟩
  · obtain ⟨windows, h₁, hmap⟩ : ∃ windows h₁, host.mapWindows Config.small = (.ok windows, h₁) := ⟨_, _, rfl⟩
    obtain ⟨windows', h₁', hmap'⟩ : ∃ windows' h₁', host.mapWindows Config.neighbour = (.ok windows', h₁') :=
      ⟨_, _, rfl⟩
    have houtcome := hchannels Config.small Config.neighbour rfl hne host h₁ host h₁' windows windows' hmap hmap'
    exact ⟨windows, windows', h₁, h₁', hmap, hmap', houtcome.2.2.1⟩

end PulseWidth
