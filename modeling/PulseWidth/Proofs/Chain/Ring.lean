import PulseWidth.Proofs.Engine.Simulated

/-!
# The chain as the bus sees it

A reader that knows nothing but bus addresses starts at the head of a chain, fetches eight words, each translated on
its own, and goes on at the address that the sixth of them names.  It meets the control blocks of the layout in their
order, each with the transfer that it is for, and after the last one it is back at the head.  No request to the engine
changes that, since requests write sample words only.
-/

namespace PulseWidth

open Simulation (simulate)

/-! ### Reading along the bus -/

namespace Arena

/-- A word of a control block at a bus address, found by the translation of its own address. -/
def fetchWord? (a : Arena) (bus : BusAddress) (word : Nat) : Option UInt32 := do
  let address ← bus.advance? (UInt32.ofNat (4 * word))
  let offset ← a.table.offsetOf? address
  (a.read offset).toOption

/-- The control block at a bus address. -/
def fetch? (a : Arena) (bus : BusAddress) : Option ControlBlock :=
  ((List.range 8).mapM (a.fetchWord? bus)).map ControlBlock.ofWords

/-- The address that is reached from a head after some blocks. -/
def follow? (a : Arena) (head : BusAddress) : Nat → Option BusAddress
  | 0 => some head
  | count + 1 => do
    let bus ← a.follow? head count
    let block ← a.fetch? bus
    return block.next

end Arena

/-! ### What the blocks are for -/

/-- Whether the source's request line paces a transfer. -/
def Dma.sourceRequest : Field := .bit 10

/-- The transfer of the word of a slot to the register that the slot acts on, which waits for nothing. -/
structure ControlBlock.Copies (config : Config) (n : UInt32) (table : PageTable) (slot : UInt32) (b : ControlBlock) :
    Prop where
  source : table.busOf? ((ChainLayout.mk n).sampleOffset slot) = some b.source
  destination : b.destination =
    if slot = 0 then (ChainTargets.of config.invert config.pacer).turnOn
    else (ChainTargets.of config.invert config.pacer).turnOff
  length : b.length = 4
  unpaced : Dma.destinationRequest.isSet b.info = false ∧ Dma.sourceRequest.isSet b.info = false

/-- The transfer to the queue of the pacer, which waits for the pacer's request. -/
structure ControlBlock.Paces (config : Config) (b : ControlBlock) : Prop where
  destination : b.destination = config.pacer.queue
  length : b.length = 4
  paced : Dma.destinationRequest.isSet b.info = true
  permap : Dma.permap.read b.info = config.pacer.permap.code.toUInt32

/-- The addresses that a reader meets along a chain, and what it finds there. -/
structure Chain.Ring (config : Config) (n : UInt32) (c : Chain) (a : Arena) (address : Nat → BusAddress) : Prop where
  follows : ∀ k ≤ 2 * n.toNat, a.follow? c.head k = some (address k)
  starts : address 0 = c.head
  closes : address (2 * n.toNat) = c.head
  aligned : ∀ k, (address k).value.toNat % 32 = 0
  distinct : ∀ j k, j < 2 * n.toNat → k < 2 * n.toNat → address j = address k → j = k
  place : ∀ k < 2 * n.toNat, a.table.busOf? (c.layout.blockOffset (UInt64.ofNat k)) = some (address k)
  block : ∀ k < 2 * n.toNat, ∃ b, a.fetch? (address k) = some b ∧ c.read a (UInt64.ofNat k) = .ok b ∧
    b.next = address (k + 1) ∧ (k % 2 = 0 → b.Copies config n a.table (UInt32.ofNat (k / 2))) ∧
    (k % 2 = 1 → b.Paces config)

/-! ### Fetching a block -/

private theorem mapM_range_eq_some {α : Type} {f : Nat → Option α} {xs : List α}
    (h : ∀ i x, xs[i]? = some x → f i = some x) : (List.range xs.length).mapM f = some xs := by
  induction xs generalizing f with
  | nil => rfl
  | cons x rest ih =>
    have hrest : (List.range rest.length).mapM (f ∘ Nat.succ) = some rest :=
      ih fun i y hy => h (i + 1) y (by rwa [List.getElem?_cons_succ])
    rw [List.length_cons, List.range_succ_eq_map, List.mapM_cons, List.mapM_map, h 0 x rfl, hrest]
    rfl

section Fetch

variable {a : Arena} {l : ChainLayout} {targets : ChainTargets} {blocks : List ControlBlock} {bus : BusAddress}

/-- A block lies in one page, so its words are found by their own addresses. -/
theorem Arena.fetch?_eq_some (hseparate : a.table.Separate) (hfits : a.Fits l)
    (hlength : blocks.length = 2 * l.nrSamples.toNat) (hholds : a.Holds l blocks) {k : Nat} {block : ControlBlock}
    (hblock : blocks[k]? = some block) (hbus : a.table.busOf? (l.blockOffset (UInt64.ofNat k)) = some bus) :
    a.fetch? bus = some block := by
  have hk : k < 2 * l.nrSamples.toNat := by
    obtain ⟨hk, -⟩ := List.getElem?_eq_some_iff.1 hblock
    omega
  have hwords : (List.range block.words.length).mapM (a.fetchWord? bus) = some block.words := by
    apply mapM_range_eq_some
    intro word value hvalue
    have hword : word < 8 := by
      obtain ⟨hw, -⟩ := List.getElem?_eq_some_iff.1 hvalue
      rwa [block.length_words] at hw
    -- 32 bytes at a multiple of 32 do not straddle two pages
    have hpage : (l.blockOffset (UInt64.ofNat k)).value.toNat % 4096 + 4 * word < 4096 := by
      rw [ChainLayout.toNat_blockOffset_ofNat (Nat.le_of_lt hk), l.toNat_blocksOffset]
      omega
    obtain ⟨address, hadvance, hoffset⟩ := hseparate.offsetOf?_advance hbus hpage
    have hsame : (l.blockOffset (UInt64.ofNat k)).advance (UInt64.ofNat (4 * word)) = l.wordOffset k word := by
      have hfour : UInt64.ofNat (4 * word) = UInt64.ofNat word * 4 := by
        rw [Nat.mul_comm, UInt64.ofNat_mul]
        rfl
      rw [ChainLayout.wordOffset, hfour]
    have hread : a.read (l.wordOffset k word) = .ok value := by
      rw [hfits.read_eq_ok_iff (ChainLayout.word_aligned hk hword) (ChainLayout.word_end hk hword),
        ← Arena.toNat_position]
      exact hholds k block word value hblock hvalue
    rw [hsame] at hoffset
    simp only [fetchWord?, hadvance, hoffset, hread, Option.bind_eq_bind, Option.bind_some]
    rfl
  rw [block.length_words] at hwords
  rw [fetch?, hwords]
  rfl

end Fetch

/-! ### Going round -/

section Ring

variable {config : Config} {n : UInt32} {table : PageTable} {blocks : List ControlBlock} {head : BusAddress}

/-- The address of the block that is met after `k` blocks, for any `k`. -/
private def blockAddress (table : PageTable) (n : UInt32) (k : Nat) : BusAddress :=
  (table.busOf? ((ChainLayout.mk n).blockOffset (UInt64.ofNat (k % (2 * n.toNat))))).getD ⟨0⟩

private theorem busOf?_block (hcovers : table.Covers ⟨n⟩) (hn : 0 < n.toNat) (k : Nat) :
    table.busOf? ((ChainLayout.mk n).blockOffset (UInt64.ofNat (k % (2 * n.toNat)))) =
      some (blockAddress table n k) := by
  have huses := ChainLayout.uses_block (l := ⟨n⟩) (Nat.mod_lt k (by show 0 < 2 * n.toNat; omega))
  obtain ⟨address, haddress⟩ := hcovers.uses huses
  change table.busOf? ((ChainLayout.mk n).blockOffset (UInt64.ofNat (k % (2 * n.toNat)))) = some address at haddress
  rw [blockAddress, haddress]
  rfl

/-- The blocks of a plan, by their position: the one for a slot and the one that waits alternate, and each goes on at
the next. -/
theorem Chain.Planned.block (h : Chain.Planned table ⟨n⟩ (.of config.invert config.pacer) blocks head) {k : Nat}
    (hk : k < 2 * n.toNat) :
    ∃ b, blocks[k]? = some b ∧ b.next = blockAddress table n (k + 1) ∧
      (k % 2 = 0 → b.Copies config n table (UInt32.ofNat (k / 2))) ∧ (k % 2 = 1 → b.Paces config) := by
  obtain ⟨b, hblock, hb⟩ := h.serves hk
  refine ⟨b, hblock, ?_, ?_, ?_⟩
  · have hnext := hb.next_eq
    change table.busOf? ((ChainLayout.mk n).blockOffset (UInt64.ofNat ((k + 1) % (2 * n.toNat)))) = _ at hnext
    rw [blockAddress, hnext]
    rfl
  · intro heven
    obtain ⟨hsource, hdestination, hinfo⟩ := hb.copies heven
    refine ⟨hsource, ?_, hb.length_eq, ?_⟩
    · simp only [hdestination, ChainLayout.slot_eq_zero_iff (l := ⟨n⟩) hk heven]
    · rw [hinfo]
      decide
  · intro hodd
    obtain ⟨-, hdestination, hinfo⟩ := hb.paces hodd
    have hfields : ∀ pacer : Pacer,
        let info : UInt32 := 0x04000048 ||| (pacer.permap.code.toUInt32 &&& 0x1F) <<< (16 : UInt32)
        Dma.destinationRequest.isSet info = true ∧ Dma.permap.read info = pacer.permap.code.toUInt32 := by
      intro pacer
      cases pacer <;> decide
    have hpaced := hfields config.pacer
    exact ⟨hdestination, hb.length_eq, hinfo ▸ hpaced.1, hinfo ▸ hpaced.2⟩

/-- An arena that holds the blocks of a plan lets a reader go round. -/
theorem Chain.ring_of_holds {c : Chain} {a : Arena} (hlayout : c.layout = ⟨n⟩) (hn : 0 < n)
    (hseparate : a.table.Separate) (hcovers : a.table.Covers ⟨n⟩) (hfits : a.Fits ⟨n⟩)
    (hplanned : Chain.Planned a.table ⟨n⟩ (.of config.invert config.pacer) blocks c.head)
    (hholds : a.Holds ⟨n⟩ blocks) : ∃ address, c.Ring config n a address := by
  have hpos : 0 < n.toNat := UInt32.lt_iff_toNat_lt.1 hn
  have hsize := n.toNat_lt
  have hbus := busOf?_block hcovers hpos
  have hplace : ∀ k < 2 * n.toNat,
      a.table.busOf? ((ChainLayout.mk n).blockOffset (UInt64.ofNat k)) = some (blockAddress a.table n k) := by
    intro k hk
    have hk' := hbus k
    rwa [Nat.mod_eq_of_lt hk] at hk'
  have hhead : blockAddress a.table n 0 = c.head := by
    have hfirst := hplace 0 (by omega)
    rw [show UInt64.ofNat 0 = 0 from rfl, hplanned.head_eq] at hfirst
    exact (Option.some.inj hfirst).symm
  have hblock : ∀ k < 2 * n.toNat, ∃ b, a.fetch? (blockAddress a.table n k) = some b ∧
      c.read a (UInt64.ofNat k) = .ok b ∧ b.next = blockAddress a.table n (k + 1) ∧
      (k % 2 = 0 → b.Copies config n a.table (UInt32.ofNat (k / 2))) ∧ (k % 2 = 1 → b.Paces config) := by
    intro k hk
    obtain ⟨b, hb, hrest⟩ := hplanned.block hk
    refine ⟨b, ?_, ?_, hrest⟩
    · exact Arena.fetch?_eq_some hseparate hfits hplanned.length_eq hholds hb (hplace k hk)
    · exact Chain.read_eq_ok hlayout hfits hplanned.length_eq hholds hb
  refine ⟨blockAddress a.table n, ?_⟩
  exact
    { follows := by
        intro k
        induction k with
        | zero => exact fun _ => congrArg some hhead.symm
        | succ k ih =>
          intro hk
          obtain ⟨b, hfetch, -, hnext, -⟩ := hblock k (by omega)
          rw [Arena.follow?, ih (by omega)]
          simp only [Option.bind_eq_bind, Option.bind_some, hfetch]
          exact congrArg some hnext
      starts := hhead
      closes := by
        rw [← hhead, blockAddress, blockAddress, Nat.mod_self, Nat.zero_mod]
      aligned := by
        intro k
        have hlt := Nat.mod_lt k (show 0 < 2 * n.toNat by omega)
        have hi := PageTable.lt_size_of_busOf? (hbus k)
        obtain ⟨found, hfound, hvalue⟩ := hseparate.busOf?_eq_some hi
        rw [hbus k] at hfound
        cases hfound
        have haligned := hseparate.aligned _ hi
        have hoffset := ChainLayout.toNat_blockOffset_ofNat (l := ⟨n⟩) (Nat.le_of_lt hlt)
        rw [ChainLayout.toNat_blocksOffset] at hoffset
        omega
      distinct := by
        intro j k hj hk heq
        have hsame := hseparate.busOf?_inj (hplace j hj) (heq ▸ hplace k hk)
        have hoffset := congrArg (fun o => o.value.toNat) hsame
        simp only [ChainLayout.toNat_blockOffset_ofNat (l := ⟨n⟩) (Nat.le_of_lt hj),
          ChainLayout.toNat_blockOffset_ofNat (l := ⟨n⟩) (Nat.le_of_lt hk)] at hoffset
        omega
      place := by
        rw [hlayout]
        exact hplace
      block := hblock }

end Ring

/-- For every configuration that is accepted and every sequence of requests to its simulated engine, a reader that
follows the bus addresses from the head of the chain goes round the control blocks of the layout. -/
theorem ring_of_simulated {config : Config} {n : UInt32} (valid : config.validate = .ok n) :
    ∃ e b, simulate config = .ok (e, b) ∧ ∀ requests : List Request,
      let r := (Rig.mk e b).handleAll requests
      ∃ address, r.engine.chain.Ring config n r.machine.arena address := by
  obtain ⟨e, b, s, s', hsimulate, hassembled, harena, hseparate, hcovers⟩ := simulate_eq_ok valid
  have hsettled : (Rig.mk e b).Settled config n s.levels := ⟨s', harena, hassembled.settled⟩
  refine ⟨e, b, hsimulate, ?_⟩
  intro requests r
  obtain ⟨⟨s'', harena'', hs''⟩, hchain, hsame⟩ := hsettled.handleAll requests
  obtain ⟨blocks, hplanned, hholds⟩ := hassembled.holds
  change Arena.SameBeyond n.toNat b.arena r.machine.arena at hsame
  change r.machine.arena = s''.arena at harena''
  have htable : r.machine.arena.table = s.arena.table := by
    rw [hsame.table_eq, harena, hassembled.table_eq]
  apply Chain.ring_of_holds hs''.layout_eq (config.bounds_of_validate valid).1
  · rwa [htable]
  · rwa [htable]
  · rw [harena'']
    exact hs''.fits
  · rw [htable, show r.engine.chain = e.chain from hchain]
    exact hplanned
  · rw [← harena] at hholds
    exact Chain.holds_of_sameBeyond hplanned.length_eq hholds hsame

theorem ring_of_standard : Config.standard.validate = .ok 1000 ∧ ∃ e b, simulate Config.standard = .ok (e, b) ∧
    ∃ address, e.chain.Ring Config.standard 1000 b.arena address := by
  have valid : Config.standard.validate = .ok 1000 := rfl
  obtain ⟨e, b, hsimulate, hring⟩ := ring_of_simulated valid
  exact ⟨valid, e, b, hsimulate, hring []⟩

end PulseWidth
