import PulseWidth.Chain.Layout
import PulseWidth.Proofs.Word

/-!
# The layout in numbers

No offset of a layout wraps around, whatever the number of samples: the sample words end in front of the first
control block, which starts at the next multiple of 32.
-/

namespace PulseWidth

namespace ChainLayout

variable (l : ChainLayout)

@[simp] theorem toNat_sampleOffset (slot : UInt32) : (l.sampleOffset slot).value.toNat = 4 * slot.toNat := by
  have h := slot.toNat_lt
  show (slot.toUInt64 * 4).toNat = _
  rw [UInt64.toNat_mul, UInt32.toNat_toUInt64]
  simp
  omega

@[simp] theorem toNat_blocksOffset : l.blocksOffset.value.toNat = (4 * l.nrSamples.toNat + 31) / 32 * 32 := by
  have h := l.nrSamples.toNat_lt
  have hsamples : (l.nrSamples.toUInt64 * 4).toNat = 4 * l.nrSamples.toNat := l.toNat_sampleOffset l.nrSamples
  have hup := toNat_alignUp ⟨l.nrSamples.toUInt64 * 4⟩ (by
    show (l.nrSamples.toUInt64 * 4).toNat + 32 ≤ UInt64.size
    rw [UInt64.size, hsamples]
    omega)
  change l.blocksOffset.value.toNat = ((l.nrSamples.toUInt64 * 4).toNat + 31) / 32 * 32 at hup
  rw [hup, hsamples]

theorem toNat_blockOffset {index : UInt64} (h : index.toNat ≤ 2 * UInt32.size) :
    (l.blockOffset index).value.toNat = l.blocksOffset.value.toNat + 32 * index.toNat := by
  have hn := l.nrSamples.toNat_lt
  rw [UInt32.size] at h
  show (l.blocksOffset.value + index * 32).toNat = _
  rw [UInt64.toNat_add, UInt64.toNat_mul, toNat_blocksOffset]
  simp
  omega

@[simp] theorem toNat_blockCount : l.blockCount.toNat = 2 * l.nrSamples.toNat := by
  have h := l.nrSamples.toNat_lt
  show (2 * l.nrSamples.toUInt64).toNat = _
  rw [UInt64.toNat_mul, UInt32.toNat_toUInt64]
  simp
  omega

theorem toNat_lengthBytes : l.lengthBytes.toNat = l.blocksOffset.value.toNat + 64 * l.nrSamples.toNat := by
  have h := l.nrSamples.toNat_lt
  rw [lengthBytes, toNat_blockOffset, toNat_blockCount]
  · omega
  · rw [toNat_blockCount, UInt32.size]
    omega

theorem lengthBytes_bound : l.lengthBytes.toNat + 4 ≤ UInt64.size := by
  have h := l.nrSamples.toNat_lt
  rw [toNat_lengthBytes, toNat_blocksOffset, UInt64.size]
  omega

/-! ### Slots -/

theorem mem_slots {slot : UInt32} : slot ∈ l.slots ↔ slot < l.nrSamples := by
  simp only [slots, List.mem_map, List.mem_range, UInt32.lt_iff_toNat_lt]
  constructor
  · rintro ⟨i, hi, rfl⟩
    have hn := l.nrSamples.toNat_lt
    have hsize : i < UInt32.size := by
      rw [UInt32.size]
      omega
    rwa [UInt32.toNat_ofNat_of_lt' hsize]
  · intro h
    exact ⟨slot.toNat, h, by simp⟩

@[simp] theorem length_slots : l.slots.length = l.nrSamples.toNat := by simp [slots]

theorem getElem_slots {i : Nat} (h : i < l.slots.length) : l.slots[i] = UInt32.ofNat i := by simp [slots]

end ChainLayout

end PulseWidth
