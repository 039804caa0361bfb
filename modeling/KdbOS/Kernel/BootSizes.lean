import KdbOS.Kernel.Boot
import KdbOS.Klibc.HeapRuns

/-! The sizes that boot computes from the memory sizes of the boot loader: the number of
frames, the bitmap, and the heap. All of it is arithmetic on 32-bit words. -/

set_option autoImplicit false

namespace KdbOS.Kernel

open Library Ds Klibc Pmm Arch

/-- `MultibootInfo`, as far as boot reads it: two words, in KiB. -/
structure MultibootInfo where
  memLower : Nat
  memUpper : Nat
  lowerBounded : memLower < 4294967296
  upperBounded : memUpper < 4294967296

/-- `total_ram_bytes` of `init_memory_management`. -/
def MultibootInfo.totalRamBytes (info : MultibootInfo) : Nat :=
  u32 (u32 (info.memLower + info.memUpper) * 1024)

/-- The sizes that boot leaves are those of the same computation on unbounded integers. -/
structure ExactSizes (info : MultibootInfo) (kernel : KernelMemory) : Prop where
  frames : kernel.frameBitmap.totalBits = min ((info.memLower + info.memUpper) / 4) (2 ^ 20)
  wordsEnough : kernel.frameBitmap.totalBits ≤ 32 * kernel.frameBitmap.words
  wordsNeeded : 32 * kernel.frameBitmap.words < kernel.frameBitmap.totalBits + 32
  nextFreeAddress : kernel.heapStart = 0x00400000 + 4 * kernel.frameBitmap.words
  frameAddresses : ∀ bitIndex < kernel.frameBitmap.totalBits,
    u32 (bitIndex * pmmFrameSize) = bitIndex * 4096
  heapSize : (u32Sub identityMappedCieling kernel.heapStart : Int) = 0x7FFFFF - kernel.heapStart
  heapRoom : headerSize ≤ u32Sub identityMappedCieling kernel.heapStart

variable {sections : KernelSections} {memory : Memory} {info : MultibootInfo}

theorem MultibootInfo.totalRamBytes_lt (info : MultibootInfo) : info.totalRamBytes < 4294967296 :=
  u32_lt _

theorem initMemoryManagement_frameBitmap {totalRamBytes : Nat} (ram : totalRamBytes < 4294967296) :
    (initMemoryManagement sections totalRamBytes memory).frameBitmap =
      initBitmap totalRamBytes bitmapAddr := by
  obtain ⟨_, upper⟩ := bitmapEnd_bounds ram
  have bounded : bitmapEnd totalRamBytes bitmapAddr < 4294967296 := by omega
  have bitmap : (initMemoryManagement sections totalRamBytes memory).frameBitmap =
      (pmmInit totalRamBytes bitmapAddr memory).2.1 := rfl
  rw [bitmap, pmmInit_eq ram bounded]

/-- The number of frames is right as long as the reported memory is below 4 GiB. -/
theorem MultibootInfo.totalFrames_eq_iff (info : MultibootInfo) :
    info.totalRamBytes / 4096 = min ((info.memLower + info.memUpper) / 4) (2 ^ 20) ↔
      info.memLower + info.memUpper < 2 ^ 22 := by
  have lower := info.lowerBounded
  have upper := info.upperBounded
  constructor
  · intro exact_
    have small := info.totalRamBytes_lt
    omega
  · intro small
    have sum : u32 (info.memLower + info.memUpper) = info.memLower + info.memUpper :=
      u32_of_lt (by omega)
    have bytes : info.totalRamBytes = (info.memLower + info.memUpper) * 1024 := by
      rw [totalRamBytes, sum]
      exact u32_of_lt (by omega)
    rw [bytes]
    omega

theorem ExactSizes.below_four_gib
    (sizes : ExactSizes info (initMemoryManagement sections info.totalRamBytes memory)) :
    info.memLower + info.memUpper < 2 ^ 22 := by
  have frames := sizes.frames
  rw [initMemoryManagement_frameBitmap info.totalRamBytes_lt] at frames
  exact info.totalFrames_eq_iff.mp frames

/-- Boot computes the sizes without wrapping around if and only if the boot loader
reports less than 4 GiB. -/
theorem exactSizes_iff (info : MultibootInfo) (sections : KernelSections) (memory : Memory) :
    ExactSizes info (initMemoryManagement sections info.totalRamBytes memory) ↔
      info.memLower + info.memUpper < 2 ^ 22 := by
  have ram := info.totalRamBytes_lt
  obtain ⟨lower, upper⟩ := bitmapEnd_bounds ram
  have bitmap : (initMemoryManagement sections info.totalRamBytes memory).frameBitmap =
      initBitmap info.totalRamBytes bitmapAddr := initMemoryManagement_frameBitmap ram
  have heapStart : (initMemoryManagement sections info.totalRamBytes memory).heapStart =
      bitmapEnd info.totalRamBytes bitmapAddr := initMemoryManagement_heapStart ram
  have bits : (initBitmap info.totalRamBytes bitmapAddr).totalBits = info.totalRamBytes / 4096 := rfl
  have words := (initBitmap info.totalRamBytes bitmapAddr).words_eq
  rw [bits] at words
  constructor
  · exact ExactSizes.below_four_gib
  · intro small
    have below : bitmapEnd info.totalRamBytes bitmapAddr ≤ identityMappedCieling := by
      unfold identityMappedCieling
      omega
    constructor
    · rw [bitmap, bits]
      exact info.totalFrames_eq_iff.mpr small
    · rw [bitmap, bits, words]
      omega
    · rw [bitmap, bits, words]
      omega
    · rw [bitmap, heapStart, words]
      rfl
    · intro bitIndex inside
      rw [bitmap, bits] at inside
      refine u32_of_lt ?_
      unfold pmmFrameSize
      omega
    · rw [heapStart, u32Sub_of_le below, Int.natCast_sub below]
      rfl
    · rw [heapStart, u32Sub_of_le below]
      unfold identityMappedCieling headerSize
      omega

/-- With 4 GiB reported the product is 0, and no frame is managed at all. -/
theorem exactSizes_fails :
    ¬ ∀ (info : MultibootInfo) (sections : KernelSections) (memory : Memory),
      ExactSizes info (initMemoryManagement sections info.totalRamBytes memory) := by
  intro sizes
  have small := (sizes ⟨0, 4194304, by decide, by decide⟩ ⟨1048576, 1052672, 1056768⟩
    fun _ => 0).below_four_gib
  exact absurd small (by decide)

end KdbOS.Kernel
