import KdbOS.Ds.Bitmap

/-! `pmm.c`: the physical frame allocator. Its bitmap is stored at an address that
the caller chooses, in the memory whose frames it hands out. -/

set_option autoImplicit false

namespace KdbOS.Pmm

open Library Ds

def pmmFrameSize : Nat := 4096

/-- Returns `next_free_address` with the frame bitmap. -/
def pmmInit (totalRamBytes bitmapStartAddr : Nat) (memory : Memory) : Nat × Bitmap × Memory :=
  let totalFrames := totalRamBytes / pmmFrameSize
  let frameBitmap : Bitmap := ⟨bitmapStartAddr, totalFrames⟩
  let bitmapSizeUint32s :=
    if totalFrames % 32 ≠ 0 then totalFrames / 32 + 1 else totalFrames / 32
  let totalBitmapBytes := u32 (bitmapSizeUint32s * 4)
  let memory := bitmapClearAll frameBitmap memory
  let nextFreeAddress := u32 (bitmapStartAddr + totalBitmapBytes)
  let framesToReserve := nextFreeAddress / pmmFrameSize
  let memory :=
    (List.range framesToReserve).foldl (fun memory frame => bitmapSet frameBitmap frame memory) memory
  (nextFreeAddress, frameBitmap, memory)

def pmmAllocateFrame (frameBitmap : Bitmap) (memory : Memory) : Nat × Memory :=
  match (List.range frameBitmap.totalBits).find?
      (fun bitIndex => !bitmapTest frameBitmap bitIndex memory) with
  | some bitIndex => (u32 (bitIndex * pmmFrameSize), bitmapSet frameBitmap bitIndex memory)
  | none => (0, memory)

def pmmFreeFrame (frameBitmap : Bitmap) (framePhysicalAddr : Nat) (memory : Memory) : Memory :=
  bitmapClear frameBitmap (framePhysicalAddr / pmmFrameSize) memory

/-! ## What the calls do to the set of used frames -/

variable {b : Bitmap} {memory : Memory}

/-- The first clear bit is found and set, or every bit is set. -/
theorem pmmAllocateFrame_cases (b : Bitmap) (memory : Memory) :
    (pmmAllocateFrame b memory = (0, memory) ∧
      ∀ frame < b.totalBits, bitmapTest b frame memory = true) ∨
    ∃ frame < b.totalBits, bitmapTest b frame memory = false ∧
      (∀ lower < frame, bitmapTest b lower memory = true) ∧
      pmmAllocateFrame b memory = (u32 (frame * pmmFrameSize), bitmapSet b frame memory) := by
  unfold pmmAllocateFrame
  cases found : (List.range b.totalBits).find?
      (fun bitIndex => !bitmapTest b bitIndex memory) with
  | none =>
      refine .inl ⟨rfl, fun frame inside => ?_⟩
      have set := List.find?_range_eq_none.mp found frame inside
      simpa using set
  | some frame =>
      obtain ⟨clear, inside, lower⟩ := List.find?_range_eq_some.mp found
      refine .inr ⟨frame, List.mem_range.mp inside, by simpa using clear, ?_, rfl⟩
      intro below less
      simpa using lower below less

private theorem bitmapTest_reserve (fits : b.Fits) (count frame : Nat) :
    bitmapTest b frame ((List.range count).foldl (fun memory frame => bitmapSet b frame memory)
        memory) =
      (bitmapTest b frame memory || decide (frame < count ∧ frame < b.totalBits)) := by
  induction count with
  | zero => simp
  | succ count ih =>
      rw [List.range_succ, List.foldl_append, List.foldl_cons, List.foldl_nil]
      by_cases inside : count < b.totalBits
      · rw [bitmapTest_set fits inside, ih, Bool.or_assoc, ← Bool.decide_or]
        congr 1
        exact decide_eq_decide.mpr (by omega)
      · rw [bitmapSet_of_le (Nat.not_lt.mp inside), ih]
        congr 1
        exact decide_eq_decide.mpr (by omega)

/-- The bitmap that `pmm_init` sets up. -/
def initBitmap (totalRamBytes bitmapStartAddr : Nat) : Bitmap :=
  ⟨bitmapStartAddr, totalRamBytes / 4096⟩

/-- The end of that bitmap, which `pmm_init` returns. -/
def bitmapEnd (totalRamBytes bitmapStartAddr : Nat) : Nat :=
  bitmapStartAddr + 4 * ((totalRamBytes / 4096 + 31) / 32)

section

variable {totalRamBytes bitmapStartAddr : Nat}

private theorem initWords (totalRamBytes bitmapStartAddr : Nat) :
    (if totalRamBytes / pmmFrameSize % 32 ≠ 0 then totalRamBytes / pmmFrameSize / 32 + 1
      else totalRamBytes / pmmFrameSize / 32) = (totalRamBytes / 4096 + 31) / 32 :=
  Bitmap.words_eq ⟨bitmapStartAddr, totalRamBytes / pmmFrameSize⟩

theorem initBitmap_fits (bounded : bitmapEnd totalRamBytes bitmapStartAddr < 4294967296) :
    (initBitmap totalRamBytes bitmapStartAddr).Fits := by
  unfold Bitmap.Fits
  rw [Bitmap.words_eq]
  exact Nat.le_of_lt bounded

/-- The result of `pmm_init` where nothing wraps around. -/
theorem pmmInit_eq (ram : totalRamBytes < 4294967296)
    (bounded : bitmapEnd totalRamBytes bitmapStartAddr < 4294967296) (memory : Memory) :
    pmmInit totalRamBytes bitmapStartAddr memory =
      (bitmapEnd totalRamBytes bitmapStartAddr, initBitmap totalRamBytes bitmapStartAddr,
        (List.range (bitmapEnd totalRamBytes bitmapStartAddr / 4096)).foldl
          (fun memory frame => bitmapSet (initBitmap totalRamBytes bitmapStartAddr) frame memory)
          (bitmapClearAll (initBitmap totalRamBytes bitmapStartAddr) memory)) := by
  have bytes : u32 ((totalRamBytes / 4096 + 31) / 32 * 4) =
      4 * ((totalRamBytes / 4096 + 31) / 32) := by
    rw [u32_of_lt (by omega), Nat.mul_comm]
  have sum : u32 (bitmapStartAddr + 4 * ((totalRamBytes / 4096 + 31) / 32)) =
      bitmapEnd totalRamBytes bitmapStartAddr := u32_of_lt bounded
  simp only [pmmInit, initWords totalRamBytes bitmapStartAddr, bytes, sum]
  rfl

/-- After `pmm_init` exactly the frames that lie wholly below the end of the bitmap
are reserved. -/
theorem pmmInit_bitmapTest (ram : totalRamBytes < 4294967296)
    (bounded : bitmapEnd totalRamBytes bitmapStartAddr < 4294967296) (memory : Memory)
    (frame : Nat) :
    bitmapTest (initBitmap totalRamBytes bitmapStartAddr) frame
        (pmmInit totalRamBytes bitmapStartAddr memory).2.2 =
      decide (frame < bitmapEnd totalRamBytes bitmapStartAddr / 4096 ∧
        frame < totalRamBytes / 4096) := by
  have fits := initBitmap_fits bounded
  rw [pmmInit_eq ram bounded]
  exact (bitmapTest_reserve fits _ _).trans (by rw [bitmapTest_clearAll fits]; rfl)

end

end KdbOS.Pmm
