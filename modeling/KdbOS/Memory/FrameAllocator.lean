import KdbOS.Arch.Mmu
import KdbOS.Memory.PmmRuns

/-! The frame allocator as its callers see it: a set of free frames, of which the lowest
comes first. -/

set_option autoImplicit false

namespace KdbOS.Pmm

open Library Ds Arch

/-- `pmm_allocate_frame` clears no bit. -/
theorem bitmapTest_pmmAllocateFrame {frameBitmap : Bitmap} (fits : frameBitmap.Fits)
    {frame : Nat} {memory : Memory} (used : bitmapTest frameBitmap frame memory = true) :
    bitmapTest frameBitmap frame (pmmAllocateFrame frameBitmap memory).2 = true := by
  cases pmmAllocateFrame_cases frameBitmap memory with
  | inl full =>
      rw [full.1]
      exact used
  | inr found =>
      obtain ⟨index, inside, _, _, allocated⟩ := found
      rw [allocated, bitmapTest_set fits inside, used, Bool.true_or]

/-- The allocator's own variables. Its bitmap lies in a memory of its own: no frame that
is handed out meets it. Frame 0 is reserved from the start on, so that the address 0 says
that there is no frame. -/
structure FrameAllocator where
  frameBitmap : Bitmap
  storage : Memory
  fits : frameBitmap.Fits
  bounded : frameBitmap.totalBits ≤ 1048576
  zeroUsed : 0 < frameBitmap.totalBits → bitmapTest frameBitmap 0 storage = true

namespace FrameAllocator

variable {frames : FrameAllocator} {frame other : Frame}

/-- The frame can still be handed out. -/
def Free (frames : FrameAllocator) (frame : Frame) : Prop :=
  frame.val < frames.frameBitmap.totalBits ∧
    bitmapTest frames.frameBitmap frame.val frames.storage = false

/-- `pmm_allocate_frame`. -/
def allocate (frames : FrameAllocator) : Nat × FrameAllocator :=
  ((pmmAllocateFrame frames.frameBitmap frames.storage).1,
    { frames with
      storage := (pmmAllocateFrame frames.frameBitmap frames.storage).2
      zeroUsed := fun inside =>
        bitmapTest_pmmAllocateFrame frames.fits (frames.zeroUsed inside) })

theorem Free.ne_zero (free : frames.Free frame) : frame ≠ 0 := by
  rintro rfl
  exact Bool.noConfusion ((frames.zeroUsed (Nat.zero_lt_of_lt free.1)).symm.trans free.2)

theorem Free.address_ne_zero (free : frames.Free frame) : frameAddress frame ≠ 0 := by
  have notZero : frame.val ≠ 0 := fun zero => free.ne_zero (Fin.ext zero)
  unfold frameAddress pageSize
  omega

/-- The lowest free frame is handed out, or there is none. -/
theorem allocate_cases (frames : FrameAllocator) :
    (frames.allocate = (0, frames) ∧ ∀ frame, ¬ frames.Free frame) ∨
      ∃ frame, IsLeast {frame | frames.Free frame} frame ∧
        frames.allocate.1 = frameAddress frame ∧
        ∀ other, frames.allocate.2.Free other ↔ frames.Free other ∧ other ≠ frame := by
  cases pmmAllocateFrame_cases frames.frameBitmap frames.storage with
  | inl full =>
      refine .inl ⟨?_, fun frame free => ?_⟩
      · simp only [allocate, full.1]
      · exact Bool.noConfusion ((full.2 _ free.1).symm.trans free.2)
  | inr found =>
      obtain ⟨index, inside, clear, lower, allocated⟩ := found
      have indexLt : index < 1048576 := Nat.lt_of_lt_of_le inside frames.bounded
      refine .inr ⟨⟨index, indexLt⟩, ⟨⟨inside, clear⟩, fun other free => ?_⟩, ?_, fun other => ?_⟩
      · refine Nat.not_lt.mp fun below => ?_
        exact Bool.noConfusion ((lower _ below).symm.trans free.2)
      · simp only [allocate, allocated]
        exact u32_of_lt (by unfold pmmFrameSize; omega)
      · simp only [allocate, allocated, Free]
        rw [bitmapTest_set frames.fits inside, Bool.or_eq_false_iff, decide_eq_false_iff_not,
          and_assoc]
        refine and_congr_right fun _ => and_congr_right fun _ => not_congr ?_
        rw [Fin.ext_iff]
        exact eq_comm

/-- Handing out frames frees none. -/
theorem free_of_allocate (free : frames.allocate.2.Free frame) : frames.Free frame := by
  cases frames.allocate_cases with
  | inl full =>
      rw [full.1] at free
      exact free
  | inr found =>
      obtain ⟨_, _, _, frees⟩ := found
      exact ((frees frame).mp free).1

/-- The address 0 is returned when no frame is free, and only then. -/
theorem allocate_eq_zero_iff : frames.allocate.1 = 0 ↔ ∀ frame, ¬ frames.Free frame := by
  cases frames.allocate_cases with
  | inl full => exact iff_of_true (by rw [full.1]) full.2
  | inr found =>
      obtain ⟨frame, least, address, _⟩ := found
      refine iff_of_false ?_ fun none => none frame least.1
      rw [address]
      exact least.1.address_ne_zero

/-- Free are the frames from this number on. -/
def FreeFrom (frames : FrameAllocator) (first : Nat) : Prop :=
  ∀ frame, frames.Free frame ↔ first ≤ frame.val ∧ frame.val < frames.frameBitmap.totalBits

/-- Frames are handed out in order. -/
theorem FreeFrom.allocate {first : Nat} (freeFrom : frames.FreeFrom first)
    (inside : first < frames.frameBitmap.totalBits) :
    ∃ frame, frame.val = first ∧ frames.allocate.1 = frameAddress frame ∧
      frames.allocate.2.FreeFrom (first + 1) := by
  have firstLt : first < 1048576 := Nat.lt_of_lt_of_le inside frames.bounded
  have free : frames.Free ⟨first, firstLt⟩ := (freeFrom _).mpr ⟨Nat.le_refl _, inside⟩
  cases frames.allocate_cases with
  | inl full => exact absurd free (full.2 _)
  | inr found =>
      obtain ⟨frame, least, address, frees⟩ := found
      have lower : frame.val ≤ first := least.2 free
      have same : frame.val = first := Nat.le_antisymm lower ((freeFrom frame).mp least.1).1
      refine ⟨frame, same, address, fun other => ?_⟩
      have total : frames.allocate.2.frameBitmap = frames.frameBitmap := rfl
      have apart : other ≠ frame ↔ other.val ≠ first := by
        rw [← same]
        exact not_congr Fin.ext_iff
      rw [frees, freeFrom, total, apart]
      omega

end FrameAllocator

end KdbOS.Pmm
