import KdbOS.Arch.Paging
import KdbOS.Memory.PmmProperties
import KdbOS.Library.Runs
import Mathlib.Data.Set.Lattice
import Mathlib.Order.CompletePartialOrder
import Mathlib.Order.Interval.Set.Disjoint

/-! `kernel.c`: the memory set-up at boot, and the two allocators at work after it.
Both carve up the same physical memory. -/

set_option autoImplicit false

namespace KdbOS.Kernel

open Library Ds Klibc Pmm Arch

/-- The physical memory and the allocators' own variables. -/
structure KernelMemory where
  memory : Memory
  frameBitmap : Bitmap
  kernelDirectory : Nat
  heapStart : Nat
  /-- History, read by no operation: the frames handed out so far. -/
  frames : List Nat

def bitmapAddr : Nat := 0x00400000

def KernelMemory.recordFrame (kernel : KernelMemory) (frame : Nat) : KernelMemory :=
  { kernel with frames := if frame = 0 then kernel.frames else kernel.frames ++ [frame] }

/-- `init_memory_management` for the RAM size that the boot loader reports. Paging is
on when `kmalloc_init` runs; the heap region is identity-mapped. -/
def initMemoryManagement (sections : KernelSections) (totalRamBytes : Nat) (memory : Memory) :
    KernelMemory :=
  let (dynamicHeapStart, frameBitmap, memory) := pmmInit totalRamBytes bitmapAddr memory
  let paging := pagingInit sections frameBitmap memory
  let kernel : KernelMemory :=
    ⟨kmallocInit dynamicHeapStart paging.memory, frameBitmap, paging.kernelDirectory,
      dynamicHeapStart, []⟩
  ((kernel.recordFrame paging.kernelDirectory).recordFrame paging.kernelPageTable).recordFrame
    paging.secondPageTable

/-- The calls on the two allocators, and stores by anybody else. -/
inductive MemoryOp where
  | pmmAllocateFrame
  | pmmFreeFrame (framePhysicalAddr : Nat)
  | kmalloc (size : Nat)
  | kfree (ptr : Nat)
  | store (address : Nat) (byte : UInt8)

inductive MemoryStep : KernelMemory → MemoryOp → KernelMemory → Prop where
  | pmmAllocateFrame {kernel : KernelMemory} :
      MemoryStep kernel .pmmAllocateFrame
        ({ kernel with
          memory := (Pmm.pmmAllocateFrame kernel.frameBitmap kernel.memory).2 }.recordFrame
            (Pmm.pmmAllocateFrame kernel.frameBitmap kernel.memory).1)
  | pmmFreeFrame {kernel : KernelMemory} {framePhysicalAddr : Nat} :
      MemoryStep kernel (.pmmFreeFrame framePhysicalAddr)
        { kernel with
          memory := Pmm.pmmFreeFrame kernel.frameBitmap framePhysicalAddr kernel.memory }
  | kmalloc {kernel : KernelMemory} {fuel size ptr : Nat} {memory : Memory} :
      Klibc.kmalloc fuel kernel.heapStart size kernel.memory = some (ptr, memory) →
      MemoryStep kernel (.kmalloc size) { kernel with memory := memory }
  | kfree {kernel : KernelMemory} {fuel ptr : Nat} {memory : Memory} :
      Klibc.kfree fuel kernel.heapStart ptr kernel.memory = some memory →
      MemoryStep kernel (.kfree ptr) { kernel with memory := memory }
  | store {kernel : KernelMemory} {address : Nat} {byte : UInt8} :
      MemoryStep kernel (.store address byte)
        { kernel with memory := kernel.memory.store8 address byte }

abbrev MemoryRun := Run MemoryStep

/-- No frame that was handed out meets the heap region. -/
def FramesApartFromHeap (kernel : KernelMemory) : Prop :=
  ∀ frame ∈ kernel.frames, Disjoint (Set.Ico frame (frame + pmmFrameSize))
    (Set.Ico kernel.heapStart identityMappedCieling)

/-- `pmm_init` leaves a frame below 8 MiB unreserved. -/
def LeavesFrame (totalRamBytes : Nat) : Prop :=
  ∃ frame, bitmapEnd totalRamBytes bitmapAddr / 4096 ≤ frame ∧ frame < totalRamBytes / 4096 ∧
    frame < 2048

variable {sections : KernelSections} {totalRamBytes : Nat} {memory : Memory}
variable {kernel before after final : KernelMemory} {label : MemoryOp}
variable {trace : List (Transition KernelMemory MemoryOp)}

theorem bitmapEnd_bounds (ram : totalRamBytes < 4294967296) :
    4194304 ≤ bitmapEnd totalRamBytes bitmapAddr ∧
      bitmapEnd totalRamBytes bitmapAddr ≤ 4325376 := by
  unfold bitmapEnd bitmapAddr
  omega

/-- The first frame that boot takes, for the page directory, is the one that holds the
end of the bitmap. -/
theorem initMemoryManagement_directory (sections : KernelSections) (memory : Memory)
    (ram : totalRamBytes < 4294967296) (leaves : LeavesFrame totalRamBytes) :
    (initMemoryManagement sections totalRamBytes memory).kernelDirectory =
      bitmapEnd totalRamBytes bitmapAddr / 4096 * 4096 := by
  obtain ⟨lower, upper⟩ := bitmapEnd_bounds ram
  have bounded : bitmapEnd totalRamBytes bitmapAddr < 4294967296 := by omega
  obtain ⟨frame, above, inside, _⟩ := leaves
  have bits := pmmInit_bitmapTest ram bounded memory
  have inUse : Reserved (initBitmap totalRamBytes bitmapAddr)
      (bitmapEnd totalRamBytes bitmapAddr / 4096)
      (pmmInit totalRamBytes bitmapAddr memory).2.2 := by
    intro lowerFrame below belowTotal
    rw [bits]
    exact decide_eq_true ⟨below, belowTotal⟩
  have clear : bitmapTest (initBitmap totalRamBytes bitmapAddr)
      (bitmapEnd totalRamBytes bitmapAddr / 4096)
      (pmmInit totalRamBytes bitmapAddr memory).2.2 = false := by
    rw [bits]
    exact decide_eq_false fun both => Nat.lt_irrefl _ both.1
  have first := inUse.allocate_lowest (Nat.lt_of_le_of_lt above inside) clear
  have storage : (pmmInit totalRamBytes bitmapAddr memory).2.1 =
      initBitmap totalRamBytes bitmapAddr := by rw [pmmInit_eq ram bounded]
  have address : u32 (bitmapEnd totalRamBytes bitmapAddr / 4096 * pmmFrameSize) =
      bitmapEnd totalRamBytes bitmapAddr / 4096 * 4096 :=
    u32_of_lt (by unfold pmmFrameSize; omega)
  have directory : (initMemoryManagement sections totalRamBytes memory).kernelDirectory =
      (Pmm.pmmAllocateFrame (pmmInit totalRamBytes bitmapAddr memory).2.1
        (pmmInit totalRamBytes bitmapAddr memory).2.2).1 := rfl
  rw [directory, storage, first, address]

theorem initMemoryManagement_heapStart (ram : totalRamBytes < 4294967296) :
    (initMemoryManagement sections totalRamBytes memory).heapStart =
      bitmapEnd totalRamBytes bitmapAddr := by
  obtain ⟨_, upper⟩ := bitmapEnd_bounds ram
  have bounded : bitmapEnd totalRamBytes bitmapAddr < 4294967296 := by omega
  have heapStart : (initMemoryManagement sections totalRamBytes memory).heapStart =
      (pmmInit totalRamBytes bitmapAddr memory).1 := rfl
  rw [heapStart, pmmInit_eq ram bounded]

theorem mem_recordFrame {frame : Nat} (notNull : frame ≠ 0) :
    frame ∈ (kernel.recordFrame frame).frames := by
  simp [KernelMemory.recordFrame, notNull]

theorem recordFrame_mono {frame other : Nat} (member : other ∈ kernel.frames) :
    other ∈ (kernel.recordFrame frame).frames := by
  unfold KernelMemory.recordFrame
  split
  · exact member
  · exact List.mem_append_left _ member

/-- The frame that holds the heap's first byte has been handed out. -/
def HeapPageTaken (kernel : KernelMemory) : Prop :=
  kernel.heapStart / 4096 * 4096 ∈ kernel.frames ∧ kernel.heapStart < identityMappedCieling

theorem HeapPageTaken.not_apart (taken : HeapPageTaken kernel) : ¬ FramesApartFromHeap kernel := by
  intro apart
  have disjoint := apart _ taken.1
  have first := taken.2
  rw [Set.Ico_disjoint_Ico] at disjoint
  unfold pmmFrameSize at disjoint
  omega

theorem initMemoryManagement_taken (ram : totalRamBytes < 4294967296)
    (leaves : LeavesFrame totalRamBytes) :
    HeapPageTaken (initMemoryManagement sections totalRamBytes memory) := by
  obtain ⟨lower, upper⟩ := bitmapEnd_bounds ram
  refine ⟨?_, ?_⟩
  · have directory := initMemoryManagement_directory sections memory ram leaves
    rw [initMemoryManagement_heapStart ram, ← directory]
    refine recordFrame_mono (recordFrame_mono (mem_recordFrame ?_))
    have notNull : (initMemoryManagement sections totalRamBytes memory).kernelDirectory ≠ 0 := by
      rw [directory]
      omega
    exact notNull
  · rw [initMemoryManagement_heapStart ram]
    unfold identityMappedCieling
    omega

theorem HeapPageTaken.step (taken : HeapPageTaken before) (step : MemoryStep before label after) :
    HeapPageTaken after := by
  cases step with
  | pmmAllocateFrame => exact ⟨recordFrame_mono taken.1, taken.2⟩
  | pmmFreeFrame => exact taken
  | kmalloc => exact taken
  | kfree => exact taken
  | store => exact taken

/-- Whatever the RAM size, the page directory lies in the page where the heap starts,
from boot on and for ever. -/
theorem frames_meet_heap (ram : totalRamBytes < 4294967296) (leaves : LeavesFrame totalRamBytes)
    (run : MemoryRun (initMemoryManagement sections totalRamBytes memory) trace final) :
    ¬ FramesApartFromHeap final :=
  ((run.invariant (fun _ _ => True) HeapPageTaken (initMemoryManagement_taken ram leaves)
    (fun taken _ step => taken.step step) fun _ _ => trivial).1).not_apart

/-- 16 MiB of RAM. -/
theorem frames_meet_heap_sample :
    ¬ FramesApartFromHeap (initMemoryManagement ⟨1048576, 1052672, 1056768⟩ 16777216 (fun _ => 0)) :=
  frames_meet_heap (by decide) ⟨1024, by decide, by decide, by decide⟩ Run.start

/-- At boot with 16 MiB the directory is at 4 MiB, where the heap starts 512 bytes in. -/
theorem frames_apart_fails :
    ¬ ∀ sections totalRamBytes memory, totalRamBytes < 4294967296 → LeavesFrame totalRamBytes →
      FramesApartFromHeap (initMemoryManagement sections totalRamBytes memory) := by
  intro apart
  have leaves : LeavesFrame 16777216 := ⟨1024, by decide, by decide, by decide⟩
  exact (initMemoryManagement_taken (by decide) leaves).not_apart
    (apart ⟨1048576, 1052672, 1056768⟩ 16777216 (fun _ => 0) (by decide) leaves)

end KdbOS.Kernel
