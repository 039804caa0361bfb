import KdbOS.Klibc.HeapFirstFit
import KdbOS.Proc.Isolation

/-! How many processes can be made: `create_pcb` returns one for every program of a list, as long
as the frames below the temporary window suffice for all of them. -/

set_option autoImplicit false

namespace KdbOS.Proc

open Library Klibc Pmm Arch Vmm Kernel

variable {start : Machine} {kernel after first final : KernelState} {directories : Set Frame}
variable {blocks blocks' : List Block} {images : List (Nat × Nat)} {frames count entryPoint size : Nat}
variable {trace : List (Transition KernelState Creation)}

/-! ## The heap -/

/-- There is a free block for so many calls. -/
def BlocksFor (blocks : List Block) (count : Nat) : Prop :=
  count ≠ 0 → ∃ block ∈ blocks, block.free = true ∧ (pcbSize + headerSize) * count ≤ block.size

/-- The large block is cut, or stays as it is. -/
theorem BlocksFor.step (room : BlocksFor blocks (count + 1))
    (step : BlocksStep blocks (.kmalloc pcbSize) blocks') : BlocksFor blocks' count := by
  obtain ⟨large, member, free, enough⟩ := room (Nat.succ_ne_zero count)
  rw [Nat.mul_succ] at enough
  intro notZero
  have positive : (pcbSize + headerSize) * 1 ≤ (pcbSize + headerSize) * count :=
    Nat.mul_le_mul_left _ (Nat.pos_of_ne_zero notZero)
  have sizes : pcbSize = 40 ∧ headerSize = 12 := ⟨rfl, rfl⟩
  cases step with
  | refused => exact ⟨large, member, free, by omega⟩
  | @taken front back block _ _ _ =>
      have others : large ∈ front ∨ large ∈ back → large ∈ front ++ carve pcbSize block ++ back :=
        fun either => by
          rw [List.append_assoc, List.mem_append, List.mem_append]
          exact either.imp_right .inr
      rcases List.mem_append.mp member with inFront | inRest
      · exact ⟨large, others (.inl inFront), free, by omega⟩
      · rcases List.mem_cons.mp inRest with rfl | inBack
        · refine ⟨⟨large.address + headerSize + pcbSize, large.size - pcbSize - headerSize, true⟩,
            ?_, rfl, ?_⟩
          · rw [carve, if_pos (by omega)]
            simp
          · dsimp only
            omega
        · exact ⟨large, others (.inr inBack), free, by omega⟩

/-- The heap has room for the blocks of so many processes. -/
def HeapStocked (kernel : KernelState) (count : Nat) : Prop :=
  ∃ live blocks, HeapInv kernel.heapStart ⟨kernel.heap, live⟩ blocks ∧ BlocksFor blocks count

theorem HeapStocked.kmalloc (stocked : HeapStocked kernel (count + 1)) :
    ∃ fuel pcb heap, Klibc.kmalloc fuel kernel.heapStart pcbSize kernel.heap = some (pcb, heap) ∧
      pcb ≠ 0 ∧ ∀ after : KernelState, after.heap = heap → after.heapStart = kernel.heapStart →
        HeapStocked after count := by
  obtain ⟨live, blocks, inv, room⟩ := stocked
  obtain ⟨pcb, heap, blocks', result, step, inv', _⟩ := inv.kmalloc pcbSize
  obtain ⟨ptr, memory, found, takes⟩ := inv.takesFirst (by decide : 0 < pcbSize)
  have same := (result _ (Nat.lt_succ_self _)).symm.trans (found _ (Nat.lt_succ_self _))
  obtain ⟨rfl, rfl⟩ := Prod.mk.inj (Option.some.inj same)
  obtain ⟨large, member, free, enough⟩ := room (Nat.succ_ne_zero count)
  refine ⟨_, pcb, heap, result _ (Nat.lt_succ_self _), fun isNull => ?_,
    fun after isHeap isStart => ?_⟩
  · have small := takes.null_iff.mp isNull large member free
    rw [Nat.mul_succ] at enough
    omega
  · rw [← isHeap, ← isStart] at inv'
    exact ⟨_, blocks', inv', room.step step⟩

theorem heapStocked_of_fresh {heapMemory : Memory} (positive : 0 < kernel.heapStart)
    (isHeap : kernel.heap = kmallocInit kernel.heapStart heapMemory)
    (room : kernel.heapStart + headerSize + (pcbSize + headerSize) * count ≤
      identityMappedCieling) : HeapStocked kernel count := by
  have inv := freshHeap_inv positive (by omega) heapMemory
  refine ⟨[], _, ?_, fun _ => ⟨initialBlock kernel.heapStart, List.mem_singleton.mpr rfl, rfl, ?_⟩⟩
  · rw [isHeap]
    exact inv
  · rw [initialBlock]
    dsimp only
    omega

/-! ## One call after another -/

/-- The frames that the processes may take. -/
def framesFor (images : List (Nat × Nat)) : Nat :=
  (images.map fun image => 4 * numCodePages image.2 + 6).sum

/-- The image lies behind page 0 and below the temporary window. -/
def Loadable (image : Nat × Nat) : Prop := 0x1000 ≤ image.1 ∧ image.1 + image.2 ≤ 0x007FF000

/-- There are frames and blocks for these calls. -/
structure CanCreate (start : Machine) (kernel : KernelState) (directories : Set Frame)
    (frames count : Nat) : Prop where
  sound : Sound start kernel.machine directories
  faithful : Faithful kernel.machine
  stocked : Stocked start kernel.machine directories frames
  heap : HeapStocked kernel count

theorem CanCreate.step {sections : KernelSections} {kernelPageTable secondPageTable : Frame}
    (can : CanCreate start kernel directories (frames + (4 * numCodePages size + 6)) (count + 1))
    (booted : Booted start sections kernelPageTable secondPageTable)
    (loadable : Loadable (entryPoint, size)) :
    ∃ creation after directory, CreateStep kernel creation after ∧
      creation.entryPoint = entryPoint ∧ creation.size = size ∧
      CanCreate start after (insert directory directories) frames count := by
  obtain ⟨lower, upper⟩ := loadable
  dsimp only at lower upper
  have readable : Readable kernel.machine entryPoint size := by
    intro i inside
    obtain ⟨frame, _, addresses⟩ := image_of_booted booted
      (by omega : entryPoint + i - 0x1000 < 4096 * 2046)
    rw [Nat.add_sub_cancel' (by omega : 0x1000 ≤ entryPoint + i)] at addresses
    refine ⟨frame, can.sound.low.addresses addresses ?_⟩
    rw [u32_of_lt (by omega)]
    unfold KernelSlot directoryIndex
    rw [Fin.val_ofNat]
    omega
  obtain ⟨fuel, pcb, heap, allocated, notNull, heapAfter⟩ := can.heap.kmalloc
  obtain ⟨after, directory, run, ends, sound, stocked, isHeap, isStart⟩ :=
    createPcb_of_stocked can.sound can.faithful
      (by rw [Nat.add_assoc]; exact can.stocked) readable (by omega) allocated notNull true true
  exact ⟨⟨fuel, entryPoint, size, true, pcb⟩, after, directory, .returns run notNull, rfl, rfl,
    sound, ends, stocked, heapAfter after isHeap isStart⟩

theorem framesFor_cons (image : Nat × Nat) (images : List (Nat × Nat)) :
    framesFor (image :: images) = framesFor images + (4 * numCodePages image.2 + 6) := by
  unfold framesFor
  rw [List.map_cons, List.sum_cons, Nat.add_comm]

theorem length_le_framesFor (images : List (Nat × Nat)) : 6 * images.length ≤ framesFor images := by
  induction images with
  | nil => exact Nat.le_refl _
  | cons image images ih =>
      rw [framesFor_cons, List.length_cons]
      omega

theorem CanCreate.run {sections : KernelSections} {kernelPageTable secondPageTable : Frame}
    (can : CanCreate start kernel directories (framesFor images) images.length)
    (booted : Booted start sections kernelPageTable secondPageTable)
    (loadable : ∀ image ∈ images, Loadable image) (earlier : CreateRun first trace kernel) :
    ∃ more final, CreateRun first (trace ++ more) final ∧
      (more.map fun transition => (transition.label.entryPoint, transition.label.size)) = images ∧
      Faithful final.machine := by
  induction images generalizing kernel trace directories with
  | nil => exact ⟨[], kernel, by rwa [List.append_nil], rfl, can.faithful⟩
  | cons image images ih =>
      rw [framesFor_cons, List.length_cons] at can
      obtain ⟨creation, after, directory, step, isEntry, isSize, rest⟩ :=
        can.step booted (loadable image List.mem_cons_self)
      obtain ⟨more, final, run, same, ends⟩ := ih rest
        (fun other member => loadable other (List.mem_cons_of_mem _ member)) (earlier.step step)
      refine ⟨⟨kernel, creation, after⟩ :: more, final, ?_, ?_, ends⟩
      · rw [List.append_assoc] at run
        exact run
      · rw [List.map_cons, same]
        dsimp only
        rw [isEntry, isSize]

/-! ## From boot on -/

end KdbOS.Proc
