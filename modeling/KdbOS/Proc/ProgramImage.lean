import KdbOS.Proc.CreatePcbReturns
import KdbOS.Proc.Ownership
import KdbOS.Proc.ProcessRuns

/-! The image of a program in the address space that `create_pcb` builds for it. The stack
takes the place of the second code page. -/

set_option autoImplicit false

namespace KdbOS.Proc

open Library Pmm Arch Vmm Kernel

variable {start s t u : Machine} {directories : Set Frame} {directory frame : Frame}
variable {kernel after : KernelState} {state : VmmState}
variable {fuel entryPoint size virtual window pointer p : Nat} {isUser cached : Bool}
variable {bytes : Nat → UInt8}

/-! ## Pages that hold an image -/

/-- The page has a frame of its own, with these bytes. -/
def PageHolds (s : Machine) (directories : Set Frame) (directory : Frame) (virtual : Nat)
    (bytes : Nat → UInt8) : Prop :=
  ∃ frame, Arch.translate s.memory directory virtual = some frame ∧
    Settled s directories frame ∧ FrameHolds s frame bytes

theorem translate_placed (placed : FramePlaced s t directories directory virtual isUser frame) :
    Arch.translate t.memory directory virtual = some frame := by
  obtain ⟨entry, mapped⟩ := placed.mapped
  rw [Arch.translate, mapped]
  exact congrArg some (frameOf_frameAddress frame)

/-- Another page is placed. -/
theorem PageHolds.placed (holds : PageHolds s directories directory window bytes)
    (placed : FramePlaced s t directories directory virtual isUser frame)
    (high : ¬ KernelSlot (directoryIndex window))
    (apart : (directoryIndex window, pageIndex window) ≠ (directoryIndex virtual, pageIndex virtual)) :
    PageHolds t directories directory window bytes := by
  obtain ⟨own, found, settled, content⟩ := holds
  refine ⟨own, ?_, placed.extended.settled settled, content.extended placed.extended settled⟩
  rw [← found]
  exact congrArg (Option.map Page.frameAddr) (placed.walks _ _ high fun same =>
    apart (Prod.ext same.1 same.2))

theorem codePage_ne {q : Nat} (bounded : size ≤ 0x40000000) (inside : p * 4096 < size)
    (otherInside : q * 4096 < size) (different : p ≠ q) :
    (directoryIndex (codePage p), pageIndex (codePage p)) ≠
      (directoryIndex (codePage q), pageIndex (codePage q)) := by
  rw [codePage_eq bounded inside, codePage_eq bounded otherInside]
  intro same
  have samePage := (samePage_iff (by omega) (by omega)).mp same
  omega

/-! ## The code of a new process -/

namespace Stages

variable {shared created : Machine}
  (stages : Stages start s directories entryPoint size isUser directory shared created t)
  (bounded : size ≤ 0x40000000)

include stages

/-- The image is still there when the first code page is made. -/
theorem image (sound : Sound start s directories)
    (image : ImageAt s directories entryPoint size bytes) :
    ImageAt shared (insert directory directories) entryPoint size bytes := by
  intro i inside
  have begins := stages.begins directory
  obtain ⟨from_, addresses, settled, byte⟩ := image i inside
  refine ⟨from_, begins.addresses addresses, settled.adopted begins stages.fresh stages.shares ?_, ?_⟩
  · rw [begins.kernelDirectory]
    exact sound.kernel
  · rw [← byte]
    exact begins.byte settled (Nat.mod_lt _ (by decide))

include bounded

/-- After the loop every code page holds its part of the image. -/
theorem codePages (image : ImageAt shared (insert directory directories) entryPoint size bytes)
    (inside : p * 4096 < size) :
    PageHolds created (insert directory directories) directory (codePage p)
      (codeBytes bytes size p) := by
  have high := highRounds bounded
  have inRounds : ∀ q ∈ List.range (numCodePages size), q * 4096 < size := fun q member =>
    (lt_numCodePages_iff bounded q).mp (List.mem_range.mp member)
  refine stages.pages.keeps rfl (fun done x => ∀ q ∈ done, q * 4096 < size →
    PageHolds x (insert directory directories) directory (codePage q) (codeBytes bytes size q))
    (fun done q x y code isRound toX before placed content r isPlaced small => ?_)
    stages.sharedSound (.inl rfl) stages.notKernel high
    (by rw [List.length_range]; exact stages.room) stages.left [] nofun p
    (List.mem_range.mpr ((lt_numCodePages_iff bounded p).mpr inside)) inside
  by_cases same : r = q
  · subst same
    exact ⟨code, translate_placed placed, placed.settled, content bytes (image.extended toX)⟩
  · rcases List.mem_append.mp isPlaced with earlier | last
    · exact (before r earlier small).placed placed
        (high r (List.mem_range.mpr ((lt_numCodePages_iff bounded r).mpr small)))
        (codePage_ne bounded small (inRounds q isRound) same)
    · exact absurd (List.mem_singleton.mp last) same

/-- Once the stack has been mapped the second code page is the only one that may be lost. -/
theorem codePages_of_stack (image : ImageAt shared (insert directory directories) entryPoint size bytes)
    (inside : p * 4096 < size) (notSecond : p ≠ 1) :
    PageHolds t (insert directory directories) directory (codePage p) (codeBytes bytes size p) := by
  have inCreated := stages.codePages bounded image inside
  rcases stages.stack with ⟨stack, placed, _⟩ | ⟨isEmpty, _⟩
  · have high := highRounds bounded p
      (List.mem_range.mpr ((lt_numCodePages_iff bounded p).mpr inside))
    refine inCreated.placed placed high fun same => ?_
    rw [codePage_eq bounded inside] at same
    have samePage := (samePage_iff (by omega) (by decide)).mp same
    unfold processStackPage at samePage
    omega
  · rw [isEmpty] at inside
    exact absurd inside (Nat.not_lt_zero _)

end Stages

/-! ## Bytes -/

/-- The address space has the byte at the address. -/
def ByteAt (s : Machine) (directory : Frame) (address : Nat) (byte : UInt8) : Prop :=
  ∃ place, physicalAddress s.memory directory address = some place ∧ s.memory place = byte

/-- The image from 0xC0000000 on, zeros up to the end of its last page, and the stack page of
`esp`, which is none of the code pages. -/
structure ImageLoaded (s : Machine) (directory : Frame) (bytes : Nat → UInt8) (size esp : Nat) :
    Prop where
  image : ∀ i < size, ByteAt s directory (0xC0000000 + i) (bytes i)
  padding : ∀ i, size ≤ i → i / 4096 * 4096 < size → ByteAt s directory (0xC0000000 + i) 0
  stack : ∃ frame, Arch.translate s.memory directory esp = some frame
  apart : ∀ i, i / 4096 * 4096 < size → (0xC0000000 + i) / 4096 ≠ esp / 4096

theorem translate_of_page {address : Nat} (small : address < 0x100000000)
    (virtualSmall : virtual < 0x100000000) (same : address / 4096 = virtual / 4096) :
    Arch.translate s.memory directory address = Arch.translate s.memory directory virtual := by
  obtain ⟨slot, index⟩ := Prod.mk.injEq _ _ _ _ ▸ (samePage_iff small virtualSmall).mpr same
  unfold Arch.translate walk
  rw [slot, index]

theorem PageHolds.byteAt {i : Nat} (bounded : size ≤ 0x40000000) (inside : i / 4096 * 4096 < size)
    (holds : PageHolds s directories directory (codePage (i / 4096))
      (codeBytes bytes size (i / 4096))) :
    ByteAt s directory (0xC0000000 + i) (if i < size then bytes i else 0) := by
  obtain ⟨frame, found, _, content⟩ := holds
  have page := codePage_eq bounded inside
  have samePage : Arch.translate s.memory directory (0xC0000000 + i) = some frame := by
    rw [← found]
    exact translate_of_page (by omega) (by omega) (by omega)
  have byte := content (i % 4096) (Nat.mod_lt _ (by decide))
  have position : i / 4096 * 4096 + i % 4096 = i := Nat.div_add_mod' i 4096
  refine ⟨_, by rw [physicalAddress, samePage]; rfl, ?_⟩
  show s.memory (frameAddress frame + (0xC0000000 + i) % 4096) = _
  rw [show (0xC0000000 + i) % 4096 = i % 4096 by omega, byte, codeBytes]
  unfold pageSize
  rw [position]

/-! ## The image of a new process -/

/-- The stack page is the second code page. -/
theorem not_imageLoaded (second : 4096 < size) : ¬ ImageLoaded s directory bytes size 0xC0001FD8 :=
  fun loaded => loaded.apart 4096 second (by decide)

theorem Stages.imageLoaded {shared created : Machine}
    (stages : Stages start s directories entryPoint size isUser directory shared created t)
    (sound : Sound start s directories)
    (image : ImageAt s directories entryPoint size bytes) (notEmpty : 0 < size) (one : size ≤ 4096) :
    ImageLoaded t directory bytes size 0xC0001FD8 := by
  have bounded : size ≤ 0x40000000 := one.trans (by decide)
  have first : ∀ {i : Nat}, i / 4096 * 4096 < size → i / 4096 ≠ 1 := by
    intro i inside
    omega
  have byteAt : ∀ i, i / 4096 * 4096 < size →
      ByteAt t directory (0xC0000000 + i) (if i < size then bytes i else 0) := fun i inside =>
    (stages.codePages_of_stack bounded (stages.image sound image) inside (first inside)).byteAt
      bounded inside
  refine ⟨fun i inside => ?_, fun i beyond inside => ?_, ?_, fun i inside => ?_⟩
  · have byte := byteAt i (by omega)
    rw [if_pos inside] at byte
    exact byte
  · have byte := byteAt i inside
    rw [if_neg (Nat.not_lt.mpr beyond)] at byte
    exact byte
  · rcases stages.stack with ⟨stack, placed, _⟩ | ⟨isEmpty, _⟩
    · exact ⟨stack, (translate_of_page (by decide) (by decide) (by decide)).trans
        (translate_placed placed)⟩
    · exact absurd isEmpty notEmpty.ne'
  · omega

/-- After boot, what lies from 0x1000 on is an image. -/
theorem imageAt_of_booted {sections : KernelSections} {kernelPageTable secondPageTable : Frame}
    (booted : Booted s sections kernelPageTable secondPageTable) (small : size ≤ 4096 * 1000) :
    ImageAt s {s.kernelDirectory} 0x1000 size fun i => s.memory (0x1000 + i) := by
  intro i inside
  obtain ⟨frame, value, addresses⟩ := image_of_booted booted (by omega : i < 4096 * 2046)
  have lower := booted.lower
  have first := booted.first
  have second := booted.second
  refine ⟨frame, addresses, ⟨fun free => ?_, ?_⟩, ?_⟩
  · have isFree := (booted.free frame).mp free
    omega
  · rintro (isKernel | ⟨directory, isKernel, slot, isPresent, isFrame⟩)
    · rw [Set.mem_singleton_iff.mp isKernel] at value
      omega
    · -- The tables of boot lie above the image.
      rw [Set.mem_singleton_iff.mp isKernel, booted.tables.directory, kernelEntry] at isPresent isFrame
      by_cases isZero : slot = 0
      · rw [if_pos isZero] at isFrame
        have same : kernelPageTable = frame := isFrame
        rw [← same] at value
        omega
      · rw [if_neg isZero] at isPresent isFrame
        by_cases isOne : slot = 1
        · rw [if_pos isOne] at isFrame
          have same : secondPageTable = frame := isFrame
          rw [← same] at value
          omega
        · rw [if_neg isOne] at isPresent
          cases isPresent
  · show s.memory (frameAddress frame + u32 (0x1000 + i) % 4096) = s.memory (0x1000 + i)
    rw [u32_of_lt (by omega)]
    congr 1
    unfold frameAddress pageSize
    omega

/-- A process of at most two pages, with 128 MiB of RAM. -/
theorem sampleProcess (size : Nat) (small : size ≤ 4097) :
    ∃ after, createPcb 3 0x1000 size true true (bootKernel sampleMachine) = .ok 0x0040100C after ∧
      Faithful after.machine := by
  obtain ⟨isDirectory, isTotal, _, _, _, booted⟩ := sampleMachine_booted
  obtain ⟨heap, _, allocated, _⟩ := bootKernel_kmalloc sampleMachine
  have few : numCodePages size ≤ 2 := by
    unfold numCodePages
    rw [u32_of_lt (by unfold pageSize; omega)]
    unfold pageSize
    omega
  have sound : Sound sampleMachine (bootKernel sampleMachine).machine _ := sound_of_booted booted
  have stocked : Stocked sampleMachine sampleMachine {sampleMachine.kernelDirectory}
      (0 + 4 * numCodePages size + 6) := stocked_of_booted booted (by omega) (by omega)
  obtain ⟨after, _, run, ends, _⟩ := createPcb_of_stocked sound (faithful_of_booted booted) stocked
    (readable_of_booted booted (by omega)) (by omega) allocated (by decide) true true
  exact ⟨after, run, ends⟩

end KdbOS.Proc
