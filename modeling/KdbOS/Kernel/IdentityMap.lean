import KdbOS.Memory.BootPaging

/-! The address space of boot as a map on 32-bit addresses: which of them `paging_init`
maps, to what, and with which rights. -/

set_option autoImplicit false

namespace KdbOS.Kernel

open Library Ds Klibc Pmm Arch

/-- The linker script's sections: page-aligned, in order, and in the first table. -/
structure SectionLayout (sections : KernelSections) : Prop where
  text : 4096 ∣ sections.textStart
  rodata : 4096 ∣ sections.rodataStart
  data : 4096 ∣ sections.dataStart
  textFirst : sections.textStart ≤ sections.rodataStart
  dataLast : sections.rodataStart ≤ sections.dataStart
  lower : 0x00100000 ≤ sections.textStart
  upper : sections.dataStart ≤ 0x00400000

/-- The next three calls of `pmm_allocate_frame` return three distinct frames. -/
structure ThreeFrames (frameBitmap : Bitmap) (memory : Memory) (first second third : Nat) :
    Prop where
  firstReturned : (pmmAllocateFrame frameBitmap memory).1 = first
  secondReturned : (pmmAllocateFrame frameBitmap (pmmAllocateFrame frameBitmap memory).2).1 = second
  thirdReturned : (pmmAllocateFrame frameBitmap (pmmAllocateFrame frameBitmap
    (pmmAllocateFrame frameBitmap memory).2).2).1 = third
  firstNotNull : first ≠ 0
  secondNotNull : second ≠ 0
  thirdNotNull : third ≠ 0
  firstSecond : first ≠ second
  firstThird : first ≠ third
  secondThird : second ≠ third

variable {sections : KernelSections} {frameBitmap : Bitmap} {memory : Memory}
variable {kernelDirectory kernelPageTable secondPageTable : Frame} {virtualAddress : Nat}

/-- Whatever `pmm_allocate_frame` returns is the address of a frame. -/
theorem pmmAllocateFrame_frame (frameBitmap : Bitmap) (memory : Memory) :
    ∃ frame : Frame, (pmmAllocateFrame frameBitmap memory).1 = frameAddress frame := by
  cases pmmAllocateFrame_cases frameBitmap memory with
  | inl full => exact ⟨0, by rw [full.1]; rfl⟩
  | inr found =>
      obtain ⟨index, _, _, _, allocated⟩ := found
      refine ⟨Fin.ofNat 1048576 index, ?_⟩
      rw [allocated]
      unfold frameAddress pageSize pmmFrameSize u32
      rw [Fin.val_ofNat]
      dsimp only
      omega

theorem ne_of_frameAddress_ne {frame other : Frame} (different : frameAddress frame ≠ frameAddress other) :
    frame ≠ other :=
  fun same => different (congrArg frameAddress same)

theorem isWriteable_eq_false_iff (layout : SectionLayout sections) {address : Nat} :
    isWriteable sections (address / 4096 * 4096) = false ↔
      sections.textStart ≤ address ∧ address < sections.dataStart := by
  obtain ⟨⟨text, textEq⟩, ⟨rodata, rodataEq⟩, ⟨data, dataEq⟩, textFirst, dataLast, _, _⟩ := layout
  simp only [isWriteable, Bool.not_eq_false', Bool.or_eq_true, Bool.and_eq_true, decide_eq_true_eq]
  omega

namespace BootTables

variable (boot : BootTables (tablesOf memory) sections kernelDirectory kernelPageTable
  secondPageTable)

include boot

/-- The walk of an address through the directory entry that `paging_init` leaves. -/
theorem walk_of_absent (high : 8388608 ≤ virtualAddress) (inside : virtualAddress < 4294967296) :
    walk memory kernelDirectory virtualAddress = none := by
  have slotVal : (directoryIndex virtualAddress).val = virtualAddress / 4194304 := by
    unfold directoryIndex
    rw [Fin.val_ofNat]
    omega
  refine Tables.walk_of_absent ?_
  rw [boot.directory, kernelEntry, if_neg, if_neg]
  · rfl
  · intro isOne
    have := (congrArg Fin.val isOne).symm.trans slotVal
    have : (1 : EntryIndex).val = 1 := rfl
    omega
  · intro isZero
    have := (congrArg Fin.val isZero).symm.trans slotVal
    have : (0 : EntryIndex).val = 0 := rfl
    omega

theorem directory_low (low : virtualAddress < 4194304) :
    tablesOf memory kernelDirectory (directoryIndex virtualAddress) =
      ⟨true, true, false, 0, kernelPageTable⟩ := by
  have slot : directoryIndex virtualAddress = 0 := by
    refine Fin.ext ?_
    unfold directoryIndex
    rw [Fin.val_ofNat, Nat.div_eq_of_lt low]
    rfl
  rw [slot, boot.directory]
  rfl

theorem directory_second (lower : 4194304 ≤ virtualAddress) (upper : virtualAddress < 8388608) :
    tablesOf memory kernelDirectory (directoryIndex virtualAddress) =
      ⟨true, true, false, 0, secondPageTable⟩ := by
  have quotient : virtualAddress / 4194304 = 1 := by omega
  have slot : directoryIndex virtualAddress = 1 := by
    refine Fin.ext ?_
    unfold directoryIndex
    rw [Fin.val_ofNat, quotient]
    rfl
  rw [slot, boot.directory]
  rfl

/-- In the first table only page 0 is absent. -/
theorem walk_first (low : virtualAddress < 4194304) :
    walk memory kernelDirectory virtualAddress =
      if virtualAddress < 4096 then none
      else some (kernelPage sections (pageIndex virtualAddress)) := by
  have pageVal : (pageIndex virtualAddress).val = virtualAddress / 4096 := by
    unfold pageIndex
    rw [Fin.val_ofNat]
    omega
  unfold walk Tables.walk
  rw [boot.directory_low low, tableEntry_present, if_pos rfl, tableEntry_target, boot.kernelPages]
  by_cases zero : virtualAddress < 4096
  · have isZero : pageIndex virtualAddress = 0 := by
      refine Fin.ext ?_
      omega
    rw [if_pos zero, isZero]
    rfl
  · have notZero : pageIndex virtualAddress ≠ 0 := by
      intro isZero
      have := (congrArg Fin.val isZero).symm.trans pageVal
      omega
    have isPresent : (kernelPage sections (pageIndex virtualAddress)).present = true :=
      decide_eq_true notZero
    rw [if_neg zero, tableEntry_present, if_pos isPresent]

theorem walk_second (lower : 4194304 ≤ virtualAddress) (upper : virtualAddress < 8388608) :
    walk memory kernelDirectory virtualAddress = some (secondPage (pageIndex virtualAddress)) := by
  unfold walk Tables.walk
  rw [boot.directory_second lower upper, tableEntry_present, if_pos rfl, tableEntry_target,
    boot.secondPages]
  rfl

/-- Every address from 4 KiB up to 8 MiB is mapped to itself, and no other one is mapped. -/
theorem physicalAddress_eq (inside : virtualAddress < 4294967296) :
    physicalAddress memory kernelDirectory virtualAddress =
      if 0x1000 ≤ virtualAddress ∧ virtualAddress < 0x00800000 then some virtualAddress else none := by
  have pageVal : (pageIndex virtualAddress).val = virtualAddress / 4096 % 1024 := rfl
  have pageLt := (pageIndex virtualAddress).isLt
  unfold physicalAddress Arch.translate
  rcases Nat.lt_or_ge virtualAddress 4194304 with low | lower
  · rw [boot.walk_first low]
    by_cases zero : virtualAddress < 4096
    · rw [if_pos zero, if_neg (by omega)]
      rfl
    · rw [if_neg zero, if_pos (by omega), Option.map_some, Option.map_some]
      unfold kernelPage frameAddress pageSize
      rw [Fin.val_ofNat]
      refine congrArg some ?_
      omega
  · rcases Nat.lt_or_ge virtualAddress 8388608 with upper | high
    · rw [boot.walk_second lower upper, if_pos (by omega), Option.map_some, Option.map_some]
      unfold secondPage frameAddress pageSize
      rw [Fin.val_ofNat]
      refine congrArg some ?_
      omega
    · rw [boot.walk_of_absent high inside, if_neg (by omega)]
      rfl

theorem not_user (inside : virtualAddress < 4294967296) :
    grants Page.user memory kernelDirectory virtualAddress = false := by
  unfold grants
  rcases Nat.lt_or_ge virtualAddress 4194304 with low | lower
  · rw [boot.directory_low low]
    rfl
  · rcases Nat.lt_or_ge virtualAddress 8388608 with upper | high
    · rw [boot.directory_second lower upper]
      rfl
    · rw [boot.walk_of_absent high inside]
      exact Bool.and_false _

/-- Both tables are entered with `rw`, so that the page entry decides. -/
theorem readOnly_iff (layout : SectionLayout sections) (lower : 0x1000 ≤ virtualAddress)
    (upper : virtualAddress < 0x00800000) :
    grants Page.rw memory kernelDirectory virtualAddress = false ↔
      sections.textStart ≤ virtualAddress ∧ virtualAddress < sections.dataStart := by
  have dataUpper := layout.upper
  unfold grants
  rcases Nat.lt_or_ge virtualAddress 4194304 with low | second
  · have pageVal : (pageIndex virtualAddress).val = virtualAddress / 4096 := by
      unfold pageIndex
      rw [Fin.val_ofNat]
      omega
    rw [boot.directory_low low, boot.walk_first low, if_neg (by omega)]
    unfold kernelPage
    rw [Option.any_some, Bool.true_and, pageVal]
    exact isWriteable_eq_false_iff layout
  · rw [boot.directory_second second upper, boot.walk_second second upper]
    unfold secondPage
    rw [Option.any_some, Bool.true_and]
    refine iff_of_false Bool.noConfusion ?_
    omega

end BootTables

/-- The identity map of boot: it covers exactly the addresses from 4 KiB up to 8 MiB, is
closed to user code, and is read-only exactly on the code and the constants. -/
theorem pagingInit_identity {first second third : Nat} (layout : SectionLayout sections)
    (frames : ThreeFrames frameBitmap memory first second third) :
    let paging := pagingInit sections frameBitmap memory
    paging.kernelDirectory = first ∧
    ∀ virtualAddress < 4294967296,
      physicalAddress paging.memory (Page.frameOf first) virtualAddress =
        (if 0x1000 ≤ virtualAddress ∧ virtualAddress < 0x00800000 then some virtualAddress
          else none) ∧
      grants Page.user paging.memory (Page.frameOf first) virtualAddress = false ∧
      (0x1000 ≤ virtualAddress → virtualAddress < 0x00800000 →
        (grants Page.rw paging.memory (Page.frameOf first) virtualAddress = false ↔
          sections.textStart ≤ virtualAddress ∧ virtualAddress < sections.dataStart)) := by
  obtain ⟨rfl, rfl, rfl, _, _, _, firstSecond, firstThird, secondThird⟩ := frames
  obtain ⟨kernelDirectory, directory⟩ := pmmAllocateFrame_frame frameBitmap memory
  obtain ⟨kernelPageTable, table⟩ :=
    pmmAllocateFrame_frame frameBitmap (pmmAllocateFrame frameBitmap memory).2
  obtain ⟨secondPageTable, secondTable⟩ := pmmAllocateFrame_frame frameBitmap
    (pmmAllocateFrame frameBitmap (pmmAllocateFrame frameBitmap memory).2).2
  rw [directory, table] at firstSecond
  rw [directory, secondTable] at firstThird
  rw [table, secondTable] at secondThird
  dsimp only
  rw [pagingInit_writes directory table secondTable, directory, frameOf_frameAddress]
  have boot : BootTables (tablesOf (writeTables sections kernelDirectory kernelPageTable
      secondPageTable (pmmAllocateFrame frameBitmap (pmmAllocateFrame frameBitmap
        (pmmAllocateFrame frameBitmap memory).2).2).2))
      sections kernelDirectory kernelPageTable secondPageTable :=
    writeTables_tables (ne_of_frameAddress_ne firstSecond) (ne_of_frameAddress_ne firstThird)
      (ne_of_frameAddress_ne secondThird)
  refine ⟨rfl, fun virtualAddress inside => ⟨boot.physicalAddress_eq inside, boot.not_user inside, ?_⟩⟩
  exact fun lower upper => boot.readOnly_iff layout lower upper

/-- A small bitmap of which only frame 0 is taken: frames 1, 2 and 3 hold the tables. -/
theorem pagingInit_identity_sample :
    physicalAddress
      (pagingInit ⟨0x00100000, 0x00102000, 0x00103000⟩ ⟨0x00400000, 8⟩
        (Memory.store32 (fun _ => 0) 0x00400000 1)).memory
      (Page.frameOf 0x1000) 0x00101234 = some 0x00101234 := by
  have layout : SectionLayout ⟨0x00100000, 0x00102000, 0x00103000⟩ := by
    constructor <;> decide
  have frames : ThreeFrames ⟨0x00400000, 8⟩ (Memory.store32 (fun _ => 0) 0x00400000 1)
      0x1000 0x2000 0x3000 := by
    constructor <;> decide
  exact ((pagingInit_identity layout frames).2 0x00101234 (by decide)).1

end KdbOS.Kernel
