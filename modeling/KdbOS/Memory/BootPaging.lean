import KdbOS.Kernel.Boot
import KdbOS.Memory.PageStructures

/-! The address space that boot leaves to the virtual memory manager: `paging_init` maps
the first 8 MiB, apart from page 0, to themselves. -/

set_option autoImplicit false

namespace KdbOS.Kernel

open Library Ds Klibc Pmm Arch Vmm

variable {sections : KernelSections} {totalRamBytes : Nat} {memory : Memory}
variable {frames : FrameAllocator} {kernelDirectory kernelPageTable secondPageTable frame : Frame}
variable {slot index : EntryIndex}

/-- The entries that `paging_init` writes into the first table. -/
def kernelPage (sections : KernelSections) (index : EntryIndex) : Page where
  present := decide (index ≠ 0)
  rw := isWriteable sections (index.val * 4096)
  user := false
  reserved := 0
  frameAddr := Fin.ofNat 1048576 index.val

/-- The entries that `paging_init` writes into the second table. -/
def secondPage (index : EntryIndex) : Page where
  present := true
  rw := true
  user := false
  reserved := 0
  frameAddr := Fin.ofNat 1048576 (1024 + index.val)

/-- The directory after `paging_init`. -/
def kernelEntry (kernelPageTable secondPageTable : Frame) (slot : EntryIndex) : Page :=
  if slot = 0 then ⟨true, true, false, 0, kernelPageTable⟩
  else if slot = 1 then ⟨true, true, false, 0, secondPageTable⟩
  else Page.decode 0

/-- The three tables that `paging_init` leaves. -/
structure BootTables (tables : Tables Frame EntryIndex Page) (sections : KernelSections)
    (kernelDirectory kernelPageTable secondPageTable : Frame) : Prop where
  directory : ∀ slot, tables kernelDirectory slot = kernelEntry kernelPageTable secondPageTable slot
  kernelPages : ∀ index, tables kernelPageTable index = kernelPage sections index
  secondPages : ∀ index, tables secondPageTable index = secondPage index

/-- What `paging_init` writes once it has its three frames. -/
def writeTables (sections : KernelSections) (kernelDirectory kernelPageTable secondPageTable : Frame)
    (memory : Memory) : Memory :=
  let memory := clearFrame kernelDirectory memory
  let memory := clearFrame kernelPageTable memory
  let memory := clearFrame secondPageTable memory
  let memory := (List.range totalEntries).foldl (fun memory i =>
    updateEntry (frameAddress kernelPageTable) i (fun page =>
      { page with
        present := true
        user := false
        rw := isWriteable sections (i * pageSize)
        frameAddr := Page.frameOf (i * pageSize) }) memory) memory
  let memory := changeEntry kernelPageTable 0 (fun page => { page with present := false }) memory
  let memory := (List.range totalEntries).foldl (fun memory i =>
    updateEntry (frameAddress secondPageTable) i (fun page =>
      { page with
        present := true
        rw := true
        user := false
        frameAddr := Page.frameOf (4 * 1024 * 1024 + i * pageSize) }) memory) memory
  let memory := changeEntry kernelDirectory 0 (fun entry =>
    { entry with
      present := true, rw := true, user := false
      frameAddr := Page.frameOf (frameAddress kernelPageTable) }) memory
  changeEntry kernelDirectory 1 (fun entry =>
    { entry with
      present := true, rw := true, user := false
      frameAddr := Page.frameOf (frameAddress secondPageTable) }) memory

/-- `paging_init` for the three addresses that the allocator returns. -/
theorem pagingInit_writes {frameBitmap : Bitmap}
    (directory : (pmmAllocateFrame frameBitmap memory).1 = frameAddress kernelDirectory)
    (first : (pmmAllocateFrame frameBitmap (pmmAllocateFrame frameBitmap memory).2).1 =
      frameAddress kernelPageTable)
    (second : (pmmAllocateFrame frameBitmap (pmmAllocateFrame frameBitmap
      (pmmAllocateFrame frameBitmap memory).2).2).1 = frameAddress secondPageTable) :
    pagingInit sections frameBitmap memory =
      ⟨frameAddress kernelDirectory, frameAddress kernelPageTable, frameAddress secondPageTable,
        writeTables sections kernelDirectory kernelPageTable secondPageTable
          (pmmAllocateFrame frameBitmap (pmmAllocateFrame frameBitmap
            (pmmAllocateFrame frameBitmap memory).2).2).2⟩ := by
  rw [← directory, ← first, ← second]
  unfold writeTables clearFrame changeEntry
  rw [← directory, ← first, ← second]
  rfl

theorem pagingInit_eq
    (directory : frames.allocate.1 = frameAddress kernelDirectory)
    (first : frames.allocate.2.allocate.1 = frameAddress kernelPageTable)
    (second : frames.allocate.2.allocate.2.allocate.1 = frameAddress secondPageTable) :
    pagingInit sections frames.frameBitmap frames.storage =
      ⟨frameAddress kernelDirectory, frameAddress kernelPageTable, frameAddress secondPageTable,
        writeTables sections kernelDirectory kernelPageTable secondPageTable
          frames.allocate.2.allocate.2.allocate.2.storage⟩ :=
  pagingInit_writes directory first second

theorem writeTables_tables
    (apartFirst : kernelDirectory ≠ kernelPageTable)
    (apartSecond : kernelDirectory ≠ secondPageTable)
    (apartTables : kernelPageTable ≠ secondPageTable) :
    BootTables
      (tablesOf (writeTables sections kernelDirectory kernelPageTable secondPageTable memory))
        sections kernelDirectory kernelPageTable secondPageTable := by
  unfold writeTables
  extract_lets cleared first both filled holed second linked
  have zero : ∀ frame, frame = kernelDirectory ∨ frame = kernelPageTable ∨ frame = secondPageTable →
      ∀ index, tablesOf both frame index = Page.decode 0 := by
    intro frame either index
    rw [tablesOf_clearFrame, tablesOf_clearFrame, tablesOf_clearFrame]
    unfold Tables.fill
    split_ifs with isSecond isFirst isDirectory
    · rfl
    · rfl
    · rfl
    · rcases either with rfl | rfl | rfl <;> contradiction
  have filledTables : ∀ index, tablesOf filled kernelPageTable index =
      { tablesOf both kernelPageTable index with
        present := true, user := false, rw := isWriteable sections (index.val * pageSize)
        frameAddr := Page.frameOf (index.val * pageSize) } :=
    tablesOf_fillEntries_self kernelPageTable _ both
  have filledTables_of_ne : ∀ {frame}, frame ≠ kernelPageTable →
      tablesOf filled frame = tablesOf both frame := tablesOf_fillEntries_of_ne _ both
  have secondTables : ∀ index, tablesOf second secondPageTable index =
      { tablesOf holed secondPageTable index with
        present := true, rw := true, user := false
        frameAddr := Page.frameOf (4 * 1024 * 1024 + index.val * pageSize) } :=
    tablesOf_fillEntries_self secondPageTable _ holed
  have secondTables_of_ne : ∀ {frame}, frame ≠ secondPageTable →
      tablesOf second frame = tablesOf holed frame := tablesOf_fillEntries_of_ne _ holed
  have holedTables : tablesOf holed = (tablesOf filled).set kernelPageTable 0
      { tablesOf filled kernelPageTable 0 with present := false } := tablesOf_changeEntry _
  have linkedTables : tablesOf linked = (tablesOf second).set kernelDirectory 0
      { tablesOf second kernelDirectory 0 with
        present := true, rw := true, user := false
        frameAddr := Page.frameOf (frameAddress kernelPageTable) } := tablesOf_changeEntry _
  rw [tablesOf_changeEntry]
  refine ⟨fun slot => ?_, fun index => ?_, fun index => ?_⟩
  · have empty : ∀ slot, tablesOf second kernelDirectory slot = Page.decode 0 := by
      intro slot
      rw [secondTables_of_ne apartSecond, holedTables,
        Tables.set_of_frame_ne apartFirst, filledTables_of_ne apartFirst,
        zero _ (.inl rfl)]
    unfold kernelEntry
    by_cases isOne : slot = 1
    · subst isOne
      have notZero : (1 : EntryIndex) ≠ 0 := by decide
      rw [Tables.set_self, linkedTables, Tables.set_of_index_ne notZero, empty, if_neg notZero,
        if_pos rfl, frameOf_frameAddress]
      rfl
    · rw [Tables.set_of_index_ne isOne, linkedTables, if_neg isOne]
      by_cases isZero : slot = 0
      · subst isZero
        rw [Tables.set_self, empty, if_pos rfl, frameOf_frameAddress]
        rfl
      · rw [Tables.set_of_index_ne isZero, empty, if_neg isZero]
  · rw [Tables.set_of_frame_ne apartFirst.symm, linkedTables, Tables.set_of_frame_ne apartFirst.symm,
      secondTables_of_ne apartTables, holedTables]
    have page : tablesOf filled kernelPageTable index = { kernelPage sections index with
        present := true } := by
      rw [filledTables, zero _ (.inr (.inl rfl))]
      unfold kernelPage Page.frameOf pageSize
      rw [Nat.mul_div_cancel _ (by decide)]
      rfl
    by_cases isZero : index = 0
    · subst isZero
      rw [Tables.set_self, page]
      rfl
    · rw [Tables.set_of_index_ne isZero, page, kernelPage, decide_eq_true isZero]
  · rw [Tables.set_of_frame_ne apartSecond.symm, linkedTables, Tables.set_of_frame_ne apartSecond.symm,
      secondTables, holedTables, Tables.set_of_frame_ne apartTables.symm,
      filledTables_of_ne apartTables.symm, zero _ (.inr (.inr rfl))]
    have number : (4 * 1024 * 1024 + index.val * pageSize) / 4096 = 1024 + index.val := by
      unfold pageSize
      omega
    unfold secondPage Page.frameOf
    rw [number]
    rfl

/-! ## The tables as the hardware reads them -/

namespace BootTables

variable (boot : BootTables (tablesOf memory) sections kernelDirectory kernelPageTable
  secondPageTable)

include boot

theorem kernelSlot_of_present {slot : EntryIndex}
    (isPresent : (tablesOf memory kernelDirectory slot).present = true) :
    slot = 0 ∧ (tablesOf memory kernelDirectory slot).frameAddr = kernelPageTable ∨
      slot = 1 ∧ (tablesOf memory kernelDirectory slot).frameAddr = secondPageTable := by
  rw [boot.directory, kernelEntry] at isPresent ⊢
  by_cases isZero : slot = 0
  · rw [if_pos isZero]
    exact .inl ⟨isZero, rfl⟩
  · rw [if_neg isZero] at isPresent ⊢
    by_cases isOne : slot = 1
    · rw [if_pos isOne]
      exact .inr ⟨isOne, rfl⟩
    · rw [if_neg isOne] at isPresent
      cases isPresent

theorem laid (apartFirst : kernelDirectory ≠ kernelPageTable)
    (apartSecond : kernelDirectory ≠ secondPageTable)
    (apartTables : kernelPageTable ≠ secondPageTable) :
    Laid (tablesOf memory) kernelDirectory {kernelDirectory} where
  kernel := rfl
  separate := {
    apart := by
      rintro _ rfl slot isPresent same
      rcases boot.kernelSlot_of_present isPresent with ⟨_, target⟩ | ⟨_, target⟩
      · exact apartFirst (same.symm.trans target)
      · exact apartSecond (same.symm.trans target)
    unique := by
      rintro _ rfl _ rfl slot other isPresent otherPresent same
      refine ⟨?_, .inl rfl⟩
      rw [tableEntry_target, tableEntry_target] at same
      rcases boot.kernelSlot_of_present isPresent with ⟨rfl, target⟩ | ⟨rfl, target⟩
      · rcases boot.kernelSlot_of_present otherPresent with ⟨rfl, otherTarget⟩ | ⟨rfl, otherTarget⟩
        · rfl
        · exact absurd (target.symm.trans (same.trans otherTarget)) apartTables
      · rcases boot.kernelSlot_of_present otherPresent with ⟨rfl, otherTarget⟩ | ⟨rfl, otherTarget⟩
        · exact absurd (otherTarget.symm.trans (same.symm.trans target)) apartTables
        · rfl }
  isPresent := by
    rw [boot.directory]
    rfl

theorem walk_zero : walk memory kernelDirectory 0 = none := by
  cases found : walk memory kernelDirectory 0 with
  | none => rfl
  | some page =>
      obtain ⟨_, entry, isPresent⟩ := Tables.walk_eq_some_iff.mp found
      have target : (tablesOf memory kernelDirectory (directoryIndex 0)).frameAddr =
          kernelPageTable := by
        rw [boot.directory]
        rfl
      rw [tableEntry_target, target, boot.kernelPages] at entry
      rw [← entry] at isPresent
      cases isPresent

/-- The pages of the first 8 MiB, apart from page 0, are mapped to themselves. -/
theorem walk_low (notZero : frame ≠ 0) (low : frame.val < 2048) :
    ∃ entry, walk memory kernelDirectory (frameAddress frame) = some entry ∧
      entry.frameAddr = frame ∧ entry.user = false := by
  have notZeroVal : frame.val ≠ 0 := fun zero => notZero (Fin.ext zero)
  have page : (pageIndex (frameAddress frame)).val = frame.val % 1024 := by
    unfold pageIndex frameAddress pageSize
    rw [Fin.val_ofNat]
    omega
  have slotVal : (directoryIndex (frameAddress frame)).val = frame.val / 1024 := by
    unfold directoryIndex frameAddress pageSize
    rw [Fin.val_ofNat]
    omega
  by_cases first : frame.val < 1024
  · have slot : directoryIndex (frameAddress frame) = 0 := by
      rw [Fin.ext_iff, slotVal]
      omega
    refine ⟨kernelPage sections (pageIndex (frameAddress frame)),
      Tables.walk_eq_some_iff.mpr ⟨?_, ?_, ?_⟩, ?_, rfl⟩
    · rw [slot, boot.directory]
      rfl
    · rw [slot, boot.directory]
      exact boot.kernelPages _
    · refine decide_eq_true fun isZero => ?_
      rw [isZero] at page
      have : (0 : EntryIndex).val = 0 := rfl
      omega
    · rw [kernelPage, page, Nat.mod_eq_of_lt first]
      exact Fin.ofNat_val_eq_self frame
  · have slot : directoryIndex (frameAddress frame) = 1 := by
      rw [Fin.ext_iff, slotVal]
      have : (1 : EntryIndex).val = 1 := rfl
      omega
    refine ⟨secondPage (pageIndex (frameAddress frame)),
      Tables.walk_eq_some_iff.mpr ⟨?_, ?_, rfl⟩, ?_, rfl⟩
    · rw [slot, boot.directory]
      rfl
    · rw [slot, boot.directory]
      exact boot.secondPages _
    · have number : 1024 + frame.val % 1024 = frame.val := by omega
      rw [secondPage, page, number]
      exact Fin.ofNat_val_eq_self frame

end BootTables

/-! ## The machine after boot -/

/-- The allocator that `pmm_init` sets up. -/
def bootFrames (ram : totalRamBytes < 4294967296) (memory : Memory) : FrameAllocator where
  frameBitmap := initBitmap totalRamBytes bitmapAddr
  storage := (pmmInit totalRamBytes bitmapAddr memory).2.2
  fits := initBitmap_fits (by have := bitmapEnd_bounds ram; omega)
  bounded := by
    show totalRamBytes / 4096 ≤ 1048576
    omega
  zeroUsed := fun inside => by
    have bounds := bitmapEnd_bounds ram
    rw [pmmInit_bitmapTest ram (by omega)]
    exact decide_eq_true ⟨by omega, inside⟩

/-- What `pmm_init` and `paging_init` leave; the bitmap is kept apart from the frames. -/
def bootMachine (sections : KernelSections) (ram : totalRamBytes < 4294967296) (memory : Memory) :
    Machine :=
  let frames := bootFrames ram memory
  let paging := pagingInit sections frames.frameBitmap frames.storage
  { memory := paging.memory
    frames := frames.allocate.2.allocate.2.allocate.2
    kernelDirectory := Page.frameOf paging.kernelDirectory
    direct := [] }

/-- The number of the first frame that boot takes. -/
def firstBootFrame (totalRamBytes : Nat) : Nat := bitmapEnd totalRamBytes bitmapAddr / 4096

/-- There are frames for the three tables of `paging_init`. -/
def LeavesTables (totalRamBytes : Nat) : Prop :=
  firstBootFrame totalRamBytes + 3 ≤ totalRamBytes / 4096

theorem bootFrames_freeFrom (ram : totalRamBytes < 4294967296) (memory : Memory) :
    (bootFrames ram memory).FreeFrom (firstBootFrame totalRamBytes) := by
  intro frame
  have bounds := bitmapEnd_bounds ram
  have bits := pmmInit_bitmapTest ram (by omega : bitmapEnd totalRamBytes bitmapAddr < 4294967296)
    memory frame.val
  show frame.val < totalRamBytes / 4096 ∧ bitmapTest _ _ _ = false ↔
    firstBootFrame totalRamBytes ≤ frame.val ∧ frame.val < totalRamBytes / 4096
  rw [show bitmapTest (bootFrames ram memory).frameBitmap frame.val
    (bootFrames ram memory).storage = _ from bits, decide_eq_false_iff_not]
  unfold firstBootFrame
  omega

/-- The state that boot leaves: three frames in a row are taken for the tables, and the
frames after them are free. -/
structure Booted (s : Machine) (sections : KernelSections)
    (kernelPageTable secondPageTable : Frame) : Prop where
  tables : BootTables (tablesOf s.memory) sections s.kernelDirectory kernelPageTable secondPageTable
  first : kernelPageTable.val = s.kernelDirectory.val + 1
  second : secondPageTable.val = s.kernelDirectory.val + 2
  lower : 1024 ≤ s.kernelDirectory.val
  upper : s.kernelDirectory.val ≤ 1056
  free : s.frames.FreeFrom (s.kernelDirectory.val + 3)
  direct : s.direct = []

/-- Three frames in a row become the tables. -/
theorem bootMachine_writes (sections : KernelSections) (ram : totalRamBytes < 4294967296)
    (memory : Memory) (leaves : LeavesTables totalRamBytes) :
    ∃ kernelDirectory kernelPageTable secondPageTable : Frame,
      kernelDirectory.val = firstBootFrame totalRamBytes ∧
      kernelPageTable.val = firstBootFrame totalRamBytes + 1 ∧
      secondPageTable.val = firstBootFrame totalRamBytes + 2 ∧
      (bootMachine sections ram memory).kernelDirectory = kernelDirectory ∧
      (bootMachine sections ram memory).memory =
        writeTables sections kernelDirectory kernelPageTable secondPageTable
          (bootFrames ram memory).allocate.2.allocate.2.allocate.2.storage ∧
      (bootMachine sections ram memory).frames.FreeFrom (firstBootFrame totalRamBytes + 3) := by
  unfold LeavesTables at leaves
  have total : (bootFrames ram memory).frameBitmap.totalBits = totalRamBytes / 4096 := rfl
  obtain ⟨kernelDirectory, isFirst, directory, afterDirectory⟩ :=
    (bootFrames_freeFrom ram memory).allocate (by omega)
  obtain ⟨kernelPageTable, isSecond, first, afterFirst⟩ := afterDirectory.allocate (by
    show firstBootFrame totalRamBytes + 1 < totalRamBytes / 4096
    omega)
  obtain ⟨secondPageTable, isThird, second, afterSecond⟩ := afterFirst.allocate (by
    show firstBootFrame totalRamBytes + 1 + 1 < totalRamBytes / 4096
    omega)
  have paging : pagingInit sections (bootFrames ram memory).frameBitmap
      (bootFrames ram memory).storage = _ := pagingInit_eq directory first second
  refine ⟨kernelDirectory, kernelPageTable, secondPageTable, isFirst, isSecond, isThird, ?_, ?_,
    afterSecond⟩
  · show Page.frameOf (pagingInit sections (bootFrames ram memory).frameBitmap
      (bootFrames ram memory).storage).kernelDirectory = kernelDirectory
    rw [paging]
    exact frameOf_frameAddress kernelDirectory
  · show (pagingInit sections (bootFrames ram memory).frameBitmap
      (bootFrames ram memory).storage).memory = _
    rw [paging]

theorem bootMachine_booted (sections : KernelSections) (ram : totalRamBytes < 4294967296)
    (memory : Memory) (leaves : LeavesTables totalRamBytes) :
    (bootMachine sections ram memory).kernelDirectory.val = firstBootFrame totalRamBytes ∧
      (bootMachine sections ram memory).frames.frameBitmap.totalBits = totalRamBytes / 4096 ∧
      ∃ kernelPageTable secondPageTable,
        Booted (bootMachine sections ram memory) sections kernelPageTable secondPageTable := by
  have bounds := bitmapEnd_bounds ram
  obtain ⟨kernelDirectory, kernelPageTable, secondPageTable, isFirst, isSecond, isThird,
    isDirectory, isMemory, free⟩ := bootMachine_writes sections ram memory leaves
  have apart : ∀ {one other : Frame}, one.val ≠ other.val → one ≠ other :=
    fun different same => different (congrArg Fin.val same)
  refine ⟨by rw [isDirectory, isFirst], rfl, kernelPageTable, secondPageTable, ?_⟩
  constructor
  · rw [isMemory, isDirectory]
    exact writeTables_tables (apart (by omega)) (apart (by omega)) (apart (by omega))
  · rw [isDirectory, isFirst, isSecond]
  · rw [isDirectory, isFirst, isThird]
  · rw [isDirectory, isFirst]
    unfold firstBootFrame
    omega
  · rw [isDirectory, isFirst]
    unfold firstBootFrame
    omega
  · rw [isDirectory, isFirst]
    exact free
  · rfl

namespace Booted

variable {s : Machine} (booted : Booted s sections kernelPageTable secondPageTable)

include booted

theorem apart : s.kernelDirectory ≠ kernelPageTable ∧ s.kernelDirectory ≠ secondPageTable ∧
    kernelPageTable ≠ secondPageTable := by
  have first := booted.first
  have second := booted.second
  refine ⟨fun same => ?_, fun same => ?_, fun same => ?_⟩
  all_goals
    have := congrArg Fin.val same
    omega

/-- The frames below that of the window are addressed by their physical addresses. -/
theorem addresses_low (notZero : frame ≠ 0) (low : frame.val < 2047) :
    Addresses s (frameAddress frame) frame := by
  obtain ⟨entry, found, target, _⟩ := booted.tables.walk_low notZero (by omega)
  exact ⟨by rw [Sees, Arch.translate, found, Option.map_some, target], not_windowPage_of_lt low⟩

theorem secondTable : s.secondTable = secondPageTable := by
  rw [Machine.secondTable, booted.tables.directory]
  rfl

theorem pageStructures : PageStructures s {s.kernelDirectory} := by
  obtain ⟨apartFirst, apartSecond, apartTables⟩ := booted.apart
  have first := booted.first
  have second := booted.second
  have lower := booted.lower
  have upper := booted.upper
  refine ⟨booted.tables.laid apartFirst apartSecond apartTables, ?_, ?_, ?_⟩
  · intro frame linked free
    have above := ((booted.free frame).mp free).1
    rcases linked with rfl | ⟨_, rfl, slot, isPresent, rfl⟩
    · omega
    · rw [tableEntry_target] at above
      rcases booted.tables.kernelSlot_of_present isPresent with ⟨_, target⟩ | ⟨_, target⟩
      · rw [target] at above
        omega
      · rw [target] at above
        omega
  · refine booted.addresses_low (fun zero => ?_) (by omega)
    have := congrArg Fin.val zero
    have : (0 : Frame).val = 0 := rfl
    omega
  · rw [booted.secondTable]
    refine booted.addresses_low (fun zero => ?_) (by omega)
    have := congrArg Fin.val zero
    have : (0 : Frame).val = 0 := rfl
    omega

/-- Above the first 8 MiB nothing is mapped. -/
theorem absent_of_high {slot : EntryIndex} (high : ¬ KernelSlot slot) :
    (tablesOf s.memory s.kernelDirectory slot).present = false := by
  cases level : (tablesOf s.memory s.kernelDirectory slot).present with
  | false => rfl
  | true =>
      rcases booted.tables.kernelSlot_of_present level with ⟨rfl, _⟩ | ⟨rfl, _⟩
      · exact absurd (by decide : (0 : EntryIndex).val < 2) high
      · exact absurd (by decide : (1 : EntryIndex).val < 2) high

end Booted

/-- The machine after boot with 128 MiB of RAM: the bitmap ends where a page begins. -/
def sampleMachine : Machine :=
  bootMachine ⟨1048576, 1052672, 1056768⟩ (by decide : 134217728 < 4294967296) fun _ => 0

theorem sampleMachine_booted :
    sampleMachine.kernelDirectory.val = 1025 ∧
      sampleMachine.frames.frameBitmap.totalBits = 32768 ∧
      ∃ sections kernelPageTable secondPageTable,
        Booted sampleMachine sections kernelPageTable secondPageTable := by
  have leaves : LeavesTables 134217728 := by
    unfold LeavesTables
    decide
  obtain ⟨first, total, kernelPageTable, secondPageTable, booted⟩ :=
    bootMachine_booted ⟨1048576, 1052672, 1056768⟩ (by decide : 134217728 < 4294967296) (fun _ => 0)
      leaves
  exact ⟨first, total, _, _, _, booted⟩

end KdbOS.Kernel
