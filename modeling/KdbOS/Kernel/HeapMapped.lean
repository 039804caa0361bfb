import KdbOS.Proc.DirectAccesses

/-! The pages of the heap region in `kernel_directory`. The temporary window borrows the
last of them, and gives it back unmapped. -/

set_option autoImplicit false

namespace KdbOS.Kernel

open Library Klibc Pmm Arch Vmm Proc

variable {sections : KernelSections} {totalRamBytes address start : Nat} {memory : Memory}
variable {kernelPageTable secondPageTable frame table : Frame} {index : EntryIndex}
variable {s t : Machine}

/-- The machine after `kmalloc_init`, which writes the first header of the heap. -/
def heapMachine (sections : KernelSections) (ram : totalRamBytes < 4294967296) (memory : Memory) :
    Machine :=
  let machine := bootMachine sections ram memory
  { machine with memory := kmallocInit (bitmapEnd totalRamBytes bitmapAddr) machine.memory }

/-- The kernel finds the address at itself, in a page that it may write to. -/
def MappedToItself (s : Machine) (address : Nat) : Prop :=
  physicalAddress s.memory s.kernelDirectory address = some address ∧
    grants Page.rw s.memory s.kernelDirectory address = true

/-- It does so after all runs of the virtual memory manager whose calls find room. -/
def StaysMapped (start : Machine) (address : Nat) : Prop :=
  ∀ trace final, VmmRun start trace final →
    (∀ transition ∈ trace, Roomy transition.before (.vmm transition.label)) →
      MappedToItself final.machine address

/-! ## Pages -/

theorem translate_of_samePage {first second : Nat} (same : SamePage first second)
    (memory : Memory) (directory : Frame) :
    Arch.translate memory directory first = Arch.translate memory directory second := by
  unfold Arch.translate walk
  rw [same.1, same.2]

theorem samePage_of_div {first second : Nat} (same : first / 4096 = second / 4096) :
    SamePage first second := by
  have slots : first / 4194304 = second / 4194304 := by omega
  unfold SamePage directoryIndex pageIndex
  rw [same, slots]
  exact ⟨rfl, rfl⟩

theorem MappedToItself.sees (mapped : MappedToItself s address) (number : frame.val = address / 4096) :
    Sees s (frameAddress frame) frame := by
  obtain ⟨found, translated, same⟩ := Option.map_eq_some_iff.mp mapped.1
  have isFrame : found = frame := by
    refine Fin.ext ?_
    rw [number]
    unfold frameAddress pageSize at same
    omega
  have page : SamePage (frameAddress frame) address := by
    refine samePage_of_div ?_
    rw [← number]
    unfold frameAddress pageSize
    omega
  rw [Sees, translate_of_samePage page, translated, isFrame]

/-- The page of the window after its use. -/
theorem not_mappedToItself (used : WindowUsed s t) (apart : s.kernelDirectory ≠ s.secondTable)
    (lower : vmmTempWindowVirtual ≤ address) (upper : address < 0x00800000) :
    ¬ MappedToItself t address := by
  rintro ⟨found, _⟩
  have page : SamePage address vmmTempWindowVirtual := by
    refine samePage_of_div ?_
    unfold vmmTempWindowVirtual at *
    omega
  rw [physicalAddress, translate_of_samePage page, used.translate_window apart] at found
  cases found

/-- The kernel's directory and its second table as the window needs them. -/
structure WindowReady (s : Machine) : Prop where
  isPresent : (tablesOf s.memory s.kernelDirectory 1).present = true
  apart : s.kernelDirectory ≠ s.secondTable
  directory : Sees s (frameAddress s.kernelDirectory) s.kernelDirectory
  directoryPage : pageIndex (frameAddress s.kernelDirectory) ≠ 1023
  table : Sees s (frameAddress s.secondTable) s.secondTable
  tablePage : ¬ WindowCell s (pointerTable s (frameAddress s.secondTable))
    (pageIndex (frameAddress s.secondTable))

theorem WindowReady.pins (ready : WindowReady s) : KernelPins (WindowCell s) s s.secondTable where
  directory := ⟨ready.directory, fun cell => ready.apart cell.1, fun cell => ready.directoryPage cell.2⟩
  isPresent := ready.isPresent
  number := rfl
  entry cell := ready.apart cell.1
  table := ⟨ready.table, fun cell => ready.apart cell.1, ready.tablePage⟩
  window := ⟨rfl, rfl⟩

/-- One call that reads an entry through the window. -/
theorem WindowReady.run (ready : WindowReady s) :
    ∃ trace final, VmmRun s trace final ∧ trace.length = 1 ∧
      (∀ transition ∈ trace, Roomy transition.before (.vmm transition.label)) ∧
      ∀ address, vmmTempWindowVirtual ≤ address → address < 0x00800000 →
        ¬ MappedToItself final.machine address := by
  have isPresent : (tablesOf s.memory s.kernelDirectory (directoryIndex bitmapAddr)).present = true :=
    ready.isPresent
  obtain ⟨t, page, called, used, _⟩ :=
    vmmGetPhysicalAddress_of_pins ready.pins ready.directory isPresent
  have performed : (VmmCall.getPhysicalAddress (frameAddress s.kernelDirectory) bitmapAddr).perform s =
      .ok (frameAddress page.frameAddr) t := called
  have valid : (VmmCall.getPhysicalAddress (frameAddress s.kernelDirectory) bitmapAddr).Valid
      ⟨s, {s.kernelDirectory}⟩ :=
    ⟨_, rfl, ready.directory, fun window => ready.directoryPage window.2⟩
  refine ⟨_, _, .single valid performed, rfl, fun transition member => ?_, fun address lower upper =>
    not_mappedToItself used ready.apart lower upper⟩
  rw [List.mem_singleton.mp member]
  exact ⟨trivial, .inl (Nat.zero_le _)⟩

theorem WindowReady.not_staysMapped (ready : WindowReady s) (lower : vmmTempWindowVirtual ≤ address)
    (upper : address < 0x00800000) : ¬ StaysMapped s address := by
  intro stays
  obtain ⟨trace, final, run, _, roomy, unmapped⟩ := ready.run
  exact unmapped address lower upper (stays trace final run roomy)

theorem windowReady_of_structures {directories : Set Frame} (structures : PageStructures s directories)
    (low : s.kernelDirectory.val < 2047) (lower : 1024 ≤ s.kernelDirectory.val) : WindowReady s where
  isPresent := structures.laid.isPresent
  apart := structures.kernelDirectory_ne_secondTable
  directory := structures.kernelDirectory.sees
  directoryPage := by
    intro last
    have value := congrArg Fin.val last
    have isLast : (1023 : EntryIndex).val = 1023 := rfl
    unfold pageIndex frameAddress pageSize at value
    rw [Fin.val_ofNat] at value
    omega
  table := structures.secondTable.sees
  tablePage := (structures.pinned_window structures.secondTable).lower

/-! ## The other pages -/

/-- The pages of the region below the window's stay where `paging_init` has mapped them. -/
theorem staysMapped_of_lt (booted : Booted s sections kernelPageTable secondPageTable)
    (lower : bitmapAddr ≤ address) (below : address < vmmTempWindowVirtual) :
    StaysMapped s address := by
  intro trace final run roomy
  have processRun : ProcessRun s _ final := run.relabel ProcessCall.vmm fun step => by
    obtain ⟨valid, performed⟩ := step
    exact ProcessStep.returns valid performed
  have kept := (processRun.inOrder (.of_booted booted (.inl (Nat.zero_le _))) fun transition member => by
    obtain ⟨original, isOriginal, rfl⟩ := List.mem_map.mp member
    exact roomy original isOriginal).sound.low
  unfold bitmapAddr vmmTempWindowVirtual at *
  have slot : directoryIndex address = 1 := by
    unfold directoryIndex
    rw [Fin.ext_iff, Fin.val_ofNat]
    show _ = 1
    omega
  have page : (pageIndex address).val = address / 4096 - 1024 := by
    unfold pageIndex
    rw [Fin.val_ofNat]
    omega
  have low : KernelSlot (1 : EntryIndex) := by decide
  have outside : ¬ WindowPage (1 : EntryIndex) (pageIndex address) := by
    rintro ⟨_, last⟩
    have isLast : (1023 : EntryIndex).val = 1023 := rfl
    rw [last] at page
    omega
  have entry : tablesOf final.machine.memory final.machine.kernelDirectory 1 =
      kernelEntry kernelPageTable secondPageTable 1 := by
    rw [kept.kernelDirectory, kept.entries 1 low, booted.tables.directory]
  have found : walk final.machine.memory final.machine.kernelDirectory address =
      some (secondPage (pageIndex address)) := by
    rw [walk, slot, kept.kernelDirectory, kept.walks 1 _ low outside]
    refine Tables.walk_eq_some_iff.mpr ⟨?_, ?_, rfl⟩
    · rw [booted.tables.directory]
      rfl
    · rw [booted.tables.directory]
      exact booted.tables.secondPages _
  constructor
  · rw [physicalAddress, Arch.translate, found]
    show some (frameAddress (Fin.ofNat 1048576 (1024 + (pageIndex address).val)) +
      address % pageSize) = some address
    rw [page, frameAddress, Fin.val_ofNat]
    unfold pageSize
    exact congrArg some (by omega)
  · rw [grants, slot, entry, found]
    rfl

theorem staysMapped_iff (booted : Booted s sections kernelPageTable secondPageTable)
    (lower : bitmapAddr ≤ address) (upper : address < identityMappedCieling) :
    StaysMapped s address ↔ address < vmmTempWindowVirtual := by
  have lowerDirectory := booted.lower
  have upperDirectory := booted.upper
  have ready := windowReady_of_structures booted.pageStructures (by omega) lowerDirectory
  unfold identityMappedCieling at upper
  constructor
  · intro stays
    by_contra above
    exact ready.not_staysMapped (Nat.not_lt.mp above) (by omega) stays
  · exact staysMapped_of_lt booted lower

/-! ## The first header of the heap -/

theorem kmallocInit_of_outside (outside : address < start ∨ start + 12 ≤ address) :
    kmallocInit start memory address = memory address := by
  unfold kmallocInit setNext setIsFree setSize
  rw [Memory.store32_of_outside (by omega), Memory.store8_of_ne (by omega),
    Memory.store32_of_outside (by omega)]

theorem tablesOf_kmallocInit
    (outside : entryAddress (frameAddress frame) index + 4 ≤ start ∨
      start + 12 ≤ entryAddress (frameAddress frame) index) :
    tablesOf (kmallocInit start memory) frame index = tablesOf memory frame index :=
  congrArg Page.decode (Memory.load32_congr fun _ _ _ => kmallocInit_of_outside (by omega))

theorem kmallocInit_isFree : kmallocInit start memory (start + 4) = 1 := by
  unfold kmallocInit setNext setIsFree
  rw [Memory.store32_of_outside (by omega), Memory.store8_self]
  rfl

theorem load32_kmallocInit (lower : 4194304 ≤ start) (upper : start ≤ 4325376) :
    (kmallocInit start memory).load32 start = 8388595 - start := by
  unfold kmallocInit setNext setIsFree setSize
  rw [Memory.load32_store32_of_disjoint (by omega), Memory.load32_store8_of_outside (by omega),
    Memory.load32_store32_self]
  have size : u32Sub identityMappedCieling start = 8388607 - start := by
    unfold identityMappedCieling
    exact u32Sub_of_le (by omega)
  unfold headerSize
  rw [size, u32Sub_of_le (by omega), u32_of_lt (by omega)]
  omega

section Header

variable {ram : totalRamBytes < 4294967296}
  (booted : Booted (bootMachine sections ram memory) sections kernelPageTable secondPageTable)
  (isFirst : (bootMachine sections ram memory).kernelDirectory.val =
    bitmapEnd totalRamBytes bitmapAddr / 4096)

include isFirst

/-- Its flag lands on the low byte of the second entry, which loses its `rw` bit. -/
theorem heapMachine_readOnly (aligned : bitmapEnd totalRamBytes bitmapAddr % 4096 = 0) :
    (tablesOf (heapMachine sections ram memory).memory
      (heapMachine sections ram memory).kernelDirectory 1).rw = false := by
  have place : entryAddress (frameAddress (bootMachine sections ram memory).kernelDirectory) 1 =
      bitmapEnd totalRamBytes bitmapAddr + 4 := by
    unfold entryAddress frameAddress pageSize
    rw [isFirst]
    omega
  show (Page.decode (Memory.load32 (kmallocInit (bitmapEnd totalRamBytes bitmapAddr) _)
    (entryAddress (frameAddress (bootMachine sections ram memory).kernelDirectory) 1))).rw = false
  rw [place, Memory.load32, kmallocInit_isFree]
  refine decide_eq_false ?_
  have one : (1 : UInt8).toNat = 1 := rfl
  rw [one]
  omega

include booted

/-- The header leaves the window ready where it lies above the second entry. -/
theorem heapMachine_ready (above : 8 ≤ bitmapEnd totalRamBytes bitmapAddr % 4096) :
    WindowReady (heapMachine sections ram memory) := by
  have lower := booted.lower
  have upper := booted.upper
  have second := booted.second
  have bounds := bitmapEnd_bounds ram
  have entry : tablesOf (heapMachine sections ram memory).memory
      (heapMachine sections ram memory).kernelDirectory 1 =
        kernelEntry kernelPageTable secondPageTable 1 := by
    rw [← booted.tables.directory]
    refine tablesOf_kmallocInit (.inl ?_)
    show entryAddress (frameAddress (bootMachine sections ram memory).kernelDirectory) 1 + 4 ≤ _
    unfold entryAddress frameAddress pageSize
    omega
  have secondTable : (heapMachine sections ram memory).secondTable = secondPageTable := by
    rw [Machine.secondTable, entry]
    rfl
  -- The second table itself is not touched.
  have sees : ∀ frame : Frame, 1024 ≤ frame.val → frame.val < 2047 →
      Sees (heapMachine sections ram memory) (frameAddress frame) frame := by
    intro frame atLeast below
    have slot : directoryIndex (frameAddress frame) = 1 := by
      unfold directoryIndex frameAddress pageSize
      rw [Fin.ext_iff, Fin.val_ofNat]
      show _ = 1
      omega
    have page : (pageIndex (frameAddress frame)).val = frame.val - 1024 := by
      unfold pageIndex frameAddress pageSize
      rw [Fin.val_ofNat]
      omega
    have found : walk (heapMachine sections ram memory).memory
        (heapMachine sections ram memory).kernelDirectory (frameAddress frame) =
          some (secondPage (pageIndex (frameAddress frame))) := by
      refine Tables.walk_eq_some_iff.mpr ⟨?_, ?_, rfl⟩
      · rw [slot, entry]
        rfl
      · rw [slot, entry, ← booted.tables.secondPages]
        refine tablesOf_kmallocInit (.inr ?_)
        show _ ≤ entryAddress (frameAddress secondPageTable) _
        unfold entryAddress frameAddress pageSize
        omega
    rw [Sees, Arch.translate, found]
    refine congrArg some (Fin.ext ?_)
    show (Fin.ofNat 1048576 (1024 + (pageIndex (frameAddress frame)).val)).val = frame.val
    rw [page, Fin.val_ofNat]
    omega
  have last : (1023 : EntryIndex).val = 1023 := rfl
  have pageOf : ∀ frame : Frame, frame.val < 2047 → 1024 ≤ frame.val →
      pageIndex (frameAddress frame) ≠ 1023 := by
    intro frame below atLeast same
    have value := congrArg Fin.val same
    unfold pageIndex frameAddress pageSize at value
    rw [Fin.val_ofNat] at value
    omega
  refine ⟨by rw [entry]; rfl, ?_, sees (bootMachine sections ram memory).kernelDirectory lower (by omega),
    pageOf (bootMachine sections ram memory).kernelDirectory (by omega) lower, ?_, ?_⟩
  · rw [secondTable]
    exact booted.apart.2.1
  · rw [secondTable]
    exact sees _ (by omega) (by omega)
  · rw [secondTable]
    exact fun cell => pageOf _ (by omega) (by omega) cell.2

/-- Where the header's first word is the second entry, the window is ready too if the kernel
still reaches its directory: the entry then names a table below 4 MiB. -/
theorem heapMachine_ready_of_sees (second : bitmapEnd totalRamBytes bitmapAddr % 4096 = 4)
    (isPresent : (tablesOf (heapMachine sections ram memory).memory
      (heapMachine sections ram memory).kernelDirectory 1).present = true)
    (sees : Sees (heapMachine sections ram memory)
      (frameAddress (heapMachine sections ram memory).kernelDirectory)
      (heapMachine sections ram memory).kernelDirectory) :
    WindowReady (heapMachine sections ram memory) := by
  have lower := booted.lower
  have upper := booted.upper
  have first := booted.first
  have bounds := bitmapEnd_bounds ram
  have place : entryAddress (frameAddress (bootMachine sections ram memory).kernelDirectory) 1 =
      bitmapEnd totalRamBytes bitmapAddr := by
    unfold entryAddress frameAddress pageSize
    rw [isFirst]
    omega
  have number : (heapMachine sections ram memory).secondTable.val =
      (8388595 - bitmapEnd totalRamBytes bitmapAddr) / 4096 := by
    show (Page.decode (Memory.load32 (kmallocInit (bitmapEnd totalRamBytes bitmapAddr) _)
      (entryAddress (frameAddress (bootMachine sections ram memory).kernelDirectory) 1))).frameAddr.val
        = _
    rw [place, load32_kmallocInit bounds.1 bounds.2]
    show (Fin.ofNat 1048576 _).val = _
    rw [Fin.val_ofNat]
    omega
  have entry : tablesOf (heapMachine sections ram memory).memory
      (heapMachine sections ram memory).kernelDirectory 0 =
        kernelEntry kernelPageTable secondPageTable 0 := by
    rw [← booted.tables.directory]
    refine tablesOf_kmallocInit (.inl ?_)
    show entryAddress (frameAddress (bootMachine sections ram memory).kernelDirectory) 0 + 4 ≤ _
    unfold entryAddress at *
    omega
  generalize isTable : (heapMachine sections ram memory).secondTable = table at number
  have slot : directoryIndex (frameAddress table) = 0 := by
    unfold directoryIndex frameAddress pageSize
    rw [Fin.ext_iff, Fin.val_ofNat]
    show _ = 0
    omega
  have page : (pageIndex (frameAddress table)).val = table.val := by
    unfold pageIndex frameAddress pageSize
    rw [Fin.val_ofNat]
    omega
  have found : walk (heapMachine sections ram memory).memory
      (heapMachine sections ram memory).kernelDirectory (frameAddress table) =
        some (kernelPage sections (pageIndex (frameAddress table))) := by
    refine Tables.walk_eq_some_iff.mpr ⟨?_, ?_, ?_⟩
    · rw [slot, entry]
      rfl
    · rw [slot, entry, ← booted.tables.kernelPages]
      refine tablesOf_kmallocInit (.inr ?_)
      show _ ≤ entryAddress (frameAddress kernelPageTable) _
      unfold entryAddress frameAddress pageSize
      omega
    · refine decide_eq_true fun isZero => ?_
      have zero : (0 : EntryIndex).val = 0 := rfl
      rw [isZero] at page
      omega
  have different : ∀ frame : Frame, 1024 ≤ frame.val → frame ≠ table := by
    rintro frame atLeast rfl
    omega
  refine ⟨isPresent, ?_, sees, ?_, ?_, ?_⟩
  · rw [isTable]
    exact different _ lower
  · intro last
    have value := congrArg Fin.val last
    have isLast : (1023 : EntryIndex).val = 1023 := rfl
    have directory : (heapMachine sections ram memory).kernelDirectory =
      (bootMachine sections ram memory).kernelDirectory := rfl
    rw [directory] at value
    unfold pageIndex frameAddress pageSize at value
    rw [Fin.val_ofNat] at value
    omega
  · rw [isTable, Sees, Arch.translate, found]
    refine congrArg some (Fin.ext ?_)
    show (Fin.ofNat 1048576 (pageIndex (frameAddress table)).val).val = table.val
    rw [page, Fin.val_ofNat]
    omega
  · rw [isTable]
    intro cell
    have target := cell.1
    rw [isTable, pointerTable, slot, entry] at target
    exact different kernelPageTable (by omega) target

end Header

/-! ## The result -/

/-- Not the whole region stays mapped after boot. Without the header, which meets the page
directory, each address of it stays mapped exactly if it is not in the window's page. -/
theorem heap_staysMapped_iff (ram : totalRamBytes < 4294967296)
    (leaves : LeavesTables totalRamBytes) (sections : KernelSections) (memory : Memory) :
    (¬ ∀ address, bitmapEnd totalRamBytes bitmapAddr ≤ address → address < identityMappedCieling →
      StaysMapped (heapMachine sections ram memory) address) ∧
    ∀ address, bitmapEnd totalRamBytes bitmapAddr ≤ address → address < identityMappedCieling →
      (StaysMapped (bootMachine sections ram memory) address ↔ address < vmmTempWindowVirtual) := by
  obtain ⟨number, _, kernelPageTable, secondPageTable, booted⟩ :=
    bootMachine_booted sections ram memory leaves
  have isFirst : (bootMachine sections ram memory).kernelDirectory.val =
    bitmapEnd totalRamBytes bitmapAddr / 4096 := number
  have bounds := bitmapEnd_bounds ram
  refine ⟨fun stays => ?_, fun address lower upper =>
    staysMapped_iff booted (Nat.le_trans bounds.1 lower) upper⟩
  have ready : ¬ WindowReady (heapMachine sections ram memory) := fun ready =>
    ready.not_staysMapped (Nat.le_refl _) (by decide)
      (stays vmmTempWindowVirtual (by unfold vmmTempWindowVirtual; omega) (by decide))
  -- In the first state, the heap's first byte lies in the page directory.
  have mapped : MappedToItself (heapMachine sections ram memory) (bitmapEnd totalRamBytes bitmapAddr) :=
    stays _ (Nat.le_refl _) (by unfold identityMappedCieling; omega) []
      ⟨heapMachine sections ram memory, _⟩ .start nofun
  have slot : directoryIndex (bitmapEnd totalRamBytes bitmapAddr) = 1 := by
    unfold directoryIndex
    rw [Fin.ext_iff, Fin.val_ofNat]
    show _ = 1
    omega
  have multiple : bitmapEnd totalRamBytes bitmapAddr % 4 = 0 := by
    unfold bitmapEnd bitmapAddr
    omega
  rcases (by omega : bitmapEnd totalRamBytes bitmapAddr % 4096 = 0 ∨
      bitmapEnd totalRamBytes bitmapAddr % 4096 = 4 ∨
      8 ≤ bitmapEnd totalRamBytes bitmapAddr % 4096) with aligned | second | above
  · have granted := mapped.2
    rw [grants, slot, heapMachine_readOnly isFirst aligned] at granted
    cases granted
  · obtain ⟨frame, translated, _⟩ := Option.map_eq_some_iff.mp mapped.1
    obtain ⟨entry, found, _⟩ := Option.map_eq_some_iff.mp translated
    have isPresent := (Tables.walk_eq_some_iff.mp found).1
    rw [slot] at isPresent
    have sees : Sees (heapMachine sections ram memory)
        (frameAddress (heapMachine sections ram memory).kernelDirectory)
        (heapMachine sections ram memory).kernelDirectory := mapped.sees isFirst
    exact ready (heapMachine_ready_of_sees booted isFirst second isPresent sees)
  · exact ready (heapMachine_ready booted isFirst above)

/-- With 16 MiB of RAM. -/
theorem heap_staysMapped_iff_sample :
    ¬ ∀ address, bitmapEnd 16777216 bitmapAddr ≤ address → address < identityMappedCieling →
      StaysMapped (heapMachine ⟨1048576, 1052672, 1056768⟩
        (by decide : 16777216 < 4294967296) fun _ => 0) address := by
  have leaves : LeavesTables 16777216 := by
    unfold LeavesTables
    decide
  exact (heap_staysMapped_iff (by decide) leaves ⟨1048576, 1052672, 1056768⟩ fun _ => 0).1

/-- With 16 MiB of RAM one call of `vmm_get_physical_address` leaves the last page of the
heap unmapped. -/
theorem heap_staysMapped_fails : ∃ trace final,
    VmmRun (heapMachine ⟨1048576, 1052672, 1056768⟩ (by decide : 16777216 < 4294967296) fun _ => 0)
      trace final ∧
    trace.length = 1 ∧ bitmapEnd 16777216 bitmapAddr ≤ 0x007FF000 ∧
    0x007FF000 < identityMappedCieling ∧ ¬ MappedToItself final.machine 0x007FF000 := by
  have leaves : LeavesTables 16777216 := by
    unfold LeavesTables
    decide
  obtain ⟨isFirst, _, kernelPageTable, secondPageTable, booted⟩ :=
    bootMachine_booted ⟨1048576, 1052672, 1056768⟩ (by decide : 16777216 < 4294967296) (fun _ => 0)
      leaves
  have ready := heapMachine_ready booted isFirst (by decide)
  obtain ⟨trace, final, run, length, _, unmapped⟩ := ready.run
  exact ⟨trace, final, run, length, by decide, by decide, unmapped _ (by decide) (by decide)⟩

end KdbOS.Kernel
