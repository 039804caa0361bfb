import KdbOS.Memory.Stock
import KdbOS.Proc.DirectAccesses
import KdbOS.Proc.ProcessSpaces

/-! `create_pcb` where memory suffices: it returns a block. -/

set_option autoImplicit false

namespace KdbOS.Proc

open Library Klibc Pmm Arch Vmm Kernel

variable {α : Type} {kernel : KernelState} {start s t machine : Machine} {directories : Set Frame}
variable {block : ProcessControlBlock} {heap : Memory}
variable {fuel pcb entryPoint size space physical esp count : Nat} {isUser cached : Bool}

/-! ## The block -/

theorem buildProcess_ok (pcb : Nat)
    (calls : ProcessCalls kernel.machine t entryPoint size isUser cached space physical esp) :
    buildProcess pcb entryPoint size isUser cached kernel =
      .ok () (kernel.building pcb { kernel.pcb pcb with
        addressSpace := space
        addressSpacePhysical := physical
        kernelStackPtr := esp } t) := by
  obtain ⟨created, read, stacked, stack, mapped, create, translate, makeStack, map⟩ := calls
  have asked : (do vmmGetPhysicalAddress (← kernelDirectory) space : VmmM Nat) created =
      .ok physical read := by
    rw [bind_ok (kernelDirectory_ok created)]
    exact translate
  conv_lhs => rw [← kernel.building_self pcb]
  unfold buildProcess
  rw [kernel_bind_ok (onMachine_ok create), kernel_bind_ok (assignPcb_ok _),
    kernel_bind_ok (onMachine_ok asked), kernel_bind_ok (assignPcb_ok _),
    kernel_bind_ok (onMachine_ok makeStack)]
  dsimp only
  rw [kernel_bind_ok (kernel_get_ok _), KernelState.building_pcb,
    kernel_bind_ok (onMachine_ok map), assignPcb_ok]

/-- A block from the heap and a stack suffice. -/
theorem createPcb_ok
    (allocated : kmalloc fuel kernel.heapStart pcbSize kernel.heap = some (pcb, heap))
    (notNull : pcb ≠ 0)
    (calls : ProcessCalls kernel.machine t entryPoint size isUser cached space physical esp)
    (hasStack : esp ≠ 0) :
    ∃ after, createPcb fuel entryPoint size isUser cached kernel = .ok pcb after ∧
      after.machine = t ∧ after.heap = heap ∧ after.heapStart = kernel.heapStart ∧
        (after.pcb pcb).addressSpacePhysical = physical := by
  have allocate : allocatePcb fuel kernel = .ok pcb (kernel.setHeap heap) := by
    unfold allocatePcb
    rw [kernel_bind_ok (kernel_get_ok kernel), allocated]
    rfl
  let started := (kernel.setHeap heap).startPcb pcb
  have start : (modify fun kernel => kernel.startPcb pcb : KernelM Unit) (kernel.setHeap heap) =
      .ok () started := rfl
  have filled : createPcb fuel entryPoint size isUser cached kernel =
      finishPcb fuel pcb (started.building pcb { started.pcb pcb with
        addressSpace := space
        addressSpacePhysical := physical
        kernelStackPtr := esp } t) := by
    have startedCalls : ProcessCalls started.machine t entryPoint size isUser cached space physical
        esp := calls
    unfold createPcb
    rw [kernel_bind_ok allocate, if_neg notNull, kernel_bind_ok start,
      kernel_bind_ok (buildProcess_ok pcb startedCalls)]
  have finish : ∀ block : ProcessControlBlock, block.kernelStackPtr ≠ 0 →
      finishPcb fuel pcb (started.building pcb block t) =
        .ok pcb (started.building pcb { block with state := .ready } t) := by
    intro block hasStack
    unfold finishPcb
    rw [kernel_bind_ok (kernel_get_ok _), KernelState.building_pcb, if_neg hasStack,
      kernel_bind_ok (assignPcb_ok _)]
    rfl
  refine ⟨_, filled.trans (finish _ hasStack), rfl, rfl, rfl, ?_⟩
  rw [KernelState.building_pcb]

/-! ## The calls -/

/-- With a stock for all their pages and tables, the four calls come to an end. -/
theorem processCalls_of_stocked (sound : Sound start s directories) (faithful : Faithful s)
    (stocked : Stocked start s directories (count + 4 * numCodePages size + 6))
    (readable : Readable s entryPoint size) (bounded : size ≤ 0x40000000) (isUser cached : Bool) :
    ∃ t space directory,
      ProcessCalls s t entryPoint size isUser cached space (frameAddress directory) 0xC0001FD8 ∧
      Faithful t ∧ Sound start t (insert directory directories) ∧
      Stocked start t (insert directory directories) count := by
  have high := highRounds bounded
  have stackHigh := not_kernelSlot_processStackPage
  have create : Leads true (fun _ => False)
      (vmmCreateVirtualAddressSpace entryPoint size isUser cached) s _ :=
    vmmCreateVirtualAddressSpace_leads sound faithful (fun _ => .inl readable)
      (fun _ => (stocked.mono (by omega) :
        Stocked start s directories (count + 4 + 4 * numCodePages size + 2)).low) bounded
  obtain ⟨space, created, createRun, createdFaithful, result⟩ := create.total
  cases result with
  | failed starved =>
      have enough : Stocked start s directories (0 + 2) := stocked.mono (by omega)
      exact absurd starved enough.not_starved
  | @built made shared _ pointer directory table answer least newPage written shares pages =>
      have unlinked := newPage.not_linked sound.structures
      have madeSound := sound.newPage (.mapped least newPage)
      have sharedSound := sound.shared least newPage written shares
      have notKernel := newPage.notKernel sound written
      have first : Stocked start s directories (count + 4 + 4 * numCodePages size + 2) :=
        stocked.mono (by omega)
      have madeStock := first.takes (newPage.takesPage sound.structures least)
        (first.low.newPage (.mapped least newPage))
      have sharedStock := madeStock.keeps (written.keepsPages madeSound.structures unlinked)
        (first.low.shared sound least newPage written shares)
      have rounds : Stocked start shared (insert directory directories)
          (count + 4 + 4 * (List.range (numCodePages size)).length) := by
        rw [List.length_range]
        exact sharedStock
      obtain ⟨rfl, createdStock⟩ := pages.stocked sharedSound notKernel high rounds
      have createdSound := pages.sound sharedSound high
      -- The physical address of the directory is read through the window.
      have addresses := pages.addresses sharedSound notKernel high
        (newPage.addresses_shared sound least written)
      obtain ⟨entry, found, isDirectory⟩ := Option.map_eq_some_iff.mp addresses.sees
      obtain ⟨read, translated, used⟩ := vmmGetPhysicalAddress_of_walk createdSound.structures
        createdSound.kernel createdSound.structures.kernelDirectory found addresses.apart
      rw [isDirectory] at translated
      have readSound := createdSound.windowUsed used
      have readFaithful := used.reached.faithful createdFaithful
      have readStock := createdStock.keeps (used.keepsPages createdSound.structures)
        (createdStock.low.windowUsed createdSound.structures used)
      -- The stack is made.
      have makeStack : Leads true (fun _ => False) (createProcessStack 0xC0000000) read _ :=
        createProcessStack_leads readSound readFaithful fun _ =>
          (readStock : Stocked start read _ (count + 2 + 2)).low
      obtain ⟨⟨esp, stack⟩, stacked, stackRun, stackedFaithful, stackResult⟩ := makeStack.total
      cases stack with
      | none =>
          cases stackResult with
          | failed starved => exact absurd starved (Stocked.not_starved readStock)
      | some physical =>
          obtain ⟨stack, rfl, rfl, _⟩ := stackResult.of_frame readSound
          obtain ⟨stackMade, filled, window, stackTable, takesStack, keepsStack, givesStack⟩ :=
            stackResult.returned readSound.structures
          have stackedSound := stackResult.sound readSound
          have stackedNotKernel := sharedSound.notKernel stackedSound notKernel
          have stackedStock : Stocked start stacked (insert directory directories) (count + 2) :=
            Stocked.returned readStock takesStack keepsStack givesStack
              (stackResult.tablesLow readSound readStock.low)
          have stackedAddresses := (stackResult.extended readSound directory).addresses
            (used.addresses createdSound.structures addresses)
          -- It is entered.
          have mapLeads : Leads true (fun _ => False) (vmmMapFrame pointer processStackPage
              (frameAddress stack) true isUser cached) stacked _ :=
            vmmMapFrame_leads stackedSound.structures (.inl rfl) stackedAddresses stackedFaithful
              (fun _ => stackedStock.low.reachable stackedSound stackedSound.kernel _)
              (fun _ => stackedStock.low.reachable stackedSound (.inl rfl) _)
              fun same => absurd same.symm stackedNotKernel
          obtain ⟨mapped, t, mapRun, ends, mapResult⟩ := mapLeads.total
          have starved := starved_of_false stackedAddresses.sees
            stackedSound.structures.kernelDirectory.sees mapRun ends
          obtain ⟨_, stock⟩ := stackedStock.mapFrame mapResult starved stackedSound.structures
            stackedNotKernel stackHigh
          exact ⟨t, pointer, directory,
            ⟨created, read, stacked, _, mapped, createRun, translated, stackRun, mapRun⟩, ends,
            stackedSound.mapFrame mapResult stackHigh, stock⟩

/-- So `create_pcb` returns a block, and what the stock holds beyond that is left. -/
theorem createPcb_of_stocked (sound : Sound start kernel.machine directories)
    (faithful : Faithful kernel.machine)
    (stocked : Stocked start kernel.machine directories (count + 4 * numCodePages size + 6))
    (readable : Readable kernel.machine entryPoint size) (bounded : size ≤ 0x40000000)
    (allocated : kmalloc fuel kernel.heapStart pcbSize kernel.heap = some (pcb, heap))
    (notNull : pcb ≠ 0) (isUser cached : Bool) :
    ∃ after directory, createPcb fuel entryPoint size isUser cached kernel = .ok pcb after ∧
      Faithful after.machine ∧ Sound start after.machine (insert directory directories) ∧
      Stocked start after.machine (insert directory directories) count ∧
      after.heap = heap ∧ after.heapStart = kernel.heapStart := by
  obtain ⟨t, space, directory, calls, ends, after, stock⟩ :=
    processCalls_of_stocked sound faithful stocked readable bounded isUser cached
  obtain ⟨final, run, rfl, isHeap, isStart, _⟩ := createPcb_ok allocated notNull calls (by decide)
  exact ⟨final, directory, run, ends, after, stock, isHeap, isStart⟩

/-! ## After boot -/

section Booted

variable {sections : KernelSections} {kernelPageTable secondPageTable : Frame}
  (booted : Booted s sections kernelPageTable secondPageTable)

include booted

theorem kernelPages_of_booted : kernelPages s = ∅ :=
  Set.eq_empty_iff_forall_notMem.mpr fun _ isPage =>
    isPage.2 (Tables.walk_of_absent (booted.absent_of_high (not_kernelSlot_of_search isPage.1)))

/-- The low frames that boot leaves are a stock. -/
theorem stocked_of_booted (low : s.kernelDirectory.val + 3 + count < 2047)
    (enough : s.kernelDirectory.val + 3 + count < s.frames.frameBitmap.totalBits) :
    Stocked s s {s.kernelDirectory} count := by
  let first : Frame := ⟨s.kernelDirectory.val + 3, by omega⟩
  let last : Frame := ⟨s.kernelDirectory.val + 3 + count, by omega⟩
  have inside : (↑(Finset.Ico first last) : Set Frame) ⊆ lowFrames s := by
    intro frame member
    obtain ⟨lower, upper⟩ := Finset.mem_Ico.mp (Finset.mem_coe.mp member)
    have lowerVal : s.kernelDirectory.val + 3 ≤ frame.val := lower
    have upperVal : frame.val < s.kernelDirectory.val + 3 + count := upper
    exact ⟨(booted.free frame).mpr ⟨lowerVal, by omega⟩, by omega⟩
  have lowCount : count ≤ (lowFrames s).ncard := by
    have counted := Set.ncard_le_ncard inside
    rw [Set.ncard_coe_finset, Fin.card_Ico] at counted
    exact (Nat.add_sub_cancel_left _ _).ge.trans counted
  refine ⟨(InOrder.of_booted booted (.inl lowCount)).low, lowCount.trans ?_, ?_⟩
  · exact Set.ncard_le_ncard fun frame isLow => isLow.1
  · unfold PagesLeft
    rw [kernelPages_of_booted booted, Set.ncard_empty]
    omega

/-- An image from 0x1000 on lies in the frames from the second one on. -/
theorem image_of_booted {i : Nat} (small : i < 4096 * 2046) :
    ∃ frame : Frame, frame.val = 1 + i / 4096 ∧ Addresses s (u32 (0x1000 + i)) frame := by
  let frame : Frame := ⟨1 + i / 4096, by omega⟩
  have notZero : frame ≠ 0 := by
    intro zero
    have value : 1 + i / 4096 = 0 := congrArg Fin.val zero
    omega
  have address : frameAddress frame + i % 4096 = 0x1000 + i := by
    show (1 + i / 4096) * 4096 + i % 4096 = 0x1000 + i
    omega
  have lower : frameAddress frame % 4096 = 0 := Nat.mul_mod_left _ _
  have upper := frameAddress_lt frame
  have page := (booted.addresses_low notZero (by show 1 + i / 4096 < 2047; omega)).within_page lower
    (by omega) (Nat.mod_lt i (by decide))
  rw [address] at page
  exact ⟨frame, rfl, page⟩

theorem readable_of_booted (small : size ≤ 4096 * 1000) : Readable s 0x1000 size := by
  intro i inside
  obtain ⟨frame, _, addresses⟩ := image_of_booted booted (by omega : i < 4096 * 2046)
  exact ⟨frame, addresses⟩

end Booted

/-- A kernel whose heap has just been set up. -/
def bootKernel (machine : Machine) : KernelState where
  machine := machine
  heapStart := 0x00401000
  heap := kmallocInit 0x00401000 fun _ => 0
  nextPid := 0
  pcb _ := createdPcb 0 0 0 0
  schedNode _ := .null

theorem bootKernel_kmalloc (machine : Machine) :
    ∃ first second, kmalloc 3 (bootKernel machine).heapStart pcbSize (bootKernel machine).heap =
        some (0x0040100C, first) ∧
      kmalloc 3 (bootKernel machine).heapStart pcbSize first = some (0x00401040, second) := by
  have two : ((kmalloc 3 0x00401000 pcbSize (kmallocInit 0x00401000 fun _ => 0)).map Prod.fst =
        some 0x0040100C) ∧
      ((kmalloc 3 0x00401000 pcbSize (kmallocInit 0x00401000 fun _ => 0)).bind fun result =>
        (kmalloc 3 0x00401000 pcbSize result.2).map Prod.fst) = some 0x00401040 := by
    decide +kernel
  obtain ⟨isFirst, isSecond⟩ := two
  obtain ⟨⟨_, first⟩, firstRun, rfl⟩ := Option.map_eq_some_iff.mp isFirst
  rw [firstRun] at isSecond
  obtain ⟨⟨_, second⟩, secondRun, rfl⟩ := Option.map_eq_some_iff.mp isSecond
  exact ⟨first, second, firstRun, secondRun⟩

end KdbOS.Proc
