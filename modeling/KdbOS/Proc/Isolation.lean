import KdbOS.Library.Runs
import KdbOS.Proc.CreatePcbReturns
import KdbOS.Proc.Ownership

/-! Processes that `create_pcb` makes one after another, from boot on: none of them reaches a
frame of another. -/

set_option autoImplicit false

namespace KdbOS.Proc

open Library Pmm Arch Vmm Kernel

variable {start s t : Machine} {directories : Set Frame} {directory frame : Frame}
variable {before after kernel final : KernelState}

/-! ## Calls that return a process -/

structure Creation where
  fuel : Nat
  entryPoint : Nat
  size : Nat
  cached : Bool
  pcb : Nat

inductive CreateStep : KernelState → Creation → KernelState → Prop where
  | returns {kernel after : KernelState} {creation : Creation} :
      createPcb creation.fuel creation.entryPoint creation.size true creation.cached kernel =
        .ok creation.pcb after →
      creation.pcb ≠ 0 → CreateStep kernel creation after

abbrev CreateRun := Run CreateStep

variable {creation : Creation} {trace : List (Transition KernelState Creation)}

/-- The directory to which the block of a new process leads. -/
def spaceOf (transition : Transition KernelState Creation) : Frame :=
  Page.frameOf (transition.after.pcb transition.label.pcb).addressSpacePhysical

/-- The processes have nothing in common but the first 8 MiB, and user mode reaches their own
pages only. -/
structure Isolated (s : Machine) (trace : List (Transition KernelState Creation)) : Prop where
  apart : trace.Pairwise fun first second =>
    spaceOf first ≠ spaceOf second ∧
      ∀ frame, ReachedFrom s (spaceOf first) frame → ¬ ReachedFrom s (spaceOf second) frame
  confined : ∀ transition ∈ trace, Confined s (spaceOf transition) transition.label.size

/-! ## One more process -/

/-- Every process owns its pages, and their frames are its own. -/
structure Separated (start : Machine) (trace : List (Transition KernelState Creation))
    (kernel : KernelState) (directories : Set Frame) : Prop where
  sound : Sound start kernel.machine directories
  charge : charge kernel.machine ≤ 2097152
  member : ∀ transition ∈ trace, spaceOf transition ∈ directories ∧
    spaceOf transition ≠ kernel.machine.kernelDirectory
  owns : ∀ transition ∈ trace, Owns kernel.machine directories (spaceOf transition) true
    (pagesOf (processPages transition.label.size))
  apart : trace.Pairwise fun first second =>
    spaceOf first ≠ spaceOf second ∧ ∀ frame, PageFrame kernel.machine (spaceOf first) frame →
      ¬ PageFrame kernel.machine (spaceOf second) frame

theorem CreateStep.faithful (step : CreateStep before creation after)
    (ends : Faithful after.machine) : Faithful before.machine := by
  obtain ⟨run, notNull⟩ := step
  obtain ⟨space, physical, esp, calls, _⟩ := createPcb_eq_ok run notNull
  exact calls.faithful ends

/-- The boot tables keep user mode out of the first 8 MiB, and page 0 has no frame. -/
structure BootSpace (start : Machine) : Prop where
  null : walk start.memory start.kernelDirectory 0 = none
  low : ∀ slot, KernelSlot slot → (tablesOf start.memory start.kernelDirectory slot).user = false

/-- The stages of the call, for the directory to which the block leads, and the stack pointer in the
block. -/
theorem CreateStep.stages (step : CreateStep before creation after)
    (boot : BootSpace start) (separated : Separated start trace before directories)
    (bounded : creation.size ≤ 0x40000000) (ends : Faithful after.machine) :
    (∃ shared created, Stages start before.machine directories creation.entryPoint creation.size true
      (spaceOf ⟨before, creation, after⟩) shared created after.machine) ∧
      (after.pcb creation.pcb).kernelStackPtr = 0xC0001FD8 := by
  obtain ⟨run, notNull⟩ := step
  have few : numCodePages creation.size ≤ 262144 := by
    unfold numCodePages
    rw [u32_of_lt (by unfold pageSize; omega)]
    unfold pageSize
    omega
  obtain ⟨directory, shared, created, stages, isPhysical, isEsp⟩ := createPcb_stages separated.sound
    boot.null run notNull ends bounded ((pagesLeft_of_charge separated.charge).mono (by omega))
  refine ⟨⟨shared, created, ?_⟩, isEsp⟩
  unfold spaceOf
  rw [isPhysical, frameOf_frameAddress]
  exact stages

theorem Separated.step (separated : Separated start trace before directories)
    (boot : BootSpace start) (step : CreateStep before creation after)
    (bounded : creation.size ≤ 0x40000000)
    (enough : creation.size = 0 → ¬ LastTwoPages before.machine) (ends : Faithful after.machine) :
    Separated start (trace ++ [⟨before, creation, after⟩]) after
      (insert (spaceOf ⟨before, creation, after⟩) directories) := by
  obtain ⟨⟨shared, created, stages⟩, _⟩ := step.stages boot separated bounded ends
  have others := fun transition isEarlier => stages.others bounded enough separated.sound
    (separated.member transition isEarlier).1 (separated.member transition isEarlier).2
  have sameKernel : after.machine.kernelDirectory = before.machine.kernelDirectory :=
    stages.sound.low.kernelDirectory.trans separated.sound.low.kernelDirectory.symm
  have sharedKernel := stages.sharedSound.low
  obtain ⟨owns, fresh⟩ := stages.owns bounded enough fun slot isLow => by
    rw [sharedKernel.kernelDirectory, sharedKernel.entries slot isLow]
    exact boot.low slot isLow
  refine ⟨stages.sound, stages.charge.trans separated.charge, fun transition isMade => ?_,
    fun transition isMade => ?_, ?_⟩
  · rw [sameKernel]
    rcases List.mem_append.mp isMade with isEarlier | isLast
    · exact ⟨.inr (separated.member transition isEarlier).1,
        (separated.member transition isEarlier).2⟩
    · rw [List.mem_singleton.mp isLast]
      refine ⟨.inl rfl, ?_⟩
      rw [← (stages.begins before.machine.kernelDirectory).kernelDirectory]
      exact stages.notKernel
  · rcases List.mem_append.mp isMade with isEarlier | isLast
    · exact (separated.owns transition isEarlier).kept (others transition isEarlier).1
        (others transition isEarlier).2
    · rw [List.mem_singleton.mp isLast]
      exact owns
  · rw [List.pairwise_append]
    refine ⟨?_, List.pairwise_singleton _ _, fun first isEarlier last isLast => ?_⟩
    · refine separated.apart.imp_of_mem fun {first second} isFirst isSecond apart =>
        ⟨apart.1, fun frame reaches other => ?_⟩
      exact apart.2 frame ((pageFrame_kept (others first isFirst).1).mp reaches)
        ((pageFrame_kept (others second isSecond).1).mp other)
    · rw [List.mem_singleton.mp isLast]
      refine ⟨fun same => ?_, fun frame reaches other => ?_⟩
      · have directory := separated.sound.structures.used _
          (.of_directory (separated.member first isEarlier).1)
        rw [same] at directory
        exact directory stages.fresh
      · have earlier := (pageFrame_kept (others first isEarlier).1).mp reaches
        exact ((separated.owns first isEarlier).settled frame earlier).used (fresh frame other)

/-! ## From boot on -/

theorem bootSpace_of_booted {sections : KernelSections} {kernelPageTable secondPageTable : Frame}
    (booted : Booted start sections kernelPageTable secondPageTable) : BootSpace start where
  null := booted.tables.walk_zero
  low slot isLow := by
    rw [booted.tables.directory, kernelEntry]
    by_cases isZero : slot = 0
    · rw [if_pos isZero]
    · rw [if_neg isZero]
      by_cases isOne : slot = 1
      · rw [if_pos isOne]
      · rw [if_neg isOne]
        rfl

theorem charge_of_booted {sections : KernelSections} {kernelPageTable secondPageTable : Frame}
    (booted : Booted start sections kernelPageTable secondPageTable) : charge start ≤ 2097152 := by
  have frames := freeFrames_card_le start
  unfold charge
  rw [kernelPages_of_booted booted, Set.ncard_empty]
  omega

/-- The run keeps the processes apart. -/
theorem CreateRun.separated {sections : KernelSections} {kernelPageTable secondPageTable : Frame}
    (run : CreateRun kernel trace final)
    (booted : Booted kernel.machine sections kernelPageTable secondPageTable)
    (bounded : ∀ transition ∈ trace, transition.label.size ≤ 0x40000000)
    (enough : ∀ transition ∈ trace, transition.label.size = 0 →
      ¬ LastTwoPages transition.before.machine)
    (ends : Faithful final.machine) :
    ∃ directories, Separated kernel.machine trace final directories := by
  induction run with
  | start =>
      exact ⟨_, sound_of_booted booted, charge_of_booted booted, nofun, nofun, .nil⟩
  | @step trace before creation after run step ih =>
      have inTrace : ∀ {transition}, transition ∈ trace →
          transition ∈ trace ++ [⟨before, creation, after⟩] := List.mem_append_left _
      have isLast : (⟨before, creation, after⟩ : Transition KernelState Creation) ∈
          trace ++ [⟨before, creation, after⟩] :=
        List.mem_append_right _ (List.mem_singleton.mpr rfl)
      obtain ⟨directories, separated⟩ := ih (fun transition member =>
        bounded transition (inTrace member)) (fun transition member =>
          enough transition (inTrace member)) (step.faithful ends)
      exact ⟨_, separated.step (bootSpace_of_booted booted) step (bounded _ isLast)
        (enough _ isLast) ends⟩

/-- A frame that is reached is a table or the frame of a page. -/
theorem Separated.isolated (separated : Separated start trace kernel directories)
    (bounded : ∀ transition ∈ trace, transition.label.size ≤ 0x40000000) :
    Isolated kernel.machine trace where
  apart := by
    refine separated.apart.imp_of_mem fun {first second} isFirst isSecond apart =>
      ⟨apart.1, ?_⟩
    rintro frame ⟨slot, lower, isPresent, reached⟩ ⟨otherSlot, otherLower, otherPresent, otherReached⟩
    have structures := separated.sound.structures
    have firstMember := (separated.member first isFirst).1
    have secondMember := (separated.member second isSecond).1
    have high : ¬ KernelSlot slot := Nat.not_lt.mpr lower
    have otherHigh : ¬ KernelSlot otherSlot := Nat.not_lt.mpr otherLower
    rcases reached with rfl | ⟨index, page, found, isFrame⟩
    · rcases otherReached with same | ⟨index, page, found, isFrame⟩
      · obtain ⟨_, sameSpace | low⟩ := structures.laid.separate.unique _ firstMember _ secondMember
          slot otherSlot isPresent otherPresent same.symm
        · exact apart.1 sameSpace
        · exact high low
      · exact ((separated.owns second isSecond).settled _ ⟨otherSlot, index, page, otherHigh, found,
          isFrame⟩).unlinked (.of_table firstMember isPresent)
    · rcases otherReached with rfl | ⟨otherIndex, otherPage, otherFound, isOther⟩
      · exact ((separated.owns first isFirst).settled _ ⟨slot, index, page, high, found,
          isFrame⟩).unlinked (.of_table secondMember otherPresent)
      · exact apart.2 frame ⟨slot, index, page, high, found, isFrame⟩
          ⟨otherSlot, otherIndex, otherPage, otherHigh, otherFound, isOther⟩
  confined transition isMade := (separated.owns transition isMade).confined (bounded transition isMade)

/-! ## Two processes -/

/-- Two processes of one byte each, with 128 MiB of RAM. -/
theorem exists_createRun : ∃ trace final, CreateRun (bootKernel sampleMachine) trace final ∧
    trace.length = 2 ∧ (∀ transition ∈ trace, transition.label.size = 1) ∧
      Faithful final.machine := by
  obtain ⟨isDirectory, isTotal, _, _, _, booted⟩ := sampleMachine_booted
  have onePage : numCodePages 1 = 1 := by decide
  obtain ⟨firstHeap, secondHeap, firstBlock, secondBlock⟩ := bootKernel_kmalloc sampleMachine
  have sound : Sound sampleMachine (bootKernel sampleMachine).machine _ := sound_of_booted booted
  have readable := readable_of_booted booted (by decide : 1 ≤ 4096 * 1000)
  have stocked : Stocked sampleMachine sampleMachine {sampleMachine.kernelDirectory}
      (10 + 4 * numCodePages 1 + 6) := by
    rw [onePage]
    exact stocked_of_booted booted (by omega) (by omega)
  obtain ⟨middle, _, firstRun, firstEnds, middleSound, middleStock, isHeap, isStart⟩ :=
    createPcb_of_stocked sound (faithful_of_booted booted) stocked readable (by decide) firstBlock
      (by decide) true true
  have stillReadable : Readable middle.machine 0x1000 1 := by
    intro i inside
    obtain ⟨frame, addresses⟩ := readable i inside
    refine ⟨frame, middleSound.low.addresses addresses ?_⟩
    obtain rfl : i = 0 := by omega
    unfold KernelSlot
    decide
  rw [← isHeap, ← isStart] at secondBlock
  have left : Stocked sampleMachine middle.machine _ (0 + 4 * numCodePages 1 + 6) := middleStock
  obtain ⟨final, _, secondRun, secondEnds, _⟩ := createPcb_of_stocked middleSound firstEnds left
    stillReadable (by decide) secondBlock (by decide) true true
  have firstStep : CreateStep (bootKernel sampleMachine) ⟨3, 0x1000, 1, true, 0x0040100C⟩ middle :=
    .returns firstRun (by decide)
  have secondStep : CreateStep middle ⟨3, 0x1000, 1, true, 0x00401040⟩ final :=
    .returns secondRun (by decide)
  refine ⟨_, final, (Run.start.step firstStep).step secondStep, rfl, fun transition member => ?_,
    secondEnds⟩
  rcases List.mem_append.mp member with isFirst | isSecond
  · rw [List.mem_singleton.mp isFirst]
  · rw [List.mem_singleton.mp isSecond]

/-! ## The result -/

/-- The machine after boot with 4120 KiB of RAM: the tables of boot leave three frames. -/
def scarceMachine : Machine :=
  bootMachine ⟨1048576, 1052672, 1056768⟩ (by decide : 4218880 < 4294967296) fun _ => 0

theorem scarceMachine_booted :
    (freeFrames scarceMachine).ncard = 3 ∧
      (∀ frame, scarceMachine.frames.Free frame → frame.val < 2047) ∧
      ∃ sections kernelPageTable secondPageTable,
        Booted scarceMachine sections kernelPageTable secondPageTable := by
  have leaves : LeavesTables 4218880 := by
    unfold LeavesTables
    decide
  obtain ⟨first, total, kernelPageTable, secondPageTable, booted⟩ :=
    bootMachine_booted ⟨1048576, 1052672, 1056768⟩ (by decide : 4218880 < 4294967296) (fun _ => 0)
      leaves
  have isFirst : firstBootFrame 4218880 = 1024 := by decide
  have free : ∀ frame : Frame,
      scarceMachine.frames.Free frame ↔ 1027 ≤ frame.val ∧ frame.val < 1030 := by
    intro frame
    have isFree := booted.free frame
    rw [first, total, isFirst] at isFree
    exact isFree
  have three : freeFrames scarceMachine = ↑(Finset.Ico (1027 : Frame) 1030) := by
    ext frame
    rw [Finset.coe_Ico, Set.mem_Ico, Fin.le_def, Fin.lt_def]
    exact free frame
  refine ⟨?_, fun frame isFree => ?_, _, _, _, booted⟩
  · rw [three, Set.ncard_coe_finset, Fin.card_Ico]
    rfl
  · have upper := ((free frame).mp isFree).2
    omega

/-- The next page of the kernel lies in the slot whose table has just been made. -/
theorem second_slot {made : Machine} {window second : Nat} {table : Option Frame}
    {sections : KernelSections} {kernelPageTable secondPageTable : Frame}
    (booted : Booted s sections kernelPageTable secondPageTable)
    (takes : TakesPage s made window directory table) (next : IsLowestUnmapped made second) :
    directoryIndex second = directoryIndex window := by
  have unmapped : ∀ address ∈ NewPageRange, walk s.memory s.kernelDirectory address = none :=
    fun address range => Tables.walk_of_absent (booted.absent_of_high (not_kernelSlot range))
  have inRange : ∀ address : Nat, address = 0x00800000 ∨ address = 0x00801000 →
      address ∈ NewPageRange := by
    rintro address (rfl | rfl)
    · unfold NewPageRange
      decide
    · unfold NewPageRange
      decide
  have isFirst : window = 0x00800000 := le_antisymm
    (takes.lowest.2 ⟨inRange _ (.inl rfl), unmapped _ (inRange _ (.inl rfl))⟩) takes.lowest.1.1.2.1
  have upper : second ≤ 0x00801000 := next.2 ⟨inRange _ (.inr rfl), by
    rw [takes.walk_of_ne (inRange _ (.inr rfl)) (by omega)]
    exact unmapped _ (inRange _ (.inr rfl))⟩
  have lower := next.1.1.2.1
  rw [isFirst]
  unfold directoryIndex
  rw [Fin.ext_iff, Fin.val_ofNat, Fin.val_ofNat]
  omega

/-- With three frames there is none for the table of the stack page. -/
theorem processCalls_without_table {sections : KernelSections}
    {kernelPageTable secondPageTable : Frame}
    (booted : Booted s sections kernelPageTable secondPageTable)
    (three : (freeFrames s).ncard = 3) (every : ∀ frame, s.frames.Free frame → frame.val < 2047) :
    ∃ t space directory,
      ProcessCalls s t 0x1000 0 true true space (frameAddress directory) 0xC0001FD8 ∧
      Faithful t ∧ walk t.memory directory processStackPage = none := by
  have sound := sound_of_booted booted
  have low : ∀ count, TablesLow s s {s.kernelDirectory} count := fun count =>
    (InOrder.of_booted booted (hasRoom_of_every every count)).low
  have room : PagesLeft s 3 := by
    unfold PagesLeft
    rw [kernelPages_of_booted booted, Set.ncard_empty]
    decide
  have create : Leads true (fun _ => False) (vmmCreateVirtualAddressSpace 0x1000 0 true true) s _ :=
    vmmCreateVirtualAddressSpace_leads sound (faithful_of_booted booted) (fun _ => .inl nofun)
      (fun _ => low (4 + 4 * numCodePages 0 + 2)) (by decide)
  obtain ⟨space, created, createRun, createdFaithful, result⟩ := create.total
  have noCode : List.range (numCodePages 0) = [] := rfl
  rw [noCode] at result
  cases result with
  | failed starved => exact absurd starved (not_starved (by omega) (room.mono (by decide)))
  | @built made shared _ pointer directory table answer least newPage written shares pages =>
      obtain ⟨rfl, rfl⟩ : created = shared ∧ answer = true := by
        cases pages
        exact ⟨rfl, rfl⟩
      have member : directory ∈ insert directory ({s.kernelDirectory} : Set Frame) := .inl rfl
      have stackHigh := not_kernelSlot_processStackPage
      have unlinked := newPage.not_linked sound.structures
      have madeSound := sound.newPage (.mapped least newPage)
      have createdSound := sound.shared least newPage written shares
      have notKernel := newPage.notKernel sound written
      have takes := newPage.takesPage sound.structures least
      have keeps := written.keepsPages madeSound.structures unlinked
      have createdLow : TablesLow s created (insert directory {s.kernelDirectory}) 4 :=
        (low 6).shared sound least newPage written shares
      have addresses := newPage.addresses_shared sound least written
      obtain ⟨entry, found, isDirectory⟩ := Option.map_eq_some_iff.mp addresses.sees
      obtain ⟨read, translated, used⟩ := vmmGetPhysicalAddress_of_walk createdSound.structures
        createdSound.kernel createdSound.structures.kernelDirectory found addresses.apart
      rw [isDirectory] at translated
      have readSound := createdSound.windowUsed used
      have readLow := createdLow.windowUsed createdSound.structures used
      have keepsRead := keeps.trans (used.keepsPages createdSound.structures)
      -- The directory and its table leave one frame.
      have one : (freeFrames read).ncard = 1 := by
        have counted := takes.freeFrames_eq
        have absent := booted.absent_of_high (not_kernelSlot least.1.1)
        have isTable := card_toFinset_of_iff takes.withoutTable
        rw [if_pos absent] at isTable
        rw [keepsRead.freeFrames_eq]
        omega
      have makeStack : Leads true (fun _ => False) (createProcessStack 0xC0000000) read _ :=
        createProcessStack_leads readSound (used.reached.faithful createdFaithful) fun _ =>
          (readLow : TablesLow s read _ (2 + 2))
      obtain ⟨⟨esp, stack⟩, stacked, stackRun, stackedFaithful, stackResult⟩ := makeStack.total
      cases stack with
      | none =>
          -- It is enough for the page of the stack.
          cases stackResult with
          | failed starved =>
              have left : PagesLeft read 1 := ((RoomTaken.of_takes takes).trans
                (.of_keeps keepsRead)).pagesLeft (room.mono (by decide))
              obtain ⟨second, next⟩ := left.exists_lowest
              obtain ⟨frame, free⟩ :=
                Set.nonempty_of_ncard_ne_zero (by omega : (freeFrames read).ncard ≠ 0)
              have absent := (starved second next frame free).1
              rw [second_slot booted takes (keepsRead.isLowestUnmapped.mp next),
                keepsRead.kernelDirectory, keepsRead.entries, takes.present] at absent
              cases absent
      | some physical =>
          obtain ⟨stack, rfl, rfl, _⟩ := stackResult.of_frame readSound
          obtain ⟨stackMade, filled, window, stackTable, takesStack, keepsStack, givesStack⟩ :=
            stackResult.returned readSound.structures
          have none : ∀ frame, ¬ stacked.frames.Free frame := by
            have counted := takesStack.freeFrames_eq
            have zero : (freeFrames stackMade).ncard = 0 := by omega
            intro frame free
            rw [givesStack.frames, keepsStack.frames] at free
            have isEmpty := (Set.ncard_eq_zero (Set.toFinite _)).mp zero
            exact (isEmpty ▸ free : frame ∈ (∅ : Set Frame))
          have stackedSound := stackResult.sound readSound
          have stackedNotKernel := createdSound.notKernel stackedSound notKernel
          have toStacked : ∀ other, Extends created stacked _ other := fun other =>
            (used.extended createdSound.structures other).trans (stackResult.extended readSound other)
          have stackedAddresses := (toStacked directory).addresses addresses
          have stackedLow : TablesLow s stacked _ 2 := stackResult.tablesLow readSound readLow
          -- The directory has no table for the stack page yet.
          have absent : (tablesOf stacked.memory directory (directoryIndex processStackPage)).present =
              false := by
            rw [((toStacked created.kernelDirectory).spaceKept member notKernel).entries, shares,
              if_neg stackHigh]
            rfl
          have mapLeads : Leads true (fun _ => False) (vmmMapFrame pointer processStackPage
              (frameAddress stack) true true true) stacked _ :=
            vmmMapFrame_leads stackedSound.structures member stackedAddresses stackedFaithful
              (fun _ => stackedLow.reachable stackedSound stackedSound.kernel _)
              (fun _ => stackedLow.reachable stackedSound member _)
              fun same => absurd same.symm stackedNotKernel
          obtain ⟨mapped, t, mapRun, ends, mapResult⟩ := mapLeads.total
          refine ⟨t, pointer, directory,
            ⟨created, read, stacked, _, mapped, createRun, translated, stackRun, mapRun⟩, ends, ?_⟩
          cases mapResult with
          | failed _ newPage =>
              have kept := (newPage.extended stackedSound.structures stacked.kernelDirectory).spaceKept
                member stackedNotKernel
              exact Tables.walk_of_absent (by rw [kept.entries]; exact absent)
          | entered isPresent =>
              rw [absent] at isPresent
              cases isPresent
          | created _ made => exact absurd made.least.1 (none _)

end KdbOS.Proc
