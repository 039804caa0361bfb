import KdbOS.Proc.CreatePcb

/-! The stages in which `create_pcb` builds an address space: the kernel's first 8 MiB, then
the pages of the code, and last the page of the stack. -/

set_option autoImplicit false

namespace KdbOS.Proc

open Library Pmm Arch Vmm

variable {start s t shared created : Machine} {directories : Set Frame} {directory stack : Frame}
variable {kernel after : KernelState} {fuel pointer space esp entryPoint size : Nat}
variable {entry : UInt32} {isUser cached : Bool}

/-! ## The stack -/

theorem frameAddress_injective {frame other : Frame} (same : frameAddress frame = frameAddress other) :
    frame = other := by
  rw [← frameOf_frameAddress frame, same, frameOf_frameAddress]

/-- The page in which the stack is filled is given back. -/
theorem StackResult.returned
    (result : StackResult s directories entry (esp, some (frameAddress stack)) t)
    (structures : PageStructures s directories) :
    ∃ made filled window table, TakesPage s made window stack table ∧ KeepsPages made filled ∧
      GivesPage filled t window := by
  generalize isPhysical : some (frameAddress stack) = physical at result
  cases result with
  | failed => cases isPhysical
  | @filled made filled _ window other table least newPage written _ changed =>
      obtain rfl := frameAddress_injective (Option.some.inj isPhysical)
      have unlinked := newPage.not_linked structures
      have madeStructures := NewPageResult.pageStructures (.mapped least newPage) structures
      have kept := written.keepsPages madeStructures unlinked
      refine ⟨made, filled, window, table, newPage.takesPage structures least, kept, ?_⟩
      have isDirectory : filled.kernelDirectory = s.kernelDirectory :=
        kept.kernelDirectory.trans newPage.kernelDirectory
      rw [← isDirectory] at changed
      exact changed.givesPage (written.pageStructures madeStructures unlinked)

/-! ## The stages -/

/-- The address space shares the kernel's first 8 MiB in `shared` and has its code in
`created`. The stack is placed last, unless the kernel had frames for two pages only and no
code asked for a table. -/
structure Stages (start s : Machine) (directories : Set Frame) (entryPoint size : Nat)
    (isUser : Bool) (directory : Frame) (shared created t : Machine) : Prop where
  fresh : s.frames.Free directory
  notKernel : directory ≠ shared.kernelDirectory
  begins : ∀ other, Extends s shared directories other
  shares : SharesKernel shared directory
  sharedSound : Sound start shared (insert directory directories)
  pages : CodePages (insert directory directories) directory entryPoint size isUser shared
    (List.range (numCodePages size)) true created
  left : ∃ frame, created.frames.Free frame
  room : PagesLeft shared (numCodePages size + 2)
  stack : (∃ stack, FramePlaced created t (insert directory directories) directory
      processStackPage isUser stack ∧ ContextIn t.memory stack (startContext 0xC0000000)) ∨
    size = 0 ∧ LastTwoPages s
  sound : Sound start t (insert directory directories)
  charge : charge t ≤ charge s

/-- The slots of the code pages have tables. -/
theorem present_of_codePages {rounds : List Nat}
    (pages : CodePages directories directory entryPoint size isUser s rounds true t)
    (sound : Sound start s directories) (member : directory ∈ directories)
    (notKernel : directory ≠ s.kernelDirectory) (high : HighRounds rounds)
    (room : PagesLeft s (rounds.length + 2)) (left : ∃ frame, t.frames.Free frame) :
    ∀ p ∈ rounds, (tablesOf t.memory directory (directoryIndex (codePage p))).present = true := by
  refine pages.keeps rfl (fun done x => ∀ p ∈ done,
    (tablesOf x.memory directory (directoryIndex (codePage p))).present = true)
    (fun done p x y code _ _ before placed _ q isPlaced => ?_) sound member notKernel high room left []
    nofun
  rcases List.mem_append.mp isPlaced with earlier | last
  · rcases placed.entries (directoryIndex (codePage q)) with same | ⟨_, newTable, entry, isEntry⟩
    · rw [same]
      exact before q earlier
    · rw [isEntry]
      rfl
  · rw [List.mem_singleton.mp last]
    obtain ⟨entry, mapped⟩ := placed.mapped
    exact (Tables.walk_eq_some_iff.mp mapped).1

theorem size_eq_zero (bounded : size ≤ 0x40000000) (noPages : numCodePages size = 0) : size = 0 := by
  unfold numCodePages at noPages
  rw [u32_of_lt (by unfold pageSize; omega)] at noPages
  unfold pageSize at noPages
  omega

theorem ProcessResult.stages
    (result : ProcessResult s directories entryPoint size isUser space directory t)
    (sound : Sound start s directories) (bounded : size ≤ 0x40000000)
    (room : PagesLeft s (numCodePages size + 3)) :
    ∃ shared created,
      Stages start s directories entryPoint size isUser directory shared created t := by
  cases result with
  | @built made shared created read stacked _ _ _ stack table answer least newPage written shares
      pages used stackResult mapResult fails =>
      have member : directory ∈ insert directory directories := .inl rfl
      have high := highRounds bounded
      have stackHigh := not_kernelSlot_processStackPage
      have unlinked := newPage.not_linked sound.structures
      have madeSound := sound.newPage (.mapped least newPage)
      have sharedSound := sound.shared least newPage written shares
      have createdSound := pages.sound sharedSound high
      have readSound := createdSound.windowUsed used
      have stackedSound := stackResult.sound readSound
      have notKernel := newPage.notKernel sound written
      have createdNotKernel := sharedSound.notKernel createdSound notKernel
      have stackedNotKernel := sharedSound.notKernel stackedSound notKernel
      have takesDirectory := newPage.takesPage sound.structures least
      have keepsDirectory := written.keepsPages madeSound.structures unlinked
      have keepsWindow := used.keepsPages createdSound.structures
      obtain ⟨stackMade, filled, window, stackTable, takesStack, keepsStack, givesStack⟩ :=
        stackResult.returned readSound.structures
      have taken : RoomTaken s shared 1 := (RoomTaken.of_takes takesDirectory).trans
        (.of_keeps keepsDirectory)
      have sharedRoom : PagesLeft shared (numCodePages size + 2) := taken.pagesLeft room
      have freeStack : created.frames.Free stack := by
        rw [← used.frames]
        exact takesStack.least.1
      -- While the stack is made the address space is left alone.
      have toStacked : ∀ other, Extends created stacked (insert directory directories) other :=
        fun other => (used.extended createdSound.structures other).trans
          (stackResult.extended readSound other)
      have kept := (toStacked created.kernelDirectory).spaceKept member createdNotKernel
      refine ⟨shared, created, newPage.least.1, notKernel, fun other => ?_, shares, sharedSound, pages,
        ⟨stack, freeStack⟩, sharedRoom, ?_, stackedSound.mapFrame mapResult stackHigh, ?_⟩
      · exact (NewPageResult.extended (.mapped least newPage) sound.structures other).written written
          newPage.least.1 unlinked sound.kernel
      · cases answer with
        | true =>
            have entering := mapResult.extended stackedSound.structures stackedNotKernel stackHigh
            obtain ⟨other, _, isStack, notFree, notLinked, inFrame⟩ := stackResult.of_frame readSound
            obtain rfl := frameAddress_injective isStack
            exact .inl ⟨stack, .of_pageMapped kept (mapResult.pageMapped member stackedNotKernel)
              ⟨fun _ => rfl, fun _ _ _ => rfl⟩ stackHigh ((toStacked directory).trans entering)
              freeStack (entering.settled ⟨notFree, notLinked⟩),
              inFrame.congr (entering.unlinked stack notFree notLinked)⟩
        | false =>
            right
            cases mapResult with
            | failed absent noPage =>
                have noPages : numCodePages size = 0 := by
                  by_contra some
                  have first := present_of_codePages pages sharedSound member notKernel high
                    (by rw [List.length_range]; exact sharedRoom) ⟨stack, freeStack⟩ 0
                    (List.mem_range.mpr (Nat.pos_of_ne_zero some))
                  have slot : directoryIndex processStackPage = directoryIndex (codePage 0) := by decide
                  rw [kept.entries, slot, first] at absent
                  cases absent
                refine ⟨size_eq_zero bounded noPages, ?_⟩
                rw [noPages, List.range_zero] at pages
                cases pages
                exact lastTwoPages takesDirectory (keepsDirectory.trans keepsWindow) takesStack
                  keepsStack givesStack (fails rfl)
      · have begun := taken.charge
        have coded := pages.charge_le rfl sharedSound notKernel high
        have asked := keepsWindow.charge_eq
        have returned := (takesStack.returned keepsStack givesStack).2
        have enters := (mapResult.roomTaken stackedSound.structures stackedNotKernel stackHigh).charge
        omega

/-- The address space of a block that is returned, and its stack pointer. -/
theorem createPcb_stages (sound : Sound start kernel.machine directories)
    (null : walk start.memory start.kernelDirectory 0 = none)
    (run : createPcb fuel entryPoint size isUser cached kernel = .ok pointer after)
    (notNull : pointer ≠ 0) (ends : Faithful after.machine) (bounded : size ≤ 0x40000000)
    (room : PagesLeft kernel.machine (numCodePages size + 3)) :
    ∃ directory shared created, Stages start kernel.machine directories entryPoint size isUser
        directory shared created after.machine ∧
      (after.pcb pointer).addressSpacePhysical = frameAddress directory ∧
      (after.pcb pointer).kernelStackPtr = 0xC0001FD8 := by
  obtain ⟨space, physical, esp, calls, espNotNull, block⟩ := createPcb_eq_ok run notNull
  obtain ⟨directory, rfl, rfl, result⟩ := calls.result sound null ends bounded espNotNull
  obtain ⟨shared, created, stages⟩ := result.stages sound bounded room
  refine ⟨directory, shared, created, stages, ?_, ?_⟩
  · rw [block]
    rfl
  · rw [block]
    rfl

end KdbOS.Proc
