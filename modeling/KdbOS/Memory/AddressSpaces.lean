import KdbOS.Memory.VmmAccesses

/-! What calls that build the address space of one process leave alone: the other address
spaces, the pages that the kernel has mapped, and the contents of frames in use. -/

set_option autoImplicit false

namespace KdbOS.Vmm

open Library Klibc Pmm Arch

variable {s t u : Machine} {directories : Set Frame} {directory frame other : Frame}
variable {pointer virtual : Nat} {isRw isUser : Bool}

/-! ## The rest of the machine -/

/-- The address space of `directory` has been worked on. -/
structure Extends (s t : Machine) (directories : Set Frame) (directory : Frame) : Prop where
  kernelDirectory : t.kernelDirectory = s.kernelDirectory
  free : ∀ frame, t.frames.Free frame → s.frames.Free frame
  linked : ∀ frame, (tablesOf t.memory).Linked directories frame →
    (tablesOf s.memory).Linked directories frame ∨ s.frames.Free frame
  kernelEntries : ∀ slot,
    KernelSlot slot ∨ (tablesOf s.memory s.kernelDirectory slot).present = true →
      tablesOf t.memory s.kernelDirectory slot = tablesOf s.memory s.kernelDirectory slot
  kernelWalks : ∀ slot index, ¬ WindowPage slot index →
    KernelSlot slot ∨ (tablesOf s.memory).walk s.kernelDirectory slot index ≠ none →
      (tablesOf t.memory).walk s.kernelDirectory slot index =
        (tablesOf s.memory).walk s.kernelDirectory slot index
  entries : ∀ other ∈ directories, other ≠ s.kernelDirectory → other ≠ directory →
    tablesOf t.memory other = tablesOf s.memory other
  walks : ∀ other ∈ directories, other ≠ s.kernelDirectory → other ≠ directory →
    ∀ slot index, ¬ KernelSlot slot →
      (tablesOf t.memory).walk other slot index = (tablesOf s.memory).walk other slot index
  unlinked : ∀ frame, ¬ s.frames.Free frame → ¬ (tablesOf s.memory).Linked directories frame →
    tablesOf t.memory frame = tablesOf s.memory frame

namespace Extends

theorem refl (s : Machine) (directories : Set Frame) (directory : Frame) :
    Extends s s directories directory where
  kernelDirectory := rfl
  free _ free := free
  linked _ linked := .inl linked
  kernelEntries _ _ := rfl
  kernelWalks _ _ _ _ := rfl
  entries _ _ _ _ := rfl
  walks _ _ _ _ _ _ _ := rfl
  unlinked _ _ _ := rfl

/-- The history of accesses says nothing about the address spaces. -/
theorem notes (extended : Extends s t directories directory)
    (accesses : List (Frame × Option Frame)) : Extends s (t.notes accesses) directories directory :=
  ⟨extended.kernelDirectory, extended.free, extended.linked, extended.kernelEntries,
    extended.kernelWalks, extended.entries, extended.walks, extended.unlinked⟩

theorem trans (first : Extends s t directories directory)
    (second : Extends t u directories directory) : Extends s u directories directory where
  kernelDirectory := second.kernelDirectory.trans first.kernelDirectory
  free frame free := first.free frame (second.free frame free)
  linked frame linked :=
    (second.linked frame linked).elim (first.linked frame) fun free => .inr (first.free frame free)
  kernelEntries slot which := by
    have before := first.kernelEntries slot which
    rw [← before]
    have after := second.kernelEntries slot
    rw [first.kernelDirectory, before] at after
    rw [before]
    exact after which
  kernelWalks slot index outside which := by
    have before := first.kernelWalks slot index outside which
    have after := second.kernelWalks slot index outside
    rw [first.kernelDirectory, before] at after
    exact after which
  entries other member notKernel different := by
    have after := second.entries other member
    rw [first.kernelDirectory] at after
    exact (after notKernel different).trans (first.entries other member notKernel different)
  walks other member notKernel different slot index high := by
    have after := second.walks other member
    rw [first.kernelDirectory] at after
    exact (after notKernel different slot index high).trans
      (first.walks other member notKernel different slot index high)
  unlinked frame used unlinked := by
    have still : ¬ (tablesOf t.memory).Linked directories frame :=
      fun linked => (first.linked frame linked).elim unlinked used
    exact (second.unlinked frame (fun free => used (first.free frame free)) still).trans
      (first.unlinked frame used unlinked)

/-- Pointers that are valid stay valid. -/
theorem addresses (extended : Extends s t directories directory)
    (addresses : Addresses s pointer frame) : Addresses t pointer frame := by
  refine addresses.of_walk extended.kernelDirectory
    (extended.kernelWalks _ _ addresses.apart (.inr fun none => ?_))
  have sees := addresses.sees
  unfold Sees Arch.translate walk at sees
  rw [none] at sees
  cases sees

/-- The contents of a frame are written that was free at first. -/
theorem written (extended : Extends s t directories directory) (changed : FrameWritten t u frame)
    (free : s.frames.Free frame) (unlinked : ¬ (tablesOf t.memory).Linked directories frame)
    (kernel : s.kernelDirectory ∈ directories) : Extends s u directories directory where
  kernelDirectory := changed.kernelDirectory.trans extended.kernelDirectory
  free other free := by
    rw [changed.frames] at free
    exact extended.free other free
  linked other linked := extended.linked other ((changed.linked unlinked).mp linked)
  kernelEntries slot which := by
    rw [changed.agree unlinked _ (.of_directory kernel)]
    exact extended.kernelEntries slot which
  kernelWalks slot index outside which :=
    (changed.walks unlinked kernel).trans (extended.kernelWalks slot index outside which)
  entries other member notKernel different := by
    rw [changed.agree unlinked _ (.of_directory member)]
    exact extended.entries other member notKernel different
  walks other member notKernel different slot index high :=
    (changed.walks unlinked member).trans
      (extended.walks other member notKernel different slot index high)
  unlinked other used still := by
    have different : other ≠ frame := fun same => used (same ▸ free)
    exact (changed.tables other different).trans (extended.unlinked other used still)

end Extends

/-! ## The calls -/

theorem WindowUsed.extended (used : WindowUsed s t) (structures : PageStructures s directories)
    (directory : Frame) : Extends s t directories directory where
  kernelDirectory := used.kernelDirectory
  free frame free := by
    rw [used.frames] at free
    exact free
  linked frame linked := .inl ((used.linked structures).mp linked)
  kernelEntries slot _ := used.entries structures structures.laid.kernel
  kernelWalks slot index outside _ := used.walks structures structures.laid.kernel outside
  entries other member _ _ := funext fun slot => used.entries structures member
  walks other member _ _ slot index high :=
    used.walks structures member (not_windowPage_of_high high)
  unlinked frame _ unlinked := used.unlinked structures unlinked

theorem NewPageResult.extended {result : Nat}
    (newPageResult : NewPageResult s directories s.kernelDirectory isRw isUser result t)
    (structures : PageStructures s directories) (directory : Frame) :
    Extends s t directories directory := by
  cases newPageResult with
  | full => exact (Extends.refl s directories directory).notes _
  | exhausted noFrame =>
      exact {
        kernelDirectory := noFrame.kernelDirectory
        free := fun frame free => absurd free (noFrame.exhausted frame)
        linked := fun frame linked => by
          rw [noFrame.memory] at linked
          exact .inl linked
        kernelEntries := fun slot _ => by rw [noFrame.memory]
        kernelWalks := fun slot index _ _ => by rw [noFrame.memory]
        entries := fun other _ _ _ => by rw [noFrame.memory]
        walks := fun other _ _ _ slot index _ => by rw [noFrame.memory]
        unlinked := fun frame _ _ => by rw [noFrame.memory] }
  | @mapped _ virtual frame table least newPage =>
      have high := not_kernelSlot least.1.1
      have kernel := structures.laid.kernel
      exact {
        kernelDirectory := newPage.kernelDirectory
        free := fun other free => ((newPage.free other).mp free).1
        linked := fun other linked => by
          rcases (newPage.linked other).mp linked with old | isTable
          · exact .inl old
          · exact .inr (newPage.leastTable other isTable).1.1
        kernelEntries := fun slot which => by
          rcases which with low | isPresent
          · refine newPage.entries _ kernel slot (.inr ?_)
            rintro ⟨_, rfl⟩
            exact high low
          · exact newPage.entry_of_present kernel isPresent
        kernelWalks := fun slot index outside which => by
          refine newPage.walks _ kernel slot index outside (.inl ?_)
          rintro ⟨rfl, rfl⟩
          exact which.elim high fun mapped => mapped least.1.2
        entries := fun other member notKernel _ => funext fun slot =>
          newPage.entries other member slot (.inr fun same => notKernel same.1)
        walks := fun other member notKernel _ slot index highSlot =>
          newPage.walks other member slot index (not_windowPage_of_high highSlot)
            (.inr ⟨notKernel, high⟩)
        unlinked := fun other used unlinked => by
          refine newPage.unlinked other unlinked fun isTable => ?_
          exact used (newPage.leastTable other isTable).1.1 }

/-- A page is taken away from the kernel again that was not mapped at first. -/
theorem Extends.freed (extended : Extends s t directories directory)
    (changed : PageChanged t u directories t.kernelDirectory virtual none)
    (kernel : s.kernelDirectory ∈ directories)
    (unmapped : walk s.memory s.kernelDirectory virtual = none)
    (high : ¬ KernelSlot (directoryIndex virtual)) : Extends s u directories directory where
  kernelDirectory := changed.kernelDirectory.trans extended.kernelDirectory
  free other free := by
    rw [changed.frames] at free
    exact extended.free other free
  linked other linked := extended.linked other ((changed.tables.linked other).mp linked)
  kernelEntries slot which := by
    rw [changed.tables.entries _ kernel]
    exact extended.kernelEntries slot which
  kernelWalks slot index outside which := by
    refine (changed.tables.walks _ kernel slot index (.inl ?_)).trans
      (extended.kernelWalks slot index outside which)
    rintro ⟨rfl, rfl⟩
    exact which.elim high fun mapped => mapped unmapped
  entries other member notKernel different := by
    refine (funext fun slot => changed.tables.entries other member slot).trans
      (extended.entries other member notKernel different)
  walks other member notKernel different slot index highSlot := by
    refine (changed.tables.walks other member slot index (.inr ⟨?_, high⟩)).trans
      (extended.walks other member notKernel different slot index highSlot)
    rw [extended.kernelDirectory]
    exact notKernel
  unlinked other used unlinked := by
    have still : ¬ (tablesOf t.memory).Linked directories other :=
      fun linked => (extended.linked other linked).elim unlinked used
    exact (changed.tables.unlinked other still).trans (extended.unlinked other used unlinked)

/-- A page of the address space has been mapped. If its slot had no table, a frame that was
free has become one. -/
structure PageMapped (s t : Machine) (directory : Frame) (virtual : Nat) (isUser : Bool)
    (frame : Frame) : Prop where
  mapped : ∃ entry, walk t.memory directory virtual =
    some (pointEntry true isUser (frameAddress frame) entry)
  walks : ∀ slot index, ¬ WindowPage slot index →
    ¬ (slot = directoryIndex virtual ∧ index = pageIndex virtual) →
      (tablesOf t.memory).walk directory slot index = (tablesOf s.memory).walk directory slot index
  entries : ∀ slot, tablesOf t.memory directory slot = tablesOf s.memory directory slot ∨
    slot = directoryIndex virtual ∧ (tablesOf s.memory directory slot).present = false ∧
      ∃ newTable entry, s.frames.Free newTable ∧
        tablesOf t.memory directory slot = pointEntry true isUser (frameAddress newTable) entry

section MapFrame

variable (structures : PageStructures s directories) (member : directory ∈ directories)
  (notKernel : directory ≠ s.kernelDirectory) (high : ¬ KernelSlot (directoryIndex virtual))

include structures notKernel high

theorem MapFrameResult.extended {answer : Bool}
    (result : MapFrameResult s directories directory virtual (frameAddress frame) true isUser answer
      t) : Extends s t directories directory := by
  have kernel := structures.laid.kernel
  cases result with
  | failed _ newPage => exact newPage.extended structures directory
  | @entered _ entry level changed =>
      exact {
        kernelDirectory := changed.kernelDirectory
        free := fun other free => by
          rw [changed.frames] at free
          exact free
        linked := fun other linked => .inl ((changed.tables.linked other).mp linked)
        kernelEntries := fun slot _ => changed.tables.entries _ kernel slot
        kernelWalks := fun slot index _ _ =>
          changed.tables.walks _ kernel slot index (.inr ⟨notKernel.symm, high⟩)
        entries := fun other otherMember _ _ => funext fun slot =>
          changed.tables.entries other otherMember slot
        walks := fun other otherMember _ different slot index _ =>
          changed.tables.walks other otherMember slot index (.inr ⟨different, high⟩)
        unlinked := fun other _ unlinked => changed.tables.unlinked other unlinked }
  | @created linked _ window newTable table absent made changed =>
      have windowHigh := not_kernelSlot made.leastWindow.1.1
      exact {
        kernelDirectory := changed.kernelDirectory.trans made.kernelDirectory
        free := fun other free => by
          rw [changed.frames] at free
          exact ((made.free other).mp free).1
        linked := fun other isLinked => by
          rcases made.linked other ((changed.tables.linked other).mp isLinked) with
            old | rfl | isTable
          · exact .inl old
          · exact .inr made.least.1
          · exact .inr (made.leastTable other isTable).1.1
        kernelEntries := fun slot which => by
          rw [changed.tables.entries _ kernel]
          refine made.entries _ kernel slot (fun same => notKernel same.1.symm) ?_
          by_cases isWindow : slot = directoryIndex window
          · subst isWindow
            exact .inl (made.withoutTable.mpr (which.resolve_left windowHigh))
          · exact .inr fun same => isWindow same.2
        kernelWalks := fun slot index outside which => by
          refine (changed.tables.walks _ kernel slot index (.inr ⟨notKernel.symm, high⟩)).trans
            (made.walks _ kernel slot index outside (fun same => notKernel same.1.symm) ?_)
          rintro ⟨_, rfl, rfl⟩
          exact which.elim windowHigh fun mapped => mapped made.leastWindow.1.2
        entries := fun other otherMember otherNotKernel different => funext fun slot =>
          (changed.tables.entries other otherMember slot).trans
            (made.entries other otherMember slot (fun same => different same.1)
              (.inr fun same => otherNotKernel same.1))
        walks := fun other otherMember otherNotKernel different slot index highSlot =>
          (changed.tables.walks other otherMember slot index (.inr ⟨different, high⟩)).trans
            (made.walks other otherMember slot index (not_windowPage_of_high highSlot)
              (fun same => different same.1) fun same => otherNotKernel same.1)
        unlinked := fun other used unlinked => by
          have still : ¬ (tablesOf linked.memory).Linked directories other := by
            intro isLinked
            rcases made.linked other isLinked with old | rfl | isTable
            · exact unlinked old
            · exact used made.least.1
            · exact used (made.leastTable other isTable).1.1
          refine (changed.tables.unlinked other still).trans (made.unlinked other unlinked ?_ ?_)
          · rintro rfl
            exact used made.least.1
          · exact fun isTable => used (made.leastTable other isTable).1.1 }

include member

omit structures high in
theorem MapFrameResult.pageMapped
    (result : MapFrameResult s directories directory virtual (frameAddress frame) true isUser true
      t) : PageMapped s t directory virtual isUser frame := by
  cases result with
  | @entered _ entry level changed =>
      exact ⟨⟨entry, changed.tables.mapped⟩,
        fun slot index _ apart => changed.tables.walks _ member slot index (.inl apart),
        fun slot => .inl (changed.tables.entries _ member slot)⟩
  | @created linked _ window newTable table absent made changed =>
      refine ⟨⟨_, changed.tables.mapped⟩, fun slot index outside apart => ?_, fun slot => ?_⟩
      · exact (changed.tables.walks _ member slot index (.inl apart)).trans
          (made.walk_of_ne absent member outside fun same => notKernel same.1)
      · rw [changed.tables.entries _ member]
        by_cases here : slot = directoryIndex virtual
        · subst here
          obtain ⟨entry, isEntry⟩ := made.directoryEntry
          exact .inr ⟨rfl, absent, newTable, entry, made.least.1, isEntry⟩
        · exact .inl (made.entries _ member slot (fun same => here same.2)
            (.inr fun same => notKernel same.1))

end MapFrame

end KdbOS.Vmm
