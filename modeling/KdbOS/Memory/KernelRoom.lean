import KdbOS.Memory.AddressSpaces
import Mathlib.Data.Set.Card
import Mathlib.Order.Interval.Finset.Fin

/-! How much of the kernel's room is taken: the free frames, the pages from 8 MiB on that
are mapped in `kernel_directory`, and those that can be mapped without a new table. -/

set_option autoImplicit false

namespace KdbOS.Vmm

open Library Klibc Pmm Arch

variable {s t u : Machine} {directories : Set Frame} {directory frame other : Frame}
variable {virtual : Nat} {table : Option Frame} {isRw isUser : Bool}

/-! ## Steps as the kernel's address space sees them -/

/-- The page of `kernel_directory` that `vmm_get_new_page` chooses. -/
def IsLowestUnmapped (s : Machine) (virtual : Nat) : Prop :=
  IsLeast {address | address ∈ NewPageRange ∧ walk s.memory s.kernelDirectory address = none} virtual

/-- A page has been mapped for the kernel, to a frame that was free. -/
structure TakesPage (s t : Machine) (virtual : Nat) (frame : Frame) (table : Option Frame) :
    Prop where
  kernelDirectory : t.kernelDirectory = s.kernelDirectory
  lowest : IsLowestUnmapped s virtual
  least : IsLeast {other | s.frames.Free other} frame
  withoutTable : table = none ↔
    (tablesOf s.memory s.kernelDirectory (directoryIndex virtual)).present = true
  leastTable : ∀ newTable ∈ table, IsLeast {other | s.frames.Free other ∧ other ≠ frame} newTable
  free : ∀ other, t.frames.Free other ↔ s.frames.Free other ∧ other ≠ frame ∧ table ≠ some other
  present : (tablesOf t.memory t.kernelDirectory (directoryIndex virtual)).present = true
  entries : ∀ slot, table = none ∨ slot ≠ directoryIndex virtual →
    tablesOf t.memory s.kernelDirectory slot = tablesOf s.memory s.kernelDirectory slot
  mapped : Sees t virtual frame
  walks : ∀ slot index, ¬ KernelSlot slot →
    ¬ (slot = directoryIndex virtual ∧ index = pageIndex virtual) →
      (tablesOf t.memory).walk s.kernelDirectory slot index =
        (tablesOf s.memory).walk s.kernelDirectory slot index

/-- A page of the kernel has been given back. -/
structure GivesPage (s t : Machine) (virtual : Nat) : Prop where
  kernelDirectory : t.kernelDirectory = s.kernelDirectory
  frames : t.frames = s.frames
  entries : ∀ slot,
    tablesOf t.memory s.kernelDirectory slot = tablesOf s.memory s.kernelDirectory slot
  unmapped : walk t.memory s.kernelDirectory virtual = none
  walks : ∀ slot index, ¬ (slot = directoryIndex virtual ∧ index = pageIndex virtual) →
    (tablesOf t.memory).walk s.kernelDirectory slot index =
      (tablesOf s.memory).walk s.kernelDirectory slot index

/-- No page of the kernel from 8 MiB on and no frame has been taken or given back. -/
structure KeepsPages (s t : Machine) : Prop where
  kernelDirectory : t.kernelDirectory = s.kernelDirectory
  frames : t.frames = s.frames
  entries : ∀ slot,
    tablesOf t.memory s.kernelDirectory slot = tablesOf s.memory s.kernelDirectory slot
  walks : ∀ slot index, ¬ KernelSlot slot →
    (tablesOf t.memory).walk s.kernelDirectory slot index =
      (tablesOf s.memory).walk s.kernelDirectory slot index

theorem NewPage.takesPage (structures : PageStructures s directories)
    (least : IsLeast {address | address ∈ NewPageRange ∧
      walk s.memory s.kernelDirectory address = none} virtual)
    (newPage : NewPage s t directories s.kernelDirectory virtual isRw isUser frame table) :
    TakesPage s t virtual frame table := by
  have kernel := structures.laid.kernel
  obtain ⟨entry, mapped⟩ := newPage.mapped
  exact {
    kernelDirectory := newPage.kernelDirectory
    lowest := least
    least := newPage.least
    withoutTable := newPage.withoutTable
    leastTable := newPage.leastTable
    free := newPage.free
    present := by
      rw [newPage.kernelDirectory]
      exact (Tables.walk_eq_some_iff.mp mapped).1
    entries := fun slot which => newPage.entries _ kernel slot
      (which.imp_right fun different same => different same.2)
    mapped := newPage.sees
    walks := fun slot index high apart =>
      newPage.walks _ kernel slot index (not_windowPage_of_high high) (.inl apart) }

section MapFrame

variable (structures : PageStructures s directories) (notKernel : directory ≠ s.kernelDirectory)
  (high : ¬ KernelSlot (directoryIndex virtual))

include structures notKernel high

theorem NewTable.takesPage {window : Nat} {page : Option Page}
    (made : NewTable s t directories directory (directoryIndex virtual) isUser window frame table)
    (changed : PageChanged t u directories directory virtual page) :
    TakesPage s u window frame table := by
  have kernel := structures.laid.kernel
  have kernelDirectory := changed.kernelDirectory.trans made.kernelDirectory
  have apart : ¬ (s.kernelDirectory = directory ∧ directoryIndex window = directoryIndex virtual) :=
    fun same => notKernel same.1.symm
  have walks : ∀ slot index, (tablesOf u.memory).walk s.kernelDirectory slot index =
      (tablesOf t.memory).walk s.kernelDirectory slot index := fun slot index =>
    changed.tables.walks _ kernel slot index (.inr ⟨notKernel.symm, high⟩)
  obtain ⟨entry, mapped⟩ := made.mapped apart
  have windowMapped : walk u.memory u.kernelDirectory window =
      some (pointEntry true false (frameAddress frame) entry) := by
    rw [kernelDirectory, ← mapped]
    exact walks _ _
  exact {
    kernelDirectory := kernelDirectory
    lowest := made.leastWindow
    least := made.least
    withoutTable := made.withoutTable
    leastTable := made.leastTable
    free := fun other => by
      rw [changed.frames]
      exact made.free other
    present := (Tables.walk_eq_some_iff.mp windowMapped).1
    entries := fun slot which => by
      rw [changed.tables.entries _ kernel]
      exact made.entries _ kernel slot (fun same => notKernel same.1.symm)
        (which.imp_right fun different same => different same.2)
    mapped := by
      unfold Sees Arch.translate
      rw [windowMapped]
      exact congrArg some (frameOf_frameAddress frame)
    walks := fun slot index highSlot different => (walks slot index).trans
      (made.walks _ kernel slot index (not_windowPage_of_high highSlot)
        (fun same => notKernel same.1.symm) fun same => different same.2) }

theorem PageChanged.keepsPages {page : Option Page}
    (changed : PageChanged s t directories directory virtual page) : KeepsPages s t where
  kernelDirectory := changed.kernelDirectory
  frames := changed.frames
  entries slot := changed.tables.entries _ structures.laid.kernel slot
  walks slot index _ := changed.tables.walks _ structures.laid.kernel slot index
    (.inr ⟨notKernel.symm, high⟩)

end MapFrame

theorem PageChanged.givesPage (structures : PageStructures s directories)
    (changed : PageChanged s t directories s.kernelDirectory virtual none) :
    GivesPage s t virtual where
  kernelDirectory := changed.kernelDirectory
  frames := changed.frames
  entries slot := changed.tables.entries _ structures.laid.kernel slot
  unmapped := changed.tables.mapped
  walks slot index apart := changed.tables.walks _ structures.laid.kernel slot index (.inl apart)

theorem WindowUsed.keepsPages (structures : PageStructures s directories) (used : WindowUsed s t) :
    KeepsPages s t where
  kernelDirectory := used.kernelDirectory
  frames := used.frames
  entries _ := used.entries structures structures.laid.kernel
  walks _ _ high := used.walks structures structures.laid.kernel (not_windowPage_of_high high)

theorem FrameWritten.keepsPages (structures : PageStructures s directories)
    (unlinked : ¬ (tablesOf s.memory).Linked directories frame) (written : FrameWritten s t frame) :
    KeepsPages s t where
  kernelDirectory := written.kernelDirectory
  frames := written.frames
  entries _ := by rw [written.agree unlinked _ (.of_directory structures.laid.kernel)]
  walks _ _ _ := written.walks unlinked structures.laid.kernel

theorem KeepsPages.trans (first : KeepsPages s t) (second : KeepsPages t u) : KeepsPages s u where
  kernelDirectory := second.kernelDirectory.trans first.kernelDirectory
  frames := second.frames.trans first.frames
  entries slot := by
    have after := second.entries slot
    rw [first.kernelDirectory] at after
    exact after.trans (first.entries slot)
  walks slot index high := by
    have after := second.walks slot index high
    rw [first.kernelDirectory] at after
    exact after.trans (first.walks slot index high)

/-! ## Pages and frames weighed against each other -/

/-- The pages from 8 MiB on that are mapped in `kernel_directory`. -/
def kernelPages (s : Machine) : Set (EntryIndex × EntryIndex) :=
  {page | page.1 ∈ searchSlots ∧
    (tablesOf s.memory).walk s.kernelDirectory page.1 page.2 ≠ none}

def freeFrames (s : Machine) : Set Frame := {frame | s.frames.Free frame}

/-- A process keeps fewer than three of the kernel's pages for every two frames that it
takes, so that the kernel runs out of frames before it runs out of pages. -/
noncomputable def charge (s : Machine) : Nat :=
  3 * (kernelPages s).ncard + 2 * (freeFrames s).ncard

theorem not_kernelSlot_of_search {slot : EntryIndex} (candidate : slot ∈ searchSlots) :
    ¬ KernelSlot slot :=
  Nat.not_lt.mpr (mem_searchSlots.mp candidate).1

theorem freeFrames_card_le (s : Machine) : (freeFrames s).ncard ≤ 1048576 := by
  have all : (freeFrames s).ncard ≤ Nat.card Frame := Set.ncard_le_card _
  rwa [Nat.card_eq_fintype_card, Fintype.card_fin] at all

theorem TakesPage.freeFrames_card (takes : TakesPage s t virtual frame table) :
    (freeFrames t).ncard + 1 ≤ (freeFrames s).ncard := by
  have inside : freeFrames t ⊆ freeFrames s \ {frame} := by
    intro other free
    obtain ⟨before, different, _⟩ := (takes.free other).mp free
    exact ⟨before, different⟩
  have smaller := Set.ncard_le_ncard inside
  have removed := Set.ncard_sdiff_singleton_add_one
    (show frame ∈ freeFrames s from takes.least.1) (Set.toFinite _)
  omega

theorem TakesPage.kernelPages_card (takes : TakesPage s t virtual frame table) :
    (kernelPages t).ncard ≤ (kernelPages s).ncard + 1 := by
  have inside : kernelPages t ⊆
      insert (directoryIndex virtual, pageIndex virtual) (kernelPages s) := by
    rintro ⟨slot, index⟩ ⟨candidate, mapped⟩
    by_cases here : slot = directoryIndex virtual ∧ index = pageIndex virtual
    · exact .inl (Prod.ext here.1 here.2)
    · rw [takes.kernelDirectory,
        takes.walks slot index (not_kernelSlot_of_search candidate) here] at mapped
      exact .inr ⟨candidate, mapped⟩
  exact (Set.ncard_le_ncard inside).trans (Set.ncard_insert_le _ _)

theorem TakesPage.charge_le (takes : TakesPage s t virtual frame table) :
    charge t ≤ charge s + 1 := by
  have frames := takes.freeFrames_card
  have pages := takes.kernelPages_card
  unfold charge
  omega

theorem GivesPage.kernelPages_card (gives : GivesPage s t virtual)
    (candidate : directoryIndex virtual ∈ searchSlots)
    (mapped : walk s.memory s.kernelDirectory virtual ≠ none) :
    (kernelPages t).ncard + 1 ≤ (kernelPages s).ncard := by
  have inside : kernelPages t ⊆
      kernelPages s \ {(directoryIndex virtual, pageIndex virtual)} := by
    rintro ⟨slot, index⟩ ⟨isCandidate, stillMapped⟩
    rw [gives.kernelDirectory] at stillMapped
    have apart : ¬ (slot = directoryIndex virtual ∧ index = pageIndex virtual) := by
      rintro ⟨rfl, rfl⟩
      exact stillMapped gives.unmapped
    rw [gives.walks slot index apart] at stillMapped
    exact ⟨⟨isCandidate, stillMapped⟩, fun same =>
      apart ⟨congrArg Prod.fst same, congrArg Prod.snd same⟩⟩
  have smaller := Set.ncard_le_ncard inside
  have removed := Set.ncard_sdiff_singleton_add_one
    (show (directoryIndex virtual, pageIndex virtual) ∈ kernelPages s from ⟨candidate, mapped⟩)
    (Set.toFinite _)
  omega

theorem GivesPage.charge_le (gives : GivesPage s t virtual)
    (candidate : directoryIndex virtual ∈ searchSlots)
    (mapped : walk s.memory s.kernelDirectory virtual ≠ none) : charge t + 3 ≤ charge s := by
  have pages := gives.kernelPages_card candidate mapped
  unfold charge freeFrames
  rw [gives.frames]
  omega

theorem TakesPage.isMapped (takes : TakesPage s t virtual frame table) :
    walk t.memory t.kernelDirectory virtual ≠ none := by
  intro none
  have sees := takes.mapped
  rw [Sees, Arch.translate, none] at sees
  cases sees

theorem KeepsPages.kernelPages_eq (keeps : KeepsPages s t) : kernelPages t = kernelPages s := by
  unfold kernelPages
  rw [keeps.kernelDirectory]
  ext ⟨slot, index⟩
  refine and_congr_right fun candidate => not_congr ?_
  rw [keeps.walks slot index (not_kernelSlot_of_search candidate)]

theorem KeepsPages.charge_eq (keeps : KeepsPages s t) : charge t = charge s := by
  unfold charge freeFrames
  rw [keeps.kernelPages_eq, keeps.frames]

/-- A page that is used and given back costs its frame. -/
theorem TakesPage.returned {made filled : Machine} (takes : TakesPage s made virtual frame table)
    (keeps : KeepsPages made filled) (gives : GivesPage filled t virtual) :
    (kernelPages t).ncard ≤ (kernelPages s).ncard ∧ charge t + 2 ≤ charge s := by
  have range := takes.lowest.1.1
  have candidate := (pageAddress_indices range).2
  have mapped : walk filled.memory filled.kernelDirectory virtual ≠ none := by
    rw [keeps.kernelDirectory, walk, keeps.walks _ _ (not_kernelSlot range)]
    exact takes.isMapped
  have pages := takes.kernelPages_card
  have fewer := gives.kernelPages_card candidate mapped
  have charges := takes.charge_le
  have less := gives.charge_le candidate mapped
  rw [keeps.kernelPages_eq] at fewer
  rw [keeps.charge_eq] at less
  exact ⟨by omega, by omega⟩

/-- The search looks at 1020 slots. -/
theorem card_searchPages : {page : EntryIndex × EntryIndex | page.1 ∈ searchSlots}.ncard =
    1044480 := by
  have slots : searchSlots.toFinset.card = 1020 := by
    have distinct : searchSlots.Nodup := (List.nodup_finRange 1024).filter _
    rw [List.toFinset_card_of_nodup distinct]
    decide +kernel
  have pages : {page : EntryIndex × EntryIndex | page.1 ∈ searchSlots} =
      ((searchSlots.toFinset ×ˢ Finset.univ : Finset (EntryIndex × EntryIndex)) :
        Set (EntryIndex × EntryIndex)) := by
    ext ⟨slot, index⟩
    simp
  rw [pages, Set.ncard_coe_finset, Finset.card_product, slots, Finset.card_univ, Fintype.card_fin]

/-- So many pages of the kernel are not mapped. -/
def PagesLeft (s : Machine) (count : Nat) : Prop := (kernelPages s).ncard + count ≤ 1044480

theorem PagesLeft.mono {count fewer : Nat} (left : PagesLeft s count) (less : fewer ≤ count) :
    PagesLeft s fewer :=
  (Nat.add_le_add_left less _).trans left

theorem PagesLeft.not_full (left : PagesLeft s 1) :
    ¬ ∀ address ∈ NewPageRange, walk s.memory s.kernelDirectory address ≠ none := by
  intro mapped
  have inside : {page : EntryIndex × EntryIndex | page.1 ∈ searchSlots} ⊆ kernelPages s := by
    rintro ⟨slot, index⟩ candidate
    refine ⟨candidate, ?_⟩
    have walked := mapped (pageAddress slot index) (pageAddress_mem candidate)
    unfold walk at walked
    rwa [directoryIndex_pageAddress, pageIndex_pageAddress] at walked
  have all := Set.ncard_le_ncard inside
  rw [card_searchPages] at all
  unfold PagesLeft at left
  omega

/-- As long as pages are only taken with frames, the kernel does not run out of them. -/
theorem pagesLeft_of_charge (bounded : charge s ≤ 2097152) : PagesLeft s 345429 := by
  unfold charge at bounded
  unfold PagesLeft
  omega

end KdbOS.Vmm
