import KdbOS.Memory.KernelRoom
import KdbOS.Memory.VmmCreate

/-! The pages and frames of the kernel while nothing is given back: both are handed out in
order, the pages from 8 MiB on. -/

set_option autoImplicit false

namespace KdbOS.Vmm

open Library Klibc Pmm Arch

variable {start s t u : Machine} {directories : Set Frame} {directory frame : Frame}
variable {pointer virtual first total count : Nat} {isRw isUser cached : Bool}
variable {table : Option Frame}

/-! ## Calls that find a page and its frames -/

theorem NewPage.of_notes {accesses : List (Frame × Option Frame)}
    (newPage : NewPage (s.notes accesses) t directories directory virtual isRw isUser frame table)
    (reached : ∀ access ∈ accesses, access.2 = some access.1) :
    NewPage s t directories directory virtual isRw isUser frame table :=
  { newPage with reached := (Reached.notes reached).trans newPage.reached }

section NewPage

variable (structures : PageStructures s directories) (member : directory ∈ directories)
  (space : Addresses s pointer directory)
  (reachable : TablesReachable s directory searchSlots)
  (least : IsLeast {address | address ∈ NewPageRange ∧ walk s.memory directory address = none}
    virtual)

include structures member space reachable least

omit structures member in
/-- The search finds the page. -/
theorem vmmGetNewPage_of_least (isRw isUser : Bool) :
    ∃ accesses, (∀ access ∈ accesses, access.2 = some access.1) ∧
      vmmGetNewPage pointer isRw isUser 0 s =
        mapNewPage pointer isRw isUser virtual (s.notes accesses) := by
  obtain ⟨result, accesses, search, reached⟩ := findSlot_ok space.sees reachable
  refine ⟨accesses, reached, ?_⟩
  obtain ⟨others, same, found⟩ := findSlot_eq_ok space.sees search
  have equal : accesses = others :=
    List.append_cancel_left (congrArg Machine.direct same)
  subst equal
  have isLeast := (found reached).isLeast
  cases result with
  | none => exact absurd least.1.2 (isLeast virtual least.1.1)
  | some chosen =>
      obtain rfl : chosen = virtual := isLeast.unique least
      exact vmmGetNewPage_of_some search

/-- Its slot has a table, and a frame is left. -/
theorem vmmGetNewPage_of_table
    (isPresent : (tablesOf s.memory directory (directoryIndex virtual)).present = true)
    (leastFrame : IsLeast {other | s.frames.Free other} frame) (isRw isUser : Bool) :
    ∃ t, vmmGetNewPage pointer isRw isUser 0 s = .ok virtual t ∧
      NewPage s t directories directory virtual isRw isUser frame none := by
  obtain ⟨accesses, reached, run⟩ :=
    vmmGetNewPage_of_least space reachable least isRw isUser
  cases s.frames.allocate_cases with
  | inl full => exact absurd leastFrame.1 (full.2 frame)
  | inr found =>
      obtain ⟨allocatedFrame, isLeast, allocated, frees⟩ := found
      obtain rfl : allocatedFrame = frame := isLeast.unique leastFrame
      obtain ⟨t, mapped, newPage⟩ := mapNewPage_of_table (structures.notes accesses) member
        (space.notes accesses) ((structures.notes accesses).undisturbed (space.notes accesses)
          least.1.1 least.1.2) leastFrame allocated frees isPresent
      exact ⟨t, run.trans mapped, newPage.of_notes reached⟩

/-- Its slot has no table, and two frames are left. -/
theorem vmmGetNewPage_of_newTable {newTable : Frame}
    (absent : (tablesOf s.memory directory (directoryIndex virtual)).present = false)
    (leastFrame : IsLeast {other | s.frames.Free other} frame)
    (leastTable : IsLeast {other | s.frames.Free other ∧ other ≠ frame} newTable)
    (isRw isUser : Bool) :
    ∃ t, vmmGetNewPage pointer isRw isUser 0 s = .ok virtual t ∧
      NewPage s t directories directory virtual isRw isUser frame (some newTable) := by
  obtain ⟨accesses, reached, run⟩ :=
    vmmGetNewPage_of_least space reachable least isRw isUser
  cases s.frames.allocate_cases with
  | inl full => exact absurd leastFrame.1 (full.2 frame)
  | inr found =>
      obtain ⟨allocatedFrame, isLeast, allocated, frees⟩ := found
      obtain rfl : allocatedFrame = frame := isLeast.unique leastFrame
      have same : {other | s.frames.Free other ∧ other ≠ allocatedFrame} =
          {other | s.frames.allocate.2.Free other} := Set.ext fun other => (frees other).symm
      rw [same] at leastTable
      cases s.frames.allocate.2.allocate_cases with
      | inl full => exact absurd leastTable.1 (full.2 newTable)
      | inr foundTable =>
          obtain ⟨allocatedTable, isLeastTable, allocatedTwice, freesTable⟩ := foundTable
          obtain rfl : allocatedTable = newTable := isLeastTable.unique leastTable
          obtain ⟨t, mapped, newPage⟩ := mapNewPage_of_newTable (structures.notes accesses) member
            (space.notes accesses) ((structures.notes accesses).undisturbed (space.notes accesses)
              least.1.1 least.1.2) leastFrame allocated frees absent leastTable allocatedTwice
              freesTable
          exact ⟨t, run.trans mapped, newPage.of_notes reached⟩

end NewPage

/-- A table for another directory than the kernel's is made from the page that is found. -/
theorem vmmMapFrame_of_newTable {window : Nat} {newPageMachine : Machine} {newTable : Frame}
    (structures : PageStructures s directories) (member : directory ∈ directories)
    (notKernel : directory ≠ s.kernelDirectory) (space : Addresses s pointer directory)
    (absent : (tablesOf s.memory directory (directoryIndex virtual)).present = false)
    (run : vmmGetNewPage (frameAddress s.kernelDirectory) true false 0 s = .ok window newPageMachine)
    (least : IsLowestUnmapped s window)
    (newPage : NewPage s newPageMachine directories s.kernelDirectory window true false newTable table)
    (physicalFrame : Nat) (isWriteable isUser cached : Bool) :
    ∃ linked t,
      vmmMapFrame pointer virtual physicalFrame isWriteable isUser cached s = .ok true t ∧
      NewTable s linked directories directory (directoryIndex virtual) isUser window newTable table ∧
      PageChanged linked t directories directory virtual
        (some (pointEntry isWriteable isUser physicalFrame (Page.decode 0))) := by
  obtain ⟨linked, made, outcome⟩ :=
    mapNewTable_spec structures member space absent run least newPage isUser cached
  rcases outcome with done | ⟨_, isKernel, _⟩
  · exact ⟨linked, _, vmmMapFrame_of_some space.sees absent done, made,
      made.pageChanged member physicalFrame isWriteable isUser⟩
  · exact absurd isKernel.symm notKernel

/-! ## The first slot -/

/-- The first `count` pages from 8 MiB on are mapped for the kernel, and no others. Their
frames follow each other from the number `first` on, with the table of the slot after the
frame of the first page, and then come the free frames. -/
structure FirstPages (s : Machine) (first total count : Nat) : Prop where
  free : ∀ frame, s.frames.Free frame ↔ first + 1 + count ≤ frame.val ∧ frame.val < total
  isPresent : (tablesOf s.memory s.kernelDirectory 2).present = true
  table : (tablesOf s.memory s.kernelDirectory 2).frameAddr.val = first + 1
  mapped : ∀ index : EntryIndex, index.val < count → ∃ frame,
    Sees s (pageAddress 2 index) frame ∧ (index ≠ 0 → frame.val = first + 1 + index.val)
  unmapped : ∀ index : EntryIndex, count ≤ index.val →
    walk s.memory s.kernelDirectory (pageAddress 2 index) = none
  absent : ∀ slot : EntryIndex, 2 < slot.val →
    (tablesOf s.memory s.kernelDirectory slot).present = false

theorem two_mem_searchSlots : (2 : EntryIndex) ∈ searchSlots := mem_searchSlots.mpr (by decide)

theorem isLeast_of_free {next : Nat} (free : ∀ frame, s.frames.Free frame ↔
    next ≤ frame.val ∧ frame.val < total) (isNext : frame.val = next) (inside : next < total) :
    IsLeast {other | s.frames.Free other} frame := by
  refine ⟨(free frame).mpr ⟨isNext.ge, isNext ▸ inside⟩, fun other isFree => ?_⟩
  exact Fin.le_def.mpr (isNext ▸ ((free other).mp isFree).1)

namespace FirstPages

variable (pages : FirstPages s first total count)

include pages

theorem lowest (inside : count < 1024) :
    IsLowestUnmapped s (pageAddress 2 ⟨count, inside⟩) := by
  refine ⟨⟨pageAddress_mem two_mem_searchSlots, pages.unmapped _ (Nat.le_refl count)⟩, ?_⟩
  rintro address ⟨range, unmapped⟩
  obtain ⟨same, candidate⟩ := pageAddress_indices range
  have lower := (mem_searchSlots.mp candidate).1
  by_cases isFirst : directoryIndex address = 2
  · have notMapped : count ≤ (pageIndex address).val := by
      by_contra below
      obtain ⟨frame, sees, _⟩ := pages.mapped (pageIndex address) (Nat.not_le.mp below)
      rw [← isFirst, same, Sees, Arch.translate, unmapped] at sees
      cases sees
    rw [← same, isFirst]
    unfold pageAddress
    dsimp only
    omega
  · have later : (directoryIndex address).val ≠ 2 := fun isTwo => isFirst (Fin.ext isTwo)
    have two : (2 : EntryIndex).val = 2 := rfl
    rw [← same]
    unfold pageAddress
    dsimp only
    omega

/-- One more page, without a new table. -/
theorem takesPage (inside : count < 1024)
    (takes : TakesPage s t (pageAddress 2 ⟨count, inside⟩) frame none) :
    FirstPages t first total (count + 1) ∧ frame.val = first + 1 + count := by
  have number : frame.val = first + 1 + count := by
    have bounds := (pages.free frame).mp takes.least.1
    refine Nat.le_antisymm ?_ bounds.1
    have nextLt : first + 1 + count < 1048576 := Nat.lt_of_le_of_lt bounds.1 frame.isLt
    have next : s.frames.Free ⟨first + 1 + count, nextLt⟩ :=
      (pages.free _).mpr ⟨Nat.le_refl _, Nat.lt_of_le_of_lt bounds.1 bounds.2⟩
    exact takes.least.2 next
  have entries : ∀ slot, tablesOf t.memory t.kernelDirectory slot =
      tablesOf s.memory s.kernelDirectory slot := fun slot => by
    rw [takes.kernelDirectory]
    exact takes.entries slot (.inl rfl)
  have high : ¬ KernelSlot (2 : EntryIndex) := by decide
  have walks : ∀ index : EntryIndex, index.val ≠ count →
      walk t.memory t.kernelDirectory (pageAddress 2 index) =
        walk s.memory s.kernelDirectory (pageAddress 2 index) := by
    intro index different
    rw [walk, walk, takes.kernelDirectory, directoryIndex_pageAddress, pageIndex_pageAddress]
    refine takes.walks 2 index high ?_
    rw [pageIndex_pageAddress]
    exact fun same => different (congrArg Fin.val same.2)
  refine ⟨⟨fun other => ?_, ?_, ?_, fun index below => ?_, fun index above => ?_,
    fun slot later => ?_⟩, number⟩
  · rw [takes.free, pages.free, ← Fin.val_ne_iff, number]
    constructor
    · rintro ⟨⟨lower, upper⟩, different, _⟩
      omega
    · rintro ⟨lower, upper⟩
      exact ⟨⟨by omega, upper⟩, by omega, (Option.some_ne_none other).symm⟩
  · rw [entries]
    exact pages.isPresent
  · rw [entries]
    exact pages.table
  · by_cases last : index.val = count
    · obtain rfl : index = ⟨count, inside⟩ := Fin.ext last
      exact ⟨frame, takes.mapped, fun _ => number⟩
    · obtain ⟨old, sees, isOld⟩ := pages.mapped index (by omega)
      refine ⟨old, ?_, isOld⟩
      rw [Sees, Arch.translate, walks index last]
      exact sees
  · rw [walks index (by omega)]
    exact pages.unmapped index (by omega)
  · rw [entries]
    exact pages.absent slot later

/-- Steps that take nothing. -/
theorem keepsPages (keeps : KeepsPages s t) : FirstPages t first total count := by
  have entries : ∀ slot, tablesOf t.memory t.kernelDirectory slot =
      tablesOf s.memory s.kernelDirectory slot := fun slot => by
    rw [keeps.kernelDirectory]
    exact keeps.entries slot
  have high : ¬ KernelSlot (2 : EntryIndex) := by decide
  have walks : ∀ index : EntryIndex, walk t.memory t.kernelDirectory (pageAddress 2 index) =
      walk s.memory s.kernelDirectory (pageAddress 2 index) := by
    intro index
    rw [walk, walk, keeps.kernelDirectory, directoryIndex_pageAddress, pageIndex_pageAddress]
    exact keeps.walks 2 index high
  refine ⟨fun other => ?_, ?_, ?_, fun index below => ?_, fun index above => ?_, fun slot later => ?_⟩
  · rw [keeps.frames]
    exact pages.free other
  · rw [entries]
    exact pages.isPresent
  · rw [entries]
    exact pages.table
  · obtain ⟨frame, sees, number⟩ := pages.mapped index below
    refine ⟨frame, ?_, number⟩
    rw [Sees, Arch.translate, walks index]
    exact sees
  · rw [walks index]
    exact pages.unmapped index above
  · rw [entries]
    exact pages.absent slot later

/-- The table of the slot is the only one that a search looks at. -/
theorem reachable (sees : ∀ table : Frame, table.val = first + 1 → Sees s (frameAddress table) table) :
    TablesReachable s s.kernelDirectory searchSlots := by
  intro slot candidate isPresent
  have lower := (mem_searchSlots.mp candidate).1
  have notLater : ¬ 2 < slot.val := by
    intro later
    rw [pages.absent slot later] at isPresent
    cases isPresent
  obtain rfl : slot = 2 := Fin.ext (by
    have two : (2 : EntryIndex).val = 2 := rfl
    omega)
  exact sees _ pages.table

end FirstPages

/-- The first page, with the table of its slot. -/
theorem FirstPages.of_newPage (structures : PageStructures s directories)
    (free : ∀ frame, s.frames.Free frame ↔ first ≤ frame.val ∧ frame.val < total)
    (absent : ∀ slot, ¬ KernelSlot slot →
      (tablesOf s.memory s.kernelDirectory slot).present = false)
    (enough : first + 1 < total) (bounded : total ≤ 1048576) (isRw isUser : Bool) :
    ∃ t frame newTable, vmmGetNewPage (frameAddress s.kernelDirectory) isRw isUser 0 s =
        .ok 0x00800000 t ∧ IsLowestUnmapped s 0x00800000 ∧ frame.val = first ∧
      NewPage s t directories s.kernelDirectory 0x00800000 isRw isUser frame (some newTable) ∧
      FirstPages t first total 1 := by
  have kernel := structures.laid.kernel
  have highTwo : ¬ KernelSlot (2 : EntryIndex) := by decide
  have page : pageAddress 2 0 = 0x00800000 := by decide
  have lowest : IsLowestUnmapped s 0x00800000 := by
    refine ⟨⟨page ▸ pageAddress_mem two_mem_searchSlots, Tables.walk_of_absent (absent _ ?_)⟩, ?_⟩
    · rw [← page, directoryIndex_pageAddress]
      exact highTwo
    · exact fun address lower => lower.1.2.1
  have reachable : TablesReachable s s.kernelDirectory searchSlots := by
    intro slot candidate isPresent
    rw [absent slot (not_kernelSlot_of_search candidate)] at isPresent
    cases isPresent
  obtain ⟨frame, isFirst⟩ : ∃ frame : Frame, frame.val = first := ⟨⟨first, by omega⟩, rfl⟩
  obtain ⟨newTable, isSecond⟩ : ∃ frame : Frame, frame.val = first + 1 := ⟨⟨first + 1, by omega⟩, rfl⟩
  have leastFrame := isLeast_of_free free isFirst (by omega)
  have leastTable : IsLeast {other | s.frames.Free other ∧ other ≠ frame} newTable := by
    refine ⟨⟨(free newTable).mpr ⟨by omega, by omega⟩, fun same => ?_⟩, fun other isOther => ?_⟩
    · rw [same] at isSecond
      omega
    · have lower := ((free other).mp isOther.1).1
      have different := Fin.val_ne_of_ne isOther.2
      exact Fin.le_def.mpr (by omega)
  have slot : directoryIndex 0x00800000 = 2 := by decide
  obtain ⟨t, run, newPage⟩ := vmmGetNewPage_of_newTable structures kernel structures.kernelDirectory
    reachable lowest (slot ▸ absent 2 highTwo) leastFrame leastTable isRw isUser
  have takes := newPage.takesPage structures lowest
  have entry := newPage.directoryEntry newTable rfl
  rw [slot] at entry
  refine ⟨t, frame, newTable, run, lowest, isFirst, newPage, ?_⟩
  refine ⟨fun other => ?_, ?_, ?_, fun index below => ?_, fun index above => ?_, fun slot later => ?_⟩
  · have notTable : some newTable ≠ some other ↔ other.val ≠ first + 1 := by
      rw [Ne, Option.some.injEq, Fin.ext_iff, isSecond]
      exact ne_comm
    rw [takes.free, free, ← Fin.val_ne_iff, isFirst, notTable]
    omega
  · rw [newPage.kernelDirectory, entry]
    rfl
  · rw [newPage.kernelDirectory, entry]
    show (Page.frameOf (frameAddress newTable)).val = first + 1
    rw [frameOf_frameAddress, isSecond]
  · obtain rfl : index = 0 := Fin.ext (by
      have zero : (0 : EntryIndex).val = 0 := rfl
      omega)
    exact ⟨frame, page ▸ takes.mapped, fun notZero => absurd rfl notZero⟩
  · rw [walk, newPage.kernelDirectory, directoryIndex_pageAddress, pageIndex_pageAddress]
    have notFirst : ¬ ((2 : EntryIndex) = directoryIndex 0x00800000 ∧ index = pageIndex 0x00800000) := by
      rintro ⟨_, same⟩
      rw [same] at above
      exact absurd above (by decide)
    rw [takes.walks 2 index highTwo notFirst]
    exact Tables.walk_of_absent (absent 2 highTwo)
  · have different : slot ≠ directoryIndex 0x00800000 := by
      rintro rfl
      exact absurd later (by decide)
    rw [newPage.kernelDirectory, takes.entries slot (.inr different)]
    exact absent slot (by unfold KernelSlot; omega)

end KdbOS.Vmm
