import KdbOS.Memory.VmmNewPage

/-! `vmm_free_page`, `vmm_get_physical_address` and `vmm_map_frame`: what they do to the
translations of all address spaces. -/

set_option autoImplicit false

namespace KdbOS.Vmm

open Library Pmm Arch

variable {s t u : Machine} {directories : Set Frame} {directory frame other : Frame}
variable {pointer virtual : Nat} {page : Option Page}

/-! ## Effects -/

/-- A page of a directory that has a table for it is mapped differently. -/
structure PageChanged (s t : Machine) (directories : Set Frame) (directory : Frame)
    (virtual : Nat) (page : Option Page) : Prop where
  tables : Changes (tablesOf s.memory) (tablesOf t.memory) s.kernelDirectory directories directory
    (directoryIndex virtual) (pageIndex virtual) page
  frames : t.frames = s.frames
  kernelDirectory : t.kernelDirectory = s.kernelDirectory
  reached : Reached s t

/-- The window has been opened and closed again. -/
structure WindowUsed (s t : Machine) : Prop where
  tables : ∃ closed : Page, closed.present = false ∧
    tablesOf t.memory = (tablesOf s.memory).set s.secondTable 1023 closed
  frames : t.frames = s.frames
  kernelDirectory : t.kernelDirectory = s.kernelDirectory
  reached : Reached s t

/-- Only the contents of one frame are different. -/
structure FrameWritten (s t : Machine) (frame : Frame) : Prop where
  tables : ∀ other ≠ frame, tablesOf t.memory other = tablesOf s.memory other
  frames : t.frames = s.frames
  kernelDirectory : t.kernelDirectory = s.kernelDirectory
  direct : t.direct = s.direct

/-- The structures after a step that leaves the two pointers of the kernel valid. -/
theorem PageStructures.of_effect (structures : PageStructures s directories)
    (laid : Laid (tablesOf t.memory) s.kernelDirectory directories)
    (kernelDirectory : t.kernelDirectory = s.kernelDirectory)
    (entry : tablesOf t.memory s.kernelDirectory 1 = tablesOf s.memory s.kernelDirectory 1)
    (used : ∀ frame, (tablesOf t.memory).Linked directories frame → ¬ t.frames.Free frame)
    (addresses : ∀ {pointer frame}, pointer = frameAddress s.kernelDirectory ∨
      pointer = frameAddress s.secondTable → Addresses s pointer frame → Addresses t pointer frame) :
    PageStructures t directories where
  laid := by
    rw [kernelDirectory]
    exact laid
  used := used
  kernelDirectory := by
    rw [kernelDirectory]
    exact addresses (.inl rfl) structures.kernelDirectory
  secondTable := by
    have same : t.secondTable = s.secondTable := by
      unfold Machine.secondTable
      rw [kernelDirectory, entry]
    rw [same]
    exact addresses (.inr rfl) structures.secondTable

/-- A pointer whose page is found as before stays valid. -/
theorem Addresses.of_walk (addresses : Addresses s pointer frame)
    (kernelDirectory : t.kernelDirectory = s.kernelDirectory)
    (same : walk t.memory s.kernelDirectory pointer = walk s.memory s.kernelDirectory pointer) :
    Addresses t pointer frame := by
  refine ⟨?_, addresses.apart⟩
  have sees := addresses.sees
  unfold Sees Arch.translate at *
  rw [kernelDirectory, same]
  exact sees

namespace PageChanged

variable (changed : PageChanged s t directories directory virtual page)
  (structures : PageStructures s directories)

include changed structures

theorem addresses (addresses : Addresses s pointer frame)
    (beside : Beside s directory virtual pointer) : Addresses t pointer frame :=
  addresses.of_walk changed.kernelDirectory
    (changed.tables.walks _ structures.laid.kernel _ _ beside)

theorem pageStructures (besideDirectory : Beside s directory virtual (frameAddress s.kernelDirectory))
    (besideTable : Beside s directory virtual (frameAddress s.secondTable)) :
    PageStructures t directories := by
  refine structures.of_effect changed.tables.laid changed.kernelDirectory
    (changed.tables.entries _ structures.laid.kernel 1) (fun linked isLinked => ?_) ?_
  · rw [changed.frames]
    exact structures.used linked ((changed.tables.linked linked).mp isLinked)
  · rintro pointer frame (rfl | rfl) addresses
    · exact changed.addresses structures addresses besideDirectory
    · exact changed.addresses structures addresses besideTable

end PageChanged

namespace WindowUsed

variable (used : WindowUsed s t) (structures : PageStructures s directories)

include used structures

theorem entries {slot : EntryIndex} (member : other ∈ directories) :
    tablesOf t.memory other slot = tablesOf s.memory other slot := by
  obtain ⟨closed, _, tables⟩ := used.tables
  rw [tables]
  exact structures.laid.window_directory rfl member

theorem linked : (tablesOf t.memory).Linked directories frame ↔
    (tablesOf s.memory).Linked directories frame := by
  obtain ⟨closed, _, tables⟩ := used.tables
  rw [tables]
  exact structures.laid.linked_window rfl

theorem walks {slot index : EntryIndex} (member : other ∈ directories)
    (outside : ¬ WindowPage slot index) :
    (tablesOf t.memory).walk other slot index = (tablesOf s.memory).walk other slot index := by
  obtain ⟨closed, _, tables⟩ := used.tables
  rw [tables]
  exact structures.laid.walk_window rfl member outside

theorem tidy (tidy : TidyTables (tablesOf s.memory) directories) :
    TidyTables (tablesOf t.memory) directories := by
  obtain ⟨closed, _, tables⟩ := used.tables
  rw [tables]
  exact structures.laid.tidy_window rfl tidy

theorem unlinked (unlinked : ¬ (tablesOf s.memory).Linked directories frame) :
    tablesOf t.memory frame = tablesOf s.memory frame := by
  obtain ⟨closed, _, tables⟩ := used.tables
  rw [tables]
  exact funext fun index => Tables.set_of_frame_ne
    fun same => unlinked (same ▸ structures.linked_secondTable)

theorem addresses (addresses : Addresses s pointer frame) : Addresses t pointer frame :=
  addresses.of_walk used.kernelDirectory
    (used.walks structures structures.laid.kernel addresses.apart)

theorem pageStructures : PageStructures t directories := by
  refine structures.of_effect ?_ used.kernelDirectory
    (used.entries structures structures.laid.kernel) (fun linked isLinked => ?_)
    fun _ addresses => used.addresses structures addresses
  · obtain ⟨closed, _, tables⟩ := used.tables
    rw [tables]
    exact structures.laid.window rfl
  · rw [used.frames]
    exact structures.used linked ((used.linked structures).mp isLinked)

omit structures in
/-- While the window is closed its page is not mapped. -/
theorem translate_window (apart : s.kernelDirectory ≠ s.secondTable) :
    Arch.translate t.memory t.kernelDirectory vmmTempWindowVirtual = none := by
  obtain ⟨closed, absent, tables⟩ := used.tables
  have slot : directoryIndex vmmTempWindowVirtual = 1 := by decide
  have index : pageIndex vmmTempWindowVirtual = 1023 := by decide
  have target : (tablesOf t.memory s.kernelDirectory 1).frameAddr = s.secondTable := by
    rw [tables, Tables.set_of_frame_ne apart]
    rfl
  have closedEntry : (tablesOf t.memory s.secondTable 1023).present = false := by
    rw [tables, Tables.set_self]
    exact absent
  have unmapped : walk t.memory s.kernelDirectory vmmTempWindowVirtual = none := by
    cases found : walk t.memory s.kernelDirectory vmmTempWindowVirtual with
    | none => rfl
    | some page =>
        obtain ⟨_, entry, isPresent⟩ := Tables.walk_eq_some_iff.mp found
        rw [slot, index, tableEntry_target, target] at entry
        rw [← entry, tableEntry_present, closedEntry] at isPresent
        cases isPresent
  rw [Arch.translate, used.kernelDirectory, unmapped]
  rfl

end WindowUsed

namespace FrameWritten

variable (written : FrameWritten s t frame) (structures : PageStructures s directories)
  (unlinked : ¬ (tablesOf s.memory).Linked directories frame)

include written unlinked

theorem agree (other : Frame) (linked : (tablesOf s.memory).Linked directories other) :
    tablesOf t.memory other = tablesOf s.memory other :=
  written.tables other fun same => unlinked (same ▸ linked)

theorem walks {slot index : EntryIndex} (member : other ∈ directories) :
    (tablesOf t.memory).walk other slot index = (tablesOf s.memory).walk other slot index :=
  Tables.walk_of_agree (written.agree unlinked) member

theorem linked : (tablesOf t.memory).Linked directories other ↔
    (tablesOf s.memory).Linked directories other :=
  Tables.linked_of_agree (written.agree unlinked)

theorem tidy (tidy : TidyTables (tablesOf s.memory) directories) :
    TidyTables (tablesOf t.memory) directories := by
  have agree := written.agree unlinked
  intro other member slot level index outside
  rw [agree other (.of_directory member)] at level ⊢
  have table : tablesOf t.memory (tablesOf s.memory other slot).frameAddr =
      tablesOf s.memory (tablesOf s.memory other slot).frameAddr := agree _ (.of_table member level)
  rw [table]
  exact tidy other member slot level index outside

include structures

theorem addresses {reached : Frame} (addresses : Addresses s pointer reached) :
    Addresses t pointer reached :=
  addresses.of_walk written.kernelDirectory (written.walks unlinked structures.laid.kernel)

theorem pageStructures : PageStructures t directories := by
  have agree := written.agree unlinked
  refine structures.of_effect ⟨structures.laid.kernel,
    structures.laid.separate.of_agree agree, ?_⟩ written.kernelDirectory
    (by rw [agree _ (.of_directory structures.laid.kernel)]) (fun linked isLinked => ?_)
    fun _ addresses => written.addresses structures unlinked addresses
  · rw [agree _ (.of_directory structures.laid.kernel)]
    exact structures.laid.isPresent
  · rw [written.frames]
    exact structures.used linked ((written.linked unlinked).mp isLinked)

theorem tablesReachable {slots : List EntryIndex} (member : directory ∈ directories)
    (reachable : TablesReachable s directory slots) : TablesReachable t directory slots := by
  intro slot isSlot isPresent
  rw [written.agree unlinked directory (.of_directory member)] at isPresent ⊢
  have sees := reachable slot isSlot isPresent
  rw [Sees, Arch.translate, walk, written.kernelDirectory, written.walks unlinked structures.laid.kernel]
  exact sees

end FrameWritten

/-! ## The calls on an existing table -/

theorem tidy_pointEntry (isRw isUser : Bool) (physicalAddr : Nat) (entry : Page) :
    Tidy (pointEntry isRw isUser physicalAddr entry) := nofun

/-- An assignment to the entry of a page. -/
theorem pageChanged_of_store {table : Frame}
    (laid : Laid (tablesOf s.memory) s.kernelDirectory directories)
    (member : directory ∈ directories)
    (isPresent : (tablesOf s.memory directory (directoryIndex virtual)).present = true)
    (number : (tablesOf s.memory directory (directoryIndex virtual)).frameAddr = table)
    (change : Page → Page) (tidy : ∀ page, Tidy (change page)) :
    PageChanged s (s.store table (pageIndex virtual) change) directories directory virtual
      (if (change (tablesOf s.memory table (pageIndex virtual))).present then
        some (change (tablesOf s.memory table (pageIndex virtual))) else none) := by
  have becomes := (Becomes.refl s).store table (pageIndex virtual) change
  refine ⟨?_, rfl, rfl, becomes.reached⟩
  rw [becomes.tables]
  exact laid.changes member isPresent number (tidy _)

/-- The table has been reached before. -/
theorem PageChanged.of_note {table : Frame}
    (changed : PageChanged (s.note table (some table)) t directories directory virtual page) :
    PageChanged s t directories directory virtual page := by
  exact ⟨changed.tables, changed.frames, changed.kernelDirectory,
    (Reached.note table).trans changed.reached⟩

theorem vmmFreePage_of_absent (space : Addresses s pointer directory)
    (absent : (tablesOf s.memory directory (directoryIndex virtual)).present = false) :
    vmmFreePage pointer virtual s = .ok () s := by
  rw [vmmFreePage, bind_ok (readDirectory_ok space.sees), absent, Bool.not_false, if_pos rfl]
  rfl

/-- The page is not mapped afterwards. -/
theorem vmmFreePage_of_present {table : Frame} (structures : PageStructures s directories)
    (member : directory ∈ directories) (space : Addresses s pointer directory)
    (isPresent : (tablesOf s.memory directory (directoryIndex virtual)).present = true)
    (number : (tablesOf s.memory directory (directoryIndex virtual)).frameAddr = table)
    (sees : Sees s (frameAddress table) table) :
    ∃ t, vmmFreePage pointer virtual s = .ok () t ∧
      PageChanged s t directories directory virtual none := by
  refine ⟨_, ?_, (pageChanged_of_store (structures.notes [(table, some table)]).laid member isPresent
    number (fun page => { page with present := false, frameAddr := 0 }) fun _ _ => rfl).of_note⟩
  rw [vmmFreePage, bind_ok (readDirectory_ok space.sees), isPresent, Bool.not_true,
    if_neg Bool.false_ne_true, number, bind_ok (reachTable_ok sees)]
  rfl

/-- The page is mapped to the frame afterwards. -/
theorem vmmMapFrame_of_present {table : Frame} {physicalFrame : Nat}
    {isWriteable isUserProcess cached : Bool} (structures : PageStructures s directories)
    (member : directory ∈ directories) (space : Addresses s pointer directory)
    (isPresent : (tablesOf s.memory directory (directoryIndex virtual)).present = true)
    (number : (tablesOf s.memory directory (directoryIndex virtual)).frameAddr = table)
    (sees : Sees s (frameAddress table) table) :
    ∃ t entry,
      vmmMapFrame pointer virtual physicalFrame isWriteable isUserProcess cached s = .ok true t ∧
      PageChanged s t directories directory virtual
        (some (pointEntry isWriteable isUserProcess physicalFrame entry)) := by
  refine ⟨_, _, ?_, (pageChanged_of_store (structures.notes [(table, some table)]).laid member
    isPresent number (pointEntry isWriteable isUserProcess physicalFrame) (tidy_pointEntry _ _ _)).of_note⟩
  have table? : (some <$> reachTable table : VmmM (Option Frame)) s =
      .ok (some table) (s.note table (some table)) := by
    show EStateM.map some (reachTable table) s = _
    rw [EStateM.map, reachTable_ok sees]
  rw [vmmMapFrame, bind_ok (readDirectory_ok space.sees), isPresent, if_pos rfl, number,
    bind_ok table?]
  rfl

/-- The table of the slot has an address at which another frame is mapped. Nothing is entered
into the table. -/
theorem vmmMapFrame_of_misled {table : Frame} (sees : Sees s pointer directory)
    (isPresent : (tablesOf s.memory directory (directoryIndex virtual)).present = true)
    (number : (tablesOf s.memory directory (directoryIndex virtual)).frameAddr = table)
    (misled : Sees s (frameAddress table) other) (notDirectory : directory ≠ other)
    (notTable : table ≠ other) (physicalFrame : Nat) (isWriteable isUserProcess cached : Bool) :
    ∃ t, vmmMapFrame pointer virtual physicalFrame isWriteable isUserProcess cached s = .ok true t ∧
      walk t.memory directory virtual = walk s.memory directory virtual := by
  let change := pointEntry isWriteable isUserProcess physicalFrame
  refine ⟨(s.note table (some other)).store other (pageIndex virtual) change, ?_, ?_⟩
  · have table? : (some <$> reachTable table : VmmM (Option Frame)) s =
        .ok (some other) (s.note table (some other)) := by
      show EStateM.map some (reachTable table) s = _
      rw [EStateM.map, reachTable_ok misled]
    rw [vmmMapFrame, bind_ok (readDirectory_ok sees), isPresent, if_pos rfl, number,
      bind_ok table?]
    rfl
  · have stored := (Becomes.refl (s.note table (some other))).store other (pageIndex virtual) change
    rw [walk, stored.tables]
    refine Tables.walk_congr (Tables.set_of_frame_ne notDirectory) fun _ => ?_
    rw [tableEntry_target]
    exact Tables.set_of_frame_ne (number ▸ notTable)

/-- The pages of the kernel when a page is entered into a table of the directory. -/
theorem PageChanged.walk_kernel {page : Page}
    (changed : PageChanged s t directories directory virtual (some page))
    (kernel : s.kernelDirectory ∈ directories) (address : Nat) :
    walk t.memory s.kernelDirectory address = walk s.memory s.kernelDirectory address ∨
      SamePage address virtual ∧
        (directory = s.kernelDirectory ∨ KernelSlot (directoryIndex virtual)) ∧
        walk t.memory s.kernelDirectory address = walk t.memory directory virtual := by
  by_cases same : SamePage address virtual
  · by_cases shared : directory = s.kernelDirectory ∨ KernelSlot (directoryIndex virtual)
    · rcases changed.tables.either _ kernel with isPage | unchanged
      · refine .inr ⟨same, shared, ?_⟩
        unfold walk
        rw [same.1, same.2, isPage, changed.tables.mapped]
      · left
        unfold walk
        rw [same.1, same.2, unchanged]
    · rw [not_or] at shared
      exact .inl (changed.tables.walks _ kernel _ _
        (.inr ⟨fun equal => shared.1 equal.symm, shared.2⟩))
  · exact .inl (changed.tables.walks _ kernel _ _ (.inl same))

/-! ## The physical address of a page -/

/-- The cell of the temporary window. -/
def WindowCell (s : Machine) (frame : Frame) (index : EntryIndex) : Prop :=
  frame = s.secondTable ∧ index = 1023

theorem PageStructures.kernelDirectory_ne_secondTable (structures : PageStructures s directories) :
    s.kernelDirectory ≠ s.secondTable := by
  have notDirectory : s.secondTable ∉ directories :=
    structures.laid.separate.apart _ structures.laid.kernel 1 structures.laid.isPresent
  intro same
  rw [← same] at notDirectory
  exact notDirectory structures.laid.kernel

theorem PageStructures.pinned_window (structures : PageStructures s directories)
    (addresses : Addresses s pointer frame) : Pinned (WindowCell s) s pointer frame := by
  obtain ⟨entry, found, _⟩ := Option.map_eq_some_iff.mp addresses.sees
  obtain ⟨level, _, _⟩ := Tables.walk_eq_some_iff.mp found
  refine ⟨addresses.sees, fun cell => structures.kernelDirectory_ne_secondTable cell.1,
    fun cell => ?_⟩
  have slots := (structures.laid.separate.unique _ structures.laid.kernel _
    structures.laid.kernel _ 1 level structures.laid.isPresent cell.1).1
  exact addresses.apart ⟨slots, cell.2⟩

theorem PageStructures.windowPins (structures : PageStructures s directories) :
    KernelPins (WindowCell s) s s.secondTable where
  directory := structures.pinned_window structures.kernelDirectory
  isPresent := structures.laid.isPresent
  number := rfl
  entry := fun cell => structures.kernelDirectory_ne_secondTable cell.1
  table := structures.pinned_window structures.secondTable
  window := ⟨rfl, rfl⟩

theorem vmmGetPhysicalAddress_of_absent (space : Addresses s pointer directory)
    (absent : (tablesOf s.memory directory (directoryIndex virtual)).present = false) :
    vmmGetPhysicalAddress pointer virtual s = .ok 0 s := by
  rw [vmmGetPhysicalAddress, bind_ok (readDirectory_ok space.sees), absent, Bool.not_false,
    if_pos rfl]
  rfl

/-- The entry of the page is read through the window. While the window is open its own entry
is another. -/
theorem vmmGetPhysicalAddress_of_pins (windowPins : KernelPins (WindowCell s) s s.secondTable)
    (space : Sees s pointer directory)
    (isPresent : (tablesOf s.memory directory (directoryIndex virtual)).present = true) :
    ∃ t page, vmmGetPhysicalAddress pointer virtual s = .ok (frameAddress page.frameAddr) t ∧
      WindowUsed s t ∧
      (¬ WindowCell s (tablesOf s.memory directory (directoryIndex virtual)).frameAddr
        (pageIndex virtual) →
        page = tablesOf s.memory (tablesOf s.memory directory (directoryIndex virtual)).frameAddr
          (pageIndex virtual)) := by
  let table := (tablesOf s.memory directory (directoryIndex virtual)).frameAddr
  obtain ⟨opened, openRun, openAgrees, openBecomes⟩ := windowPins.assignWindow
    (Becomes.refl s) fun page => { page with present := true, rw := false, frameAddr := table }
  have pins := windowPins.transport openAgrees
  have entry : tablesOf opened.memory s.secondTable 1023 =
      { tablesOf s.memory s.secondTable 1023 with
        present := true, rw := false, frameAddr := table } := by
    rw [openBecomes.tables, Tables.set_self]
  have sees : Sees opened vmmTempWindowVirtual table := by
    have window := pins.sees_window (by rw [entry])
    rw [entry] at window
    exact window
  obtain ⟨t, closeRun, _, becomes⟩ := pins.assignWindow openBecomes fun page =>
    { page with present := false }
  refine ⟨t, _, ?_, ⟨?_, becomes.frames, becomes.kernelDirectory, becomes.reached⟩,
    openAgrees.cells table (pageIndex virtual)⟩
  · rw [vmmGetPhysicalAddress, bind_ok (readDirectory_ok space), isPresent, Bool.not_true,
      if_neg Bool.false_ne_true, bind_ok openRun, bind_ok (reach_ok sees),
      bind_ok (readEntry_ok _ _ _), bind_ok closeRun]
    rfl
  · refine ⟨_, ?_, becomes.tables.trans (Tables.set_set _ _ _ _ _)⟩
    rfl

theorem vmmGetPhysicalAddress_used (structures : PageStructures s directories)
    (space : Addresses s pointer directory)
    (isPresent : (tablesOf s.memory directory (directoryIndex virtual)).present = true) :
    ∃ t page, vmmGetPhysicalAddress pointer virtual s = .ok (frameAddress page.frameAddr) t ∧
      WindowUsed s t ∧
      (¬ WindowCell s (tablesOf s.memory directory (directoryIndex virtual)).frameAddr
        (pageIndex virtual) →
        page = tablesOf s.memory (tablesOf s.memory directory (directoryIndex virtual)).frameAddr
          (pageIndex virtual)) :=
  vmmGetPhysicalAddress_of_pins structures.windowPins space.sees isPresent

theorem vmmGetPhysicalAddress_of_present (structures : PageStructures s directories)
    (member : directory ∈ directories) (space : Addresses s pointer directory)
    (isPresent : (tablesOf s.memory directory (directoryIndex virtual)).present = true)
    (outside : ¬ WindowPage (directoryIndex virtual) (pageIndex virtual)) :
    ∃ t, vmmGetPhysicalAddress pointer virtual s = .ok (frameAddress (tablesOf s.memory
        (tablesOf s.memory directory (directoryIndex virtual)).frameAddr
        (pageIndex virtual)).frameAddr) t ∧ WindowUsed s t := by
  obtain ⟨t, page, run, used, same⟩ := vmmGetPhysicalAddress_used structures space isPresent
  rw [same (structures.table_apart member isPresent outside)] at run
  exact ⟨t, run, used⟩

/-! ## A new table for a slot -/

/-- A frame has become the table of an absent slot of the directory; it is also mapped at
the page `window` of `kernel_directory`, for which another frame may have become a table. -/
structure NewTable (s t : Machine) (directories : Set Frame) (directory : Frame) (slot : EntryIndex)
    (isUser : Bool) (window : Nat) (newTable : Frame) (table : Option Frame) : Prop where
  leastWindow : IsLeast
    {address | address ∈ NewPageRange ∧ walk s.memory s.kernelDirectory address = none} window
  least : IsLeast {other | s.frames.Free other} newTable
  withoutTable : table = none ↔
    (tablesOf s.memory s.kernelDirectory (directoryIndex window)).present = true
  leastTable : ∀ other ∈ table, IsLeast {other | s.frames.Free other ∧ other ≠ newTable} other
  free : ∀ other, t.frames.Free other ↔
    s.frames.Free other ∧ other ≠ newTable ∧ table ≠ some other
  kernelDirectory : t.kernelDirectory = s.kernelDirectory
  laid : Laid (tablesOf t.memory) s.kernelDirectory directories
  linked : ∀ other, (tablesOf t.memory).Linked directories other →
    (tablesOf s.memory).Linked directories other ∨ other = newTable ∨ table = some other
  directoryEntry : ∃ entry, tablesOf t.memory directory slot =
    pointEntry true isUser (frameAddress newTable) entry
  kernelEntry : ∀ other ∈ table, ¬ (s.kernelDirectory = directory ∧ directoryIndex window = slot) →
    ∃ entry, tablesOf t.memory s.kernelDirectory (directoryIndex window) =
      pointEntry true false (frameAddress other) entry
  entries : ∀ other ∈ directories, ∀ position, ¬ (other = directory ∧ position = slot) →
    table = none ∨ ¬ (other = s.kernelDirectory ∧ position = directoryIndex window) →
      tablesOf t.memory other position = tablesOf s.memory other position
  unlinked : ∀ other, ¬ (tablesOf s.memory).Linked directories other → other ≠ newTable →
    table ≠ some other → tablesOf t.memory other = tablesOf s.memory other
  cleared : ∀ index, tablesOf t.memory newTable index = Page.decode 0
  empty : ∀ index, (tablesOf t.memory).walk directory slot index = none
  mapped : ¬ (s.kernelDirectory = directory ∧ directoryIndex window = slot) →
    ∃ entry, walk t.memory s.kernelDirectory window =
      some (pointEntry true false (frameAddress newTable) entry)
  walks : ∀ other ∈ directories, ∀ position index, ¬ WindowPage position index →
    ¬ (other = directory ∧ position = slot) →
    ¬ (other = s.kernelDirectory ∧ position = directoryIndex window ∧ index = pageIndex window) →
      (tablesOf t.memory).walk other position index = (tablesOf s.memory).walk other position index
  tidy : TidyTables (tablesOf s.memory) directories → TidyTables (tablesOf t.memory) directories
  reached : Reached s t

/-- Clearing the page behind a pointer. -/
theorem clearPage_written (sees : Sees s pointer frame) :
    ∃ t, clearPage pointer s = .ok frame t ∧ FrameWritten s t frame ∧
      ∀ index, tablesOf t.memory frame index = Page.decode 0 := by
  refine ⟨_, clearPage_ok sees, ⟨fun other different => ?_, rfl, rfl, rfl⟩, fun index => ?_⟩
  · dsimp only
    exact tablesOf_clearFrame_of_ne different
  · dsimp only
    exact tablesOf_clearFrame_self index

/-- The page that has been mapped for the kernel leads to its frame. -/
theorem NewPage.sees {table : Option Frame} {isRw isUser : Bool}
    (newPage : NewPage s t directories s.kernelDirectory virtual isRw isUser frame table) :
    Sees t virtual frame := by
  obtain ⟨entry, mapped⟩ := newPage.mapped
  unfold Sees Arch.translate
  rw [newPage.kernelDirectory, mapped]
  exact congrArg some (frameOf_frameAddress frame)

/-- The frame of the new page is no page structure. -/
theorem NewPage.not_linked {table : Option Frame} {isRw isUser : Bool}
    (newPage : NewPage s t directories directory virtual isRw isUser frame table)
    (structures : PageStructures s directories) :
    ¬ (tablesOf t.memory).Linked directories frame := by
  intro linked
  rcases (newPage.linked frame).mp linked with old | isTable
  · exact structures.used frame old newPage.least.1
  · exact (newPage.leastTable frame isTable).1.2 rfl

/-- The pointer that `vmm_map_frame` goes on with. -/
def windowTable (cleared : Frame) (window : Nat) (cached : Bool) : VmmM (Option Frame) := do
  let ptVirt ← if cached then pure cleared else reach window
  return some ptVirt

theorem windowTable_of_cached {window : Nat} (cleared : Frame) :
    windowTable cleared window true s = .ok (some cleared) s := rfl

theorem windowTable_of_sees {window : Nat} {cleared : Frame} (sees : Sees s window cleared) :
    windowTable cleared window false s = .ok (some cleared) s := by
  rw [windowTable, if_neg Bool.false_ne_true, bind_ok (reach_ok sees)]
  rfl

theorem windowTable_of_none {window : Nat} (cleared : Frame)
    (none : Arch.translate s.memory s.kernelDirectory window = none) :
    windowTable cleared window false s = .error ⟨window⟩ s := by
  rw [windowTable, if_neg Bool.false_ne_true, bind_error (reach_error none)]

theorem mapNewTable_spec {window : Nat} {newPageMachine : Machine} {newTable : Frame}
    {table : Option Frame} (structures : PageStructures s directories)
    (member : directory ∈ directories) (space : Addresses s pointer directory)
    (absent : (tablesOf s.memory directory (directoryIndex virtual)).present = false)
    (run : vmmGetNewPage (frameAddress s.kernelDirectory) true false 0 s = .ok window newPageMachine)
    (least : IsLeast
      {address | address ∈ NewPageRange ∧ walk s.memory s.kernelDirectory address = none} window)
    (newPage : NewPage s newPageMachine directories s.kernelDirectory window true false newTable table)
    (isUser cached : Bool) :
    ∃ t, NewTable s t directories directory (directoryIndex virtual) isUser window newTable table ∧
      (mapNewTable pointer virtual isUser cached s = .ok (some newTable) t ∨
        cached = false ∧ s.kernelDirectory = directory ∧
          directoryIndex window = directoryIndex virtual ∧
          ∃ fault, mapNewTable pointer virtual isUser cached s = .error fault t) := by
  have undisturbed := structures.undisturbed structures.kernelDirectory least.1.1 least.1.2
  have notNull : window ≠ 0 := by
    have lower := least.1.1.2.1
    omega
  have pageStructures := newPage.pageStructures structures undisturbed.kernelDirectory
    undisturbed.secondTable
  have pageSpace := newPage.addresses structures.laid.kernel space
    (.of_unmapped space.sees least.1.2 (not_kernelSlot least.1.1))
  have fresh := newPage.not_linked structures
  -- The new page is cleared.
  obtain ⟨cleared, clear, written, zero⟩ := clearPage_written newPage.sees
  have clearedStructures := written.pageStructures pageStructures fresh
  have clearedSpace := written.addresses pageStructures fresh pageSpace
  have clearedFresh : ¬ (tablesOf cleared.memory).Linked directories newTable := by
    rw [written.linked fresh]
    exact fresh
  have clearedDirectory : cleared.kernelDirectory = s.kernelDirectory :=
    written.kernelDirectory.trans newPage.kernelDirectory
  -- Its physical address is that of its frame.
  obtain ⟨pageEntry, mapped⟩ := newPage.mapped
  have clearedWalk : walk cleared.memory cleared.kernelDirectory window =
      some (pointEntry true false (frameAddress newTable) pageEntry) := by
    rw [clearedDirectory, ← mapped]
    exact written.walks fresh structures.laid.kernel
  obtain ⟨level, lower, _⟩ := Tables.walk_eq_some_iff.mp clearedWalk
  obtain ⟨unmapped, physical, used⟩ := vmmGetPhysicalAddress_of_present clearedStructures
    clearedStructures.laid.kernel clearedStructures.kernelDirectory level undisturbed.window
  rw [tableEntry_target] at lower
  rw [lower, clearedDirectory] at physical
  have address : (pointEntry true false (frameAddress newTable) pageEntry).frameAddr = newTable :=
    frameOf_frameAddress newTable
  rw [address] at physical
  have unmappedStructures := used.pageStructures clearedStructures
  have unmappedSpace := used.addresses clearedStructures clearedSpace
  have unmappedFresh : ¬ (tablesOf unmapped.memory).Linked directories newTable := by
    rw [used.linked clearedStructures]
    exact clearedFresh
  have unmappedDirectory : unmapped.kernelDirectory = s.kernelDirectory :=
    used.kernelDirectory.trans clearedDirectory
  have unmappedZero : ∀ index, tablesOf unmapped.memory newTable index = Page.decode 0 := by
    intro index
    rw [used.unlinked clearedStructures clearedFresh, zero]
  -- The table is linked.
  let link := pointEntry true isUser (frameAddress newTable)
  let t := unmapped.store directory (directoryIndex virtual) link
  have linkRun : assignDirectory pointer (directoryIndex virtual) link unmapped = .ok () t :=
    assignDirectory_ok unmappedSpace.sees link
  have becomes := (Becomes.refl unmapped).store directory (directoryIndex virtual) link
  have notSecond : ¬ (unmapped.kernelDirectory = directory ∧ 1 = directoryIndex virtual) := by
    rw [unmappedDirectory]
    rintro ⟨rfl, same⟩
    rw [← same] at absent
    exact Bool.noConfusion (absent.symm.trans structures.laid.isPresent)
  have relinks : Relinks (tablesOf unmapped.memory) (tablesOf t.memory) unmapped.kernelDirectory
      directories directory (directoryIndex virtual) newTable
      (link (tablesOf unmapped.memory directory (directoryIndex virtual))) := by
    rw [becomes.tables]
    exact unmappedStructures.laid.relinks member notSecond rfl (frameOf_frameAddress newTable)
      (fun index => by rw [unmappedZero]; rfl) (fun index _ => by rw [unmappedZero]; rfl)
      unmappedFresh
  have newTableNotDirectory : newTable ≠ directory :=
    fun same => fresh (same ▸ .of_directory member)
  have before : ∀ other ∈ directories, ∀ position index, ¬ WindowPage position index →
      (tablesOf unmapped.memory).walk other position index =
        (tablesOf newPageMachine.memory).walk other position index :=
    fun other otherMember position index outside =>
      (used.walks clearedStructures otherMember outside).trans (written.walks fresh otherMember)
  have entriesBefore : ∀ other ∈ directories, ∀ position,
      tablesOf unmapped.memory other position = tablesOf newPageMachine.memory other position :=
    fun other otherMember position => (used.entries clearedStructures otherMember).trans
      (congrFun (written.agree fresh other (.of_directory otherMember)) position)
  have prefixRun : mapNewTable pointer virtual isUser cached s =
      windowTable newTable window cached t := by
    rw [mapNewTable, bind_ok (kernelDirectory_ok s), bind_ok run, if_neg notNull, bind_ok clear,
      bind_ok (kernelDirectory_ok cleared), clearedDirectory, bind_ok physical, bind_ok linkRun]
    rfl
  have windowMapped : ¬ (s.kernelDirectory = directory ∧
      directoryIndex window = directoryIndex virtual) →
        walk t.memory s.kernelDirectory window =
          some (pointEntry true false (frameAddress newTable) pageEntry) := by
    intro apart
    rw [← mapped]
    exact (relinks.walks _ structures.laid.kernel _ _ apart).trans
      (before _ structures.laid.kernel _ _ undisturbed.window)
  refine ⟨t, ?_, ?_⟩
  · exact {
      leastWindow := least
      least := newPage.least
      withoutTable := newPage.withoutTable
      leastTable := newPage.leastTable
      free := fun other => by
        have frames : t.frames = newPageMachine.frames := used.frames.trans written.frames
        rw [frames, newPage.free]
      kernelDirectory := unmappedDirectory
      laid := by
        rw [← unmappedDirectory]
        exact relinks.laid
      linked := fun other linked => by
        rcases relinks.linked other linked with old | rfl
        · rw [used.linked clearedStructures, written.linked fresh, newPage.linked] at old
          exact old.imp_right .inr
        · exact .inr (.inl rfl)
      directoryEntry := ⟨_, relinks.entry⟩
      kernelEntry := fun other isTable apart => by
        refine ⟨_, (relinks.entries _ _ apart).trans
          ((entriesBefore _ structures.laid.kernel _).trans
            (newPage.directoryEntry other isTable))⟩
      entries := fun other otherMember position different apart =>
        (relinks.entries _ _ different).trans ((entriesBefore _ otherMember _).trans
          (newPage.entries other otherMember position apart))
      unlinked := fun other unlinked different notTable => by
        have still : ¬ (tablesOf newPageMachine.memory).Linked directories other := by
          rw [newPage.linked]
          exact fun either => either.elim unlinked notTable
        have stillCleared : ¬ (tablesOf cleared.memory).Linked directories other := by
          rw [written.linked fresh]
          exact still
        have notDirectory : other ≠ directory := fun same => unlinked (same ▸ .of_directory member)
        have untouched : tablesOf t.memory other = tablesOf unmapped.memory other := by
          rw [becomes.tables]
          exact funext fun _ => Tables.set_of_frame_ne notDirectory
        rw [untouched, used.unlinked clearedStructures stillCleared, written.tables other different,
          newPage.unlinked other unlinked notTable]
      cleared := fun index => by
        rw [becomes.tables, Tables.set_of_frame_ne newTableNotDirectory, unmappedZero]
      empty := relinks.empty
      mapped := fun apart => ⟨pageEntry, windowMapped apart⟩
      walks := fun other otherMember position index outside different apart => by
        refine (relinks.walks other otherMember position index different).trans
          ((before other otherMember position index outside).trans ?_)
        refine newPage.walks other otherMember position index outside ?_
        by_cases isKernel : other = s.kernelDirectory
        · exact .inl fun samePage => apart ⟨isKernel, samePage⟩
        · exact .inr ⟨isKernel, not_kernelSlot least.1.1⟩
      tidy := fun tidy => relinks.tidy (used.tidy clearedStructures
        (written.tidy fresh (newPage.tidy tidy)))
      reached := newPage.reached.trans
        ((Reached.of_eq written.direct).trans used.reached) }
  · cases cached with
    | true => exact .inl (prefixRun.trans (windowTable_of_cached newTable))
    | false =>
        by_cases same : s.kernelDirectory = directory ∧
            directoryIndex window = directoryIndex virtual
        · refine .inr ⟨rfl, same.1, same.2, ?_⟩
          have none : Arch.translate t.memory t.kernelDirectory window = none := by
            have isDirectory : t.kernelDirectory = directory := unmappedDirectory.trans same.1
            unfold Arch.translate walk
            rw [isDirectory, same.2, relinks.empty]
            rfl
          exact ⟨_, prefixRun.trans (windowTable_of_none newTable none)⟩
        · refine .inl (prefixRun.trans ?_)
          have sees : Sees t window newTable := by
            have isDirectory : t.kernelDirectory = s.kernelDirectory := unmappedDirectory
            unfold Sees Arch.translate
            rw [isDirectory, windowMapped same]
            exact congrArg some address
          exact windowTable_of_sees sees

/-! ## The call -/

/-- What `vmm_map_frame` returns and leaves. -/
inductive MapFrameResult (s : Machine) (directories : Set Frame) (directory : Frame) (virtual : Nat)
    (physicalFrame : Nat) (isWriteable isUser : Bool) : Bool → Machine → Prop where
  | failed {t : Machine} :
      (tablesOf s.memory directory (directoryIndex virtual)).present = false →
      NewPageResult s directories s.kernelDirectory true false 0 t →
      MapFrameResult s directories directory virtual physicalFrame isWriteable isUser false t
  | entered {t : Machine} {entry : Page} :
      (tablesOf s.memory directory (directoryIndex virtual)).present = true →
      PageChanged s t directories directory virtual
        (some (pointEntry isWriteable isUser physicalFrame entry)) →
      MapFrameResult s directories directory virtual physicalFrame isWriteable isUser true t
  | created {linked t : Machine} {window : Nat} {newTable : Frame} {table : Option Frame} :
      (tablesOf s.memory directory (directoryIndex virtual)).present = false →
      NewTable s linked directories directory (directoryIndex virtual) isUser window newTable table →
      PageChanged linked t directories directory virtual
        (some (pointEntry isWriteable isUser physicalFrame (Page.decode 0))) →
      MapFrameResult s directories directory virtual physicalFrame isWriteable isUser true t

theorem mapNewTable_of_null {newPageMachine : Machine} {isUser cached : Bool}
    (run : vmmGetNewPage (frameAddress s.kernelDirectory) true false 0 s = .ok 0 newPageMachine) :
    mapNewTable pointer virtual isUser cached s = .ok none newPageMachine := by
  rw [mapNewTable, bind_ok (kernelDirectory_ok s), bind_ok run, if_pos rfl]
  rfl

section

variable {physicalFrame : Nat} {isWriteable isUser cached : Bool} (sees : Sees s pointer directory)
  (absent : (tablesOf s.memory directory (directoryIndex virtual)).present = false)

include sees absent

theorem vmmMapFrame_of_none (failed : mapNewTable pointer virtual isUser cached s = .ok none t) :
    vmmMapFrame pointer virtual physicalFrame isWriteable isUser cached s = .ok false t := by
  rw [vmmMapFrame, bind_ok (readDirectory_ok sees), absent, if_neg Bool.false_ne_true,
    bind_ok failed]
  rfl

theorem vmmMapFrame_of_some {table : Frame}
    (made : mapNewTable pointer virtual isUser cached s = .ok (some table) t) :
    vmmMapFrame pointer virtual physicalFrame isWriteable isUser cached s =
      .ok true (t.store table (pageIndex virtual) (pointEntry isWriteable isUser physicalFrame)) := by
  rw [vmmMapFrame, bind_ok (readDirectory_ok sees), absent, if_neg Bool.false_ne_true, bind_ok made]
  rfl

theorem vmmMapFrame_of_fault {fault : PageFault}
    (stopped : mapNewTable pointer virtual isUser cached s = .error fault t) :
    vmmMapFrame pointer virtual physicalFrame isWriteable isUser cached s = .error fault t := by
  rw [vmmMapFrame, bind_ok (readDirectory_ok sees), absent, if_neg Bool.false_ne_true,
    bind_error stopped]

end

/-- The page is entered into the new table. -/
theorem NewTable.pageChanged {window : Nat} {newTable : Frame} {table : Option Frame} {isUser : Bool}
    (made : NewTable s t directories directory (directoryIndex virtual) isUser window newTable table)
    (member : directory ∈ directories) (physicalFrame : Nat) (isWriteable isUserProcess : Bool) :
    PageChanged t
      (t.store newTable (pageIndex virtual) (pointEntry isWriteable isUserProcess physicalFrame))
      directories directory virtual
      (some (pointEntry isWriteable isUserProcess physicalFrame (Page.decode 0))) := by
  obtain ⟨entry, isEntry⟩ := made.directoryEntry
  have laid : Laid (tablesOf t.memory) t.kernelDirectory directories := by
    rw [made.kernelDirectory]
    exact made.laid
  have isPresent : (tablesOf t.memory directory (directoryIndex virtual)).present = true := by
    rw [isEntry]
    rfl
  have number : (tablesOf t.memory directory (directoryIndex virtual)).frameAddr = newTable := by
    rw [isEntry]
    exact frameOf_frameAddress newTable
  have changed : PageChanged t (t.store newTable (pageIndex virtual)
      (pointEntry isWriteable isUserProcess physicalFrame)) directories directory virtual _ :=
    pageChanged_of_store laid member isPresent number _ (tidy_pointEntry _ _ _)
  rw [made.cleared] at changed
  exact changed

/-- Making a table fails, succeeds, or ends in a page fault: the last where the new page of
`kernel_directory` lies in the very slot that gets the table. -/
theorem vmmMapFrame_of_absent {window : Nat} {newPageMachine : Machine}
    (structures : PageStructures s directories)
    (member : directory ∈ directories) (space : Addresses s pointer directory)
    (absent : (tablesOf s.memory directory (directoryIndex virtual)).present = false)
    (run : vmmGetNewPage (frameAddress s.kernelDirectory) true false 0 s = .ok window newPageMachine)
    (result : NewPageResult s directories s.kernelDirectory true false window newPageMachine)
    (physicalFrame : Nat) (isWriteable isUser cached : Bool) :
    (∃ answer t,
      vmmMapFrame pointer virtual physicalFrame isWriteable isUser cached s = .ok answer t ∧
        MapFrameResult s directories directory virtual physicalFrame isWriteable isUser answer t) ∨
      cached = false ∧ s.kernelDirectory = directory ∧ ∃ fault t newTable table,
        vmmMapFrame pointer virtual physicalFrame isWriteable isUser cached s = .error fault t ∧
        NewTable s t directories directory (directoryIndex virtual) isUser window newTable table := by
  cases result with
  | full mapped reached =>
      exact .inl ⟨false, _, vmmMapFrame_of_none space.sees absent (mapNewTable_of_null run),
        .failed absent (.full mapped reached)⟩
  | exhausted noFrame =>
      exact .inl ⟨false, _, vmmMapFrame_of_none space.sees absent (mapNewTable_of_null run),
        .failed absent (.exhausted noFrame)⟩
  | @mapped _ _ newTable table least newPage =>
      obtain ⟨linked, made, outcome⟩ :=
        mapNewTable_spec structures member space absent run least newPage isUser cached
      rcases outcome with made_ok | ⟨isFlushed, isKernel, _, fault, stopped⟩
      · exact .inl ⟨true, _, vmmMapFrame_of_some space.sees absent made_ok,
          .created absent made (made.pageChanged member physicalFrame isWriteable isUser)⟩
      · exact .inr ⟨isFlushed, isKernel, fault, linked, newTable, table,
          vmmMapFrame_of_fault space.sees absent stopped, made⟩

/-- The call where the tables that it looks at are reachable. -/
theorem vmmMapFrame_cases (structures : PageStructures s directories)
    (member : directory ∈ directories) (space : Addresses s pointer directory)
    (reachableKernel : TablesReachable s s.kernelDirectory searchSlots)
    (reachable : TablesReachable s directory [directoryIndex virtual])
    (physicalFrame : Nat) (isWriteable isUser cached : Bool) :
    (∃ answer t,
      vmmMapFrame pointer virtual physicalFrame isWriteable isUser cached s = .ok answer t ∧
        MapFrameResult s directories directory virtual physicalFrame isWriteable isUser answer t) ∨
      cached = false ∧ s.kernelDirectory = directory ∧ ∃ fault t window newTable table,
        vmmMapFrame pointer virtual physicalFrame isWriteable isUser cached s = .error fault t ∧
        NewTable s t directories directory (directoryIndex virtual) isUser window newTable table := by
  cases level : (tablesOf s.memory directory (directoryIndex virtual)).present with
  | true =>
      have sees := reachable _ (List.mem_singleton.mpr rfl) level
      obtain ⟨t, entry, run, changed⟩ := vmmMapFrame_of_present structures member space level rfl sees
      exact .inl ⟨true, t, run, .entered level changed⟩
  | false =>
      obtain ⟨window, newPageMachine, run, result⟩ := vmmGetNewPage_cases structures
        structures.laid.kernel structures.kernelDirectory reachableKernel true false
      refine (vmmMapFrame_of_absent structures member space level run result physicalFrame isWriteable
        isUser cached).imp_right ?_
      rintro ⟨isFlushed, isKernel, fault, t, newTable, table, stopped, made⟩
      exact ⟨isFlushed, isKernel, fault, t, window, newTable, table, stopped, made⟩

/-! ## The structures afterwards -/

namespace NewTable

variable {slot : EntryIndex} {isUser : Bool} {window : Nat} {newTable : Frame}
  {table : Option Frame}
  (made : NewTable s t directories directory slot isUser window newTable table)
  (structures : PageStructures s directories)
  (absent : (tablesOf s.memory directory slot).present = false)

include made structures absent

omit structures in
/-- Apart from the page `window` of `kernel_directory`, all pages are found as before. -/
theorem walk_of_ne {position index : EntryIndex} (otherMember : other ∈ directories)
    (outside : ¬ WindowPage position index)
    (apart : ¬ (other = s.kernelDirectory ∧ position = directoryIndex window ∧
      index = pageIndex window)) :
    (tablesOf t.memory).walk other position index =
      (tablesOf s.memory).walk other position index := by
  by_cases here : other = directory ∧ position = slot
  · obtain ⟨rfl, rfl⟩ := here
    rw [made.empty, Tables.walk_of_absent absent]
  · exact made.walks other otherMember position index outside here apart

/-- All pages of `kernel_directory` that were mapped are found as before. -/
theorem walk_kernel {position index : EntryIndex} (outside : ¬ WindowPage position index)
    (mapped : (tablesOf s.memory).walk s.kernelDirectory position index ≠ none) :
    (tablesOf t.memory).walk s.kernelDirectory position index =
      (tablesOf s.memory).walk s.kernelDirectory position index := by
  refine made.walk_of_ne absent structures.laid.kernel outside ?_
  rintro ⟨_, rfl, rfl⟩
  exact mapped made.leastWindow.1.2

theorem addresses (addresses : Addresses s pointer frame) : Addresses t pointer frame := by
  refine addresses.of_walk made.kernelDirectory (made.walk_kernel structures absent addresses.apart ?_)
  intro none
  have sees := addresses.sees
  unfold Sees Arch.translate walk at sees
  rw [none] at sees
  cases sees

omit structures in
/-- Entries of directories that are present stay. -/
theorem entry_of_present {position : EntryIndex} (otherMember : other ∈ directories)
    (isPresent : (tablesOf s.memory other position).present = true) :
    tablesOf t.memory other position = tablesOf s.memory other position := by
  refine made.entries other otherMember position ?_ ?_
  · rintro ⟨rfl, rfl⟩
    exact Bool.noConfusion (absent.symm.trans isPresent)
  · by_cases isWindow : other = s.kernelDirectory ∧ position = directoryIndex window
    · obtain ⟨rfl, rfl⟩ := isWindow
      exact .inl (made.withoutTable.mpr isPresent)
    · exact .inr isWindow

omit absent in
/-- The new table is in use for the first time. -/
theorem newTable_not_linked : ¬ (tablesOf s.memory).Linked directories newTable :=
  fun linked => structures.used newTable linked made.least.1

theorem pageStructures : PageStructures t directories := by
  refine structures.of_effect made.laid made.kernelDirectory
    (made.entry_of_present absent structures.laid.kernel structures.laid.isPresent)
    (fun other linked free => ?_)
    fun _ addresses => made.addresses structures absent addresses
  obtain ⟨before, different, notTable⟩ := (made.free other).mp free
  rcases made.linked other linked with old | isNew | isTable
  · exact structures.used other old before
  · exact different isNew
  · exact notTable isTable

end NewTable

/-- A page that is entered into a table of its own directory changes no other directory. -/
theorem NewTable.addresses_entered {isUser : Bool} {window : Nat} {newTable : Frame}
    {table : Option Frame}
    (made : NewTable s t directories directory (directoryIndex virtual) isUser window newTable table)
    (structures : PageStructures s directories)
    (absent : (tablesOf s.memory directory (directoryIndex virtual)).present = false)
    (changed : PageChanged t u directories directory virtual page)
    (addresses : Addresses s pointer frame) : Addresses u pointer frame := by
  have after := made.addresses structures absent addresses
  refine after.of_walk changed.kernelDirectory ?_
  rw [made.kernelDirectory]
  by_cases same : SamePage pointer virtual
  · obtain ⟨entry, found, _⟩ := Option.map_eq_some_iff.mp addresses.sees
    obtain ⟨level, _, _⟩ := Tables.walk_eq_some_iff.mp found
    have kernelEntry := made.entry_of_present absent structures.laid.kernel level
    obtain ⟨linkEntry, isLink⟩ := made.directoryEntry
    unfold walk
    rw [same.1, same.2]
    rw [same.1] at level kernelEntry
    refine changed.tables.apart _ structures.laid.kernel ?_
    rw [kernelEntry, isLink]
    intro sameTable
    have target : (pointEntry true isUser (frameAddress newTable) linkEntry).frameAddr = newTable :=
      frameOf_frameAddress newTable
    rw [target] at sameTable
    exact made.newTable_not_linked structures
      (sameTable ▸ .of_table structures.laid.kernel level)
  · exact changed.tables.walks _ structures.laid.kernel _ _ (.inl same)

namespace MapFrameResult

variable {physicalFrame : Nat} {isWriteable isUser answer : Bool}
  (result : MapFrameResult s directories directory virtual physicalFrame isWriteable isUser answer t)
  (structures : PageStructures s directories)

include result structures

/-- Pointers beside the page that is mapped stay valid. -/
theorem addresses (addresses : Addresses s pointer frame)
    (beside : Beside s directory virtual pointer) : Addresses t pointer frame := by
  cases result with
  | failed _ newPage => exact newPage.addresses structures addresses
  | entered _ changed => exact changed.addresses structures addresses beside
  | created absent made changed => exact made.addresses_entered structures absent changed addresses

theorem pageStructures
    (besideDirectory : Beside s directory virtual (frameAddress s.kernelDirectory))
    (besideTable : Beside s directory virtual (frameAddress s.secondTable)) :
    PageStructures t directories := by
  cases result with
  | failed _ newPage => exact newPage.pageStructures structures
  | entered _ changed => exact changed.pageStructures structures besideDirectory besideTable
  | @created linked _ _ _ _ absent made changed =>
      have linkedStructures := made.pageStructures structures absent
      have laid := changed.tables.laid
      rw [made.kernelDirectory] at laid
      refine structures.of_effect laid (changed.kernelDirectory.trans made.kernelDirectory) ?_ ?_
        fun _ addresses => made.addresses_entered structures absent changed addresses
      · rw [changed.tables.entries _ structures.laid.kernel,
          made.entry_of_present absent structures.laid.kernel structures.laid.isPresent]
      · intro other isLinked
        rw [changed.frames]
        exact linkedStructures.used other ((changed.tables.linked other).mp isLinked)

end MapFrameResult

end KdbOS.Vmm
