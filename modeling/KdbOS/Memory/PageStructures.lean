import KdbOS.Memory.VmmOperations

/-! The directories in use with their tables, and what the steps of `vmm_get_new_page`
make of them: a fresh table is linked, and an entry is written through the window. -/

set_option autoImplicit false

namespace KdbOS.Vmm

open Library Arch

/-- The slots whose tables every address space takes over from `kernel_directory`. -/
def KernelSlot (slot : EntryIndex) : Prop := slot.val < 2

instance : DecidablePred KernelSlot := fun slot => inferInstanceAs (Decidable (slot.val < 2))

/-- The page of the temporary window. -/
def WindowPage (slot index : EntryIndex) : Prop := slot = 1 ∧ index = 1023

theorem not_windowPage_of_high {slot index : EntryIndex} (high : ¬ KernelSlot slot) :
    ¬ WindowPage slot index := by
  rintro ⟨rfl, _⟩
  exact high (by unfold KernelSlot; decide)

/-- An entry that is not present names no frame. -/
def Tidy (page : Page) : Prop := page.present = false → page.frameAddr = 0

/-- The tables of the directories hold only such entries, apart from the window's. -/
def TidyTables (tables : Tables Frame EntryIndex Page) (directories : Set Frame) : Prop :=
  ∀ directory ∈ directories, ∀ slot, (tables directory slot).present = true →
    ∀ index, ¬ WindowPage slot index → Tidy (tables (tables directory slot).frameAddr index)

/-- The directories in use: no frame has two roles, and `kernel_directory`, which is one of
them, has its second table. -/
structure Laid (tables : Tables Frame EntryIndex Page) (kernelDirectory : Frame)
    (directories : Set Frame) : Prop where
  kernel : kernelDirectory ∈ directories
  separate : tables.Separate KernelSlot directories
  isPresent : (tables kernelDirectory 1).present = true

variable {tables : Tables Frame EntryIndex Page} {directories : Set Frame}
variable {kernelDirectory directory other frame newTable pt1 : Frame}
variable {slot index otherSlot otherIndex : EntryIndex} {entry linkEntry zero : Page}

namespace Laid

/-! ## The window's entry -/

section Window

variable (laid : Laid tables kernelDirectory directories)
  (number : (tables kernelDirectory 1).frameAddr = pt1)

include laid number

theorem window_directory (member : other ∈ directories) :
    tables.set pt1 1023 entry other otherSlot = tables other otherSlot := by
  subst number
  exact Tables.set_table_directory laid.separate laid.kernel laid.isPresent member

theorem window : Laid (tables.set pt1 1023 entry) kernelDirectory directories where
  kernel := laid.kernel
  separate := by
    subst number
    exact laid.separate.set_table laid.kernel laid.isPresent
  isPresent := by
    rw [laid.window_directory number laid.kernel]
    exact laid.isPresent

theorem linked_window :
    (tables.set pt1 1023 entry).Linked directories frame ↔ tables.Linked directories frame := by
  subst number
  exact Tables.linked_set_table laid.separate laid.kernel laid.isPresent

theorem walk_window (member : other ∈ directories) (apart : ¬ WindowPage slot index) :
    (tables.set pt1 1023 entry).walk other slot index = tables.walk other slot index := by
  subst number
  exact Tables.walk_set_of_page_ne laid.separate laid.kernel laid.isPresent member
    (not_and_or.mp apart)

theorem tidy_window (tidy : TidyTables tables directories) :
    TidyTables (tables.set pt1 1023 entry) directories := by
  intro other member otherSlot level index outside
  rw [laid.window_directory number member] at level ⊢
  have apart : ¬ ((tables other otherSlot).frameAddr = pt1 ∧ index = 1023) := by
    rintro ⟨same, last⟩
    exact outside ⟨(laid.separate.unique other member _ laid.kernel otherSlot 1 level laid.isPresent
      (same.trans number.symm)).1, last⟩
  rw [Tables.set_of_ne apart]
  exact tidy other member otherSlot level index outside

end Window

/-! ## A fresh table -/

section Link

variable (laid : Laid tables kernelDirectory directories) (member : directory ∈ directories)
  (absent : (tables directory slot).present = false)
  (isPresent : linkEntry.present = true) (target : linkEntry.frameAddr = newTable)
  (empty : zero.present = false) (fresh : ¬ tables.Linked directories newTable)

include fresh in
/-- The new table is cleared before or after it is linked. -/
theorem fill_agree (frame : Frame) (linked : tables.Linked directories frame) :
    tables.fill newTable zero frame = tables frame :=
  funext fun _ => Tables.fill_of_ne fun same => fresh (same ▸ linked)

include member fresh in
theorem link_fill_comm :
    (tables.set directory slot linkEntry).fill newTable zero =
      (tables.fill newTable zero).set directory slot linkEntry := by
  have apart : directory ≠ newTable := fun same => fresh (same ▸ .of_directory member)
  funext at_ position
  by_cases here : at_ = newTable
  · subst here
    rw [Tables.fill_self, Tables.set_of_frame_ne apart.symm, Tables.fill_self]
  · rw [Tables.fill_of_ne here]
    unfold Tables.set
    rw [Tables.fill_of_ne here]

include laid fresh in
theorem fill : Laid (tables.fill newTable zero) kernelDirectory directories where
  kernel := laid.kernel
  separate := Tables.Separate.of_agree (fill_agree fresh) laid.separate
  isPresent := by
    rw [fill_agree fresh _ (.of_directory laid.kernel)]
    exact laid.isPresent

include target fresh in
theorem fresh_fill : ¬ (tables.fill newTable zero).Linked directories linkEntry.frameAddr := by
  rw [target, Tables.linked_of_agree (fill_agree fresh)]
  exact fresh

theorem link_directory (member : other ∈ directories) (fresh : ¬ tables.Linked directories newTable)
    (apart : ¬ (other = directory ∧ otherSlot = slot)) :
    ((tables.set directory slot linkEntry).fill newTable zero) other otherSlot =
      tables other otherSlot := by
  have different : other ≠ newTable := fun same => fresh (same ▸ .of_directory member)
  rw [Tables.fill_of_ne different, Tables.set_of_ne apart]

include member fresh in
theorem link_directory_self :
    ((tables.set directory slot linkEntry).fill newTable zero) directory slot = linkEntry := by
  have different : directory ≠ newTable := fun same => fresh (same ▸ .of_directory member)
  rw [Tables.fill_of_ne different, Tables.set_self]

include laid member absent target fresh in
theorem link : Laid ((tables.set directory slot linkEntry).fill newTable zero) kernelDirectory
    directories where
  kernel := laid.kernel
  separate := by
    rw [link_fill_comm member fresh]
    exact (laid.fill fresh).separate.link (fresh_fill target fresh)
  isPresent := by
    have apart : ¬ (kernelDirectory = directory ∧ 1 = slot) := by
      rintro ⟨rfl, rfl⟩
      exact Bool.noConfusion (absent.symm.trans laid.isPresent)
    rw [link_directory laid.kernel fresh apart]
    exact laid.isPresent

include member absent isPresent target fresh in
theorem linked_link :
    ((tables.set directory slot linkEntry).fill newTable zero).Linked directories frame ↔
      tables.Linked directories frame ∨ frame = newTable := by
  have agree : ∀ linked, tables.Linked directories linked →
      tables.fill newTable zero linked = tables linked := fill_agree fresh
  have still : ((tables.fill newTable zero) directory slot).present = false := by
    rw [agree _ (.of_directory member)]
    exact absent
  rw [link_fill_comm member fresh, Tables.linked_link member still isPresent,
    Tables.linked_of_agree agree, tableEntry_target, target]

include laid member absent isPresent target empty fresh in
theorem walk_link (otherMember : other ∈ directories) :
    ((tables.set directory slot linkEntry).fill newTable zero).walk other otherSlot otherIndex =
      tables.walk other otherSlot otherIndex := by
  have agree : ∀ linked, tables.Linked directories linked →
      tables.fill newTable zero linked = tables linked := fill_agree fresh
  have still : ((tables.fill newTable zero) directory slot).present = false := by
    rw [agree _ (.of_directory member)]
    exact absent
  have cleared : ∀ index,
      ((tables.fill newTable zero) linkEntry.frameAddr index).present = false := by
    intro index
    rw [target, Tables.fill_self]
    exact empty
  rw [link_fill_comm member fresh, Tables.walk_link (laid.fill fresh).separate member still
    isPresent (fresh_fill target fresh) cleared otherMember,
    Tables.walk_of_agree agree otherMember]

include laid member target fresh in
theorem tidy_link (tidyZero : Tidy zero) (tidy : TidyTables tables directories) :
    TidyTables ((tables.set directory slot linkEntry).fill newTable zero) directories := by
  intro other otherMember otherSlot level index outside
  by_cases here : other = directory ∧ otherSlot = slot
  · obtain ⟨rfl, rfl⟩ := here
    rw [link_directory_self member fresh, target, Tables.fill_self]
    exact tidyZero
  · rw [link_directory otherMember fresh here] at level ⊢
    have isTable : tables.Linked directories (tables other otherSlot).frameAddr :=
      .of_table otherMember level
    have different : (tables other otherSlot).frameAddr ≠ newTable :=
      fun same => fresh (same ▸ isTable)
    have notDirectory : (tables other otherSlot).frameAddr ≠ directory := by
      rintro rfl
      exact laid.separate.apart other otherMember otherSlot level member
    rw [Tables.fill_of_ne different, Tables.set_of_frame_ne notDirectory]
    exact tidy other otherMember otherSlot level index outside

end Link

/-! ## An entry of a table -/

section Table

variable (laid : Laid tables kernelDirectory directories) (member : directory ∈ directories)
  (isPresent : (tables directory slot).present = true)
  (number : (tables directory slot).frameAddr = frame)

include laid member isPresent number

theorem table : Laid (tables.set frame index entry) kernelDirectory directories := by
  subst number
  refine ⟨laid.kernel, laid.separate.set_table member isPresent, ?_⟩
  have same : tables.set (tables directory slot).frameAddr index entry kernelDirectory 1 =
      tables kernelDirectory 1 :=
    Tables.set_table_directory laid.separate member isPresent laid.kernel
  exact (congrArg Page.present same).trans laid.isPresent

theorem table_directory (otherMember : other ∈ directories) :
    tables.set frame index entry other otherSlot = tables other otherSlot := by
  subst number
  exact Tables.set_table_directory laid.separate member isPresent otherMember

theorem linked_table {linked : Frame} :
    (tables.set frame index entry).Linked directories linked ↔
      tables.Linked directories linked := by
  subst number
  exact Tables.linked_set_table laid.separate member isPresent

theorem walk_table_self (entryPresent : entry.present = true) :
    (tables.set frame index entry).walk directory slot index = some entry := by
  subst number
  exact (Tables.walk_set_self laid.separate member isPresent).trans (if_pos entryPresent)

/-- The page is mapped in the directory, and in those that share its slot. -/
theorem walk_table_of_ne (otherMember : other ∈ directories)
    (apart : ¬ (otherSlot = slot ∧ otherIndex = index) ∨ other ≠ directory ∧ ¬ KernelSlot slot) :
    (tables.set frame index entry).walk other otherSlot otherIndex =
      tables.walk other otherSlot otherIndex := by
  subst number
  cases apart with
  | inl different =>
      exact Tables.walk_set_of_page_ne laid.separate member isPresent otherMember
        (not_and_or.mp different)
  | inr unshared =>
      exact Tables.walk_set_of_unshared laid.separate member isPresent otherMember unshared.1
        unshared.2

theorem tidy_table (tidyEntry : Tidy entry) (tidy : TidyTables tables directories) :
    TidyTables (tables.set frame index entry) directories := by
  intro other otherMember otherSlot level otherIndex outside
  rw [laid.table_directory member isPresent number otherMember] at level ⊢
  by_cases here : (tables other otherSlot).frameAddr = frame ∧ otherIndex = index
  · rw [here.1, here.2, Tables.set_self]
    exact tidyEntry
  · rw [Tables.set_of_ne here]
    exact tidy other otherMember otherSlot level otherIndex outside

end Table

end Laid

/-! ## The two steps, with the window closed after them -/

/-- A cleared table has been linked into an absent entry. -/
structure Links (tables after : Tables Frame EntryIndex Page) (kernelDirectory : Frame)
    (directories : Set Frame) (directory : Frame) (slot : EntryIndex) (newTable : Frame)
    (linkEntry : Page) : Prop where
  laid : Laid after kernelDirectory directories
  linked : ∀ frame, after.Linked directories frame ↔
    tables.Linked directories frame ∨ frame = newTable
  entry : after directory slot = linkEntry
  entries : ∀ other ∈ directories, ∀ position, ¬ (other = directory ∧ position = slot) →
    after other position = tables other position
  unlinked : ∀ frame, ¬ tables.Linked directories frame → frame ≠ newTable →
    after frame = tables frame
  walks : ∀ other ∈ directories, ∀ position index, ¬ WindowPage position index →
    after.walk other position index = tables.walk other position index
  tidy : TidyTables tables directories → TidyTables after directories

/-- A page has been entered into the table of its slot. -/
structure Enters (tables after : Tables Frame EntryIndex Page) (kernelDirectory : Frame)
    (directories : Set Frame) (directory : Frame) (slot index : EntryIndex) (entry : Page) :
    Prop where
  laid : Laid after kernelDirectory directories
  linked : ∀ frame, after.Linked directories frame ↔ tables.Linked directories frame
  entries : ∀ other ∈ directories, ∀ position, after other position = tables other position
  unlinked : ∀ frame, ¬ tables.Linked directories frame → after frame = tables frame
  mapped : after.walk directory slot index = some entry
  walks : ∀ other ∈ directories, ∀ position page, ¬ WindowPage position page →
    ¬ (position = slot ∧ page = index) ∨ other ≠ directory ∧ ¬ KernelSlot slot →
      after.walk other position page = tables.walk other position page
  tidy : TidyTables tables directories → TidyTables after directories

theorem Laid.links {closed : Page} (laid : Laid tables kernelDirectory directories)
    (member : directory ∈ directories) (absent : (tables directory slot).present = false)
    (isPresent : linkEntry.present = true) (target : linkEntry.frameAddr = newTable)
    (empty : zero.present = false) (tidyZero : Tidy zero)
    (fresh : ¬ tables.Linked directories newTable)
    (number : (tables kernelDirectory 1).frameAddr = pt1) :
    Links tables (((tables.set directory slot linkEntry).fill newTable zero).set pt1 1023 closed)
      kernelDirectory directories directory slot newTable linkEntry := by
  have linkLaid : Laid ((tables.set directory slot linkEntry).fill newTable zero)
    kernelDirectory directories := laid.link member absent target fresh
  have apart : ¬ (kernelDirectory = directory ∧ 1 = slot) := by
    rintro ⟨rfl, rfl⟩
    exact Bool.noConfusion (absent.symm.trans laid.isPresent)
  have second : (((tables.set directory slot linkEntry).fill newTable zero) kernelDirectory 1).frameAddr =
      pt1 := by
    rw [link_directory laid.kernel fresh apart]
    exact number
  refine ⟨linkLaid.window second, fun frame => ?_, ?_, fun other otherMember position different => ?_,
    fun frame unlinked different => ?_, fun other otherMember position index outside => ?_,
    fun tidy => linkLaid.tidy_window second (laid.tidy_link member target fresh tidyZero tidy)⟩
  · rw [linkLaid.linked_window second, linked_link member absent isPresent target fresh]
  · rw [linkLaid.window_directory second member, link_directory_self member fresh]
  · rw [linkLaid.window_directory second otherMember, link_directory otherMember fresh different]
  · have notWindow : frame ≠ pt1 := by
      rintro rfl
      exact unlinked (number ▸ .of_table laid.kernel laid.isPresent)
    have notDirectory : frame ≠ directory := fun same => unlinked (same ▸ .of_directory member)
    funext position
    rw [Tables.set_of_frame_ne notWindow, Tables.fill_of_ne different,
      Tables.set_of_frame_ne notDirectory]
  · rw [linkLaid.walk_window second otherMember outside,
      laid.walk_link member absent isPresent target empty fresh otherMember]

theorem Laid.enters {closed : Page} (laid : Laid tables kernelDirectory directories)
    (member : directory ∈ directories) (isPresent : (tables directory slot).present = true)
    (target : (tables directory slot).frameAddr = frame) (entryPresent : entry.present = true)
    (outside : ¬ WindowPage slot index) (number : (tables kernelDirectory 1).frameAddr = pt1) :
    Enters tables ((tables.set frame index entry).set pt1 1023 closed) kernelDirectory directories
      directory slot index entry := by
  have tableLaid : Laid (tables.set frame index entry) kernelDirectory directories :=
    laid.table member isPresent target
  have second : (tables.set frame index entry kernelDirectory 1).frameAddr = pt1 := by
    rw [laid.table_directory member isPresent target laid.kernel]
    exact number
  refine ⟨tableLaid.window second, fun linked => ?_, fun other otherMember position => ?_,
    fun unused unlinked => ?_, ?_, fun other otherMember position page elsewhere apart => ?_,
    fun tidy => tableLaid.tidy_window second (laid.tidy_table member isPresent target
      (fun absent => Bool.noConfusion (absent.symm.trans entryPresent)) tidy)⟩
  · rw [tableLaid.linked_window second, laid.linked_table member isPresent target]
  · rw [tableLaid.window_directory second otherMember,
      laid.table_directory member isPresent target otherMember]
  · have notWindow : unused ≠ pt1 := by
      rintro rfl
      exact unlinked (number ▸ .of_table laid.kernel laid.isPresent)
    have notTable : unused ≠ frame := by
      rintro rfl
      exact unlinked (target ▸ .of_table member isPresent)
    funext position
    rw [Tables.set_of_frame_ne notWindow, Tables.set_of_frame_ne notTable]
  · rw [tableLaid.walk_window second member outside,
      laid.walk_table_self member isPresent target entryPresent]
  · rw [tableLaid.walk_window second otherMember elsewhere,
      laid.walk_table_of_ne member isPresent target otherMember apart]

/-! ## Steps that leave the window alone -/

/-- One entry of a table has been replaced. -/
structure Changes (tables after : Tables Frame EntryIndex Page) (kernelDirectory : Frame)
    (directories : Set Frame) (directory : Frame) (slot index : EntryIndex) (page : Option Page) :
    Prop where
  laid : Laid after kernelDirectory directories
  linked : ∀ frame, after.Linked directories frame ↔ tables.Linked directories frame
  entries : ∀ other ∈ directories, ∀ position, after other position = tables other position
  unlinked : ∀ frame, ¬ tables.Linked directories frame → after frame = tables frame
  mapped : after.walk directory slot index = page
  walks : ∀ other ∈ directories, ∀ position otherIndex,
    ¬ (position = slot ∧ otherIndex = index) ∨ other ≠ directory ∧ ¬ KernelSlot slot →
      after.walk other position otherIndex = tables.walk other position otherIndex
  either : ∀ other ∈ directories, after.walk other slot index = page ∨
    after.walk other slot index = tables.walk other slot index
  apart : ∀ other ∈ directories,
    (tables other slot).frameAddr ≠ (tables directory slot).frameAddr →
      after.walk other slot index = tables.walk other slot index
  tidy : TidyTables tables directories → TidyTables after directories

theorem Laid.changes (laid : Laid tables kernelDirectory directories)
    (member : directory ∈ directories) (isPresent : (tables directory slot).present = true)
    (target : (tables directory slot).frameAddr = frame) (tidyEntry : Tidy entry) :
    Changes tables (tables.set frame index entry) kernelDirectory directories directory slot index
      (if entry.present then some entry else none) := by
  refine ⟨laid.table member isPresent target,
    fun linked => laid.linked_table member isPresent target,
    fun other otherMember position => laid.table_directory member isPresent target otherMember,
    fun unused unlinked => ?_, ?_,
    fun other otherMember position otherIndex apart =>
      laid.walk_table_of_ne member isPresent target otherMember apart,
    fun other otherMember => ?_, fun other otherMember different => ?_,
    laid.tidy_table member isPresent target tidyEntry⟩
  · have notTable : unused ≠ frame := by
      rintro rfl
      exact unlinked (target ▸ .of_table member isPresent)
    exact funext fun position => Tables.set_of_frame_ne notTable
  · subst target
    exact Tables.walk_set_self laid.separate member isPresent
  · by_cases sameTable : (tables other slot).present = true ∧ (tables other slot).frameAddr = frame
    · rw [← sameTable.2]
      exact .inl (Tables.walk_set_self laid.separate otherMember sameTable.1)
    · refine .inr (Tables.walk_congr (laid.table_directory member isPresent target otherMember) ?_)
      exact fun level => Tables.set_of_frame_ne fun same => sameTable ⟨level, same⟩
  · subst target
    exact Tables.walk_congr (laid.table_directory member isPresent rfl otherMember)
      fun _ => Tables.set_of_frame_ne different

/-- An entry of a directory has been made to name an empty table. -/
structure Relinks (tables after : Tables Frame EntryIndex Page) (kernelDirectory : Frame)
    (directories : Set Frame) (directory : Frame) (slot : EntryIndex) (newTable : Frame)
    (linkEntry : Page) : Prop where
  laid : Laid after kernelDirectory directories
  linked : ∀ frame, after.Linked directories frame →
    tables.Linked directories frame ∨ frame = newTable
  entry : after directory slot = linkEntry
  entries : ∀ other position, ¬ (other = directory ∧ position = slot) →
    after other position = tables other position
  empty : ∀ index, after.walk directory slot index = none
  walks : ∀ other ∈ directories, ∀ position index, ¬ (other = directory ∧ position = slot) →
    after.walk other position index = tables.walk other position index
  tidy : TidyTables tables directories → TidyTables after directories

theorem Laid.relinks (laid : Laid tables kernelDirectory directories)
    (member : directory ∈ directories) (notSecond : ¬ (kernelDirectory = directory ∧ 1 = slot))
    (isPresent : linkEntry.present = true) (target : linkEntry.frameAddr = newTable)
    (empty : ∀ index, (tables newTable index).present = false)
    (tidyTable : ∀ index, Tidy (tables newTable index))
    (fresh : ¬ tables.Linked directories newTable) :
    Relinks tables (tables.set directory slot linkEntry) kernelDirectory directories directory slot
      newTable linkEntry := by
  -- The entry is first taken out, as if there had been no table.
  let unlinked := tables.set directory slot { linkEntry with present := false }
  have same : tables.set directory slot linkEntry = unlinked.set directory slot linkEntry :=
    (Tables.set_set _ _ _ _ _).symm
  have separate : unlinked.Separate KernelSlot directories := laid.separate.unlink rfl
  have taken : unlinked directory slot = { linkEntry with present := false } := Tables.set_self
  have absent : (unlinked directory slot).present = false := congrArg Page.present taken
  have apart : newTable ≠ directory := fun same => fresh (same ▸ .of_directory member)
  have stillFresh : ¬ unlinked.Linked directories linkEntry.frameAddr :=
    fun linked => fresh (target ▸ Tables.linked_of_unlink rfl linked)
  have stillEmpty : ∀ index, (unlinked linkEntry.frameAddr index).present = false := by
    intro index
    have untouched : unlinked newTable index = tables newTable index := Tables.set_of_frame_ne apart
    rw [target, untouched]
    exact empty index
  have walks : ∀ other ∈ directories, ∀ position index,
      (tables.set directory slot linkEntry).walk other position index =
        if other = directory ∧ position = slot then none else tables.walk other position index := by
    intro other otherMember position index
    rw [same, Tables.walk_link separate member absent isPresent stillFresh stillEmpty otherMember]
    exact Tables.walk_unlink laid.separate member rfl otherMember
  refine ⟨⟨laid.kernel, ?_, ?_⟩, fun frame linked => ?_, Tables.set_self,
    fun other position different => Tables.set_of_ne different, fun index => ?_,
    fun other otherMember position index different => ?_,
    fun tidy other otherMember position level index outside => ?_⟩
  · rw [same]
    exact separate.link stillFresh
  · rw [Tables.set_of_ne notSecond]
    exact laid.isPresent
  · rw [same] at linked
    rcases (Tables.linked_link member absent isPresent).mp linked with old | new
    · exact .inl (Tables.linked_of_unlink rfl old)
    · exact .inr (new.trans target)
  · exact (walks directory member slot index).trans (if_pos ⟨rfl, rfl⟩)
  · exact (walks other otherMember position index).trans (if_neg different)
  · by_cases here : other = directory ∧ position = slot
    · obtain ⟨rfl, rfl⟩ := here
      rw [Tables.set_self, target, Tables.set_of_frame_ne apart]
      exact tidyTable index
    · rw [Tables.set_of_ne here] at level ⊢
      have notDirectory : (tables other position).frameAddr ≠ directory := by
        rintro rfl
        exact laid.separate.apart other otherMember position level member
      rw [Tables.set_of_frame_ne notDirectory]
      exact tidy other otherMember position level index outside

/-! ## The directories of a machine -/

/-- The table behind the slot of the temporary window. -/
def Machine.secondTable (s : Machine) : Frame := (tablesOf s.memory s.kernelDirectory 1).frameAddr

/-- The window's page is that of the last frame below 8 MiB. -/
theorem not_windowPage_of_lt (low : frame.val < 2047) :
    ¬ WindowPage (directoryIndex (frameAddress frame)) (pageIndex (frameAddress frame)) := by
  rintro ⟨isSlot, isPage⟩
  have slot := congrArg Fin.val isSlot
  have page := congrArg Fin.val isPage
  unfold directoryIndex frameAddress pageSize at slot
  unfold pageIndex frameAddress pageSize at page
  rw [Fin.val_ofNat] at slot page
  have one : (1 : EntryIndex).val = 1 := rfl
  have last : (1023 : EntryIndex).val = 1023 := rfl
  omega

theorem present_of_walk {s : Machine} {address : Nat}
    (mapped : walk s.memory directory address ≠ none) :
    (tablesOf s.memory directory (directoryIndex address)).present = true := by
  by_contra absent
  exact mapped (Tables.walk_of_absent (Bool.not_eq_true _ ▸ absent))

/-- The kernel reaches the frame through a page other than that of the window. -/
structure Addresses (s : Machine) (pointer : Nat) (frame : Frame) : Prop where
  sees : Sees s pointer frame
  apart : ¬ WindowPage (directoryIndex pointer) (pageIndex pointer)

/-- The page structures of the directories lie in used frames, and the kernel's own, which
the temporary window needs, are addressed by their physical addresses. -/
structure PageStructures (s : Machine) (directories : Set Frame) : Prop where
  laid : Laid (tablesOf s.memory) s.kernelDirectory directories
  used : ∀ frame, (tablesOf s.memory).Linked directories frame → ¬ s.frames.Free frame
  kernelDirectory : Addresses s (frameAddress s.kernelDirectory) s.kernelDirectory
  secondTable : Addresses s (frameAddress s.secondTable) s.secondTable

/-- The two addresses lie in one page. -/
def SamePage (first second : Nat) : Prop :=
  directoryIndex first = directoryIndex second ∧ pageIndex first = pageIndex second

/-- The pointer's page is not the one that is about to be mapped in the directory. -/
def Beside (s : Machine) (directory : Frame) (virtual pointer : Nat) : Prop :=
  ¬ SamePage pointer virtual ∨
    s.kernelDirectory ≠ directory ∧ ¬ KernelSlot (directoryIndex virtual)

/-- The cells that are written when a page is mapped: the window's entry, the directory's
entry if it is absent, a new table, and the page's entry. -/
inductive NewPageCells (s : Machine) (directory : Frame) (virtual : Nat) :
    Frame → EntryIndex → Prop where
  | window : NewPageCells s directory virtual s.secondTable 1023
  | link : (tablesOf s.memory directory (directoryIndex virtual)).present = false →
      NewPageCells s directory virtual directory (directoryIndex virtual)
  | fresh {frame : Frame} {index : EntryIndex} :
      s.frames.Free frame → NewPageCells s directory virtual frame index
  | entry : (tablesOf s.memory directory (directoryIndex virtual)).present = true →
      NewPageCells s directory virtual
        (tablesOf s.memory directory (directoryIndex virtual)).frameAddr (pageIndex virtual)

namespace PageStructures

variable {s : Machine} {virtual pointer : Nat}

theorem linked_secondTable (structures : PageStructures s directories) :
    (tablesOf s.memory).Linked directories s.secondTable :=
  .of_table structures.laid.kernel structures.laid.isPresent

/-- Entries of directories that are present stay. -/
theorem not_cell_of_present (structures : PageStructures s directories)
    (member : directory ∈ directories) (otherMember : other ∈ directories)
    (isPresent : (tablesOf s.memory other slot).present = true) :
    ¬ NewPageCells s directory virtual other slot := by
  intro cell
  cases cell with
  | window =>
      exact structures.laid.separate.apart _ structures.laid.kernel 1 structures.laid.isPresent
        otherMember
  | link absent => exact Bool.noConfusion (absent.symm.trans isPresent)
  | fresh free => exact structures.used _ (.of_directory otherMember) free
  | entry level => exact structures.laid.separate.apart _ member _ level otherMember

/-- So does the entry that a pointer is translated with. -/
theorem pinned (structures : PageStructures s directories) (member : directory ∈ directories)
    (addresses : Addresses s pointer frame) (beside : Beside s directory virtual pointer) :
    Pinned (NewPageCells s directory virtual) s pointer frame := by
  obtain ⟨entry, found, _⟩ := Option.map_eq_some_iff.mp addresses.sees
  obtain ⟨level, lower, _⟩ := Tables.walk_eq_some_iff.mp found
  refine ⟨addresses.sees, structures.not_cell_of_present member structures.laid.kernel level, ?_⟩
  unfold pointerTable
  generalize cellFrame : (tablesOf s.memory s.kernelDirectory (directoryIndex pointer)).frameAddr =
    table
  generalize cellIndex : pageIndex pointer = position
  intro cell
  cases cell with
  | window =>
      have slots := (structures.laid.separate.unique _ structures.laid.kernel _
        structures.laid.kernel _ 1 level structures.laid.isPresent cellFrame).1
      exact addresses.apart ⟨slots, cellIndex⟩
  | link absent =>
      refine structures.laid.separate.apart _ structures.laid.kernel _ level ?_
      rw [tableEntry_target, cellFrame]
      exact member
  | fresh free =>
      refine structures.used _ (.of_table structures.laid.kernel level) ?_
      rw [tableEntry_target, cellFrame]
      exact free
  | entry isPresent =>
      obtain ⟨slots, owner⟩ := structures.laid.separate.unique _ structures.laid.kernel _ member _ _
        level isPresent cellFrame
      cases beside with
      | inl different => exact different ⟨slots, cellIndex⟩
      | inr unshared =>
          rw [slots] at owner
          exact owner.elim unshared.1 unshared.2

theorem pins (structures : PageStructures s directories) (member : directory ∈ directories)
    (besideDirectory : Beside s directory virtual (frameAddress s.kernelDirectory))
    (besideTable : Beside s directory virtual (frameAddress s.secondTable)) :
    KernelPins (NewPageCells s directory virtual) s s.secondTable where
  directory := structures.pinned member structures.kernelDirectory besideDirectory
  isPresent := structures.laid.isPresent
  number := rfl
  entry := structures.not_cell_of_present member structures.laid.kernel structures.laid.isPresent
  table := structures.pinned member structures.secondTable besideTable
  window := .window

end PageStructures

end KdbOS.Vmm
