import KdbOS.Memory.Vmm
import Mathlib.Data.List.Sort

/-! What the steps of the virtual memory manager do: the accesses through the kernel's
pointers, the temporary window, and the search for a free page. -/

set_option autoImplicit false

namespace KdbOS.Vmm

open Library Ds Klibc Pmm Arch

variable {α β : Type} {s t u : Machine} {a : α} {b : β}
variable {pointer : Nat} {frame table directory pt1 : Frame} {slot index : EntryIndex}

/-! ## Sequencing -/

theorem bind_ok {action : VmmM α} {next : α → VmmM β} (run : action s = .ok a t) :
    (action >>= next) s = next a t := by
  show EStateM.bind action next s = _
  rw [EStateM.bind, run]

theorem bind_error {action : VmmM α} {next : α → VmmM β} {fault : PageFault}
    (run : action s = .error fault t) : (action >>= next) s = .error fault t := by
  show EStateM.bind action next s = _
  rw [EStateM.bind, run]

theorem get_ok (s : Machine) : (get : VmmM Machine) s = .ok s s := rfl

theorem modify_ok (change : Machine → Machine) (s : Machine) :
    (modify change : VmmM Unit) s = .ok () (change s) := rfl

/-- A sequence that returns has returned from its first part. -/
theorem bind_eq_ok {action : VmmM α} {next : α → VmmM β}
    (run : (action >>= next) s = .ok b u) :
    ∃ a t, action s = .ok a t ∧ next a t = .ok b u := by
  cases first : action s with
  | ok a t => exact ⟨a, t, rfl, (bind_ok first).symm.trans run⟩
  | error fault t =>
      rw [bind_error first] at run
      cases run

/-! ## Pointers -/

/-- The kernel reaches the frame through the pointer. -/
def Sees (s : Machine) (pointer : Nat) (frame : Frame) : Prop :=
  Arch.translate s.memory s.kernelDirectory pointer = some frame

/-- The table entry that a pointer is translated with. -/
def pointerTable (s : Machine) (pointer : Nat) : Frame :=
  (tablesOf s.memory s.kernelDirectory (directoryIndex pointer)).frameAddr

/-- Only cells of `Touched` differ. -/
structure AgreesOff (Touched : Frame → EntryIndex → Prop) (s t : Machine) : Prop where
  kernelDirectory : t.kernelDirectory = s.kernelDirectory
  cells : ∀ frame index, ¬ Touched frame index →
    tablesOf t.memory frame index = tablesOf s.memory frame index

/-- The kernel reaches the frame through entries outside the cells of `Touched`. -/
structure Pinned (Touched : Frame → EntryIndex → Prop) (s : Machine) (pointer : Nat)
    (frame : Frame) : Prop where
  sees : Sees s pointer frame
  upper : ¬ Touched s.kernelDirectory (directoryIndex pointer)
  lower : ¬ Touched (pointerTable s pointer) (pageIndex pointer)

variable {Touched : Frame → EntryIndex → Prop}

theorem Pinned.transport (pinned : Pinned Touched s pointer frame) (agrees : AgreesOff Touched s t) :
    Pinned Touched t pointer frame := by
  have entry := agrees.cells _ _ pinned.upper
  have found : walk t.memory t.kernelDirectory pointer =
      walk s.memory s.kernelDirectory pointer := by
    unfold walk
    rw [agrees.kernelDirectory]
    exact Tables.walk_congr entry fun _ => agrees.cells _ _ pinned.lower
  have same : pointerTable t pointer = pointerTable s pointer := by
    unfold pointerTable
    rw [agrees.kernelDirectory, entry]
  refine ⟨?_, ?_, ?_⟩
  · have sees := pinned.sees
    unfold Sees Arch.translate at *
    rw [found]
    exact sees
  · rw [agrees.kernelDirectory]
    exact pinned.upper
  · rw [same]
    exact pinned.lower

theorem reach_ok (sees : Sees s pointer frame) : reach pointer s = .ok frame s := by
  have found : Arch.translate s.memory s.kernelDirectory pointer = some frame := sees
  rw [reach, bind_ok (get_ok s), found]
  rfl

theorem reach_error (unmapped : Arch.translate s.memory s.kernelDirectory pointer = none) :
    reach pointer s = .error ⟨pointer⟩ s := by
  rw [reach, bind_ok (get_ok s), unmapped]
  rfl

/-- Accesses to tables are recorded. -/
def Machine.notes (s : Machine) (accesses : List (Frame × Option Frame)) : Machine :=
  { s with direct := s.direct ++ accesses }

def Machine.note (s : Machine) (table : Frame) (reached : Option Frame) : Machine :=
  s.notes [(table, reached)]

theorem Machine.notes_notes (s : Machine) (first second : List (Frame × Option Frame)) :
    (s.notes first).notes second = s.notes (first ++ second) := by
  simp [Machine.notes, List.append_assoc]

theorem reachTable_eq (table : Frame) (s : Machine) :
    reachTable table s = reach (frameAddress table)
      (s.note table (Arch.translate s.memory s.kernelDirectory (frameAddress table))) := by
  rw [reachTable, bind_ok (modify_ok _ s)]
  rfl

theorem reachTable_ok (sees : Sees s (frameAddress table) frame) :
    reachTable table s = .ok frame (s.note table (some frame)) := by
  have found : Arch.translate s.memory s.kernelDirectory (frameAddress table) = some frame := sees
  have noted : Sees (s.note table (some frame)) (frameAddress table) frame := sees
  rw [reachTable_eq, found, reach_ok noted]

/-- A table that was dereferenced has been reached somewhere. -/
theorem reachTable_eq_ok (run : reachTable table s = .ok frame t) :
    Sees s (frameAddress table) frame ∧ t = s.note table (some frame) := by
  cases found : Arch.translate s.memory s.kernelDirectory (frameAddress table) with
  | none =>
      have noted : Arch.translate (s.note table none).memory (s.note table none).kernelDirectory
        (frameAddress table) = none := found
      rw [reachTable_eq, found, reach_error noted] at run
      cases run
  | some reached =>
      rw [reachTable_ok found] at run
      cases run
      exact ⟨found, rfl⟩

theorem kernelDirectory_ok (s : Machine) :
    kernelDirectory s = .ok (frameAddress s.kernelDirectory) s := rfl

theorem readEntry_ok (s : Machine) (frame : Frame) (index : EntryIndex) :
    readEntry frame index s = .ok (tablesOf s.memory frame index) s := rfl

theorem readDirectory_ok (sees : Sees s pointer directory) :
    readDirectory pointer slot s = .ok (tablesOf s.memory directory slot) s := by
  rw [readDirectory, bind_ok (reach_ok sees)]
  rfl

/-- One entry is assigned to. -/
def Machine.store (s : Machine) (frame : Frame) (index : EntryIndex) (change : Page → Page) :
    Machine :=
  { s with memory := changeEntry frame index change s.memory }

theorem assignEntry_ok (s : Machine) (frame : Frame) (index : EntryIndex) (change : Page → Page) :
    assignEntry frame index change s = .ok () (s.store frame index change) := rfl

theorem assignDirectory_ok (sees : Sees s pointer directory) (change : Page → Page) :
    assignDirectory pointer slot change s = .ok () (s.store directory slot change) := by
  rw [assignDirectory, bind_ok (reach_ok sees)]
  rfl

theorem clearPage_ok (sees : Sees s pointer frame) :
    clearPage pointer s = .ok frame { s with memory := clearFrame frame s.memory } := by
  rw [clearPage, bind_ok (reach_ok sees)]
  rfl

theorem allocateFrame_ok (s : Machine) :
    allocateFrame s = .ok s.frames.allocate.1 { s with frames := s.frames.allocate.2 } := rfl

/-! ## Effects -/

/-- Every table that is dereferenced by its physical address is reached. -/
def Faithful (s : Machine) : Prop := ∀ access ∈ s.direct, access.2 = some access.1

/-- Since the first state every table that was dereferenced by its physical address was
reached. -/
def Reached (s t : Machine) : Prop :=
  ∃ accesses, t.direct = s.direct ++ accesses ∧ ∀ access ∈ accesses, access.2 = some access.1

namespace Reached

theorem of_eq (same : t.direct = s.direct) : Reached s t :=
  ⟨[], by rw [same, List.append_nil], nofun⟩

theorem trans (first : Reached s t) (second : Reached t u) : Reached s u := by
  obtain ⟨before, direct, beforeReached⟩ := first
  obtain ⟨after, appended, afterReached⟩ := second
  refine ⟨before ++ after, by rw [appended, direct, List.append_assoc], fun access member => ?_⟩
  exact (List.mem_append.mp member).elim (beforeReached access) (afterReached access)

theorem notes {accesses : List (Frame × Option Frame)}
    (reached : ∀ access ∈ accesses, access.2 = some access.1) : Reached s (s.notes accesses) :=
  ⟨accesses, rfl, reached⟩

theorem note (table : Frame) : Reached s (s.note table (some table)) :=
  notes fun access member => by rw [List.mem_singleton.mp member]

theorem faithful (reached : Reached s t) (faithful : Faithful s) : Faithful t := by
  obtain ⟨accesses, direct, reached⟩ := reached
  intro access member
  rw [direct] at member
  exact (List.mem_append.mp member).elim (faithful access) (reached access)

end Reached

/-- The second machine has these tables and this allocator, and since the first one every
table that was dereferenced by its physical address was reached. -/
structure Becomes (s : Machine) (tables : Tables Frame EntryIndex Page) (frames : FrameAllocator)
    (t : Machine) : Prop where
  tables : tablesOf t.memory = tables
  frames : t.frames = frames
  kernelDirectory : t.kernelDirectory = s.kernelDirectory
  reached : Reached s t

namespace Becomes

variable {tables : Tables Frame EntryIndex Page} {frames : FrameAllocator}

theorem refl (s : Machine) : Becomes s (tablesOf s.memory) s.frames s :=
  ⟨rfl, rfl, rfl, .of_eq rfl⟩

/-- One more access to a table. -/
theorem note (becomes : Becomes s tables frames t) (table : Frame) :
    Becomes s tables frames (t.note table (some table)) :=
  ⟨becomes.tables, becomes.frames, becomes.kernelDirectory, becomes.reached.trans (.note table)⟩

/-- One more assignment to an entry. -/
theorem store (becomes : Becomes s tables frames t) (frame : Frame) (index : EntryIndex)
    (change : Page → Page) :
    Becomes s (tables.set frame index (change (tables frame index))) frames
      (t.store frame index change) :=
  ⟨by rw [← becomes.tables]; exact tablesOf_changeEntry change, becomes.frames,
    becomes.kernelDirectory, becomes.reached.trans (.of_eq rfl)⟩

/-- A frame is cleared. -/
theorem clear (becomes : Becomes s tables frames t) (frame : Frame) :
    Becomes s (tables.fill frame (Page.decode 0)) frames
      { t with memory := clearFrame frame t.memory } := by
  refine ⟨?_, becomes.frames, becomes.kernelDirectory, becomes.reached.trans (.of_eq rfl)⟩
  dsimp only
  rw [tablesOf_clearFrame, becomes.tables]

/-- A frame is allocated. -/
theorem allocate (becomes : Becomes s tables frames t) :
    Becomes s tables frames.allocate.2 { t with frames := t.frames.allocate.2 } :=
  ⟨becomes.tables, by rw [becomes.frames], becomes.kernelDirectory,
    becomes.reached.trans (.of_eq rfl)⟩

end Becomes

theorem Becomes.agreesOff {tables : Tables Frame EntryIndex Page} {frames : FrameAllocator}
    (becomes : Becomes s tables frames t)
    (cells : ∀ frame index, ¬ Touched frame index →
      tables frame index = tablesOf s.memory frame index) : AgreesOff Touched s t :=
  ⟨becomes.kernelDirectory, fun frame index untouched => by
    rw [becomes.tables]
    exact cells frame index untouched⟩

theorem AgreesOff.trans (first : AgreesOff Touched s t) (second : AgreesOff Touched t u) :
    AgreesOff Touched s u :=
  ⟨second.kernelDirectory.trans first.kernelDirectory, fun frame index untouched =>
    (second.cells frame index untouched).trans (first.cells frame index untouched)⟩

/-- Assigning to a cell of `Touched`. -/
theorem AgreesOff.store (touched : Touched frame index) (s : Machine) (change : Page → Page) :
    AgreesOff Touched s (s.store frame index change) :=
  ((Becomes.refl s).store frame index change).agreesOff fun _ _ untouched =>
    Tables.set_of_ne fun same => untouched (same.1 ▸ same.2 ▸ touched)

/-- Clearing a frame all of whose cells are in `Touched`. -/
theorem AgreesOff.clear (touched : ∀ index, Touched frame index) (s : Machine) :
    AgreesOff Touched s { s with memory := clearFrame frame s.memory } :=
  ((Becomes.refl s).clear frame).agreesOff fun _ _ untouched =>
    Tables.fill_of_ne fun same => untouched (same ▸ touched _)

theorem AgreesOff.note (s : Machine) (table : Frame) (reached : Option Frame) :
    AgreesOff Touched s (s.note table reached) :=
  ⟨rfl, fun _ _ _ => rfl⟩

/-! ## The temporary window -/

/-- The kernel sees its directory and its second page table where they are; the entry of
the temporary window may be touched. -/
structure KernelPins (Touched : Frame → EntryIndex → Prop) (s : Machine) (pt1 : Frame) : Prop where
  directory : Pinned Touched s (frameAddress s.kernelDirectory) s.kernelDirectory
  isPresent : (tablesOf s.memory s.kernelDirectory 1).present = true
  number : (tablesOf s.memory s.kernelDirectory 1).frameAddr = pt1
  entry : ¬ Touched s.kernelDirectory 1
  table : Pinned Touched s (frameAddress pt1) pt1
  window : Touched pt1 1023

namespace KernelPins

variable {tables : Tables Frame EntryIndex Page} {frames : FrameAllocator}

theorem transport (pins : KernelPins Touched s pt1) (agrees : AgreesOff Touched s t) :
    KernelPins Touched t pt1 where
  directory := by
    rw [agrees.kernelDirectory]
    exact pins.directory.transport agrees
  isPresent := by
    rw [agrees.kernelDirectory, agrees.cells _ _ pins.entry]
    exact pins.isPresent
  number := by
    rw [agrees.kernelDirectory, agrees.cells _ _ pins.entry]
    exact pins.number
  entry := by
    rw [agrees.kernelDirectory]
    exact pins.entry
  table := pins.table.transport agrees
  window := pins.window

theorem assignWindow (pins : KernelPins Touched t pt1) (becomes : Becomes s tables frames t)
    (change : Page → Page) :
    ∃ u, Vmm.assignWindow change t = .ok () u ∧ AgreesOff Touched t u ∧
      Becomes s (tables.set pt1 1023 (change (tables pt1 1023))) frames u := by
  refine ⟨(t.note pt1 (some pt1)).store pt1 1023 change, ?_, ?_, ?_⟩
  · rw [Vmm.assignWindow, bind_ok (kernelDirectory_ok t),
      bind_ok (readDirectory_ok pins.directory.sees), kernelPt1DirIdx, pins.number,
      bind_ok (reachTable_ok pins.table.sees)]
    rfl
  · exact (AgreesOff.note t pt1 (some pt1)).trans (AgreesOff.store pins.window _ change)
  · exact (becomes.note pt1).store pt1 1023 change

/-- Through the window the kernel sees the frame that its entry names. -/
theorem sees_window (pins : KernelPins Touched s pt1)
    (isPresent : (tablesOf s.memory pt1 1023).present = true) :
    Sees s vmmTempWindowVirtual (tablesOf s.memory pt1 1023).frameAddr := by
  have found : walk s.memory s.kernelDirectory vmmTempWindowVirtual =
      some (tablesOf s.memory pt1 1023) := by
    refine Tables.walk_eq_some_iff.mpr ⟨pins.isPresent, ?_, isPresent⟩
    have slot : directoryIndex vmmTempWindowVirtual = 1 := rfl
    rw [slot, tableEntry_target, pins.number]
    rfl
  unfold Sees Arch.translate
  rw [found]
  rfl

/-- The window is opened onto a frame. -/
theorem mapToTempWindow (pins : KernelPins Touched t pt1) (becomes : Becomes s tables frames t)
    (table : Frame) :
    ∃ u opened, vmmMapToTempWindow (frameAddress table) t = .ok vmmTempWindowVirtual u ∧
      AgreesOff Touched t u ∧ Becomes s (tables.set pt1 1023 opened) frames u ∧
      Sees u vmmTempWindowVirtual table := by
  obtain ⟨u, run, agrees, changed⟩ := pins.assignWindow becomes fun page =>
    { page with present := true, rw := true, frameAddr := Page.frameOf (frameAddress table) }
  have entry : tablesOf u.memory pt1 1023 = { tables pt1 1023 with
      present := true, rw := true, frameAddr := table } := by
    rw [changed.tables, Tables.set_self, frameOf_frameAddress]
  have sees := (pins.transport agrees).sees_window (by rw [entry])
  rw [entry] at sees
  refine ⟨u, _, ?_, agrees, changed, sees⟩
  rw [vmmMapToTempWindow, bind_ok run]
  rfl

/-- The window is closed. -/
theorem unmapTempWindow (pins : KernelPins Touched t pt1) (becomes : Becomes s tables frames t) :
    ∃ u closed, vmmUnmapTempWindow t = .ok () u ∧ closed.present = false ∧
      AgreesOff Touched t u ∧ Becomes s (tables.set pt1 1023 closed) frames u := by
  obtain ⟨u, run, agrees, changed⟩ :=
    pins.assignWindow becomes fun page => { page with present := false }
  exact ⟨u, _, run, rfl, agrees, changed⟩

end KernelPins

/-! ## Entering a page into a table -/

/-- The table is written through the window, which is closed again. -/
theorem installPage_spec {tables : Tables Frame EntryIndex Page} {frames : FrameAllocator}
    (pins : KernelPins Touched t pt1) (space : Pinned Touched t pointer directory)
    (becomes : Becomes s tables frames t) (isRw isUser : Bool) (physicalFrame : Nat)
    (number : (tables directory slot).frameAddr = table)
    (touched : Touched table index) (apart : ¬ (table = pt1 ∧ index = 1023)) :
    ∃ u closed, installPage pointer slot index isRw isUser physicalFrame t = .ok () u ∧
      closed.present = false ∧ AgreesOff Touched t u ∧
      Becomes s ((tables.set table index
        (pointEntry isRw isUser physicalFrame (tables table index))).set pt1 1023 closed)
        frames u := by
  obtain ⟨opened, window, map, openedAgrees, openedBecomes, sees⟩ :=
    pins.mapToTempWindow becomes table
  let write := pointEntry isRw isUser physicalFrame
  have written : AgreesOff Touched opened (opened.store table index write) :=
    AgreesOff.store touched opened write
  have writtenPins := (pins.transport openedAgrees).transport written
  obtain ⟨u, closed, unmap, absent, closedAgrees, changed⟩ :=
    writtenPins.unmapTempWindow (openedBecomes.store table index write)
  refine ⟨u, closed, ?_, absent, openedAgrees.trans (written.trans closedAgrees), ?_⟩
  · rw [← becomes.tables] at number
    rw [installPage, bind_ok (readDirectory_ok space.sees), number, bind_ok map,
      bind_ok (reach_ok sees), bind_ok (assignEntry_ok _ _ _ _)]
    exact unmap
  · rw [Tables.set_of_ne apart, Tables.set_comm _ _ _ apart, Tables.set_set] at changed
    exact changed

/-! ## Providing a table -/

/-- A slot that has a table is left alone. -/
theorem ensureTable_of_present (sees : Sees t pointer directory) (isRw isUser : Bool)
    (isPresent : (tablesOf t.memory directory slot).present = true) :
    ensureTable pointer slot isRw isUser t = .ok true t := by
  rw [ensureTable, bind_ok (readDirectory_ok sees), isPresent]
  rfl

/-- Without a frame for the table the call gives up. -/
theorem ensureTable_of_none (sees : Sees t pointer directory) (isRw isUser : Bool)
    (absent : (tablesOf t.memory directory slot).present = false)
    (exhausted : t.frames.allocate.1 = 0) :
    ensureTable pointer slot isRw isUser t =
      .ok false { t with frames := t.frames.allocate.2 } := by
  rw [ensureTable, bind_ok (readDirectory_ok sees), absent, if_neg Bool.false_ne_true,
    bind_ok (allocateFrame_ok t), if_pos exhausted]
  rfl

/-- Otherwise the slot gets a cleared table. -/
theorem ensureTable_spec {tables : Tables Frame EntryIndex Page} {frames : FrameAllocator}
    (pins : KernelPins Touched t pt1) (space : Pinned Touched t pointer directory)
    (becomes : Becomes s tables frames t) (isRw isUser : Bool)
    (absent : (tables directory slot).present = false) (touchedSlot : Touched directory slot)
    (allocated : frames.allocate.1 = frameAddress table) (notNull : frameAddress table ≠ 0)
    (touchedTable : ∀ index, Touched table index) :
    ∃ u closed, ensureTable pointer slot isRw isUser t = .ok true u ∧ closed.present = false ∧
      AgreesOff Touched t u ∧
      Becomes s (((tables.set directory slot
        (pointEntry isRw isUser (frameAddress table) (tables directory slot))).fill table (Page.decode 0)).set
          pt1 1023 closed) frames.allocate.2 u := by
  let link := pointEntry isRw isUser (frameAddress table)
  let allocatedMachine : Machine := { t with frames := t.frames.allocate.2 }
  have allocatedAgrees : AgreesOff Touched t allocatedMachine := ⟨rfl, fun _ _ _ => rfl⟩
  let linked := allocatedMachine.store directory slot link
  have linkedAgrees : AgreesOff Touched t linked :=
    allocatedAgrees.trans (AgreesOff.store touchedSlot allocatedMachine link)
  obtain ⟨opened, window, map, openedAgrees, openedBecomes, sees⟩ :=
    (pins.transport linkedAgrees).mapToTempWindow (becomes.allocate.store directory slot link) table
  have clearedAgrees := AgreesOff.clear touchedTable opened
  have clearedPins := ((pins.transport linkedAgrees).transport openedAgrees).transport clearedAgrees
  obtain ⟨u, closed, unmap, isClosed, closedAgrees, changed⟩ :=
    clearedPins.unmapTempWindow (openedBecomes.clear table)
  refine ⟨u, closed, ?_, isClosed,
    linkedAgrees.trans (openedAgrees.trans (clearedAgrees.trans closedAgrees)), ?_⟩
  · rw [← becomes.tables] at absent
    rw [← becomes.frames] at allocated
    have notZero : ¬ t.frames.allocate.1 = 0 := by rwa [allocated]
    rw [ensureTable, bind_ok (readDirectory_ok space.sees), absent, if_neg Bool.false_ne_true,
      bind_ok (allocateFrame_ok t), if_neg notZero, allocated,
      bind_ok (assignDirectory_ok (space.transport allocatedAgrees).sees _), bind_ok map,
      bind_ok (clearPage_ok sees), bind_ok unmap]
    rfl
  · rw [Tables.set_fill_set] at changed
    exact changed

/-! ## The search for a free page -/

/-- The result of a search over the slots: the first page that is not mapped. -/
inductive FirstUnmapped (tables : Tables Frame EntryIndex Page) (directory : Frame)
    (slots : List EntryIndex) : Option Nat → Prop where
  | full : (∀ slot ∈ slots, ∀ index, tables.walk directory slot index ≠ none) →
      FirstUnmapped tables directory slots none
  | found {front back : List EntryIndex} {slot index : EntryIndex} :
      slots = front ++ slot :: back →
      (∀ earlier ∈ front, ∀ page, tables.walk directory earlier page ≠ none) →
      (∀ earlier < index, tables.walk directory slot earlier ≠ none) →
      tables.walk directory slot index = none →
      FirstUnmapped tables directory slots (some (pageAddress slot index))

theorem FirstUnmapped.cons {tables : Tables Frame EntryIndex Page} {slots : List EntryIndex}
    {result : Option Nat} (mapped : ∀ index, tables.walk directory slot index ≠ none)
    (first : FirstUnmapped tables directory slots result) :
    FirstUnmapped tables directory (slot :: slots) result := by
  cases first with
  | full every =>
      refine .full fun other member => ?_
      cases List.mem_cons.mp member with
      | inl same => exact same ▸ mapped
      | inr member => exact every other member
  | @found front back other index split earlier lower unmapped =>
      have longer : slot :: slots = (slot :: front) ++ other :: back := by rw [split]; rfl
      refine .found longer ?_ lower unmapped
      intro before member
      cases List.mem_cons.mp member with
      | inl same => exact same ▸ mapped
      | inr member => exact earlier before member

theorem walk_of_table {tables : Tables Frame EntryIndex Page}
    (level : (tables directory slot).present = true)
    (number : (tables directory slot).frameAddr = table) :
    tables.walk directory slot index = none ↔ (tables table index).present = false := by
  subst number
  cases found : (tables (tables directory slot).frameAddr index).present with
  | true => simp [Tables.walk, level, found]
  | false => simp [Tables.walk, level, found]

theorem firstAbsent_eq_some {memory : Memory} (first : firstAbsent memory table = some index) :
    (tablesOf memory table index).present = false ∧
      ∀ earlier < index, (tablesOf memory table earlier).present = true := by
  obtain ⟨absent, before, after, split, earlierPresent⟩ := List.find?_eq_some_iff_append.mp first
  rw [Bool.not_eq_true'] at absent
  refine ⟨absent, fun earlier less => ?_⟩
  have sorted := (List.sortedLT_finRange 1024).pairwise
  have member := List.mem_finRange earlier
  rw [split] at sorted member
  rcases List.mem_append.mp member with member | member
  · have isPresent := earlierPresent earlier member
    rw [Bool.not_not] at isPresent
    exact isPresent
  · rcases List.mem_cons.mp member with rfl | member
    · exact absurd less (lt_irrefl _)
    · have later := (List.pairwise_cons.mp (List.pairwise_append.mp sorted).2.1).1 earlier member
      exact absurd less (lt_asymm later)

theorem firstAbsent_eq_none {memory : Memory} (full : firstAbsent memory table = none) :
    ∀ index, (tablesOf memory table index).present = true := by
  intro index
  have every := List.find?_eq_none.mp full index (List.mem_finRange index)
  rwa [Bool.not_eq_true', Bool.not_eq_false] at every

theorem findPage_ok (s : Machine) (table : Frame) :
    findPage table s = .ok (firstAbsent s.memory table) s := rfl

theorem findSlot_of_absent {slots : List EntryIndex} (sees : Sees s pointer directory)
    (absent : (tablesOf s.memory directory slot).present = false) :
    findSlot pointer (slot :: slots) s = .ok (some (pageAddress slot 0)) s := by
  rw [findSlot, bind_ok (readDirectory_ok sees), absent, Bool.not_false, if_pos rfl]
  rfl

section

variable {slots : List EntryIndex} {reached : Frame} (sees : Sees s pointer directory)
  (isPresent : (tablesOf s.memory directory slot).present = true)
  (number : (tablesOf s.memory directory slot).frameAddr = table)
  (seesTable : Sees s (frameAddress table) reached)

include sees isPresent number seesTable

theorem findSlot_of_some (first : firstAbsent s.memory reached = some index) :
    findSlot pointer (slot :: slots) s =
      .ok (some (pageAddress slot index)) (s.note table (some reached)) := by
  have same : (s.note table (some reached)).memory = s.memory := rfl
  rw [findSlot, bind_ok (readDirectory_ok sees), isPresent, Bool.not_true,
    if_neg Bool.false_ne_true, number, bind_ok (reachTable_ok seesTable), bind_ok (findPage_ok _ _),
    same, first]
  rfl

theorem findSlot_of_none (full : firstAbsent s.memory reached = none) :
    findSlot pointer (slot :: slots) s = findSlot pointer slots (s.note table (some reached)) := by
  have same : (s.note table (some reached)).memory = s.memory := rfl
  rw [findSlot, bind_ok (readDirectory_ok sees), isPresent, Bool.not_true,
    if_neg Bool.false_ne_true, number, bind_ok (reachTable_ok seesTable), bind_ok (findPage_ok _ _),
    same, full]

end

/-- A search that cannot reach a table ends in a page fault. -/
theorem findSlot_of_fault {slots : List EntryIndex} (sees : Sees s pointer directory)
    (isPresent : (tablesOf s.memory directory slot).present = true)
    (number : (tablesOf s.memory directory slot).frameAddr = table)
    (unmapped : Arch.translate s.memory s.kernelDirectory (frameAddress table) = none) :
    findSlot pointer (slot :: slots) s = .error ⟨frameAddress table⟩ (s.note table none) := by
  have noted : Arch.translate (s.note table none).memory (s.note table none).kernelDirectory
    (frameAddress table) = none := unmapped
  have fault : reachTable table s = .error ⟨frameAddress table⟩ (s.note table none) := by
    rw [reachTable_eq, unmapped, reach_error noted]
  rw [findSlot, bind_ok (readDirectory_ok sees), isPresent, Bool.not_true,
    if_neg Bool.false_ne_true, number, bind_error fault]

/-- A search that reaches every table it looks at finds the first page that is not mapped,
and changes nothing. -/
theorem findSlot_eq_ok {slots : List EntryIndex} {result : Option Nat}
    (sees : Sees s pointer directory) (run : findSlot pointer slots s = .ok result t) :
    ∃ accesses, t = s.notes accesses ∧ ((∀ access ∈ accesses, access.2 = some access.1) →
      FirstUnmapped (tablesOf s.memory) directory slots result) := by
  induction slots generalizing s with
  | nil =>
      cases run
      exact ⟨[], by simp [Machine.notes], fun _ => .full nofun⟩
  | cons slot slots ih =>
      cases level : (tablesOf s.memory directory slot).present with
      | false =>
          rw [findSlot_of_absent sees level] at run
          cases run
          refine ⟨[], by simp [Machine.notes], fun _ => ?_⟩
          exact .found (List.nil_append _).symm nofun
            (fun earlier less => absurd less (Fin.not_lt_zero earlier)) (Tables.walk_of_absent level)
      | true =>
          cases translated : Arch.translate s.memory s.kernelDirectory
              (frameAddress (tablesOf s.memory directory slot).frameAddr) with
          | none =>
              rw [findSlot_of_fault sees level rfl translated] at run
              cases run
          | some reached =>
              cases first : firstAbsent s.memory reached with
              | some index =>
                  rw [findSlot_of_some sees level rfl translated first] at run
                  cases run
                  refine ⟨_, rfl, fun faithful => ?_⟩
                  have table := Option.some.inj (faithful _ (List.mem_singleton.mpr rfl))
                  obtain ⟨absent, earlier⟩ := firstAbsent_eq_some first
                  refine .found (List.nil_append _).symm nofun (fun before less unmapped => ?_)
                    ((walk_of_table level table.symm).mpr absent)
                  have isPresent := earlier before less
                  rw [(walk_of_table level table.symm).mp unmapped] at isPresent
                  cases isPresent
              | none =>
                  rw [findSlot_of_none sees level rfl translated first] at run
                  have seesNoted : Sees (s.note (tablesOf s.memory directory slot).frameAddr
                    (some reached)) pointer directory := sees
                  obtain ⟨accesses, rfl, found⟩ := ih seesNoted run
                  refine ⟨_, s.notes_notes _ _, fun faithful => ?_⟩
                  have table := Option.some.inj (faithful _ (List.mem_append_left _
                    (List.mem_singleton.mpr rfl)))
                  refine (found fun access member =>
                    faithful access (List.mem_append_right _ member)).cons fun index unmapped => ?_
                  have isPresent := firstAbsent_eq_none first index
                  rw [(walk_of_table level table.symm).mp unmapped] at isPresent
                  cases isPresent

end KdbOS.Vmm
