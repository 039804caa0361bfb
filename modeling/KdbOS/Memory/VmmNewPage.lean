import KdbOS.Memory.BootPaging

/-! `vmm_get_new_page`: what it does to the translations of all address spaces. -/

set_option autoImplicit false

namespace KdbOS.Vmm

open Library Pmm Arch Kernel

variable {s t u : Machine} {directories : Set Frame} {directory frame : Frame}
variable {pointer virtual : Nat} {isRw isUser : Bool} {table : Option Frame}

/-- A page has been mapped in the directory, to a frame that was free. If its slot had no
table, another frame has become one. -/
structure NewPage (s t : Machine) (directories : Set Frame) (directory : Frame) (virtual : Nat)
    (isRw isUser : Bool) (frame : Frame) (table : Option Frame) : Prop where
  least : IsLeast {other | s.frames.Free other} frame
  withoutTable : table = none ↔
    (tablesOf s.memory directory (directoryIndex virtual)).present = true
  leastTable : ∀ newTable ∈ table, IsLeast {other | s.frames.Free other ∧ other ≠ frame} newTable
  free : ∀ other, t.frames.Free other ↔ s.frames.Free other ∧ other ≠ frame ∧ table ≠ some other
  kernelDirectory : t.kernelDirectory = s.kernelDirectory
  laid : Laid (tablesOf t.memory) t.kernelDirectory directories
  linked : ∀ other, (tablesOf t.memory).Linked directories other ↔
    (tablesOf s.memory).Linked directories other ∨ table = some other
  directoryEntry : ∀ newTable ∈ table, tablesOf t.memory directory (directoryIndex virtual) =
    pointEntry isRw isUser (frameAddress newTable)
      (tablesOf s.memory directory (directoryIndex virtual))
  entries : ∀ other ∈ directories, ∀ slot,
    table = none ∨ ¬ (other = directory ∧ slot = directoryIndex virtual) →
      tablesOf t.memory other slot = tablesOf s.memory other slot
  unlinked : ∀ other, ¬ (tablesOf s.memory).Linked directories other → table ≠ some other →
    tablesOf t.memory other = tablesOf s.memory other
  mapped : ∃ entry, walk t.memory directory virtual =
    some (pointEntry isRw isUser (frameAddress frame) entry)
  walks : ∀ other ∈ directories, ∀ slot index, ¬ WindowPage slot index →
    ¬ (slot = directoryIndex virtual ∧ index = pageIndex virtual) ∨
      other ≠ directory ∧ ¬ KernelSlot (directoryIndex virtual) →
      (tablesOf t.memory).walk other slot index = (tablesOf s.memory).walk other slot index
  tidy : TidyTables (tablesOf s.memory) directories → TidyTables (tablesOf t.memory) directories
  reached : Reached s t

/-- No page has been mapped, and no frame is free. -/
structure NoFrame (s t : Machine) : Prop where
  memory : t.memory = s.memory
  kernelDirectory : t.kernelDirectory = s.kernelDirectory
  reached : Reached s t
  exhausted : ∀ frame, ¬ t.frames.Free frame

/-- The pointers that `vmm_get_new_page` works with stay valid while the page is mapped. -/
structure Undisturbed (s : Machine) (directory : Frame) (space virtual : Nat) : Prop where
  kernelDirectory : Beside s directory virtual (frameAddress s.kernelDirectory)
  secondTable : Beside s directory virtual (frameAddress s.secondTable)
  space : Beside s directory virtual space
  window : ¬ WindowPage (directoryIndex virtual) (pageIndex virtual)

/-- The table of the slot is not that of the window's entry. -/
theorem PageStructures.table_apart (structures : PageStructures s directories)
    (member : directory ∈ directories)
    (isPresent : (tablesOf s.memory directory (directoryIndex virtual)).present = true)
    (outside : ¬ WindowPage (directoryIndex virtual) (pageIndex virtual)) :
    ¬ ((tablesOf s.memory directory (directoryIndex virtual)).frameAddr = s.secondTable ∧
      pageIndex virtual = 1023) := by
  rintro ⟨same, last⟩
  have slots := (structures.laid.separate.unique _ member _ structures.laid.kernel _ 1 isPresent
    structures.laid.isPresent same).1
  exact outside ⟨slots, last⟩

/-- Entering the page into the table that its slot has. -/
theorem mapNewPage_of_table (structures : PageStructures s directories)
    (member : directory ∈ directories) (space : Addresses s pointer directory)
    (undisturbed : Undisturbed s directory pointer virtual)
    (least : IsLeast {other | s.frames.Free other} frame)
    (allocated : s.frames.allocate.1 = frameAddress frame)
    (frees : ∀ other, s.frames.allocate.2.Free other ↔ s.frames.Free other ∧ other ≠ frame)
    (isPresent : (tablesOf s.memory directory (directoryIndex virtual)).present = true) :
    ∃ t, mapNewPage pointer isRw isUser virtual s = .ok virtual t ∧
      NewPage s t directories directory virtual isRw isUser frame none := by
  let allocatedMachine : Machine := { s with frames := s.frames.allocate.2 }
  have agrees : AgreesOff (NewPageCells s directory virtual) s allocatedMachine :=
    ⟨rfl, fun _ _ _ => rfl⟩
  have pins := (structures.pins member undisturbed.kernelDirectory
    undisturbed.secondTable).transport agrees
  have spacePin := (structures.pinned member space undisturbed.space).transport agrees
  have ensured : ensureTable pointer (directoryIndex virtual) isRw isUser allocatedMachine =
      .ok true allocatedMachine := ensureTable_of_present spacePin.sees isRw isUser isPresent
  obtain ⟨t, closed, install, _, _, becomes⟩ := installPage_spec pins spacePin
    (Becomes.refl s).allocate isRw isUser (frameAddress frame) rfl (.entry isPresent)
    (structures.table_apart member isPresent undisturbed.window)
  obtain ⟨tables, framesAfter, directoryAfter, reached⟩ := becomes
  have enters : Enters (tablesOf s.memory) (tablesOf t.memory) s.kernelDirectory directories
      directory (directoryIndex virtual) (pageIndex virtual)
      (pointEntry isRw isUser (frameAddress frame) (tablesOf s.memory
        (tablesOf s.memory directory (directoryIndex virtual)).frameAddr (pageIndex virtual))) := by
    rw [tables]
    exact structures.laid.enters member isPresent rfl rfl undisturbed.window rfl
  refine ⟨t, ?_, ?_⟩
  · have notZero : ¬ s.frames.allocate.1 = 0 := by
      rw [allocated]
      exact least.1.address_ne_zero
    rw [mapNewPage, bind_ok (allocateFrame_ok s), if_neg notZero, bind_ok ensured, allocated,
      Bool.not_true, if_neg Bool.false_ne_true, bind_ok install]
    rfl
  · exact {
      least := least
      withoutTable := iff_of_true rfl isPresent
      leastTable := nofun
      free := fun other => by
        rw [framesAfter, frees]
        simp
      kernelDirectory := directoryAfter
      laid := by
        rw [directoryAfter]
        exact enters.laid
      linked := fun other => by
        rw [enters.linked]
        simp
      directoryEntry := nofun
      entries := fun other otherMember slot _ => enters.entries other otherMember slot
      unlinked := fun other unlinked _ => enters.unlinked other unlinked
      mapped := ⟨_, enters.mapped⟩
      walks := enters.walks
      tidy := enters.tidy
      reached := reached }

/-- Linking a new table first. -/
theorem mapNewPage_of_newTable {newTable : Frame} (structures : PageStructures s directories)
    (member : directory ∈ directories) (space : Addresses s pointer directory)
    (undisturbed : Undisturbed s directory pointer virtual)
    (least : IsLeast {other | s.frames.Free other} frame)
    (allocated : s.frames.allocate.1 = frameAddress frame)
    (frees : ∀ other, s.frames.allocate.2.Free other ↔ s.frames.Free other ∧ other ≠ frame)
    (absent : (tablesOf s.memory directory (directoryIndex virtual)).present = false)
    (leastTable : IsLeast {other | s.frames.allocate.2.Free other} newTable)
    (allocatedTable : s.frames.allocate.2.allocate.1 = frameAddress newTable)
    (freesTable : ∀ other, s.frames.allocate.2.allocate.2.Free other ↔
      s.frames.allocate.2.Free other ∧ other ≠ newTable) :
    ∃ t, mapNewPage pointer isRw isUser virtual s = .ok virtual t ∧
      NewPage s t directories directory virtual isRw isUser frame (some newTable) := by
  have tableFree : s.frames.Free newTable := (frees newTable).mp leastTable.1 |>.1
  have fresh : ¬ (tablesOf s.memory).Linked directories newTable :=
    fun linked => structures.used newTable linked tableFree
  let allocatedMachine : Machine := { s with frames := s.frames.allocate.2 }
  have agrees : AgreesOff (NewPageCells s directory virtual) s allocatedMachine :=
    ⟨rfl, fun _ _ _ => rfl⟩
  have pins := (structures.pins member undisturbed.kernelDirectory
    undisturbed.secondTable).transport agrees
  have spacePin := (structures.pinned member space undisturbed.space).transport agrees
  obtain ⟨linked, opened, ensured, _, linkedAgrees, linkedBecomes⟩ := ensureTable_spec pins spacePin
    (Becomes.refl s).allocate isRw isUser absent (.link absent) allocatedTable
    leastTable.1.address_ne_zero (fun _ => .fresh tableFree)
  have links : Links (tablesOf s.memory) (tablesOf linked.memory) s.kernelDirectory directories
      directory (directoryIndex virtual) newTable (pointEntry isRw isUser (frameAddress newTable)
        (tablesOf s.memory directory (directoryIndex virtual))) := by
    rw [linkedBecomes.tables]
    exact structures.laid.links member absent rfl (frameOf_frameAddress newTable) rfl (fun _ => rfl) fresh
      rfl
  have second : (tablesOf linked.memory s.kernelDirectory 1).frameAddr = s.secondTable := by
    have apart : ¬ (s.kernelDirectory = directory ∧ 1 = directoryIndex virtual) := by
      rintro ⟨rfl, slots⟩
      rw [← slots] at absent
      exact Bool.noConfusion (absent.symm.trans structures.laid.isPresent)
    rw [links.entries _ structures.laid.kernel 1 apart]
    rfl
  have target : (tablesOf linked.memory directory (directoryIndex virtual)).frameAddr = newTable := by
    rw [links.entry]
    exact frameOf_frameAddress newTable
  have apartTable : ¬ (newTable = s.secondTable ∧ pageIndex virtual = 1023) := by
    rintro ⟨rfl, _⟩
    exact fresh structures.linked_secondTable
  obtain ⟨t, closed, install, _, _, becomes⟩ := installPage_spec (pins.transport linkedAgrees)
    (spacePin.transport linkedAgrees) linkedBecomes isRw isUser (frameAddress frame)
    (by rw [← linkedBecomes.tables]; exact target) (.fresh tableFree) apartTable
  obtain ⟨tables, framesAfter, directoryAfter, reached⟩ := becomes
  have isPresent : (tablesOf linked.memory directory (directoryIndex virtual)).present = true := by
    rw [links.entry]
    rfl
  have enters : Enters (tablesOf linked.memory) (tablesOf t.memory) s.kernelDirectory directories
      directory (directoryIndex virtual) (pageIndex virtual)
      (pointEntry isRw isUser (frameAddress frame)
        (tablesOf linked.memory newTable (pageIndex virtual))) := by
    rw [tables, ← linkedBecomes.tables]
    exact links.laid.enters member isPresent target rfl undisturbed.window second
  refine ⟨t, ?_, ?_⟩
  · have notZero : ¬ s.frames.allocate.1 = 0 := by
      rw [allocated]
      exact least.1.address_ne_zero
    rw [mapNewPage, bind_ok (allocateFrame_ok s), if_neg notZero, bind_ok ensured, allocated,
      Bool.not_true, if_neg Bool.false_ne_true, bind_ok install]
    rfl
  · exact {
      least := least
      withoutTable := iff_of_false nofun (by rw [absent]; exact Bool.false_ne_true)
      leastTable := fun other isTable => by
        obtain rfl := Option.some.inj isTable
        have same : {other | s.frames.Free other ∧ other ≠ frame} =
            {other | s.frames.allocate.2.Free other} := Set.ext fun other => (frees other).symm
        rw [same]
        exact leastTable
      free := fun other => by
        rw [framesAfter, freesTable, frees, and_assoc]
        refine and_congr_right fun _ => and_congr_right fun _ => not_congr ?_
        rw [Option.some.injEq]
        exact eq_comm
      kernelDirectory := directoryAfter
      laid := by
        rw [directoryAfter]
        exact enters.laid
      linked := fun other => by
        rw [enters.linked, links.linked, Option.some.injEq]
        exact or_congr Iff.rfl eq_comm
      directoryEntry := fun other isTable => by
        obtain rfl := Option.some.inj isTable
        rw [enters.entries directory member, links.entry]
      entries := fun other otherMember slot apart => by
        have elsewhere := apart.resolve_left nofun
        rw [enters.entries other otherMember, links.entries other otherMember slot elsewhere]
      unlinked := fun other unlinked different => by
        have notTable : other ≠ newTable := fun same => different (same ▸ rfl)
        have still : ¬ (tablesOf linked.memory).Linked directories other := by
          rw [links.linked]
          exact fun either => either.elim unlinked notTable
        rw [enters.unlinked other still, links.unlinked other unlinked notTable]
      mapped := ⟨_, enters.mapped⟩
      walks := fun other otherMember slot index outside apart =>
        (enters.walks other otherMember slot index outside apart).trans
          (links.walks other otherMember slot index outside)
      tidy := fun tidy => enters.tidy (links.tidy tidy)
      reached := reached }

/-- A page is mapped, or the allocator has run out of frames. -/
theorem mapNewPage_cases (structures : PageStructures s directories)
    (member : directory ∈ directories) (space : Addresses s pointer directory)
    (undisturbed : Undisturbed s directory pointer virtual) (isRw isUser : Bool) :
    (∃ t, mapNewPage pointer isRw isUser virtual s = .ok 0 t ∧ NoFrame s t) ∨
      ∃ t frame table, mapNewPage pointer isRw isUser virtual s = .ok virtual t ∧
        NewPage s t directories directory virtual isRw isUser frame table := by
  cases s.frames.allocate_cases with
  | inl full =>
      have run : mapNewPage pointer isRw isUser virtual s =
          .ok 0 { s with frames := s.frames.allocate.2 } := by
        rw [mapNewPage, bind_ok (allocateFrame_ok s), if_pos (by rw [full.1])]
        rfl
      refine .inl ⟨_, run, rfl, rfl, .of_eq rfl, fun frame free => ?_⟩
      rw [full.1] at free
      exact full.2 frame free
  | inr found =>
      obtain ⟨frame, least, allocated, frees⟩ := found
      cases level : (tablesOf s.memory directory (directoryIndex virtual)).present with
      | true =>
          obtain ⟨t, run, newPage⟩ := mapNewPage_of_table structures member space undisturbed least
            allocated frees level
          exact .inr ⟨t, frame, none, run, newPage⟩
      | false =>
          cases s.frames.allocate.2.allocate_cases with
          | inl full =>
              let allocatedMachine : Machine := { s with frames := s.frames.allocate.2 }
              have sees : Sees allocatedMachine pointer directory := space.sees
              have notZero : ¬ s.frames.allocate.1 = 0 := by
                rw [allocated]
                exact least.1.address_ne_zero
              have ensured := ensureTable_of_none sees isRw isUser level
                (by show s.frames.allocate.2.allocate.1 = 0; rw [full.1])
              have run : mapNewPage pointer isRw isUser virtual s =
                  .ok 0 { s with frames := s.frames.allocate.2.allocate.2 } := by
                rw [mapNewPage, bind_ok (allocateFrame_ok s), if_neg notZero, bind_ok ensured,
                  Bool.not_false, if_pos rfl]
                rfl
              refine .inl ⟨_, run, rfl, rfl, .of_eq rfl, fun other free => ?_⟩
              rw [full.1] at free
              exact full.2 other free
          | inr foundTable =>
              obtain ⟨newTable, leastTable, allocatedTable, freesTable⟩ := foundTable
              obtain ⟨t, run, newPage⟩ := mapNewPage_of_newTable structures member space undisturbed
                least allocated frees level leastTable allocatedTable freesTable
              exact .inr ⟨t, frame, some newTable, run, newPage⟩

/-! ## The structures afterwards -/

namespace NewPage

variable (newPage : NewPage s t directories directory virtual isRw isUser frame table)
  (structures : PageStructures s directories)

include newPage

/-- An entry of a directory that is present stays. -/
theorem entry_of_present {other : Frame} {slot : EntryIndex} (otherMember : other ∈ directories)
    (isPresent : (tablesOf s.memory other slot).present = true) :
    tablesOf t.memory other slot = tablesOf s.memory other slot := by
  refine newPage.entries other otherMember slot ?_
  by_cases here : other = directory ∧ slot = directoryIndex virtual
  · obtain ⟨rfl, rfl⟩ := here
    exact .inl (newPage.withoutTable.mpr isPresent)
  · exact .inr here

/-- Pointers beside the new page stay valid. -/
theorem addresses {address : Nat} {reached : Frame} (kernel : s.kernelDirectory ∈ directories)
    (addresses : Addresses s address reached) (beside : Beside s directory virtual address) :
    Addresses t address reached := by
  refine ⟨?_, addresses.apart⟩
  have sees := addresses.sees
  unfold Sees Arch.translate walk at *
  rw [newPage.kernelDirectory, newPage.walks _ kernel _ _ addresses.apart beside]
  exact sees

include structures

theorem secondTable : t.secondTable = s.secondTable := by
  unfold Machine.secondTable
  rw [newPage.kernelDirectory,
    newPage.entry_of_present structures.laid.kernel structures.laid.isPresent]

theorem pageStructures
    (besideDirectory : Beside s directory virtual (frameAddress s.kernelDirectory))
    (besideTable : Beside s directory virtual (frameAddress s.secondTable)) :
    PageStructures t directories where
  laid := newPage.laid
  used := by
    intro other linked free
    obtain ⟨before, _, notTable⟩ := (newPage.free other).mp free
    exact ((newPage.linked other).mp linked).elim (fun old => structures.used other old before)
      notTable
  kernelDirectory := by
    rw [newPage.kernelDirectory]
    exact newPage.addresses structures.laid.kernel structures.kernelDirectory besideDirectory
  secondTable := by
    rw [newPage.secondTable structures]
    exact newPage.addresses structures.laid.kernel structures.secondTable besideTable

end NewPage

/-! ## The search -/

/-- The search reaches the tables of these slots. -/
def TablesReachable (s : Machine) (directory : Frame) (slots : List EntryIndex) : Prop :=
  ∀ slot ∈ slots, (tablesOf s.memory directory slot).present = true →
    Sees s (frameAddress (tablesOf s.memory directory slot).frameAddr)
      (tablesOf s.memory directory slot).frameAddr

/-- Where the tables are reachable the search comes to an end. -/
theorem findSlot_ok {slots : List EntryIndex} (sees : Sees s pointer directory)
    (reachable : TablesReachable s directory slots) :
    ∃ result accesses, findSlot pointer slots s = .ok result (s.notes accesses) ∧
      ∀ access ∈ accesses, access.2 = some access.1 := by
  induction slots generalizing s with
  | nil => exact ⟨none, [], by rw [findSlot, Machine.notes, List.append_nil]; rfl, nofun⟩
  | cons slot slots ih =>
      cases level : (tablesOf s.memory directory slot).present with
      | false =>
          refine ⟨some (pageAddress slot 0), [], ?_, nofun⟩
          rw [findSlot_of_absent sees level, Machine.notes, List.append_nil]
      | true =>
          have seesTable := reachable slot List.mem_cons_self level
          cases first : firstAbsent s.memory (tablesOf s.memory directory slot).frameAddr with
          | some index =>
              refine ⟨_, _, findSlot_of_some sees level rfl seesTable first, fun access member => ?_⟩
              rw [List.mem_singleton.mp member]
          | none =>
              have seesNoted : Sees (s.note (tablesOf s.memory directory slot).frameAddr
                (some (tablesOf s.memory directory slot).frameAddr)) pointer directory := sees
              obtain ⟨result, accesses, run, reached⟩ := ih seesNoted
                fun other member => reachable other (List.mem_cons_of_mem _ member)
              refine ⟨result, [((tablesOf s.memory directory slot).frameAddr,
                some (tablesOf s.memory directory slot).frameAddr)] ++ accesses, ?_,
                fun access member => ?_⟩
              · rw [findSlot_of_none sees level rfl seesTable first, run]
                exact congrArg _ (s.notes_notes _ _)
              · cases List.mem_append.mp member with
                | inl member => rw [List.mem_singleton.mp member]
                | inr member => exact reached access member

/-- The pages that `vmm_get_new_page` chooses from. -/
def NewPageRange : Set Nat :=
  {address | address % 4096 = 0 ∧ 0x00800000 ≤ address ∧ address < 0x100000000 ∧
    ¬ (0xC0000000 ≤ address ∧ address < 0xC0800000)}

theorem mem_searchSlots {slot : EntryIndex} :
    slot ∈ searchSlots ↔ 2 ≤ slot.val ∧ ¬ (slot.val = 768 ∨ slot.val = 769) := by
  rw [searchSlots, List.mem_filter, decide_eq_true_iff]
  exact and_iff_right (List.mem_finRange slot)

theorem pageAddress_indices {address : Nat} (range : address ∈ NewPageRange) :
    pageAddress (directoryIndex address) (pageIndex address) = address ∧
      directoryIndex address ∈ searchSlots := by
  obtain ⟨aligned, lower, upper, outside⟩ := range
  rw [mem_searchSlots]
  unfold pageAddress directoryIndex pageIndex
  simp only [Fin.val_ofNat]
  omega

theorem directoryIndex_pageAddress (slot index : EntryIndex) :
    directoryIndex (pageAddress slot index) = slot := by
  have slotLt := slot.isLt
  have indexLt := index.isLt
  unfold directoryIndex pageAddress
  rw [Fin.ext_iff, Fin.val_ofNat]
  omega

theorem pageIndex_pageAddress (slot index : EntryIndex) :
    pageIndex (pageAddress slot index) = index := by
  have slotLt := slot.isLt
  have indexLt := index.isLt
  unfold pageIndex pageAddress
  rw [Fin.ext_iff, Fin.val_ofNat]
  omega

theorem pageAddress_mem {slot index : EntryIndex} (member : slot ∈ searchSlots) :
    pageAddress slot index ∈ NewPageRange := by
  rw [mem_searchSlots] at member
  have slotLt := slot.isLt
  have indexLt := index.isLt
  unfold NewPageRange pageAddress
  rw [Set.mem_ofPred_eq]
  omega

/-- The search finds the lowest page that is not mapped, or every page is mapped. -/
theorem FirstUnmapped.isLeast {result : Option Nat}
    (first : FirstUnmapped (tablesOf s.memory) directory searchSlots result) :
    match result with
    | none => ∀ address ∈ NewPageRange, walk s.memory directory address ≠ none
    | some virtual =>
        IsLeast {address | address ∈ NewPageRange ∧ walk s.memory directory address = none}
          virtual := by
  cases first with
  | full mapped =>
      intro address range
      exact mapped _ (pageAddress_indices range).2 _
  | @found front back slot index split earlier lower unmapped =>
      have member : slot ∈ searchSlots := by
        rw [split]
        exact List.mem_append_right _ List.mem_cons_self
      refine ⟨⟨pageAddress_mem member, ?_⟩, ?_⟩
      · rw [walk, directoryIndex_pageAddress, pageIndex_pageAddress]
        exact unmapped
      · rintro address ⟨range, absent⟩
        obtain ⟨same, candidate⟩ := pageAddress_indices range
        have sorted : searchSlots.Pairwise (· < ·) :=
          (List.sortedLT_finRange 1024).pairwise.filter _
        rw [split] at candidate sorted
        rw [← same]
        unfold pageAddress
        have pageLt := (pageIndex address).isLt
        have indexLt := index.isLt
        rcases List.mem_append.mp candidate with before | member
        · exact absurd absent (earlier _ before _)
        · rcases List.mem_cons.mp member with here | after
          · have notLower : ¬ pageIndex address < index := fun less =>
              lower _ less (here ▸ absent)
            rw [here]
            have := Fin.not_lt.mp notLower
            rw [Fin.le_def] at this
            omega
          · have later := (List.pairwise_cons.mp (List.pairwise_append.mp sorted).2.1).1 _ after
            rw [Fin.lt_def] at later
            omega

/-! ## The call with NULL -/

/-- The page that the search has found is beside every pointer. -/
theorem Beside.of_unmapped {address : Nat} {reached : Frame} (sees : Sees s address reached)
    (unmapped : walk s.memory directory virtual = none)
    (high : ¬ KernelSlot (directoryIndex virtual)) : Beside s directory virtual address := by
  by_cases same : SamePage address virtual
  · refine .inr ⟨?_, high⟩
    rintro rfl
    unfold Sees Arch.translate walk at sees
    rw [same.1, same.2] at sees
    unfold walk at unmapped
    rw [unmapped] at sees
    cases sees
  · exact .inl same

theorem not_kernelSlot (range : virtual ∈ NewPageRange) : ¬ KernelSlot (directoryIndex virtual) := by
  have candidate := (mem_searchSlots.mp (pageAddress_indices range).2).1
  unfold KernelSlot
  omega

theorem not_windowPage (range : virtual ∈ NewPageRange) :
    ¬ WindowPage (directoryIndex virtual) (pageIndex virtual) := by
  intro window
  have candidate := (mem_searchSlots.mp (pageAddress_indices range).2).1
  rw [window.1] at candidate
  omega

theorem PageStructures.undisturbed (structures : PageStructures s directories)
    (space : Addresses s pointer directory) (range : virtual ∈ NewPageRange)
    (unmapped : walk s.memory directory virtual = none) :
    Undisturbed s directory pointer virtual :=
  ⟨.of_unmapped structures.kernelDirectory.sees unmapped (not_kernelSlot range),
    .of_unmapped structures.secondTable.sees unmapped (not_kernelSlot range),
    .of_unmapped space.sees unmapped (not_kernelSlot range), not_windowPage range⟩

/-- What `vmm_get_new_page` without an explicit address returns and leaves. -/
inductive NewPageResult (s : Machine) (directories : Set Frame) (directory : Frame)
    (isRw isUser : Bool) : Nat → Machine → Prop where
  | full {accesses : List (Frame × Option Frame)} :
      (∀ address ∈ NewPageRange, walk s.memory directory address ≠ none) →
      (∀ access ∈ accesses, access.2 = some access.1) →
      NewPageResult s directories directory isRw isUser 0 (s.notes accesses)
  | exhausted {t : Machine} :
      NoFrame s t → NewPageResult s directories directory isRw isUser 0 t
  | mapped {t : Machine} {virtual : Nat} {frame : Frame} {table : Option Frame} :
      IsLeast {address | address ∈ NewPageRange ∧ walk s.memory directory address = none} virtual →
      NewPage s t directories directory virtual isRw isUser frame table →
      NewPageResult s directories directory isRw isUser virtual t

theorem Addresses.notes (space : Addresses s pointer directory)
    (accesses : List (Frame × Option Frame)) : Addresses (s.notes accesses) pointer directory :=
  ⟨space.sees, space.apart⟩

theorem PageStructures.notes (structures : PageStructures s directories)
    (accesses : List (Frame × Option Frame)) : PageStructures (s.notes accesses) directories :=
  ⟨structures.laid, structures.used, structures.kernelDirectory.notes accesses,
    structures.secondTable.notes accesses⟩

theorem vmmGetNewPage_of_none {accesses : List (Frame × Option Frame)}
    (search : findSlot pointer searchSlots s = .ok none (s.notes accesses)) :
    vmmGetNewPage pointer isRw isUser 0 s = .ok 0 (s.notes accesses) := by
  rw [vmmGetNewPage, if_neg (fun notNull => notNull rfl), bind_ok search]
  rfl

theorem vmmGetNewPage_of_some {accesses : List (Frame × Option Frame)}
    (search : findSlot pointer searchSlots s = .ok (some virtual) (s.notes accesses)) :
    vmmGetNewPage pointer isRw isUser 0 s =
      mapNewPage pointer isRw isUser virtual (s.notes accesses) := by
  rw [vmmGetNewPage, if_neg (fun notNull => notNull rfl), bind_ok search]

namespace NoFrame

variable (noFrame : NoFrame s t)

include noFrame

theorem addresses {address : Nat} {reached : Frame} (addresses : Addresses s address reached) :
    Addresses t address reached := by
  refine ⟨?_, addresses.apart⟩
  have sees := addresses.sees
  unfold Sees at *
  rw [noFrame.memory, noFrame.kernelDirectory]
  exact sees

theorem pageStructures (structures : PageStructures s directories) :
    PageStructures t directories where
  laid := by
    rw [noFrame.memory, noFrame.kernelDirectory]
    exact structures.laid
  used := fun frame _ => noFrame.exhausted frame
  kernelDirectory := by
    rw [noFrame.kernelDirectory]
    exact noFrame.addresses structures.kernelDirectory
  secondTable := by
    have same : t.secondTable = s.secondTable := by
      unfold Machine.secondTable
      rw [noFrame.memory, noFrame.kernelDirectory]
    rw [same]
    exact noFrame.addresses structures.secondTable

end NoFrame

namespace NewPageResult

variable {result : Nat} (newPageResult : NewPageResult s directories directory isRw isUser result t)
  (structures : PageStructures s directories)

include newPageResult structures

/-- Pointers that are valid before the call are valid after it. -/
theorem addresses {address : Nat} {reached : Frame} (addresses : Addresses s address reached) :
    Addresses t address reached := by
  cases newPageResult with
  | full => exact addresses.notes _
  | exhausted noFrame => exact noFrame.addresses addresses
  | mapped least newPage =>
      exact newPage.addresses structures.laid.kernel addresses
        (.of_unmapped addresses.sees least.1.2 (not_kernelSlot least.1.1))

theorem pageStructures : PageStructures t directories := by
  cases newPageResult with
  | full => exact structures.notes _
  | exhausted noFrame => exact noFrame.pageStructures structures
  | mapped least newPage =>
      exact newPage.pageStructures structures
        (.of_unmapped structures.kernelDirectory.sees least.1.2 (not_kernelSlot least.1.1))
        (.of_unmapped structures.secondTable.sees least.1.2 (not_kernelSlot least.1.1))

end NewPageResult

/-- The call after a search that reached its tables. -/
theorem vmmGetNewPage_of_search {result : Option Nat} {accesses : List (Frame × Option Frame)}
    (structures : PageStructures s directories) (member : directory ∈ directories)
    (space : Addresses s pointer directory) 
    (search : findSlot pointer searchSlots s = .ok result (s.notes accesses))
    (reached : ∀ access ∈ accesses, access.2 = some access.1) (isRw isUser : Bool) :
    ∃ virtual t, vmmGetNewPage pointer isRw isUser 0 s = .ok virtual t ∧
      NewPageResult s directories directory isRw isUser virtual t := by
  obtain ⟨others, same, found⟩ := findSlot_eq_ok space.sees search
  have equal : accesses = others :=
    List.append_cancel_left (congrArg Machine.direct same)
  subst equal
  have first := (found reached).isLeast
  cases result with
  | none => exact ⟨0, _, vmmGetNewPage_of_none search, .full first reached⟩
  | some virtual =>
      have start : vmmGetNewPage pointer isRw isUser 0 s =
        mapNewPage pointer isRw isUser virtual (s.notes accesses) := vmmGetNewPage_of_some search
      have notedStructures := structures.notes accesses
      have notedSpace := space.notes accesses
      cases mapNewPage_cases notedStructures member notedSpace
          (notedStructures.undisturbed notedSpace first.1.1 first.1.2) isRw isUser with
      | inl none =>
          obtain ⟨t, run, noFrame⟩ := none
          exact ⟨0, t, start.trans run, .exhausted ⟨noFrame.memory, noFrame.kernelDirectory,
            (Reached.notes reached).trans noFrame.reached, noFrame.exhausted⟩⟩
      | inr some =>
          obtain ⟨t, frame, table, run, newPage⟩ := some
          exact ⟨virtual, t, start.trans run, .mapped first
            { newPage with reached := (Reached.notes reached).trans newPage.reached }⟩

/-- Where the tables of the address space are reachable, the call returns. -/
theorem vmmGetNewPage_cases (structures : PageStructures s directories)
    (member : directory ∈ directories) (space : Addresses s pointer directory)
    (reachable : TablesReachable s directory searchSlots) (isRw isUser : Bool) :
    ∃ virtual t, vmmGetNewPage pointer isRw isUser 0 s = .ok virtual t ∧
      NewPageResult s directories directory isRw isUser virtual t := by
  obtain ⟨result, accesses, search, reached⟩ := findSlot_ok space.sees reachable
  exact vmmGetNewPage_of_search structures member space search reached isRw isUser

/-- The lowest page that is not mapped is mapped to a fresh frame, and nothing else
changes; NULL says that there is no such page or no frame. -/
theorem vmmGetNewPage_lowest (structures : PageStructures s {s.kernelDirectory, directory})
    (space : Addresses s pointer directory)
    (reachable : TablesReachable s directory searchSlots) (isRw isUser : Bool) :
    ∃ virtual t, vmmGetNewPage pointer isRw isUser 0 s = .ok virtual t ∧
      (virtual ≠ 0 →
        IsLeast {address | address ∈ NewPageRange ∧ walk s.memory directory address = none}
          virtual ∧
        (∃ frame entry, s.frames.Free frame ∧ ¬ t.frames.Free frame ∧
          walk t.memory directory virtual =
            some (pointEntry isRw isUser (frameAddress frame) entry)) ∧
        ∀ address, ¬ SamePage address virtual → ¬ SamePage address vmmTempWindowVirtual →
          walk t.memory directory address = walk s.memory directory address ∧
            (walk s.memory directory address ≠ none →
              tablesOf t.memory directory (directoryIndex address) =
                tablesOf s.memory directory (directoryIndex address))) ∧
      (virtual = 0 →
        (∀ address ∈ NewPageRange, walk s.memory directory address ≠ none) ∨
          ∀ frame, ¬ t.frames.Free frame) := by
  have member : directory ∈ ({s.kernelDirectory, directory} : Set Frame) := .inr rfl
  obtain ⟨virtual, t, run, result⟩ :=
    vmmGetNewPage_cases structures member space reachable isRw isUser
  refine ⟨virtual, t, run, ?_, ?_⟩
  · intro notNull
    cases result with
    | full => exact absurd rfl notNull
    | exhausted => exact absurd rfl notNull
    | @mapped _ _ frame table least newPage =>
        obtain ⟨entry, mapped⟩ := newPage.mapped
        refine ⟨least, ⟨frame, entry, newPage.least.1, ?_, mapped⟩, fun address apart outside => ?_⟩
        · exact fun free => ((newPage.free frame).mp free).2.1 rfl
        · refine ⟨newPage.walks directory member _ _ outside (.inl apart), fun wasMapped => ?_⟩
          refine newPage.entry_of_present member ?_
          by_contra absent
          exact wasMapped (Tables.walk_of_absent (Bool.not_eq_true _ ▸ absent))
  · rintro rfl
    cases result with
    | full mapped => exact .inl mapped
    | exhausted noFrame => exact .inr noFrame.exhausted
    | mapped least => exact absurd least.1.1.2.1 (by decide)

/-- The first page of the machine after boot is at 8 MiB. -/
theorem vmmGetNewPage_lowest_sample :
    ∃ virtual t,
      vmmGetNewPage (frameAddress sampleMachine.kernelDirectory) true false 0 sampleMachine =
        .ok virtual t ∧ (virtual ≠ 0 → virtual = 0x00800000) := by
  obtain ⟨_, _, _, _, _, booted⟩ := sampleMachine_booted
  have structures : PageStructures sampleMachine
      {sampleMachine.kernelDirectory, sampleMachine.kernelDirectory} := by
    rw [Set.pair_eq_singleton]
    exact booted.pageStructures
  have reachable : TablesReachable sampleMachine sampleMachine.kernelDirectory searchSlots := by
    intro slot candidate isPresent
    have high : ¬ KernelSlot slot := Nat.not_lt.mpr (mem_searchSlots.mp candidate).1
    rw [booted.absent_of_high high] at isPresent
    cases isPresent
  obtain ⟨virtual, t, run, mapped, _⟩ :=
    vmmGetNewPage_lowest structures structures.kernelDirectory reachable true false
  refine ⟨virtual, t, run, fun notNull => ?_⟩
  have least := (mapped notNull).1
  refine Nat.le_antisymm (least.2 ⟨by unfold NewPageRange; decide, ?_⟩) least.1.1.2.1
  exact Tables.walk_of_absent (booted.absent_of_high (by unfold KernelSlot; decide))

end KdbOS.Vmm
