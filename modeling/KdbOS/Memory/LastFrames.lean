import KdbOS.Memory.CodePages

/-! The last free frames. A new process takes one for its directory and one for its stack, and
without a further one `vmm_map_frame` fails. -/

set_option autoImplicit false

namespace KdbOS.Vmm

open Library Pmm Arch

variable {s t u : Machine} {directory frame stack : Frame} {table stackTable : Option Frame}
variable {pointer virtual window stackWindow physicalFrame : Nat}
variable {isRw isUser isWriteable cached : Bool}

/-! ## Counting the frames -/

theorem TakesPage.freeFrames_eq (takes : TakesPage s t virtual frame table) :
    (freeFrames s).ncard = (freeFrames t).ncard + 1 + table.toFinset.card := by
  have notTable : frame ∉ table.toFinset :=
    fun isTable => (takes.leastTable frame (Option.mem_toFinset.mp isTable)).1.2 rfl
  have same : freeFrames t = freeFrames s \ ↑(insert frame table.toFinset) := by
    ext other
    simp only [freeFrames, Set.mem_sdiff, Set.mem_ofPred_eq, takes.free other, Finset.mem_coe,
      Finset.mem_insert, Option.mem_toFinset, not_or]
    rfl
  have inside : (↑(insert frame table.toFinset) : Set Frame) ⊆ freeFrames s := by
    intro other member
    rcases Finset.mem_insert.mp (Finset.mem_coe.mp member) with rfl | isTable
    · exact takes.least.1
    · exact (takes.leastTable other (Option.mem_toFinset.mp isTable)).1.1
  have counted := Set.ncard_sdiff_add_ncard_of_subset inside
  rw [← same, Set.ncard_coe_finset, Finset.card_insert_of_notMem notTable] at counted
  omega

theorem card_toFinset_of_iff {isPresent : Bool} (withoutTable : table = none ↔ isPresent = true) :
    table.toFinset.card = if isPresent = false then 1 else 0 := by
  cases table with
  | none =>
      rw [withoutTable.mp rfl]
      rfl
  | some newTable =>
      cases isPresent with
      | false => rfl
      | true => exact nomatch withoutTable.mpr rfl

/-- The slots of the two pages that have no table. -/
def missingTables (s : Machine) (first second : Nat) : Finset EntryIndex :=
  ({directoryIndex first, directoryIndex second} : Finset EntryIndex).filter fun slot =>
    (tablesOf s.memory s.kernelDirectory slot).present = false

/-- The free frames suffice for the next two pages of the kernel, with their tables, and for
nothing else. -/
def LastTwoPages (s : Machine) : Prop :=
  ∃ first second, IsLowestUnmapped s first ∧
    IsLeast {address | address ∈ NewPageRange ∧ address ≠ first ∧
      walk s.memory s.kernelDirectory address = none} second ∧
    (freeFrames s).ncard = 2 + (missingTables s first second).card

/-- Pages of the kernel lie in one page only if they are the same. -/
theorem eq_of_samePage (range : virtual ∈ NewPageRange) (other : window ∈ NewPageRange)
    (slot : directoryIndex virtual = directoryIndex window)
    (index : pageIndex virtual = pageIndex window) : virtual = window := by
  rw [← (pageAddress_indices range).1, ← (pageAddress_indices other).1, slot, index]

namespace TakesPage

variable (takes : TakesPage s t virtual frame table)

include takes

/-- Another page is found as before. -/
theorem walk_of_ne (range : window ∈ NewPageRange) (different : window ≠ virtual) :
    walk t.memory t.kernelDirectory window = walk s.memory s.kernelDirectory window := by
  rw [takes.kernelDirectory]
  exact takes.walks _ _ (not_kernelSlot range) fun same =>
    different (eq_of_samePage range takes.lowest.1.1 same.1 same.2)

/-- The page after the one that is taken. -/
theorem second_of_lowest (next : IsLowestUnmapped t window) :
    IsLeast {address | address ∈ NewPageRange ∧ address ≠ virtual ∧
      walk s.memory s.kernelDirectory address = none} window := by
  have different : window ≠ virtual := by
    rintro rfl
    exact takes.isMapped next.1.2
  refine ⟨⟨next.1.1, different, ?_⟩, fun address unmapped => next.2 ⟨unmapped.1, ?_⟩⟩
  · rw [← takes.walk_of_ne next.1.1 different]
    exact next.1.2
  · rw [takes.walk_of_ne unmapped.1 unmapped.2.1]
    exact unmapped.2.2

/-- A slot has a table if it had one, or if it is the slot of the page. -/
theorem present_iff (slot : EntryIndex) :
    (tablesOf t.memory t.kernelDirectory slot).present = true ↔
      (tablesOf s.memory s.kernelDirectory slot).present = true ∨ slot = directoryIndex virtual := by
  by_cases here : slot = directoryIndex virtual
  · subst here
    exact iff_of_true takes.present (.inr rfl)
  · rw [takes.kernelDirectory, takes.entries slot (.inr here)]
    exact (or_iff_left here).symm

end TakesPage

theorem KeepsPages.isLowestUnmapped (keeps : KeepsPages s t) :
    IsLowestUnmapped t window ↔ IsLowestUnmapped s window := by
  have same : {address | address ∈ NewPageRange ∧ walk t.memory t.kernelDirectory address = none} =
      {address | address ∈ NewPageRange ∧ walk s.memory s.kernelDirectory address = none} := by
    ext address
    refine and_congr_right fun range => ?_
    rw [keeps.kernelDirectory, walk, keeps.walks _ _ (not_kernelSlot range)]
    rfl
  unfold IsLowestUnmapped
  rw [same]

/-- The page that has been given back is found again. -/
theorem GivesPage.isLowestUnmapped {made : Machine} (takes : TakesPage s made virtual frame table)
    (keeps : KeepsPages made t) (gives : GivesPage t u virtual) : IsLowestUnmapped u virtual := by
  have found : ∀ address ∈ NewPageRange, address ≠ virtual →
      walk u.memory u.kernelDirectory address = walk s.memory s.kernelDirectory address := by
    intro address range different
    rw [← takes.walk_of_ne range different, gives.kernelDirectory, keeps.kernelDirectory, walk, walk]
    have given := gives.walks (directoryIndex address) (pageIndex address) fun same =>
      different (eq_of_samePage range takes.lowest.1.1 same.1 same.2)
    rw [keeps.kernelDirectory] at given
    exact given.trans (keeps.walks _ _ (not_kernelSlot range))
  refine ⟨⟨takes.lowest.1.1, ?_⟩, fun address unmapped => ?_⟩
  · rw [gives.kernelDirectory]
    exact gives.unmapped
  · by_cases same : address = virtual
    · exact same.ge
    · refine takes.lowest.2 ⟨unmapped.1, ?_⟩
      rw [← found address unmapped.1 same]
      exact unmapped.2

/-- If nothing but the frame of a third page is missing, the frames sufficed for two. -/
theorem lastTwoPages {made read stacked filled : Machine}
    (first : TakesPage s made virtual frame table) (between : KeepsPages made read)
    (second : TakesPage read stacked window stack stackTable) (after : KeepsPages stacked filled)
    (gives : GivesPage filled t window) (starved : Starved t) : LastTwoPages s := by
  have next : IsLowestUnmapped made window := between.isLowestUnmapped.mp second.lowest
  have isPresent : (tablesOf t.memory t.kernelDirectory (directoryIndex window)).present = true := by
    rw [gives.kernelDirectory, gives.entries, after.kernelDirectory, after.entries]
    exact second.present
  have exhausted : freeFrames t = ∅ := Set.eq_empty_iff_forall_notMem.mpr fun frame free =>
    Bool.noConfusion ((starved window (gives.isLowestUnmapped second after) frame free).1.symm.trans
      isPresent)
  have none : (freeFrames stacked).ncard = 0 := by
    unfold freeFrames at exhausted ⊢
    rw [gives.frames, after.frames] at exhausted
    rw [exhausted, Set.ncard_empty]
  have same : freeFrames read = freeFrames made := by
    unfold freeFrames
    rw [between.frames]
  have taken := first.freeFrames_eq
  have takenNext := second.freeFrames_eq
  rw [same, none] at takenNext
  -- A table is taken for the first page, and for the second one if it lies in another slot.
  have isFirst := first.withoutTable
  have isSecond := second.withoutTable
  rw [between.kernelDirectory, between.entries, first.present_iff] at isSecond
  refine ⟨virtual, window, first.lowest, first.second_of_lowest next, ?_⟩
  have tables : (missingTables s virtual window).card =
      table.toFinset.card + stackTable.toFinset.card := by
    rw [missingTables, Finset.card_filter, card_toFinset_of_iff isFirst]
    by_cases sameSlot : directoryIndex virtual = directoryIndex window
    · rw [isSecond.mpr (.inr sameSlot.symm), sameSlot, Finset.pair_eq_singleton,
        Finset.sum_singleton, Option.toFinset_none, Finset.card_empty, Nat.add_zero]
    · rw [or_iff_left fun same => sameSlot same.symm] at isSecond
      rw [card_toFinset_of_iff isSecond, Finset.sum_pair sameSlot]
  omega

end KdbOS.Vmm
