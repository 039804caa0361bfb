import KdbOS.Memory.VmmAccesses

/-! What the calls of the virtual memory manager keep while their pages lie outside the
first 8 MiB: the roles of the frames, the tables without left-over frame numbers, and the
kernel's first 8 MiB. -/

set_option autoImplicit false

namespace KdbOS.Vmm

open Library Pmm Arch

variable {start s t u : Machine} {directories fewer : Set Frame} {directory frame : Frame}
variable {pointer virtual : Nat} {isRw isUser : Bool}

/-! ## The first 8 MiB -/

/-- The tables of the first 8 MiB are where they were, with the same pages, apart from that
of the temporary window. -/
structure LowKept (s t : Machine) : Prop where
  kernelDirectory : t.kernelDirectory = s.kernelDirectory
  entries : ∀ slot, KernelSlot slot →
    tablesOf t.memory s.kernelDirectory slot = tablesOf s.memory s.kernelDirectory slot
  walks : ∀ slot index, KernelSlot slot → ¬ WindowPage slot index →
    (tablesOf t.memory).walk s.kernelDirectory slot index =
      (tablesOf s.memory).walk s.kernelDirectory slot index

namespace LowKept

theorem refl (s : Machine) : LowKept s s := ⟨rfl, fun _ _ => rfl, fun _ _ _ _ => rfl⟩

theorem trans (first : LowKept s t) (second : LowKept t u) : LowKept s u where
  kernelDirectory := second.kernelDirectory.trans first.kernelDirectory
  entries slot low := by
    have after := second.entries slot low
    rw [first.kernelDirectory] at after
    exact after.trans (first.entries slot low)
  walks slot index low outside := by
    have after := second.walks slot index low outside
    rw [first.kernelDirectory] at after
    exact after.trans (first.walks slot index low outside)

theorem secondTable (kept : LowKept s t) : t.secondTable = s.secondTable := by
  unfold Machine.secondTable
  rw [kept.kernelDirectory, kept.entries 1 (by unfold KernelSlot; decide)]

theorem addresses (kept : LowKept s t) (addresses : Addresses s pointer frame)
    (low : KernelSlot (directoryIndex pointer)) : Addresses t pointer frame :=
  addresses.of_walk kept.kernelDirectory (kept.walks _ _ low addresses.apart)

end LowKept

/-- A page of the first 8 MiB is not the page of a higher slot. -/
theorem not_page_of_low {slot index : EntryIndex} (low : KernelSlot slot)
    (high : ¬ KernelSlot (directoryIndex virtual)) :
    ¬ (slot = directoryIndex virtual ∧ index = pageIndex virtual) :=
  fun same => high (same.1 ▸ low)

theorem WindowUsed.lowKept (used : WindowUsed s t) (structures : PageStructures s directories) :
    LowKept s t where
  kernelDirectory := used.kernelDirectory
  entries _ _ := used.entries structures structures.laid.kernel
  walks _ _ _ outside := used.walks structures structures.laid.kernel outside

theorem FrameWritten.lowKept (written : FrameWritten s t frame)
    (structures : PageStructures s directories)
    (unlinked : ¬ (tablesOf s.memory).Linked directories frame) : LowKept s t where
  kernelDirectory := written.kernelDirectory
  entries _ _ := by rw [written.agree unlinked _ (.of_directory structures.laid.kernel)]
  walks _ _ _ _ := written.walks unlinked structures.laid.kernel

theorem PageChanged.lowKept {page : Option Page}
    (changed : PageChanged s t directories directory virtual page)
    (structures : PageStructures s directories) (high : ¬ KernelSlot (directoryIndex virtual)) :
    LowKept s t where
  kernelDirectory := changed.kernelDirectory
  entries slot _ := changed.tables.entries _ structures.laid.kernel slot
  walks slot index low _ :=
    changed.tables.walks _ structures.laid.kernel slot index (.inl (not_page_of_low low high))

theorem NewPage.lowKept {table : Option Frame}
    (newPage : NewPage s t directories directory virtual isRw isUser frame table)
    (structures : PageStructures s directories) (high : ¬ KernelSlot (directoryIndex virtual)) :
    LowKept s t where
  kernelDirectory := newPage.kernelDirectory
  entries slot low := newPage.entries _ structures.laid.kernel slot
    (.inr fun same => high (same.2 ▸ low))
  walks slot index low outside := newPage.walks _ structures.laid.kernel slot index outside
    (.inl (not_page_of_low low high))

theorem NewPageResult.lowKept {result : Nat}
    (newPageResult : NewPageResult s directories directory isRw isUser result t)
    (structures : PageStructures s directories) : LowKept s t := by
  cases newPageResult with
  | full => exact ⟨rfl, fun _ _ => rfl, fun _ _ _ _ => rfl⟩
  | exhausted noFrame =>
      refine ⟨noFrame.kernelDirectory, fun slot _ => ?_, fun slot index _ _ => ?_⟩
      · rw [noFrame.memory]
      · rw [noFrame.memory]
  | mapped least newPage => exact newPage.lowKept structures (not_kernelSlot least.1.1)

theorem NewTable.lowKept {slot : EntryIndex} {window : Nat} {newTable : Frame}
    {table : Option Frame}
    (made : NewTable s t directories directory slot isUser window newTable table)
    (structures : PageStructures s directories) (high : ¬ KernelSlot slot) : LowKept s t := by
  have windowHigh := not_kernelSlot made.leastWindow.1.1
  exact {
    kernelDirectory := made.kernelDirectory
    entries := fun position low => made.entries _ structures.laid.kernel position
      (fun same => high (same.2 ▸ low)) (.inr fun same => windowHigh (same.2 ▸ low))
    walks := fun position index low outside => made.walks _ structures.laid.kernel position index
      outside (fun same => high (same.2 ▸ low)) fun same => windowHigh (same.2.1 ▸ low) }

theorem MapFrameResult.lowKept {physicalFrame : Nat} {isWriteable answer : Bool}
    (result : MapFrameResult s directories directory virtual physicalFrame isWriteable isUser answer
      t) (structures : PageStructures s directories)
    (high : ¬ KernelSlot (directoryIndex virtual)) : LowKept s t := by
  cases result with
  | failed _ newPage => exact newPage.lowKept structures
  | entered _ changed => exact changed.lowKept structures high
  | created absent made changed =>
      exact (made.lowKept structures high).trans
        (changed.lowKept (made.pageStructures structures absent) high)

/-! ## Left-over frame numbers -/

theorem NewPageResult.tidy {result : Nat}
    (newPageResult : NewPageResult s directories directory isRw isUser result t)
    (tidy : TidyTables (tablesOf s.memory) directories) :
    TidyTables (tablesOf t.memory) directories := by
  cases newPageResult with
  | full => exact tidy
  | exhausted noFrame =>
      rw [noFrame.memory]
      exact tidy
  | mapped _ newPage => exact newPage.tidy tidy

theorem MapFrameResult.tidy {physicalFrame : Nat} {isWriteable answer : Bool}
    (result : MapFrameResult s directories directory virtual physicalFrame isWriteable isUser answer
      t) (tidy : TidyTables (tablesOf s.memory) directories) :
    TidyTables (tablesOf t.memory) directories := by
  cases result with
  | failed _ newPage => exact newPage.tidy tidy
  | entered _ changed => exact changed.tables.tidy tidy
  | created _ made changed => exact changed.tables.tidy (made.tidy tidy)

/-! ## The invariant -/

/-- Since `start` the structures have stayed in order. -/
structure Sound (start s : Machine) (directories : Set Frame) : Prop where
  structures : PageStructures s directories
  tidy : TidyTables (tablesOf s.memory) directories
  low : LowKept start s
  lowDirectory : KernelSlot (directoryIndex (frameAddress s.kernelDirectory))
  lowTable : KernelSlot (directoryIndex (frameAddress s.secondTable))

namespace Sound

variable (sound : Sound start s directories)

include sound

theorem kernel : s.kernelDirectory ∈ directories := sound.structures.laid.kernel

theorem of_effect (structures : PageStructures t directories)
    (tidy : TidyTables (tablesOf t.memory) directories) (kept : LowKept s t) :
    Sound start t directories where
  structures := structures
  tidy := tidy
  low := sound.low.trans kept
  lowDirectory := by
    rw [kept.kernelDirectory]
    exact sound.lowDirectory
  lowTable := by
    rw [kept.secondTable]
    exact sound.lowTable

theorem beside_kernelDirectory (high : ¬ KernelSlot (directoryIndex virtual)) :
    Beside s directory virtual (frameAddress s.kernelDirectory) :=
  .inl fun same => high (same.1 ▸ sound.lowDirectory)

theorem beside_secondTable (high : ¬ KernelSlot (directoryIndex virtual)) :
    Beside s directory virtual (frameAddress s.secondTable) :=
  .inl fun same => high (same.1 ▸ sound.lowTable)

theorem newPage {result : Nat}
    (newPageResult : NewPageResult s directories directory isRw isUser result t) :
    Sound start t directories :=
  sound.of_effect (newPageResult.pageStructures sound.structures) (newPageResult.tidy sound.tidy)
    (newPageResult.lowKept sound.structures)

/-- A page that the caller has chosen. -/
theorem chosenPage {table : Option Frame}
    (newPage : NewPage s t directories directory virtual isRw isUser frame table)
    (high : ¬ KernelSlot (directoryIndex virtual)) : Sound start t directories :=
  sound.of_effect (newPage.pageStructures sound.structures (sound.beside_kernelDirectory high)
    (sound.beside_secondTable high)) (newPage.tidy sound.tidy)
    (newPage.lowKept sound.structures high)

theorem windowUsed (used : WindowUsed s t) : Sound start t directories :=
  sound.of_effect (used.pageStructures sound.structures) (used.tidy sound.structures sound.tidy)
    (used.lowKept sound.structures)

theorem written (written : FrameWritten s t frame)
    (unlinked : ¬ (tablesOf s.memory).Linked directories frame) : Sound start t directories :=
  sound.of_effect (written.pageStructures sound.structures unlinked)
    (written.tidy unlinked sound.tidy) (written.lowKept sound.structures unlinked)

theorem pageChanged {page : Option Page}
    (changed : PageChanged s t directories directory virtual page)
    (high : ¬ KernelSlot (directoryIndex virtual)) : Sound start t directories :=
  sound.of_effect (changed.pageStructures sound.structures (sound.beside_kernelDirectory high)
    (sound.beside_secondTable high)) (changed.tables.tidy sound.tidy)
    (changed.lowKept sound.structures high)

theorem mapFrame {physicalFrame : Nat} {isWriteable answer : Bool}
    (result : MapFrameResult s directories directory virtual physicalFrame isWriteable isUser answer
      t) (high : ¬ KernelSlot (directoryIndex virtual)) : Sound start t directories :=
  sound.of_effect (result.pageStructures sound.structures (sound.beside_kernelDirectory high)
    (sound.beside_secondTable high)) (result.tidy sound.tidy)
    (result.lowKept sound.structures high)

/-- Fewer directories may be looked at. -/
theorem of_subset (subset : fewer ⊆ directories) (kernel : s.kernelDirectory ∈ fewer) :
    Sound start s fewer where
  structures := {
    laid := ⟨kernel, sound.structures.laid.separate.of_subset subset, sound.structures.laid.isPresent⟩
    used := fun linked isLinked => sound.structures.used linked (isLinked.of_subset subset)
    kernelDirectory := sound.structures.kernelDirectory
    secondTable := sound.structures.secondTable }
  tidy other member := sound.tidy other (subset member)
  low := sound.low
  lowDirectory := sound.lowDirectory
  lowTable := sound.lowTable

/-- A frame in use that has the tables of the first 8 MiB, and no others, becomes a
directory. -/
theorem adopt (unlinked : ¬ (tablesOf s.memory).Linked directories frame)
    (used : ¬ s.frames.Free frame)
    (copied : ∀ slot, (tablesOf s.memory frame slot).present = true →
      KernelSlot slot ∧ tablesOf s.memory frame slot = tablesOf s.memory s.kernelDirectory slot) :
    Sound start s (insert frame directories) where
  structures := {
    laid := ⟨.inr sound.kernel,
      sound.structures.laid.separate.adopt copied sound.kernel unlinked,
      sound.structures.laid.isPresent⟩
    used := fun linked isLinked free => by
      rcases (Tables.linked_adopt copied sound.kernel).mp isLinked with rfl | old
      · exact used free
      · exact sound.structures.used linked old free
    kernelDirectory := sound.structures.kernelDirectory
    secondTable := sound.structures.secondTable }
  tidy := by
    rintro other (rfl | member) slot level index outside
    · have same := (copied slot level).2
      rw [same] at level ⊢
      exact sound.tidy _ sound.kernel slot level index outside
    · exact sound.tidy other member slot level index outside
  low := sound.low
  lowDirectory := sound.lowDirectory
  lowTable := sound.lowTable

end Sound

/-! ## The physical address of a page -/

/-- The address of the frame that the hardware finds for a page, and 0 where it finds none. -/
def frameOfWalk (page : Option Page) : Nat :=
  (page.map fun entry => frameAddress entry.frameAddr).getD 0

def ReadsWalk (s : Machine) (space : Nat) (directory : Frame) (virtual : Nat) : Prop :=
  ∃ t, vmmGetPhysicalAddress space virtual s =
    .ok (frameOfWalk (walk s.memory directory virtual)) t

theorem Tidy.frameOfWalk {page : Page} (tidy : Tidy page) :
    frameOfWalk (if page.present = true then some page else none) =
      frameAddress page.frameAddr := by
  cases isPresent : page.present with
  | true => rfl
  | false =>
      rw [tidy isPresent]
      rfl

/-- The present bit of a page entry need not be looked at where no entry that is not
present names a frame. -/
theorem Sound.readsWalk (sound : Sound start s directories) (member : directory ∈ directories)
    (space : Addresses s pointer directory)
    (outside : ¬ WindowPage (directoryIndex virtual) (pageIndex virtual)) :
    ReadsWalk s pointer directory virtual := by
  cases level : (tablesOf s.memory directory (directoryIndex virtual)).present with
  | false =>
      refine ⟨s, ?_⟩
      rw [vmmGetPhysicalAddress_of_absent space level, walk, Tables.walk_of_absent level]
      rfl
  | true =>
      obtain ⟨t, run, _⟩ :=
        vmmGetPhysicalAddress_of_present sound.structures member space level outside
      have tidy := sound.tidy directory member _ level (pageIndex virtual) outside
      have found : walk s.memory directory virtual =
          if (tablesOf s.memory (tablesOf s.memory directory (directoryIndex virtual)).frameAddr
            (pageIndex virtual)).present = true then
            some (tablesOf s.memory (tablesOf s.memory directory (directoryIndex virtual)).frameAddr
              (pageIndex virtual))
          else none := if_pos level
      refine ⟨t, ?_⟩
      rw [run, found, tidy.frameOfWalk]

end KdbOS.Vmm
