import KdbOS.Memory.LastFrames

/-! A stock of frames and of pages for the kernel. As long as it lasts, no call for a page
fails. -/

set_option autoImplicit false

namespace KdbOS.Vmm

open Library Pmm Arch

variable {start s t : Machine} {directories : Set Frame} {directory frame : Frame}
variable {table : Option Frame} {virtual window physicalFrame entryPoint size p : Nat}
variable {count fewer : Nat} {rounds : List Nat} {isUser isWriteable answer : Bool}

/-- Frames for so many allocations, low ones for the tables, and as many pages. -/
structure Stocked (start s : Machine) (directories : Set Frame) (count : Nat) : Prop where
  low : TablesLow start s directories count
  frames : count ≤ (freeFrames s).ncard
  pages : PagesLeft s count

theorem PagesLeft.exists_lowest (left : PagesLeft s 1) : ∃ window, IsLowestUnmapped s window := by
  classical
  have unmapped : ∃ address, address ∈ NewPageRange ∧
      walk s.memory s.kernelDirectory address = none := by
    by_contra all
    exact left.not_full fun address range none => all ⟨address, range, none⟩
  exact ⟨Nat.find unmapped, Nat.find_spec unmapped, fun _ member => Nat.find_min' unmapped member⟩

theorem not_starved (frames : 2 ≤ (freeFrames s).ncard) (pages : PagesLeft s 1) : ¬ Starved s := by
  intro starved
  obtain ⟨window, least⟩ := pages.exists_lowest
  obtain ⟨frame, other, free, otherFree, different⟩ := (Set.one_lt_ncard_iff).mp frames
  exact different ((starved _ least frame free).2 other otherFree).symm

/-! ## What the calls take -/

theorem card_toFinset_le (table : Option Frame) : table.toFinset.card ≤ 1 := by
  cases table with
  | none => exact Nat.zero_le 1
  | some newTable => exact Nat.le_refl 1

theorem TakesPage.freeFrames_le (takes : TakesPage s t virtual frame table) :
    (freeFrames s).ncard ≤ (freeFrames t).ncard + 2 := by
  have counted := takes.freeFrames_eq
  have few := card_toFinset_le table
  omega

theorem KeepsPages.freeFrames_eq (keeps : KeepsPages s t) : freeFrames t = freeFrames s := by
  unfold freeFrames
  rw [keeps.frames]

theorem MapFrameResult.freeFrames_le
    (result : MapFrameResult s directories directory virtual physicalFrame isWriteable isUser true
      t) (structures : PageStructures s directories) (notKernel : directory ≠ s.kernelDirectory)
    (high : ¬ KernelSlot (directoryIndex virtual)) :
    (freeFrames s).ncard ≤ (freeFrames t).ncard + 2 := by
  cases result with
  | entered _ changed =>
      rw [(changed.keepsPages structures notKernel high).freeFrames_eq]
      exact Nat.le_add_right _ 2
  | created _ made changed =>
      exact (made.takesPage structures notKernel high changed).freeFrames_le

namespace Stocked

theorem mono (stocked : Stocked start s directories count) (less : fewer ≤ count) :
    Stocked start s directories fewer :=
  ⟨stocked.low.mono less, less.trans stocked.frames, stocked.pages.mono less⟩

theorem not_starved (stocked : Stocked start s directories (count + 2)) : ¬ Starved s :=
  Vmm.not_starved ((Nat.le_add_left 2 count).trans stocked.frames)
    (stocked.pages.mono (Nat.le_add_left 1 (count + 1)))

theorem takes {more : Set Frame} (stocked : Stocked start s directories (count + 2))
    (takes : TakesPage s t virtual frame table) (low : TablesLow start t more count) :
    Stocked start t more count := by
  refine ⟨low, ?_, ?_⟩
  · have frames := stocked.frames
    have taken := takes.freeFrames_le
    omega
  · have pages := stocked.pages
    have taken := takes.kernelPages_card
    unfold PagesLeft at *
    omega

theorem keeps (stocked : Stocked start s directories count) (keeps : KeepsPages s t)
    {more : Set Frame} (low : TablesLow start t more count) : Stocked start t more count := by
  refine ⟨low, ?_, ?_⟩
  · rw [keeps.freeFrames_eq]
    exact stocked.frames
  · unfold PagesLeft
    rw [keeps.kernelPages_eq]
    exact stocked.pages

/-- A frame is mapped. -/
theorem mapFrame (stocked : Stocked start s directories (count + 2))
    (result : MapFrameResult s directories directory virtual physicalFrame isWriteable isUser answer
      t) (starved : answer = false → Starved s) (structures : PageStructures s directories)
    (notKernel : directory ≠ s.kernelDirectory) (high : ¬ KernelSlot (directoryIndex virtual)) :
    answer = true ∧ Stocked start t directories count := by
  have isMapped : answer = true := by
    by_contra failed
    exact stocked.not_starved (starved (Bool.eq_false_of_not_eq_true failed))
  subst isMapped
  refine ⟨rfl, stocked.low.mapFrame result, ?_, ?_⟩
  · have frames := stocked.frames
    have taken := result.freeFrames_le structures notKernel high
    omega
  · exact ((result.roomTaken structures notKernel high).pagesLeft
      (stocked.pages.mono (Nat.le_succ (count + 1))))

/-- A page that is used and given back. -/
theorem returned {made filled : Machine} (stocked : Stocked start s directories (count + 2))
    (takes : TakesPage s made virtual frame table) (keeps : KeepsPages made filled)
    (gives : GivesPage filled t virtual) (low : TablesLow start t directories count) :
    Stocked start t directories count := by
  refine ⟨low, ?_, ?_⟩
  · have frames := stocked.frames
    have taken := takes.freeFrames_le
    have same : freeFrames t = freeFrames made := by
      unfold freeFrames
      rw [gives.frames, keeps.frames]
    rw [same]
    omega
  · exact (Nat.add_le_add_right (takes.returned keeps gives).1 count).trans
      (stocked.pages.mono (Nat.le_add_right count 2))

end Stocked

/-! ## The loop -/

theorem CodePageResult.stocked
    (result : CodePageResult s directories directory entryPoint size isUser p answer t)
    (before : Sound start s directories) (notKernel : directory ≠ s.kernelDirectory)
    (high : ¬ KernelSlot (directoryIndex (codePage p)))
    (stocked : Stocked start s directories (count + 2 + 2)) :
    answer = true ∧ Stocked start t directories count := by
  have low := result.tablesLow before stocked.low
  have isMapped : answer = true := by
    cases result with
    | failed starved => exact absurd starved stocked.not_starved
    | mapped => rfl
  have taken := (result.roomTaken before notKernel high isMapped).1
  refine ⟨isMapped, low, ?_, ?_⟩
  · cases result with
    | failed => cases isMapped
    | mapped least newPage written _ used mapResult starved changed =>
        have madeSound := before.newPage (.mapped least newPage)
        have unlinked := newPage.not_linked before.structures
        have filledSound := madeSound.written written unlinked
        have readSound := filledSound.windowUsed used
        have made := stocked.takes (newPage.takesPage before.structures least)
          (stocked.low.newPage (.mapped least newPage))
        have filled := made.keeps (written.keepsPages madeSound.structures unlinked)
          (made.low.written written unlinked)
        have read := filled.keeps (used.keepsPages filledSound.structures)
          (filled.low.windowUsed filledSound.structures used)
        have entered := (read.mapFrame mapResult starved readSound.structures
          (before.notKernel readSound notKernel) high).2
        unfold freeFrames
        rw [changed.frames]
        exact entered.frames
  · have pages := stocked.pages
    unfold PagesLeft at *
    omega

theorem CodePages.stocked
    (pages : CodePages directories directory entryPoint size isUser s rounds answer t)
    (sound : Sound start s directories) (notKernel : directory ≠ s.kernelDirectory)
    (high : HighRounds rounds)
    (stocked : Stocked start s directories (count + 4 * rounds.length)) :
    answer = true ∧ Stocked start t directories count := by
  induction pages with
  | done => exact ⟨rfl, stocked⟩
  | failed result =>
      have first : Stocked start _ directories (count + 2 + 2) := stocked.mono (by
        rw [List.length_cons]
        omega)
      exact absurd (result.stocked sound notKernel (high _ List.mem_cons_self) first).1
        Bool.false_ne_true
  | @next s x t p rest answer result _ ih =>
      have highFirst := high p List.mem_cons_self
      have first : Stocked start s directories (count + 4 * rest.length + 2 + 2) := stocked.mono (by
        rw [List.length_cons]
        omega)
      have next := result.sound sound highFirst
      exact ih next (sound.notKernel next notKernel)
        (fun q later => high q (List.mem_cons_of_mem _ later))
        (result.stocked sound notKernel highFirst first).2

end KdbOS.Vmm
