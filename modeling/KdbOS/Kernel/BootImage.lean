import KdbOS.Memory.BootPaging

/-! Boot writes the bitmap and three page structures, all of them above 4 MiB: below, the memory
stays as the boot loader has left it. -/

set_option autoImplicit false

namespace KdbOS.Kernel

open Library Ds Pmm Arch Vmm

variable {b : Bitmap} {memory : Memory} {place bit : Nat}

theorem bitmapSet_below (fits : b.Fits) (below : place < b.storage) :
    bitmapSet b bit memory place = memory place := by
  by_cases inside : bit < b.totalBits
  · rw [bitmapSet, if_neg (Nat.not_le.mpr inside)]
    refine Memory.store32_of_outside (.inl ?_)
    rw [fits.wordAddress (b.index_lt inside)]
    omega
  · rw [bitmapSet_of_le (Nat.not_lt.mp inside)]

theorem bitmapSets_below (fits : b.Fits) (below : place < b.storage) (count : Nat) :
    (List.range count).foldl (fun memory frame => bitmapSet b frame memory) memory place =
      memory place := by
  induction count with
  | zero => rfl
  | succ count ih =>
      rw [List.range_succ, List.foldl_append, List.foldl_cons, List.foldl_nil,
        bitmapSet_below fits below, ih]

theorem bitmapClearAll_below (fits : b.Fits) (below : place < b.storage) :
    bitmapClearAll b memory place = memory place := by
  have clears : ∀ count ≤ b.words, (List.range count).foldl
      (fun memory i => memory.store32 (b.wordAddress i) 0) memory place = memory place := by
    intro count
    induction count with
    | zero => exact fun _ => rfl
    | succ count ih =>
        intro bounded
        rw [List.range_succ, List.foldl_append, List.foldl_cons, List.foldl_nil,
          Memory.store32_of_outside (.inl (by rw [fits.wordAddress bounded]; omega)),
          ih (Nat.le_of_succ_le bounded)]
  exact clears _ (Nat.le_refl _)

theorem pmmAllocateFrame_below (fits : b.Fits) (below : place < b.storage) :
    (pmmAllocateFrame b memory).2 place = memory place := by
  cases pmmAllocateFrame_cases b memory with
  | inl full => rw [full.1]
  | inr found =>
      obtain ⟨frame, _, _, _, allocated⟩ := found
      rw [allocated]
      exact bitmapSet_below fits below

theorem pmmInit_below {totalRamBytes : Nat} (ram : totalRamBytes < 4294967296)
    (below : place < bitmapAddr) :
    (pmmInit totalRamBytes bitmapAddr memory).2.2 place = memory place := by
  have bounds := bitmapEnd_bounds ram
  have bounded : bitmapEnd totalRamBytes bitmapAddr < 4294967296 := by omega
  rw [pmmInit_eq ram bounded]
  exact (bitmapSets_below (initBitmap_fits bounded) below _).trans
    (bitmapClearAll_below (initBitmap_fits bounded) below)

/-- Other frames are not written. -/
theorem writeTables_of_ne {sections : KernelSections} {first second third frame : Frame}
    (notFirst : frame ≠ first) (notSecond : frame ≠ second) (notThird : frame ≠ third) :
    tablesOf (writeTables sections first second third memory) frame = tablesOf memory frame := by
  have holed : ∀ {memory : Memory} {table : Frame} {index : EntryIndex} {change : Page → Page},
      frame ≠ table → tablesOf (changeEntry table index change memory) frame = tablesOf memory frame :=
    fun apart => funext fun slot => by rw [tablesOf_changeEntry, Tables.set_of_frame_ne apart]
  unfold writeTables
  rw [holed notFirst, holed notFirst, tablesOf_fillEntries_of_ne _ _ notThird, holed notSecond,
    tablesOf_fillEntries_of_ne _ _ notSecond, tablesOf_clearFrame_of_ne notThird,
    tablesOf_clearFrame_of_ne notSecond, tablesOf_clearFrame_of_ne notFirst]

theorem bootMachine_below {totalRamBytes : Nat} (sections : KernelSections)
    (ram : totalRamBytes < 4294967296) (leaves : LeavesTables totalRamBytes)
    (below : place < bitmapAddr) :
    (bootMachine sections ram memory).memory place = memory place := by
  have bounds := bitmapEnd_bounds ram
  obtain ⟨first, second, third, isFirst, isSecond, isThird, _, isMemory, _⟩ :=
    bootMachine_writes sections ram memory leaves
  unfold firstBootFrame at isFirst isSecond isThird
  unfold bitmapAddr at below
  let frame : Frame := ⟨place / 4096, by omega⟩
  have apart : ∀ {table : Frame}, 1024 ≤ table.val → frame ≠ table := by
    intro table above same
    have value : place / 4096 = table.val := congrArg Fin.val same
    omega
  have sameTables : tablesOf (bootMachine sections ram memory).memory frame =
      tablesOf (bootFrames ram memory).allocate.2.allocate.2.allocate.2.storage frame := by
    rw [isMemory]
    exact writeTables_of_ne (apart (by omega)) (apart (by omega)) (apart (by omega))
  refine (byte_of_tables sameTables ?_ ?_).trans ?_
  · show place / 4096 * 4096 ≤ place
    omega
  · show place < place / 4096 * 4096 + 4096
    omega
  · have fits := (bootFrames ram memory).fits
    have low : place < (bootFrames ram memory).frameBitmap.storage := below
    exact (pmmAllocateFrame_below fits low).trans ((pmmAllocateFrame_below fits low).trans
      ((pmmAllocateFrame_below fits low).trans (pmmInit_below ram low)))

end KdbOS.Kernel
