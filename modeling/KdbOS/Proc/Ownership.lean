import KdbOS.Proc.ProcessSpaces

/-! The pages that a process owns: `create_pcb` gives them frames that were free, leaves those
of the other processes alone, and lets user mode reach them and nothing else. -/

set_option autoImplicit false

namespace KdbOS.Proc

open Library Pmm Arch Vmm

variable {base start s t : Machine} {directories : Set Frame} {directory other frame : Frame}
variable {entryPoint size virtual address : Nat} {isUser : Bool}
variable {pages : Set (EntryIndex × EntryIndex)}

/-! ## The pages that a process has -/

/-- The frame is reached from 8 MiB on: as a table, or as the frame of a page. -/
def ReachedFrom (s : Machine) (directory frame : Frame) : Prop :=
  ∃ slot, 2 ≤ slot.val ∧ (tablesOf s.memory directory slot).present = true ∧
    ((tablesOf s.memory directory slot).frameAddr = frame ∨
      ∃ index page, (tablesOf s.memory).walk directory slot index = some page ∧
        page.frameAddr = frame)

/-- The frame is that of a page from 8 MiB on. -/
def PageFrame (s : Machine) (directory frame : Frame) : Prop :=
  ∃ slot index page, ¬ KernelSlot slot ∧
    (tablesOf s.memory).walk directory slot index = some page ∧ page.frameAddr = frame

/-- The pages of an address space from 8 MiB on, with frames of their own, and no others. User
mode reaches them and nothing below. -/
structure Owns (s : Machine) (directories : Set Frame) (directory : Frame) (isUser : Bool)
    (pages : Set (EntryIndex × EntryIndex)) : Prop where
  low : ∀ slot, KernelSlot slot → (tablesOf s.memory directory slot).user = false
  tables : ∀ slot, ¬ KernelSlot slot → (tablesOf s.memory directory slot).present = true →
    (tablesOf s.memory directory slot).user = isUser
  pages : ∀ slot index, ¬ KernelSlot slot →
    ((tablesOf s.memory).walk directory slot index ≠ none ↔ (slot, index) ∈ pages)
  user : ∀ slot index page, ¬ KernelSlot slot →
    (tablesOf s.memory).walk directory slot index = some page → page.user = isUser
  settled : ∀ frame, PageFrame s directory frame → Settled s directories frame

/-- The pages with these addresses. -/
def pagesOf (addresses : List Nat) : Set (EntryIndex × EntryIndex) :=
  {page | ∃ address ∈ addresses, page = (directoryIndex address, pageIndex address)}

theorem pageFrame_kept (kept : SpaceKept s t directory) :
    PageFrame t directory frame ↔ PageFrame s directory frame := by
  constructor
  · rintro ⟨slot, index, page, high, found, isFrame⟩
    exact ⟨slot, index, page, high, (kept.walks slot index high).symm.trans found, isFrame⟩
  · rintro ⟨slot, index, page, high, found, isFrame⟩
    exact ⟨slot, index, page, high, (kept.walks slot index high).trans found, isFrame⟩

/-- Another address space is worked on. -/
theorem Owns.kept {more : Set Frame} (owns : Owns s directories directory isUser pages)
    (kept : SpaceKept s t directory)
    (settled : ∀ frame, Settled s directories frame → Settled t more frame) :
    Owns t more directory isUser pages where
  low slot isLow := by
    rw [kept.entries]
    exact owns.low slot isLow
  tables slot high := by
    rw [kept.entries]
    exact owns.tables slot high
  pages slot index high := by
    rw [kept.walks slot index high]
    exact owns.pages slot index high
  user slot index page high := by
    rw [kept.walks slot index high]
    exact owns.user slot index page high
  settled frame isPage := settled frame (owns.settled frame ((pageFrame_kept kept).mp isPage))

/-- At first there are no pages. -/
theorem Owns.of_sharesKernel (shares : SharesKernel s directory)
    (low : ∀ slot, KernelSlot slot → (tablesOf s.memory s.kernelDirectory slot).user = false)
    (isUser : Bool) : Owns s directories directory isUser ∅ := by
  have absent : ∀ slot, ¬ KernelSlot slot → (tablesOf s.memory directory slot).present = false := by
    intro slot high
    rw [shares slot, if_neg high]
    rfl
  have none : ∀ slot index, ¬ KernelSlot slot →
      (tablesOf s.memory).walk directory slot index = none :=
    fun slot index high => Tables.walk_of_absent (absent slot high)
  refine ⟨fun slot isLow => ?_, fun slot high isPresent => ?_, fun slot index high => ?_,
    fun slot index page high found => ?_, ?_⟩
  · rw [shares slot, if_pos isLow]
    exact low slot isLow
  · rw [absent slot high] at isPresent
    cases isPresent
  · rw [none slot index high]
    exact iff_of_false (fun isSome => isSome rfl) (Set.notMem_empty _)
  · rw [none slot index high] at found
    cases found
  · rintro frame ⟨slot, index, page, high, found, _⟩
    rw [none slot index high] at found
    cases found

section Placed

variable (isPlaced : FramePlaced s t directories directory virtual isUser frame)

include isPlaced

/-- The frames of the pages are the earlier ones and the new one. -/
theorem pageFrame_placed (isPage : PageFrame t directory other) :
    PageFrame s directory other ∨ other = frame := by
  obtain ⟨slot, index, page, high, found, isFrame⟩ := isPage
  by_cases here : slot = directoryIndex virtual ∧ index = pageIndex virtual
  · obtain ⟨rfl, rfl⟩ := here
    obtain ⟨entry, mapped⟩ := isPlaced.mapped
    obtain rfl := Option.some.inj (mapped.symm.trans found)
    exact .inr (isFrame.symm.trans (frameOf_frameAddress frame))
  · rw [isPlaced.walks slot index high here] at found
    exact .inl ⟨slot, index, page, high, found, isFrame⟩

theorem Owns.insert (owns : Owns s directories directory isUser pages) :
    Owns t directories directory isUser
      (insert (directoryIndex virtual, pageIndex virtual) pages) := by
  obtain ⟨entry, mapped⟩ := isPlaced.mapped
  refine ⟨fun slot isLow => ?_, fun slot high isPresent => ?_, fun slot index high => ?_,
    fun slot index page high found => ?_, fun other isPage => ?_⟩
  · rcases isPlaced.entries slot with same | ⟨rfl, _⟩
    · rw [same]
      exact owns.low slot isLow
    · exact absurd isLow isPlaced.high
  · rcases isPlaced.entries slot with same | ⟨_, newTable, entry, isEntry⟩
    · rw [same] at isPresent ⊢
      exact owns.tables slot high isPresent
    · rw [isEntry]
      rfl
  · by_cases here : slot = directoryIndex virtual ∧ index = pageIndex virtual
    · obtain ⟨rfl, rfl⟩ := here
      refine iff_of_true ?_ (.inl rfl)
      show walk t.memory directory virtual ≠ none
      rw [mapped]
      nofun
    · rw [isPlaced.walks slot index high here, owns.pages slot index high]
      refine (or_iff_right fun same => here ?_).symm
      exact ⟨congrArg Prod.fst same, congrArg Prod.snd same⟩
  · by_cases here : slot = directoryIndex virtual ∧ index = pageIndex virtual
    · obtain ⟨rfl, rfl⟩ := here
      obtain rfl := Option.some.inj (mapped.symm.trans found)
      rfl
    · rw [isPlaced.walks slot index high here] at found
      exact owns.user slot index page high found
  · rcases pageFrame_placed isPlaced isPage with earlier | rfl
    · exact isPlaced.extended.settled (owns.settled other earlier)
    · exact isPlaced.settled

end Placed

/-! ## A new process -/

theorem pagesOf_snoc (addresses : List Nat) (address : Nat) :
    pagesOf (addresses ++ [address]) =
      insert (directoryIndex address, pageIndex address) (pagesOf addresses) := by
  ext page
  constructor
  · rintro ⟨other, member, rfl⟩
    rcases List.mem_append.mp member with earlier | last
    · exact .inr ⟨other, earlier, rfl⟩
    · rw [List.mem_singleton.mp last]
      exact .inl rfl
  · rintro (rfl | ⟨other, earlier, rfl⟩)
    · exact ⟨address, List.mem_append_right _ (List.mem_singleton.mpr rfl), rfl⟩
    · exact ⟨other, List.mem_append_left _ earlier, rfl⟩

/-- The pages of the code, and the page of the stack. -/
def processPages (size : Nat) : List Nat :=
  (List.range (numCodePages size)).map codePage ++ [processStackPage]

namespace Stages

variable {shared created : Machine}
  (stages : Stages start s directories entryPoint size isUser directory shared created t)
  (bounded : size ≤ 0x40000000) (enough : size = 0 → ¬ LastTwoPages s)

include stages bounded enough

/-- From the time when the kernel's entries are shared, only the new space is worked on. -/
theorem extended : Extends shared t (insert directory directories) directory := by
  have coded := stages.pages.extended stages.sharedSound stages.notKernel (highRounds bounded)
  rcases stages.stack with ⟨stack, placed, _⟩ | ⟨isEmpty, last⟩
  · exact coded.trans placed.extended
  · exact absurd last (enough isEmpty)

/-- The new process has its pages, and their frames were free. -/
theorem owns (low : ∀ slot, KernelSlot slot →
      (tablesOf shared.memory shared.kernelDirectory slot).user = false) :
    Owns t (insert directory directories) directory isUser (pagesOf (processPages size)) ∧
      ∀ frame, PageFrame t directory frame → s.frames.Free frame := by
  rcases stages.stack with ⟨stack, placed, _⟩ | ⟨isEmpty, last⟩
  · have begins : Owns shared (insert directory directories) directory isUser (pagesOf []) ∧
        ∀ frame, PageFrame shared directory frame → s.frames.Free frame := by
      have none : pagesOf [] = ∅ := Set.eq_empty_iff_forall_notMem.mpr nofun
      have owns : Owns shared (insert directory directories) directory isUser (pagesOf []) := by
        rw [none]
        exact .of_sharesKernel stages.shares low isUser
      refine ⟨owns, ?_⟩
      rintro frame ⟨slot, index, page, high, found, _⟩
      have isPage := (owns.pages slot index high).mp (by rw [found]; nofun)
      rw [none] at isPage
      exact isPage.elim
    have fromShared : ∀ {x frame}, Extends shared x (insert directory directories) directory →
        x.frames.Free frame → s.frames.Free frame := fun toX free =>
      (stages.begins directory).free _ (toX.free _ free)
    have coded := stages.pages.keeps rfl (fun done x =>
      Owns x (insert directory directories) directory isUser (pagesOf (done.map codePage)) ∧
        ∀ frame, PageFrame x directory frame → s.frames.Free frame)
      (fun done p x y code _ toX before isPlaced _ => ?_) stages.sharedSound (.inl rfl) stages.notKernel
      (highRounds bounded) (by rw [List.length_range]; exact stages.room) stages.left [] begins
    · have toCreated := stages.pages.extended stages.sharedSound stages.notKernel (highRounds bounded)
      refine ⟨?_, fun frame isPage => ?_⟩
      · rw [processPages, pagesOf_snoc]
        exact coded.1.insert placed
      · rcases pageFrame_placed placed isPage with earlier | rfl
        · exact coded.2 frame earlier
        · exact fromShared toCreated placed.fresh
    · refine ⟨?_, fun frame isPage => ?_⟩
      · rw [List.map_append, List.map_singleton, pagesOf_snoc]
        exact before.1.insert isPlaced
      · rcases pageFrame_placed isPlaced isPage with earlier | rfl
        · exact before.2 frame earlier
        · exact fromShared toX isPlaced.fresh
  · exact absurd last (enough isEmpty)

/-- The other processes are left alone. -/
theorem others (sound : Sound start s directories) (member : other ∈ directories)
    (notKernel : other ≠ s.kernelDirectory) :
    SpaceKept s t other ∧ ∀ frame, Settled s directories frame →
      Settled t (insert directory directories) frame := by
  have isKernel := (stages.begins other).kernelDirectory
  have different : other ≠ directory := by
    rintro rfl
    exact sound.structures.used other (.of_directory member) stages.fresh
  have first := (stages.begins s.kernelDirectory).spaceKept member notKernel
  have extended := stages.extended bounded enough
  rw [← isKernel] at notKernel
  refine ⟨⟨fun slot => ?_, fun slot index high => ?_⟩, fun frame settled => ?_⟩
  · rw [extended.entries other (.inr member) notKernel different, first.entries]
  · rw [extended.walks other (.inr member) notKernel different slot index high,
      first.walks slot index high]
  · refine extended.settled (settled.adopted (stages.begins other) stages.fresh stages.shares ?_)
    rw [isKernel]
    exact sound.kernel

end Stages

/-! ## User mode -/

/-- The address lies in one of the code pages from 0xC0000000 on or in the stack page. -/
def UserPage (size address : Nat) : Prop :=
  (∃ p, p * 4096 < size ∧ address / 4096 = 0xC0000 + p) ∨ address / 4096 = 0xC0001

/-- What user mode reaches in the address space. Nothing of it lies in the shared first
8 MiB. -/
structure Confined (s : Machine) (directory : Frame) (size : Nat) : Prop where
  user : ∀ address < 0x100000000,
    (grants Page.user s.memory directory address = true ↔ UserPage size address)
  high : ∀ address < 0x100000000,
    grants Page.user s.memory directory address = true → 0xC0000000 ≤ address

theorem lt_numCodePages_iff (bounded : size ≤ 0x40000000) (p : Nat) :
    p < numCodePages size ↔ p * 4096 < size := by
  unfold numCodePages
  rw [u32_of_lt (by unfold pageSize; omega)]
  unfold pageSize
  omega

theorem samePage_iff {virtual : Nat} (small : address < 0x100000000)
    (virtualSmall : virtual < 0x100000000) :
    (directoryIndex address, pageIndex address) = (directoryIndex virtual, pageIndex virtual) ↔
      address / 4096 = virtual / 4096 := by
  rw [Prod.mk.injEq, Fin.ext_iff, Fin.ext_iff]
  unfold directoryIndex pageIndex
  rw [Fin.val_ofNat, Fin.val_ofNat, Fin.val_ofNat, Fin.val_ofNat]
  omega

theorem codePage_eq (bounded : size ≤ 0x40000000) {p : Nat} (inside : p * 4096 < size) :
    codePage p = 0xC0000000 + p * 4096 := by
  unfold codePage userCodeStart pageSize
  exact u32_of_lt (by omega)

theorem mem_processPages (bounded : size ≤ 0x40000000) (small : address < 0x100000000) :
    (directoryIndex address, pageIndex address) ∈ pagesOf (processPages size) ↔
      UserPage size address := by
  constructor
  · rintro ⟨virtual, member, same⟩
    rcases List.mem_append.mp member with isCode | isStack
    · obtain ⟨p, inside, rfl⟩ := List.mem_map.mp isCode
      have inCode := (lt_numCodePages_iff bounded p).mp (List.mem_range.mp inside)
      have page := codePage_eq bounded inCode
      rw [samePage_iff small (by omega), page] at same
      exact .inl ⟨p, inCode, by omega⟩
    · rw [List.mem_singleton.mp isStack, samePage_iff small (by decide)] at same
      exact .inr same
  · rintro (⟨p, inCode, same⟩ | same)
    · have page := codePage_eq bounded inCode
      refine ⟨codePage p, List.mem_append_left _ (List.mem_map.mpr
        ⟨p, List.mem_range.mpr ((lt_numCodePages_iff bounded p).mpr inCode), rfl⟩), ?_⟩
      rw [samePage_iff small (by omega), page]
      omega
    · refine ⟨processStackPage, List.mem_append_right _ (List.mem_singleton.mpr rfl), ?_⟩
      exact (samePage_iff small (by decide)).mpr same

theorem UserPage.high (userPage : UserPage size address) : 0xC0000000 ≤ address := by
  rcases userPage with ⟨p, _, same⟩ | same
  · omega
  · omega

theorem Owns.confined (owns : Owns s directories directory true (pagesOf (processPages size)))
    (bounded : size ≤ 0x40000000) : Confined s directory size := by
  have user : ∀ address < 0x100000000,
      (grants Page.user s.memory directory address = true ↔ UserPage size address) := by
    intro address small
    rw [← mem_processPages bounded small, grants, Bool.and_eq_true]
    by_cases isLow : KernelSlot (directoryIndex address)
    · rw [owns.low _ isLow]
      refine iff_of_false (fun granted => Bool.noConfusion granted.1) fun isPage => ?_
      have above := ((mem_processPages bounded small).mp isPage).high
      unfold KernelSlot directoryIndex at isLow
      rw [Fin.val_ofNat] at isLow
      omega
    · rw [← owns.pages _ _ isLow]
      show _ ∧ (walk s.memory directory address).any Page.user = true ↔
        walk s.memory directory address ≠ none
      cases found : walk s.memory directory address with
      | none => exact iff_of_false (fun granted => Bool.noConfusion granted.2) fun isSome => isSome rfl
      | some page =>
          have isPresent := (Tables.walk_eq_some_iff.mp found).1
          exact iff_of_true ⟨owns.tables _ isLow isPresent, owns.user _ _ page isLow found⟩ nofun
  exact ⟨user, fun address small granted => ((user address small).mp granted).high⟩

end KdbOS.Proc
