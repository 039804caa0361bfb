import KdbOS.Memory.PagesInOrder
import KdbOS.Proc.ProcessRuns

/-! Page tables that are used through their physical addresses. A table comes from any
frame, but only the frames below that of the temporary window are mapped to themselves. -/

set_option autoImplicit false

namespace KdbOS.Proc

open Library Pmm Arch Vmm Kernel

variable {start s t : Machine} {directories : Set Frame} {directory frame : Frame}
variable {pointer virtual count first total : Nat} {final : VmmState}
variable {trace : List (Transition VmmState ProcessCall)}

/-! ## While there is room -/

/-- The call stays outside the first 8 MiB, and finds low frames for all that it may take. -/
def Roomy (state : VmmState) (call : ProcessCall) : Prop :=
  call.High ∧ HasRoom state.machine call.frames

/-- In every run of allowed calls, and in an allowed call after it that need not return, all
accesses to tables by their physical addresses reach them. -/
def TablesReached (start : Machine) (Allowed : VmmState → ProcessCall → Prop) : Prop :=
  ∀ trace final, ProcessRun start trace final →
    (∀ transition ∈ trace, Allowed transition.before transition.label) →
      Faithful final.machine ∧ ∀ call, call.Valid final → Allowed final call →
        Faithful (finalState (call.perform final.machine))

/-- The structures are in order, in low frames, and have always been reached. -/
structure InOrder (start : Machine) (count : Nat) (state : VmmState) : Prop where
  sound : Sound start state.machine state.directories
  faithful : Faithful state.machine
  low : TablesLow start state.machine state.directories count

theorem ProcessCall.reached {state : VmmState} {call : ProcessCall} (inOrder : InOrder start count state)
    (valid : call.Valid state) (high : call.High) (later : Nat)
    (room : HasRoom state.machine (later + call.frames)) :
    Faithful (finalState (call.perform state.machine)) ∧
      ∀ result after, call.perform state.machine = .ok result after →
        InOrder start later ⟨after, state.directories ∪ call.made result after⟩ := by
  have leads : Leads true Faithful call.perform state.machine _ :=
    ProcessCall.leads valid high inOrder.sound inOrder.faithful (fun _ faithful => faithful) later
      fun _ => ⟨inOrder.low.identity, inOrder.low.linked, room⟩
  constructor
  · cases run : call.perform state.machine with
    | ok result after => exact (leads.returns result after run).1 rfl
    | error fault after => exact leads.faults fault after run rfl
  · intro result after run
    obtain ⟨faithful, holds⟩ := leads.returns result after run
    have ends := holds (faithful rfl)
    exact ⟨ends.1, faithful rfl, ends.2 rfl⟩

theorem InOrder.of_booted {sections : KernelSections} {kernelPageTable secondPageTable : Frame}
    (booted : Booted s sections kernelPageTable secondPageTable) (room : HasRoom s count) :
    InOrder s count ⟨s, {s.kernelDirectory}⟩ := by
  have lower := booted.lower
  have upper := booted.upper
  have firstTable := booted.first
  have secondTable := booted.second
  have lowFrame : ∀ frame : Frame, 0 < frame.val → frame.val < 2047 → LowFrame frame :=
    fun frame positive below => ⟨fun isZero => by
      rw [isZero] at positive
      exact absurd positive (by decide), below⟩
  refine ⟨sound_of_booted booted, faithful_of_booted booted, identityMapped_of_booted booted, ?_,
    room⟩
  rintro frame (rfl | ⟨_, rfl, slot, isPresent, rfl⟩)
  · exact lowFrame _ (by omega) (by omega)
  · rw [tableEntry_target]
    rcases booted.tables.kernelSlot_of_present isPresent with ⟨_, target⟩ | ⟨_, target⟩
    · rw [target]
      exact lowFrame _ (by omega) (by omega)
    · rw [target]
      exact lowFrame _ (by omega) (by omega)

theorem InOrder.roomy {state : VmmState} {call : ProcessCall} (inOrder : InOrder start 0 state)
    (valid : call.Valid state) (roomy : Roomy state call) :
    Faithful (finalState (call.perform state.machine)) ∧
      ∀ result after, call.perform state.machine = .ok result after →
        InOrder start 0 ⟨after, state.directories ∪ call.made result after⟩ := by
  refine ProcessCall.reached inOrder valid roomy.1 0 ?_
  rw [Nat.zero_add]
  exact roomy.2

theorem ProcessRun.inOrder (run : ProcessRun start trace final)
    (initial : InOrder start 0 ⟨start, {start.kernelDirectory}⟩)
    (roomy : ∀ transition ∈ trace, Roomy transition.before transition.label) :
    InOrder start 0 final :=
  (run.invariant Roomy (InOrder start 0) initial (fun inOrder roomy step => by
    obtain ⟨valid, performed⟩ := step
    exact (inOrder.roomy valid roomy).2 _ _ performed) roomy).1

/-- As long as every call finds room, tables are reached. -/
theorem tablesReached_of_roomy (initial : InOrder start 0 ⟨start, {start.kernelDirectory}⟩) :
    TablesReached start Roomy := by
  intro trace final run roomy
  have ends := run.inOrder initial roomy
  exact ⟨ends.faithful, fun call valid roomyCall => (ends.roomy valid roomyCall).1⟩

/-! ## Machines without other frames -/

theorem hasRoom_of_every (every : ∀ frame, s.frames.Free frame → frame.val < 2047) (count : Nat) :
    HasRoom s count :=
  .inr every

/-- There are not more low frames than this. -/
theorem every_of_hasRoom (room : HasRoom s count) (many : 2047 < count) (frame : Frame)
    (free : s.frames.Free frame) : frame.val < 2047 := by
  rcases room with few | every
  · obtain ⟨last, isLast⟩ : ∃ last : Frame, last.val = 2047 := ⟨2047, rfl⟩
    have inside : lowFrames s ⊆ ((Finset.Iio last : Finset Frame) : Set Frame) := by
      rintro other ⟨_, below⟩
      rw [Finset.mem_coe, Finset.mem_Iio, Fin.lt_def, isLast]
      exact below
    have bounded := Set.ncard_le_ncard inside (Set.toFinite _)
    rw [Set.ncard_coe_finset, Fin.card_Iio, isLast] at bounded
    omega
  · exact every frame free

/-- Where all frames are low, tables are reached in all runs. -/
theorem tablesReached_of_every (inOrder : InOrder start 2048 ⟨start, {start.kernelDirectory}⟩) :
    TablesReached start fun _ call => call.High := by
  intro trace final run high
  have step : ∀ {state : VmmState} {call : ProcessCall}, InOrder start 2048 state →
      call.Valid state → call.High → Faithful (finalState (call.perform state.machine)) ∧
        ∀ result after, call.perform state.machine = .ok result after →
          InOrder start 2048 ⟨after, state.directories ∪ call.made result after⟩ :=
    fun inOrder valid high => ProcessCall.reached inOrder valid high 2048
      (hasRoom_of_every (every_of_hasRoom inOrder.low.room (by decide)) _)
  have ends := (run.invariant (fun _ call => call.High) (InOrder start 2048) inOrder
    (fun inOrder high stepped => by
      obtain ⟨valid, performed⟩ := stepped
      exact (step inOrder valid high).2 _ _ performed) high).1
  exact ⟨ends.faithful, fun call valid highCall => (step ends valid highCall).1⟩

/-! ## A table beyond the low frames -/

theorem vmmFreePage_of_fault {table : Frame} (sees : Sees s pointer directory)
    (isPresent : (tablesOf s.memory directory (directoryIndex virtual)).present = true)
    (number : (tablesOf s.memory directory (directoryIndex virtual)).frameAddr = table)
    (unmapped : Arch.translate s.memory s.kernelDirectory (frameAddress table) = none) :
    vmmFreePage pointer virtual s = .error ⟨frameAddress table⟩ (s.note table none) := by
  have noted : Arch.translate (s.note table none).memory (s.note table none).kernelDirectory
    (frameAddress table) = none := unmapped
  have fault : reachTable table s = .error ⟨frameAddress table⟩ (s.note table none) := by
    rw [reachTable_eq, unmapped, reach_error noted]
  rw [vmmFreePage, bind_ok (readDirectory_ok sees), isPresent, Bool.not_true,
    if_neg Bool.false_ne_true, number, bind_error fault]

/-- A process without an image has only the kernel's tables. -/
theorem vmmCreateVirtualAddressSpace_of_empty {made : Machine} {table : Option Frame}
    (sound : Sound start s directories)
    (run : vmmGetNewPage (frameAddress s.kernelDirectory) true false 0 s = .ok virtual made)
    (lowest : IsLowestUnmapped s virtual)
    (newPage : NewPage s made directories s.kernelDirectory virtual true false directory table)
    (entryPoint : Nat) (isUser cached : Bool) :
    ∃ t, vmmCreateVirtualAddressSpace entryPoint 0 isUser cached s = .ok virtual t ∧
      FrameWritten made t directory ∧ SharesKernel t directory := by
  have madeSound := sound.newPage (.mapped lowest newPage)
  have notNull : virtual ≠ 0 := by
    have lower := lowest.1.1.2.1
    omega
  obtain ⟨cleared, shared, t, clear, shareFirst, shareSecond, written, shares⟩ :=
    shareKernel_spec madeSound.structures (newPage.not_linked sound.structures)
      ⟨newPage.sees, not_windowPage lowest.1.1⟩
  have noPages : numCodePages 0 = 0 := by decide
  refine ⟨t, ?_, written, shares⟩
  rw [vmmCreateVirtualAddressSpace, bind_ok (kernelDirectory_ok s), bind_ok run, if_neg notNull,
    bind_ok clear, bind_ok shareFirst, bind_ok shareSecond, noPages, List.range_zero, mapCode]
  rfl

/-- The state after the process was made and pages were taken for the kernel, `count` in all.
The process has no tables in the slots after `tables`. -/
structure PageChain (start : Machine) (first total count tables : Nat) (process : Frame)
    (final : VmmState) : Prop where
  run : ∃ trace, ProcessRun start trace final ∧ ∀ transition ∈ trace, transition.label.High
  faithful : Faithful final.machine
  member : process ∈ final.directories
  notKernel : process ≠ final.machine.kernelDirectory
  number : process.val = first
  space : Addresses final.machine 0x00800000 process
  pages : FirstPages final.machine first total count
  absent : ∀ slot : EntryIndex, tables < slot.val →
    (tablesOf final.machine.memory process slot).present = false

/-- The pages were taken for tables in the slots from 2 on. The frame of each table has the
number of its slot, counted from `first` on. -/
structure TableChain (start : Machine) (first total count : Nat) (process : Frame)
    (final : VmmState) : Prop extends PageChain start first total count count process final where
  last : 2 ≤ count → ∀ slot : EntryIndex, slot.val = count →
    (tablesOf final.machine.memory process slot).present = true ∧
      (tablesOf final.machine.memory process slot).frameAddr.val = first + count

theorem PageChain.begins {sections : KernelSections} {kernelPageTable secondPageTable : Frame}
    (booted : Booted s sections kernelPageTable secondPageTable)
    (enough : s.kernelDirectory.val + 4 < s.frames.frameBitmap.totalBits) :
    ∃ process final, PageChain s (s.kernelDirectory.val + 3) s.frames.frameBitmap.totalBits 1 1
      process final ∧ SharesKernel final.machine process := by
  have sound := sound_of_booted booted
  obtain ⟨made, process, newTable, run, lowest, number, newPage, pages⟩ := FirstPages.of_newPage
    sound.structures booted.free (fun _ => booted.absent_of_high) (by omega) s.frames.bounded true
    false
  obtain ⟨t, created, written, shares⟩ := vmmCreateVirtualAddressSpace_of_empty sound run lowest newPage
    0 true true
  have unlinked := newPage.not_linked sound.structures
  have madeSound := sound.newPage (.mapped lowest newPage)
  have space := newPage.addresses_shared sound lowest written
  have call : (ProcessCall.vmm (.createAddressSpace 0 0 true true)).perform s = .ok 0x00800000 t :=
    created
  have valid : (ProcessCall.vmm (.createAddressSpace 0 0 true true)).Valid
      ⟨s, {s.kernelDirectory}⟩ := trivial
  refine ⟨process, ⟨t, {s.kernelDirectory} ∪ _⟩, ⟨⟨_, Run.start.step (.returns valid call), ?_⟩, ?_,
    .inr ⟨by decide, space.sees⟩, newPage.notKernel sound written, number, space,
    pages.keepsPages (written.keepsPages madeSound.structures unlinked), fun slot later => ?_⟩,
    shares⟩
  · intro transition member
    rw [List.mem_singleton.mp member]
    exact Nat.zero_le _
  · exact written.faithful (newPage.reached.faithful (faithful_of_booted booted))
  · have high : ¬ KernelSlot slot := by
      unfold KernelSlot
      omega
    rw [shares slot, if_neg high]
    rfl

namespace PageChain

variable {tables : Nat} {process : Frame}
  (chain : PageChain start first total count tables process final)
  (initial : Sound start start {start.kernelDirectory})

include chain initial

theorem sound : Sound start final.machine final.directories := by
  obtain ⟨trace, run, high⟩ := chain.run
  exact run.sound initial high chain.faithful

variable (identity : IdentityMapped start) (lowTable : first + 1 < 2047)

include identity lowTable

theorem reachable :
    TablesReachable final.machine final.machine.kernelDirectory searchSlots := by
  refine chain.pages.reachable fun table number =>
    (chain.sound initial).identityMapped identity table ⟨?_, by omega⟩
  rintro rfl
  exact absurd number (by show 0 ≠ first + 1; omega)

variable (inside : count < 1024) (left : first + 1 + count < total)

include left

/-- The next page of the kernel. -/
theorem newPage (isRw isUser : Bool) :
    ∃ made frame, vmmGetNewPage (frameAddress final.machine.kernelDirectory) isRw isUser 0
        final.machine = .ok (pageAddress 2 ⟨count, inside⟩) made ∧
      frame.val = first + 1 + count ∧
      NewPage final.machine made final.directories final.machine.kernelDirectory
        (pageAddress 2 ⟨count, inside⟩) isRw isUser frame none := by
  have sound := chain.sound initial
  obtain ⟨frame, number⟩ : ∃ frame : Frame, frame.val = first + 1 + count :=
    ⟨⟨first + 1 + count, by omega⟩, rfl⟩
  have level : (tablesOf final.machine.memory final.machine.kernelDirectory
      (directoryIndex (pageAddress 2 ⟨count, inside⟩))).present = true := by
    rw [directoryIndex_pageAddress]
    exact chain.pages.isPresent
  obtain ⟨made, run, newPage⟩ := vmmGetNewPage_of_table sound.structures sound.kernel
    sound.structures.kernelDirectory (chain.reachable initial identity lowTable)
    (chain.pages.lowest inside) level (isLeast_of_free chain.pages.free number left) isRw isUser
  exact ⟨made, frame, run, number, newPage⟩

include inside

/-- One more page that is not used for a table. -/
theorem next : ∃ after, PageChain start first total (count + 1) tables process after := by
  obtain ⟨trace, run, high⟩ := chain.run
  have sound := chain.sound initial
  have structures := sound.structures
  obtain ⟨made, frame, newPageRun, _, newPage⟩ :=
    chain.newPage initial identity lowTable inside left true false
  have lowest := chain.pages.lowest inside
  have result := NewPageResult.mapped lowest newPage
  have call : (ProcessCall.vmm (.newPage (frameAddress final.machine.kernelDirectory) true
      false)).perform final.machine = .ok (pageAddress 2 ⟨count, inside⟩) made := newPageRun
  refine ⟨⟨made, final.directories ∪ ∅⟩, ⟨_, run.step (.returns ?_ call), ?_⟩,
    newPage.reached.faithful chain.faithful, .inl chain.member, ?_, chain.number,
    result.addresses structures chain.space,
    (chain.pages.takesPage inside (newPage.takesPage structures lowest)).1, fun slot later => ?_⟩
  · exact ⟨_, sound.kernel, structures.kernelDirectory⟩
  · intro transition isMember
    rcases List.mem_append.mp isMember with earlier | isLast
    · exact high transition earlier
    · rw [List.mem_singleton.mp isLast]
      trivial
  · show process ≠ made.kernelDirectory
    rw [newPage.kernelDirectory]
    exact chain.notKernel
  · show (tablesOf made.memory process slot).present = false
    rw [newPage.entries process chain.member slot (.inl rfl)]
    exact chain.absent slot later

/-- One more table of the process. Only its first page is mapped, to the frame 0. -/
theorem nextTable (slot : EntryIndex) (later : tables < slot.val) (highSlot : ¬ KernelSlot slot) :
    ∃ after, PageChain start first total (count + 1) slot.val process after ∧
      (tablesOf after.machine.memory process slot).present = true ∧
      (tablesOf after.machine.memory process slot).frameAddr.val = first + 1 + count ∧
      ∀ index ≠ 0, (tablesOf after.machine.memory).walk process slot index = none := by
  obtain ⟨trace, run, high⟩ := chain.run
  have sound := chain.sound initial
  have structures := sound.structures
  obtain ⟨made, newTable, newPageRun, number, newPage⟩ :=
    chain.newPage initial identity lowTable inside left true false
  have lowest := chain.pages.lowest inside
  have slotOf : directoryIndex (pageAddress slot 0) = slot := directoryIndex_pageAddress slot 0
  have noTable := chain.absent slot later
  have absent : (tablesOf final.machine.memory process
      (directoryIndex (pageAddress slot 0))).present = false := by
    rw [slotOf]
    exact noTable
  obtain ⟨linked, t, mapped, newTableMade, changed⟩ := vmmMapFrame_of_newTable structures chain.member
    chain.notKernel chain.space absent newPageRun lowest newPage 0 true true true
  have call : (ProcessCall.vmm (.mapFrame 0x00800000 (pageAddress slot 0) 0 true true true)).perform
      final.machine = .ok 1 t := by
    show (vmmMapFrame 0x00800000 (pageAddress slot 0) 0 true true true >>= _) final.machine = _
    rw [bind_ok mapped]
    rfl
  have highCall : ¬ KernelSlot (directoryIndex (pageAddress slot 0)) := by
    rw [slotOf]
    exact highSlot
  have entries : ∀ position, position ≠ slot →
      tablesOf t.memory process position = tablesOf final.machine.memory process position := by
    intro position different
    rw [changed.tables.entries _ chain.member]
    refine newTableMade.entries _ chain.member position (fun same => different ?_) (.inl rfl)
    rw [same.2, slotOf]
  obtain ⟨entry, isEntry⟩ := newTableMade.directoryEntry
  rw [slotOf] at isEntry
  refine ⟨⟨t, final.directories ∪ ∅⟩, ⟨⟨_, run.step (.returns ?_ call), ?_⟩, ?_, .inl chain.member, ?_,
    chain.number, newTableMade.addresses_entered structures absent changed chain.space,
    (chain.pages.takesPage _ (newTableMade.takesPage structures chain.notKernel highCall changed)).1,
    fun position isLater => ?_⟩, ?_, ?_, fun index notFirst => ?_⟩
  · exact ⟨process, chain.member, chain.notKernel, chain.space⟩
  · intro transition isMember
    rcases List.mem_append.mp isMember with earlier | isLast
    · exact high transition earlier
    · rw [List.mem_singleton.mp isLast]
      exact highCall
  · exact changed.reached.faithful (newTableMade.reached.faithful chain.faithful)
  · show process ≠ t.kernelDirectory
    rw [changed.kernelDirectory, newTableMade.kernelDirectory]
    exact chain.notKernel
  · show (tablesOf t.memory process position).present = false
    rw [entries position (by
      rintro rfl
      exact absurd isLater (Nat.lt_irrefl _))]
    exact chain.absent position (by omega)
  · show (tablesOf t.memory process slot).present = true
    rw [changed.tables.entries _ chain.member, isEntry]
    rfl
  · show (tablesOf t.memory process slot).frameAddr.val = _
    rw [changed.tables.entries _ chain.member, isEntry]
    show (Page.frameOf (frameAddress newTable)).val = _
    rw [frameOf_frameAddress, number]
  · show (tablesOf t.memory).walk process slot index = none
    have apart : ¬ (slot = directoryIndex (pageAddress slot 0) ∧
        index = pageIndex (pageAddress slot 0)) := by
      rw [pageIndex_pageAddress]
      exact fun same => notFirst same.2
    rw [changed.tables.walks _ chain.member slot index (.inl apart),
      newTableMade.walk_of_ne absent chain.member (not_windowPage_of_high highSlot)
        fun same => chain.notKernel same.1]
    exact Tables.walk_of_absent noTable

end PageChain

theorem TableChain.begins {sections : KernelSections} {kernelPageTable secondPageTable : Frame}
    (booted : Booted s sections kernelPageTable secondPageTable)
    (enough : s.kernelDirectory.val + 4 < s.frames.frameBitmap.totalBits) :
    ∃ process final, TableChain s (s.kernelDirectory.val + 3) s.frames.frameBitmap.totalBits 1
      process final := by
  obtain ⟨process, final, chain, _⟩ := PageChain.begins booted enough
  exact ⟨process, final, chain, fun atLeast => absurd atLeast (by decide)⟩

/-- One more table. -/
theorem TableChain.next {process : Frame}
    (chain : TableChain start first total count process final)
    (initial : Sound start start {start.kernelDirectory}) (identity : IdentityMapped start)
    (positive : 0 < count) (inside : count + 1 < 1024) (left : first + 1 + count < total)
    (lowTable : first + 1 < 2047) :
    ∃ after, TableChain start first total (count + 1) process after := by
  have highSlot : ¬ KernelSlot ⟨count + 1, inside⟩ := by
    show ¬ count + 1 < 2
    omega
  obtain ⟨after, next, isPresent, number, _⟩ := chain.toPageChain.nextTable initial identity lowTable
    (by omega) left ⟨count + 1, inside⟩ (Nat.lt_succ_self count) highSlot
  refine ⟨after, next, fun _ slot isLast => ?_⟩
  obtain rfl : slot = ⟨count + 1, inside⟩ := Fin.ext isLast
  exact ⟨isPresent, by omega⟩

theorem TableChain.reaches {process : Frame} (initial : Sound start start {start.kernelDirectory})
    (identity : IdentityMapped start) (lowTable : first + 1 < 2047)
    (begins : ∃ final, TableChain start first total 1 process final) (steps : Nat)
    (inside : steps + 1 < 1024) (left : first + 1 + steps < total) :
    ∃ final, TableChain start first total (steps + 1) process final := by
  induction steps with
  | zero => exact begins
  | succ steps ih =>
      obtain ⟨final, chain⟩ := ih (by omega) (by omega)
      exact chain.next initial identity (Nat.succ_pos steps) inside (by omega) lowTable

/-- A table in the frame of the window is not reached, once the window is closed. -/
theorem TableChain.misses {process : Frame} (chain : TableChain start first total count process final)
    (initial : Sound start start {start.kernelDirectory}) (atLeast : 2 ≤ count)
    (inside : count < 1024) (isWindow : first + count = 2047) :
    ¬ TablesReached start fun _ call => call.High := by
  intro reached
  obtain ⟨trace, run, high⟩ := chain.run
  have sound := run.sound initial high chain.faithful
  have structures := sound.structures
  -- The window is used once more.
  have level : (tablesOf final.machine.memory final.machine.kernelDirectory
      (directoryIndex 0x00800000)).present = true := chain.pages.isPresent
  obtain ⟨t, page, used_, used, _⟩ := vmmGetPhysicalAddress_used structures structures.kernelDirectory
    level
  have call : (ProcessCall.vmm (.getPhysicalAddress (frameAddress final.machine.kernelDirectory)
      0x00800000)).perform final.machine = .ok (frameAddress page.frameAddr) t := used_
  have valid : (ProcessCall.vmm (.getPhysicalAddress (frameAddress final.machine.kernelDirectory)
      0x00800000)).Valid final := ⟨_, sound.kernel, structures.kernelDirectory⟩
  have longer : ProcessRun start _ ⟨t, final.directories ∪ ∅⟩ := run.step (.returns valid call)
  -- The last table is used through its physical address.
  let slot : EntryIndex := ⟨count, inside⟩
  obtain ⟨isPresent, number⟩ := chain.last atLeast slot rfl
  have slotOf : directoryIndex (pageAddress slot 0) = slot := directoryIndex_pageAddress slot 0
  have entry : tablesOf t.memory process slot = tablesOf final.machine.memory process slot :=
    used.entries structures chain.member
  have space := used.addresses structures chain.space
  have isLast : (tablesOf t.memory process slot).frameAddr.val = 2047 := by
    rw [entry, number, isWindow]
  generalize isTable : (tablesOf t.memory process slot).frameAddr = table at isLast
  have address : frameAddress table = vmmTempWindowVirtual := by
    rw [frameAddress, isLast]
    decide
  have unmapped : Arch.translate t.memory t.kernelDirectory (frameAddress table) = none := by
    rw [address]
    exact used.translate_window structures.kernelDirectory_ne_secondTable
  have fault : vmmFreePage 0x00800000 (pageAddress slot 0) t =
      .error ⟨frameAddress table⟩ (t.note table none) := by
    refine vmmFreePage_of_fault space.sees ?_ ?_ unmapped
    · rw [slotOf, entry]
      exact isPresent
    · rw [slotOf]
      exact isTable
  have last : (ProcessCall.vmm (.freePage 0x00800000 (pageAddress slot 0))).perform t =
      .error ⟨frameAddress table⟩ (t.note table none) := by
    rw [ProcessCall.perform, VmmCall.perform, bind_error fault]
  have highCall : ¬ KernelSlot (directoryIndex (pageAddress slot 0)) := by
    rw [slotOf]
    show ¬ count < 2
    omega
  have faithful := (reached _ _ longer fun transition member => by
    rcases List.mem_append.mp member with earlier | isFinal
    · exact high transition earlier
    · rw [List.mem_singleton.mp isFinal]
      trivial).2 (.vmm (.freePage 0x00800000 (pageAddress slot 0)))
        ⟨process, .inl chain.member, space⟩ highCall
  show False
  rw [last] at faithful
  have missed := faithful (table, none) (List.mem_append_right _ (List.mem_singleton.mpr rfl))
  cases missed

/-- With a frame for it there is such a table. -/
theorem not_tablesReached {sections : KernelSections} {kernelPageTable secondPageTable : Frame}
    (booted : Booted s sections kernelPageTable secondPageTable)
    (large : 2047 < s.frames.frameBitmap.totalBits) :
    ¬ TablesReached s fun _ call => call.High := by
  have lower := booted.lower
  have upper := booted.upper
  have initial := sound_of_booted booted
  obtain ⟨process, begins⟩ := TableChain.begins booted (by omega)
  obtain ⟨final, chain⟩ := TableChain.reaches initial (identityMapped_of_booted booted)
    (by omega) begins (2043 - s.kernelDirectory.val) (by omega) (by omega)
  exact chain.misses initial (by omega) (by omega) (by omega)

/-! ## The result -/

end KdbOS.Proc
