import KdbOS.Library.Runs
import KdbOS.Memory.VmmCreate

/-! Runs of the virtual memory manager after boot: its calls on `kernel_directory` and on
the address spaces that it has made, in any order. -/

set_option autoImplicit false

namespace KdbOS.Vmm

open Library Pmm Arch Kernel

variable {start s t : Machine} {directories : Set Frame} {directory frame : Frame}
variable {pointer virtual : Nat}
variable {safe : Bool} {stops : Machine → Prop}

/-! ## Calls -/

inductive VmmCall where
  | newPage (space : Nat) (isRw isUser : Bool)
  | freePage (space virtualAddress : Nat)
  | mapFrame (targetDir virtualAddr physicalFrame : Nat) (isWriteable isUserProcess cached : Bool)
  | getPhysicalAddress (space virtualAddress : Nat)
  | createAddressSpace (entryPoint size : Nat) (isUserProcess cached : Bool)

/-- The machine, and the directories in use. -/
structure VmmState where
  machine : Machine
  directories : Set Frame

namespace VmmCall

/-- A call without a result returns 0, and a truth value is 1 or 0. -/
def perform : VmmCall → VmmM Nat
  | newPage space isRw isUser => vmmGetNewPage space isRw isUser 0
  | freePage space virtualAddress => do
      vmmFreePage space virtualAddress
      return 0
  | mapFrame targetDir virtualAddr physicalFrame isWriteable isUserProcess cached => do
      let mapped ← vmmMapFrame targetDir virtualAddr physicalFrame isWriteable isUserProcess cached
      return mapped.toNat
  | getPhysicalAddress space virtualAddress => vmmGetPhysicalAddress space virtualAddress
  | createAddressSpace entryPoint size isUserProcess cached =>
      vmmCreateVirtualAddressSpace entryPoint size isUserProcess cached

/-- The pointer is that of an address space, and of a process where a frame is mapped. -/
def Valid (state : VmmState) : VmmCall → Prop
  | newPage space _ _ | freePage space _ | getPhysicalAddress space _ =>
      ∃ directory ∈ state.directories, Addresses state.machine space directory
  | mapFrame targetDir _ _ _ _ _ =>
      ∃ directory ∈ state.directories, directory ≠ state.machine.kernelDirectory ∧
        Addresses state.machine targetDir directory
  | createAddressSpace _ _ _ _ => True

/-- The directory that a call has made. -/
def made (result : Nat) (after : Machine) : VmmCall → Set Frame
  | newPage _ _ _ | freePage _ _ | mapFrame _ _ _ _ _ _ | getPhysicalAddress _ _ => ∅
  | createAddressSpace _ _ _ _ => {frame | result ≠ 0 ∧ Sees after result frame}

/-- The pages lie outside the first 8 MiB, and so does an image that ends below 4 GiB. -/
def High : VmmCall → Prop
  | freePage _ virtualAddress => ¬ KernelSlot (directoryIndex virtualAddress)
  | mapFrame _ virtualAddr _ _ _ _ => ¬ KernelSlot (directoryIndex virtualAddr)
  | newPage _ _ _ | getPhysicalAddress _ _ => True
  | createAddressSpace _ size _ _ => size ≤ 0x40000000

/-- The most frames that a call takes. -/
def frames : VmmCall → Nat
  | newPage _ _ _ | mapFrame _ _ _ _ _ _ => 2
  | freePage _ _ | getPhysicalAddress _ _ => 0
  | createAddressSpace _ size _ _ => 4 * numCodePages size + 2

theorem grows (call : VmmCall) : Grows call.perform := by
  cases call with
  | newPage space isRw isUser => exact .vmmGetNewPage _ _ _ _
  | freePage space virtual => exact .bind (.vmmFreePage _ _) fun _ => .pure _
  | mapFrame => exact .bind (.vmmMapFrame _ _ _ _ _ _) fun _ => .pure _
  | getPhysicalAddress => exact .vmmGetPhysicalAddress _ _
  | createAddressSpace => exact .vmmCreateVirtualAddressSpace _ _ _ _

end VmmCall

inductive VmmStep : VmmState → VmmCall → VmmState → Prop where
  | returns {state : VmmState} {call : VmmCall} {result : Nat} {after : Machine} :
      call.Valid state → call.perform state.machine = .ok result after →
      VmmStep state call ⟨after, state.directories ∪ call.made result after⟩

abbrev VmmRun (start : Machine) := Run VmmStep ⟨start, {start.kernelDirectory}⟩

/-! ## One call -/

theorem vmmGetPhysicalAddress_leads (structures : PageStructures s directories)
    (space : Addresses s pointer directory)
    (faithful : Faithful s) :
    Leads safe stops (vmmGetPhysicalAddress pointer virtual) s
      fun _ t => t = s ∨ WindowUsed s t := by
  cases level : (tablesOf s.memory directory (directoryIndex virtual)).present with
  | false =>
      exact Leads.of_ok (vmmGetPhysicalAddress_of_absent space level) (fun _ => faithful)
        fun _ => .inl rfl
  | true =>
      obtain ⟨t, page, run, used, _⟩ := vmmGetPhysicalAddress_used structures space level
      exact Leads.of_ok run (fun _ => used.reached.faithful faithful) fun _ => .inr used

/-- A call outside the first 8 MiB keeps the structures in order. -/
theorem VmmCall.leads {state : VmmState} {call : VmmCall} (valid : call.Valid state)
    (high : call.High) (sound : Sound start state.machine state.directories)
    (faithful : Faithful state.machine) (stopsFaithful : ∀ t, Faithful t → stops t) (count : Nat)
    (low : safe = true →
      TablesLow start state.machine state.directories (count + call.frames)) :
    Leads safe stops call.perform state.machine fun result t =>
      Sound start t (state.directories ∪ call.made result t) ∧
        (safe = true → TablesLow start t (state.directories ∪ call.made result t) count) := by
  cases call with
  | newPage space isRw isUser =>
      obtain ⟨directory, member, addresses⟩ := valid
      refine (vmmGetNewPage_leads sound.structures member addresses faithful
        (fun isSafe => (low isSafe).reachable sound member _) isRw isUser).mono
          fun result t _ newPage => ?_
      rw [made, Set.union_empty]
      exact ⟨sound.newPage newPage, fun isSafe => (low isSafe).newPage newPage⟩
  | freePage space virtual =>
      obtain ⟨directory, member, addresses⟩ := valid
      refine Leads.bind (vmmFreePage_leads sound.structures member addresses faithful
        fun isSafe => (low isSafe).reachable sound member _) (fun _ => .pure 0)
          fun _ t _ ends freed => Leads.of_ok rfl (fun _ => ends) fun _ => ?_
      rw [made, Set.union_empty]
      rcases freed with ⟨_, rfl⟩ | ⟨_, changed⟩
      · exact ⟨sound, low⟩
      · exact ⟨sound.pageChanged changed high, fun isSafe => (low isSafe).pageChanged changed⟩
  | mapFrame target virtual physical isWriteable isUser cached =>
      obtain ⟨directory, member, notKernel, addresses⟩ := valid
      refine Leads.bind (vmmMapFrame_leads sound.structures member addresses faithful
        (fun isSafe => (low isSafe).reachable sound sound.kernel _)
        (fun isSafe => (low isSafe).reachable sound member _)
        fun same => absurd same.symm notKernel) (fun _ => .pure _)
          fun answer t _ ends result => Leads.of_ok rfl (fun _ => ends) fun _ => ?_
      rw [made, Set.union_empty]
      exact ⟨sound.mapFrame result high, fun isSafe => (low isSafe).mapFrame result⟩
  | getPhysicalAddress space virtual =>
      obtain ⟨directory, member, addresses⟩ := valid
      refine (vmmGetPhysicalAddress_leads sound.structures addresses faithful).mono
        fun result t _ used => ?_
      rw [made, Set.union_empty]
      rcases used with rfl | used
      · exact ⟨sound, low⟩
      · exact ⟨sound.windowUsed used, fun isSafe => (low isSafe).windowUsed sound.structures used⟩
  | createAddressSpace entryPoint size isUser cached =>
      refine (vmmCreateVirtualAddressSpace_leads sound faithful (fun _ => .inr stopsFaithful) low high).mono
        fun result t _ created => ?_
      refine ⟨created.sound sound (highRounds high), fun isSafe => ?_⟩
      refine created.tablesLow sound (highRounds high) ((low isSafe).mono ?_)
      rw [List.length_range]
      exact Nat.le_refl _

/-! ## Runs -/

theorem tidyTables_of_booted {sections : KernelSections} {kernelPageTable secondPageTable : Frame}
    (booted : Booted s sections kernelPageTable secondPageTable) :
    TidyTables (tablesOf s.memory) {s.kernelDirectory} := by
  rintro _ rfl slot level index outside absent
  rcases booted.tables.kernelSlot_of_present level with ⟨_, target⟩ | ⟨_, target⟩
  · rw [target, booted.tables.kernelPages] at absent ⊢
    have isZero : index = 0 := by
      by_contra notZero
      exact of_decide_eq_false absent notZero
    subst isZero
    rfl
  · rw [target, booted.tables.secondPages] at absent
    cases absent

theorem sound_of_booted {sections : KernelSections} {kernelPageTable secondPageTable : Frame}
    (booted : Booted s sections kernelPageTable secondPageTable) :
    Sound s s {s.kernelDirectory} := by
  have lower := booted.lower
  have upper := booted.upper
  have second := booted.second
  have lowFrame : ∀ frame : Frame, 0 < frame.val → frame.val < 2047 → LowFrame frame :=
    fun frame positive below => ⟨fun isZero => by
      rw [isZero] at positive
      exact absurd positive (by decide), below⟩
  refine ⟨booted.pageStructures, tidyTables_of_booted booted, .refl s, ?_, ?_⟩
  · exact kernelSlot_of_lowFrame (lowFrame _ (by omega) (by omega))
  · rw [booted.secondTable]
    exact kernelSlot_of_lowFrame (lowFrame _ (by omega) (by omega))

theorem identityMapped_of_booted {sections : KernelSections} {kernelPageTable secondPageTable : Frame}
    (booted : Booted s sections kernelPageTable secondPageTable) : IdentityMapped s :=
  fun _ low => (booted.addresses_low low.1 low.2).sees

theorem VmmStep.faithful {before after : VmmState} {call : VmmCall}
    (step : VmmStep before call after) (ends : Faithful after.machine) :
    Faithful before.machine := by
  obtain ⟨valid, performed⟩ := step
  have grown := call.grows before.machine
  rw [performed] at grown
  exact fun access member => ends access (grown.subset member)

/-- The calls keep the structures in order, as long as every table that is dereferenced by
its physical address is reached. -/
theorem VmmRun.sound {trace : List (Transition VmmState VmmCall)} {final : VmmState}
    (run : VmmRun start trace final) (initial : Sound start start {start.kernelDirectory})
    (high : ∀ transition ∈ trace, transition.label.High) (faithful : Faithful final.machine) :
    Sound start final.machine final.directories := by
  refine run.invariant_of_mark VmmCall.High (fun state => Sound start state.machine state.directories)
    (fun state => Faithful state.machine) initial (fun step ends => ?_)
    (fun sound before ends isHigh step => ?_) high faithful
  · exact step.faithful ends
  · obtain ⟨valid, performed⟩ := step
    have leads : Leads false (fun _ => True) _ _ _ :=
      VmmCall.leads valid isHigh sound before (fun _ _ => trivial) 0 nofun
    exact ((leads.returns _ _ performed).2 ends).1

theorem VmmRun.single {call : VmmCall} {result : Nat}
    (valid : call.Valid ⟨start, {start.kernelDirectory}⟩)
    (performed : call.perform start = .ok result t) :
    VmmRun start [⟨⟨start, {start.kernelDirectory}⟩, call,
      ⟨t, {start.kernelDirectory} ∪ call.made result t⟩⟩]
      ⟨t, {start.kernelDirectory} ∪ call.made result t⟩ :=
  Run.start.step (VmmStep.returns valid performed)

theorem faithful_of_booted {sections : KernelSections} {kernelPageTable secondPageTable : Frame}
    (booted : Booted s sections kernelPageTable secondPageTable) : Faithful s := by
  unfold Faithful
  rw [booted.direct]
  nofun

/-- The first page that the kernel asks for. -/
theorem newPage_run {sections : KernelSections} {kernelPageTable secondPageTable : Frame}
    (booted : Booted s sections kernelPageTable secondPageTable) :
    ∃ result t, VmmRun s [⟨⟨s, {s.kernelDirectory}⟩,
        .newPage (frameAddress s.kernelDirectory) true false, ⟨t, {s.kernelDirectory} ∪ ∅⟩⟩]
        ⟨t, {s.kernelDirectory} ∪ ∅⟩ ∧ Faithful t ∧
      NewPageResult s {s.kernelDirectory} s.kernelDirectory true false result t := by
  have structures := booted.pageStructures
  have reachable : TablesReachable s s.kernelDirectory searchSlots := by
    intro slot candidate isPresent
    have high : ¬ KernelSlot slot := Nat.not_lt.mpr (mem_searchSlots.mp candidate).1
    rw [booted.absent_of_high high] at isPresent
    cases isPresent
  obtain ⟨result, t, run, newPage⟩ := vmmGetNewPage_cases structures rfl
    structures.kernelDirectory reachable true false
  have performed : (VmmCall.newPage (frameAddress s.kernelDirectory) true false).perform s =
      .ok result t := run
  exact ⟨result, t, .single ⟨_, rfl, structures.kernelDirectory⟩ performed,
    newPage.reached.faithful (faithful_of_booted booted), newPage⟩

theorem samePage_frameAddress {other : Frame} :
    SamePage (frameAddress frame) (frameAddress other) ↔ frame = other := by
  have frameLt := frame.isLt
  have otherLt := other.isLt
  unfold SamePage directoryIndex pageIndex frameAddress pageSize
  rw [Fin.ext_iff, Fin.ext_iff, Fin.ext_iff, Fin.val_ofNat, Fin.val_ofNat, Fin.val_ofNat,
    Fin.val_ofNat]
  omega

/-- Without the page of its second table the kernel cannot open the window. -/
theorem not_readsWalk_of_unmapped (space : Sees s (frameAddress s.kernelDirectory) s.kernelDirectory)
    (isPresent : (tablesOf s.memory s.kernelDirectory (directoryIndex virtual)).present = true)
    (unmapped : Arch.translate s.memory s.kernelDirectory (frameAddress s.secondTable) = none) :
    ¬ ReadsWalk s (frameAddress s.kernelDirectory) s.kernelDirectory virtual := by
  rintro ⟨t, run⟩
  have noted : Arch.translate (s.note s.secondTable none).memory (s.note s.secondTable none).kernelDirectory
    (frameAddress s.secondTable) = none := unmapped
  have stops : ∀ change, assignWindow change s =
      .error ⟨frameAddress s.secondTable⟩ (s.note s.secondTable none) := by
    intro change
    rw [assignWindow, bind_ok (kernelDirectory_ok s), bind_ok (readDirectory_ok space),
      kernelPt1DirIdx]
    refine bind_error ?_
    rw [reachTable_eq]
    show reach (frameAddress s.secondTable) (s.note s.secondTable
      (Arch.translate s.memory s.kernelDirectory (frameAddress s.secondTable))) = _
    rw [unmapped]
    exact reach_error noted
  rw [vmmGetPhysicalAddress, bind_ok (readDirectory_ok space), isPresent, Bool.not_true,
    if_neg Bool.false_ne_true, bind_error (stops _)] at run
  cases run

theorem freeSecondTable_run {sections : KernelSections} {kernelPageTable secondPageTable : Frame}
    (booted : Booted s sections kernelPageTable secondPageTable) :
    ∃ t, VmmRun s [⟨⟨s, {s.kernelDirectory}⟩,
        .freePage (frameAddress s.kernelDirectory) (frameAddress secondPageTable),
        ⟨t, {s.kernelDirectory} ∪ ∅⟩⟩] ⟨t, {s.kernelDirectory} ∪ ∅⟩ ∧ Faithful t ∧
      PageChanged s t {s.kernelDirectory} s.kernelDirectory (frameAddress secondPageTable) none := by
  have structures := booted.pageStructures
  have second := booted.second
  have lower := booted.lower
  have upper := booted.upper
  have slot : directoryIndex (frameAddress secondPageTable) = 1 := by
    unfold directoryIndex frameAddress pageSize
    rw [Fin.ext_iff, Fin.val_ofNat]
    show _ = 1
    omega
  have isPresent : (tablesOf s.memory s.kernelDirectory
      (directoryIndex (frameAddress secondPageTable))).present = true := by
    rw [slot]
    exact structures.laid.isPresent
  have number : (tablesOf s.memory s.kernelDirectory
      (directoryIndex (frameAddress secondPageTable))).frameAddr = s.secondTable := by
    rw [slot]
    rfl
  obtain ⟨t, run, changed⟩ := vmmFreePage_of_present structures rfl structures.kernelDirectory
    isPresent number structures.secondTable.sees
  have performed : (VmmCall.freePage (frameAddress s.kernelDirectory)
      (frameAddress secondPageTable)).perform s = .ok 0 t := by
    rw [VmmCall.perform, bind_ok run]
    rfl
  exact ⟨t, .single ⟨_, rfl, structures.kernelDirectory⟩ performed,
    changed.reached.faithful (faithful_of_booted booted), changed⟩

end KdbOS.Vmm
