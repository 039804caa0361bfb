import KdbOS.Klibc.Kmemory
import KdbOS.Memory.LastFrames
import KdbOS.Proc.ProcessStart
import KdbOS.Proc.Sched

/-! `create_pcb`: a block from the heap, an address space with the code, and the stack. -/

set_option autoImplicit false

namespace KdbOS.Proc

open Library Ds Klibc Pmm Arch Vmm

/-- The heap has a memory of its own: no frame that is handed out meets it. The fields of the
control blocks are kept under their addresses, and not in the bytes of their payloads. -/
structure KernelState where
  machine : Machine
  heapStart : Nat
  heap : Memory
  nextPid : Nat
  pcb : Nat → ProcessControlBlock
  schedNode : Nat → Link (ListNode SchedList Nat)

namespace KernelState

def setMachine (kernel : KernelState) (machine : Machine) : KernelState :=
  { kernel with machine := machine }

def setHeap (kernel : KernelState) (heap : Memory) : KernelState :=
  { kernel with heap := heap }

def setPcb (kernel : KernelState) (pcb : Nat) (block : ProcessControlBlock) : KernelState :=
  { kernel with pcb := Function.update kernel.pcb pcb block }

/-- The assignments to a new block before there is an address space. -/
def startPcb (kernel : KernelState) (pcb : Nat) : KernelState :=
  { kernel with
    nextPid := u32 (kernel.nextPid + 1)
    pcb := Function.update kernel.pcb pcb
      { kernel.pcb pcb with
        pid := kernel.nextPid
        state := .new
        priority := 0
        quantumRemaining := 40
        ageTicks := 0 }
    schedNode := Function.update kernel.schedNode pcb .null }

/-- The kernel while the block is filled. -/
def building (kernel : KernelState) (pcb : Nat) (block : ProcessControlBlock) (machine : Machine) :
    KernelState :=
  (kernel.setPcb pcb block).setMachine machine

theorem building_pcb (kernel : KernelState) (pcb : Nat) (block : ProcessControlBlock)
    (machine : Machine) : (kernel.building pcb block machine).pcb pcb = block :=
  Function.update_self _ _ _

theorem building_self (kernel : KernelState) (pcb : Nat) :
    kernel.building pcb (kernel.pcb pcb) kernel.machine = kernel := by
  unfold building setPcb setMachine
  rw [Function.update_eq_self]

end KernelState

/-- What keeps a call from returning: a page fault, or a list of heap blocks that is longer
than the fuel. -/
inductive Stop where
  | pageFault (fault : PageFault)
  | longList

abbrev KernelM := EStateM Stop KernelState

def onMachine {α : Type} (action : VmmM α) : KernelM α := fun kernel =>
  match action kernel.machine with
  | .ok a machine => .ok a (kernel.setMachine machine)
  | .error fault machine => .error (.pageFault fault) (kernel.setMachine machine)

/-- `sizeof(ProcessControlBlock)`. -/
def pcbSize : Nat := 40

/-- `kmalloc(sizeof(ProcessControlBlock))`. -/
def allocatePcb (fuel : Nat) : KernelM Nat := do
  let kernel ← get
  match kmalloc fuel kernel.heapStart pcbSize kernel.heap with
  | some (pcb, heap) =>
      set (kernel.setHeap heap)
      return pcb
  | none => throw .longList

/-- `kfree(pcb)`. -/
def freePcb (fuel pcb : Nat) : KernelM Unit := do
  let kernel ← get
  match kfree fuel kernel.heapStart pcb kernel.heap with
  | some heap => set (kernel.setHeap heap)
  | none => throw .longList

def assignPcb (pcb : Nat) (change : ProcessControlBlock → ProcessControlBlock) : KernelM Unit :=
  modify fun kernel => kernel.setPcb pcb (change (kernel.pcb pcb))

/-- The address space and the stack. What `vmm_map_frame` returns is not looked at. -/
def buildProcess (pcb entryPoint size : Nat) (isUserProcess cached : Bool) : KernelM Unit := do
  let processAddressSpace ←
    onMachine (vmmCreateVirtualAddressSpace entryPoint size isUserProcess cached)
  assignPcb pcb fun block => { block with addressSpace := processAddressSpace }
  let addressSpacePhysical ← onMachine do
    vmmGetPhysicalAddress (← kernelDirectory) processAddressSpace
  assignPcb pcb fun block => { block with addressSpacePhysical := addressSpacePhysical }
  let (processEsp, stackFramePhysical) ← onMachine (createProcessStack 0xC0000000)
  let addressSpace := ((← get).pcb pcb).addressSpace
  let _ ← onMachine (vmmMapFrame addressSpace processStackPage (stackFramePhysical.getD 0) true
    isUserProcess cached)
  assignPcb pcb fun block => { block with kernelStackPtr := processEsp }

/-- Without a stack the block is given back. -/
def finishPcb (fuel pcb : Nat) : KernelM Nat := do
  if ((← get).pcb pcb).kernelStackPtr = 0 then
    freePcb fuel pcb
    return 0
  else
    assignPcb pcb fun block => { block with state := .ready }
    return pcb

/-- NULL is 0. -/
def createPcb (fuel entryPoint size : Nat) (isUserProcess cached : Bool) : KernelM Nat := do
  let pcb ← allocatePcb fuel
  if pcb = 0 then return 0
  else
    modify fun kernel => kernel.startPcb pcb
    buildProcess pcb entryPoint size isUserProcess cached
    finishPcb fuel pcb

variable {α β : Type} {kernel after : KernelState} {a : α} {b : β}
variable {fuel pcb pointer entryPoint size : Nat} {isUserProcess cached : Bool}

/-! ## Sequencing -/

theorem kernel_bind_ok {action : KernelM α} {next : α → KernelM β}
    (run : action kernel = .ok a after) : (action >>= next) kernel = next a after := by
  show EStateM.bind action next kernel = _
  rw [EStateM.bind, run]

theorem kernel_bind_error {action : KernelM α} {next : α → KernelM β} {stop : Stop}
    (run : action kernel = .error stop after) : (action >>= next) kernel = .error stop after := by
  show EStateM.bind action next kernel = _
  rw [EStateM.bind, run]

theorem kernel_bind_eq_ok {action : KernelM α} {next : α → KernelM β}
    (run : (action >>= next) kernel = .ok b after) :
    ∃ a between, action kernel = .ok a between ∧ next a between = .ok b after := by
  cases first : action kernel with
  | ok a between => exact ⟨a, between, rfl, (kernel_bind_ok first).symm.trans run⟩
  | error stop between =>
      rw [kernel_bind_error first] at run
      cases run

theorem kernel_get_ok (kernel : KernelState) :
    (get : KernelM KernelState) kernel = .ok kernel kernel :=
  rfl

section Building

variable {block : ProcessControlBlock} {machine : Machine} {action : VmmM α}

theorem onMachine_ok {t : Machine} (run : action machine = .ok a t) :
    onMachine action (kernel.building pcb block machine) = .ok a (kernel.building pcb block t) := by
  have same : action (kernel.building pcb block machine).machine = .ok a t := run
  rw [onMachine, same]
  rfl

theorem onMachine_error {fault : PageFault} {t : Machine} (run : action machine = .error fault t) :
    onMachine action (kernel.building pcb block machine) =
      .error (.pageFault fault) (kernel.building pcb block t) := by
  have same : action (kernel.building pcb block machine).machine = .error fault t := run
  rw [onMachine, same]
  rfl

theorem onMachine_eq_ok
    (run : onMachine action (kernel.building pcb block machine) = .ok a after) :
    ∃ t, action machine = .ok a t ∧ after = kernel.building pcb block t := by
  cases first : action machine with
  | ok result t =>
      rw [onMachine_ok first] at run
      cases run
      exact ⟨t, rfl, rfl⟩
  | error fault t =>
      rw [onMachine_error first] at run
      cases run

theorem assignPcb_ok (change : ProcessControlBlock → ProcessControlBlock) :
    assignPcb pcb change (kernel.building pcb block machine) =
      .ok () (kernel.building pcb (change block) machine) := by
  show EStateM.Result.ok () ((kernel.building pcb block machine).setPcb pcb
    (change ((kernel.building pcb block machine).pcb pcb))) = _
  rw [KernelState.building_pcb]
  unfold KernelState.building KernelState.setPcb KernelState.setMachine
  rw [Function.update_idem]

end Building

/-! ## The calls behind a block -/

/-- Four calls, one after another, on the machine. -/
def ProcessCalls (s t : Machine) (entryPoint size : Nat) (isUserProcess cached : Bool)
    (space physical esp : Nat) : Prop :=
  ∃ created read stacked stack mapped,
    vmmCreateVirtualAddressSpace entryPoint size isUserProcess cached s = .ok space created ∧
    vmmGetPhysicalAddress (frameAddress created.kernelDirectory) space created = .ok physical read ∧
    createProcessStack 0xC0000000 read = .ok (esp, stack) stacked ∧
    vmmMapFrame space processStackPage (stack.getD 0) true isUserProcess cached stacked =
      .ok mapped t

theorem allocatePcb_eq_ok (run : allocatePcb fuel kernel = .ok pointer after) :
    ∃ heap, kmalloc fuel kernel.heapStart pcbSize kernel.heap = some (pointer, heap) ∧
      after = kernel.setHeap heap := by
  unfold allocatePcb at run
  rw [kernel_bind_ok (kernel_get_ok kernel)] at run
  cases allocated : kmalloc fuel kernel.heapStart pcbSize kernel.heap with
  | none =>
      rw [allocated] at run
      cases run
  | some result =>
      rw [allocated] at run
      cases run
      exact ⟨_, rfl, rfl⟩

theorem buildProcess_eq_ok
    (run : buildProcess pcb entryPoint size isUserProcess cached kernel = .ok () after) :
    ∃ space physical esp machine,
      ProcessCalls kernel.machine machine entryPoint size isUserProcess cached space physical esp ∧
      after = kernel.building pcb { kernel.pcb pcb with
        addressSpace := space
        addressSpacePhysical := physical
        kernelStackPtr := esp } machine := by
  unfold buildProcess at run
  rw [← kernel.building_self pcb] at run
  obtain ⟨space, _, create, run⟩ := kernel_bind_eq_ok run
  obtain ⟨created, spaceMade, rfl⟩ := onMachine_eq_ok create
  rw [kernel_bind_ok (assignPcb_ok _)] at run
  obtain ⟨physical, _, translate, run⟩ := kernel_bind_eq_ok run
  obtain ⟨read, translated, rfl⟩ := onMachine_eq_ok translate
  rw [bind_ok (kernelDirectory_ok created)] at translated
  rw [kernel_bind_ok (assignPcb_ok _)] at run
  obtain ⟨⟨esp, stack⟩, _, makeStack, run⟩ := kernel_bind_eq_ok run
  obtain ⟨stacked, stackMade, rfl⟩ := onMachine_eq_ok makeStack
  dsimp only at run
  rw [kernel_bind_ok (kernel_get_ok _), KernelState.building_pcb] at run
  obtain ⟨mapped, _, map, run⟩ := kernel_bind_eq_ok run
  obtain ⟨machine, entered, rfl⟩ := onMachine_eq_ok map
  rw [assignPcb_ok] at run
  cases run
  exact ⟨space, physical, esp, machine,
    ⟨created, read, stacked, stack, mapped, spaceMade, translated, stackMade, entered⟩, rfl⟩

/-- The block that is returned has been filled from the results of the calls. -/
theorem createPcb_eq_ok
    (run : createPcb fuel entryPoint size isUserProcess cached kernel = .ok pointer after)
    (notNull : pointer ≠ 0) :
    ∃ space physical esp,
      ProcessCalls kernel.machine after.machine entryPoint size isUserProcess cached space physical
        esp ∧
      esp ≠ 0 ∧ after.pcb pointer = createdPcb kernel.nextPid space physical esp := by
  unfold createPcb at run
  obtain ⟨pcb, _, allocate, run⟩ := kernel_bind_eq_ok run
  obtain ⟨heap, _, rfl⟩ := allocatePcb_eq_ok allocate
  by_cases isNull : pcb = 0
  · rw [if_pos isNull] at run
    cases run
    exact absurd rfl notNull
  rw [if_neg isNull] at run
  obtain ⟨_, started, start, run⟩ := kernel_bind_eq_ok run
  cases start
  obtain ⟨_, _, build, run⟩ := kernel_bind_eq_ok run
  obtain ⟨space, physical, esp, machine, calls, rfl⟩ := buildProcess_eq_ok build
  unfold finishPcb at run
  rw [kernel_bind_ok (kernel_get_ok _), KernelState.building_pcb] at run
  by_cases noStack : esp = 0
  · rw [if_pos noStack] at run
    obtain ⟨_, _, _, run⟩ := kernel_bind_eq_ok run
    cases run
    exact absurd rfl notNull
  rw [if_neg noStack, kernel_bind_ok (assignPcb_ok _)] at run
  cases run
  refine ⟨space, physical, esp, calls, noStack, ?_⟩
  rw [KernelState.building_pcb]
  simp [createdPcb, KernelState.startPcb, KernelState.setHeap]

/-! ## What the calls leave -/

variable {start s t : Machine} {directories : Set Frame} {directory : Frame}
variable {space physical esp : Nat} {isUser : Bool}

/-- An address space with its code, and a stack that has been filled and is entered last. -/
inductive ProcessResult (s : Machine) (directories : Set Frame) (entryPoint size : Nat)
    (isUser : Bool) : Nat → Frame → Machine → Prop where
  | built {made shared created read stacked t : Machine} {space : Nat} {directory stack : Frame}
      {table : Option Frame} {answer : Bool} :
      IsLeast {address | address ∈ NewPageRange ∧
        walk s.memory s.kernelDirectory address = none} space →
      NewPage s made directories s.kernelDirectory space true false directory table →
      FrameWritten made shared directory →
      SharesKernel shared directory →
      CodePages (insert directory directories) directory entryPoint size isUser shared
        (List.range (numCodePages size)) true created →
      WindowUsed created read →
      StackResult read (insert directory directories) 0xC0000000
        (0xC0001FD8, some (frameAddress stack)) stacked →
      MapFrameResult stacked (insert directory directories) directory processStackPage
        (frameAddress stack) true isUser answer t →
      (answer = false → Starved stacked) →
      ProcessResult s directories entryPoint size isUser space directory t

theorem faithful_of_grows {action : VmmM α} (grows : Grows action) (run : action s = .ok a t)
    (ends : Faithful t) : Faithful s := by
  have grown := grows s
  rw [run] at grown
  exact fun access member => ends access (grown.subset member)

/-- The page at address 0 stays without a frame, so that NULL is no address space. -/
theorem not_mapFrame_null {virtual physicalFrame : Nat} {isWriteable mapped : Bool}
    (sound : Sound start s directories) (null : walk start.memory start.kernelDirectory 0 = none) :
    vmmMapFrame 0 virtual physicalFrame isWriteable isUser cached s ≠ .ok mapped t := by
  intro run
  have unmapped : walk s.memory s.kernelDirectory 0 = none := by
    rw [sound.low.kernelDirectory]
    exact (sound.low.walks 0 0 (by decide) (by unfold WindowPage; decide)).trans null
  have fault : reach 0 s = .error ⟨0⟩ s := reach_error (by rw [Arch.translate, unmapped]; rfl)
  rw [vmmMapFrame, readDirectory] at run
  rw [bind_error (bind_error fault)] at run
  cases run

section Returned

variable (sound : Sound start s directories) (ends : Faithful t)

include sound ends

theorem createResult_of_run
    (run : vmmCreateVirtualAddressSpace entryPoint size isUser cached s = .ok space t)
    (bounded : size ≤ 0x40000000) :
    CreateResult s directories entryPoint size isUser (List.range (numCodePages size)) space t := by
  have faithful := faithful_of_grows (.vmmCreateVirtualAddressSpace _ _ _ _) run ends
  have noRoom : false = true → TablesLow start s directories (0 + 4 * numCodePages size + 2) := nofun
  have leads : Leads false (fun _ => True)
      (vmmCreateVirtualAddressSpace entryPoint size isUser cached) s _ :=
    vmmCreateVirtualAddressSpace_leads sound faithful nofun noRoom bounded
  exact (leads.returns _ _ run).2 ends

theorem stackResult_of_run {entry : UInt32} {returned : Nat × Option Nat}
    (run : createProcessStack entry s = .ok returned t) :
    StackResult s directories entry returned t := by
  have faithful := faithful_of_grows (grows_createProcessStack entry) run ends
  have noRoom : false = true → TablesLow start s directories (0 + 2) := nofun
  have leads : Leads false (fun _ => True) (createProcessStack entry) s _ :=
    createProcessStack_leads sound faithful noRoom
  exact (leads.returns _ _ run).2 ends

theorem mapFrameResult_of_run {virtual physicalFrame : Nat} {isWriteable mapped : Bool}
    (run : vmmMapFrame pointer virtual physicalFrame isWriteable isUser cached s = .ok mapped t)
    (member : directory ∈ directories) (notKernel : directory ≠ s.kernelDirectory)
    (addresses : Addresses s pointer directory) :
    MapFrameResult s directories directory virtual physicalFrame isWriteable isUser mapped t := by
  have faithful := faithful_of_grows (.vmmMapFrame _ _ _ _ _ _) run ends
  have leads : Leads false (fun _ => True)
      (vmmMapFrame pointer virtual physicalFrame isWriteable isUser cached) s _ :=
    vmmMapFrame_leads sound.structures member addresses faithful nofun nofun
      fun same => absurd same.symm notKernel
  exact (leads.returns _ _ run).2 ends

theorem vmmGetPhysicalAddress_of_run {virtual : Nat}
    (run : vmmGetPhysicalAddress (frameAddress s.kernelDirectory) virtual s = .ok physical t) :
    t = s ∨ WindowUsed s t := by
  have faithful := faithful_of_grows (.vmmGetPhysicalAddress _ _) run ends
  have leads : Leads false (fun _ => True)
      (vmmGetPhysicalAddress (frameAddress s.kernelDirectory) virtual) s _ :=
    vmmGetPhysicalAddress_leads sound.structures sound.structures.kernelDirectory faithful
  exact (leads.returns _ _ run).2 ends

end Returned

theorem ProcessCalls.faithful
    (calls : ProcessCalls s t entryPoint size isUser cached space physical esp)
    (ends : Faithful t) : Faithful s := by
  obtain ⟨created, read, stacked, stack, mapped, create, translate, makeStack, map⟩ := calls
  have stackedFaithful := faithful_of_grows (.vmmMapFrame _ _ _ _ _ _) map ends
  have readFaithful := faithful_of_grows (grows_createProcessStack _) makeStack stackedFaithful
  have createdFaithful := faithful_of_grows (.vmmGetPhysicalAddress _ _) translate readFaithful
  exact faithful_of_grows (.vmmCreateVirtualAddressSpace _ _ _ _) create createdFaithful

/-- Without an address space there is no block. -/
theorem ProcessCalls.not_null
    (sound : Sound start s directories) (null : walk start.memory start.kernelDirectory 0 = none)
    {read stacked : Machine} {entry : UInt32} {returned : Nat × Option Nat}
    {virtual physicalFrame : Nat} {isWriteable mapped : Bool}
    (translate : vmmGetPhysicalAddress (frameAddress s.kernelDirectory) 0 s = .ok physical read)
    (makeStack : createProcessStack entry read = .ok returned stacked)
    (map : vmmMapFrame 0 virtual physicalFrame isWriteable isUser cached stacked = .ok mapped t)
    (ends : Faithful t) : False := by
  have stackedFaithful := faithful_of_grows (.vmmMapFrame _ _ _ _ _ _) map ends
  have readFaithful := faithful_of_grows (grows_createProcessStack _) makeStack stackedFaithful
  have readSound : Sound start read directories := by
    rcases vmmGetPhysicalAddress_of_run sound readFaithful translate with rfl | used
    · exact sound
    · exact sound.windowUsed used
  have stackedSound := (stackResult_of_run readSound stackedFaithful makeStack).sound readSound
  exact not_mapFrame_null stackedSound null map

theorem ProcessCalls.result
    (calls : ProcessCalls s t entryPoint size isUser cached space physical esp)
    (sound : Sound start s directories) (null : walk start.memory start.kernelDirectory 0 = none)
    (ends : Faithful t) (bounded : size ≤ 0x40000000) (notNull : esp ≠ 0) :
    ∃ directory, physical = frameAddress directory ∧ esp = 0xC0001FD8 ∧
      ProcessResult s directories entryPoint size isUser space directory t := by
  obtain ⟨created, read, stacked, stack, mapped, create, translate, makeStack, map⟩ := calls
  have stackedFaithful := faithful_of_grows (.vmmMapFrame _ _ _ _ _ _) map ends
  have readFaithful := faithful_of_grows (grows_createProcessStack _) makeStack stackedFaithful
  have createdFaithful := faithful_of_grows (.vmmGetPhysicalAddress _ _) translate readFaithful
  cases createResult_of_run sound createdFaithful create bounded with
  | failed _ newPage => exact (not_null (sound.newPage newPage) null translate makeStack map ends).elim
  | @built made shared _ pointer directory table answer least newPage written shares pages =>
      have high := highRounds bounded
      have sharedSound := sound.shared least newPage written shares
      have createdSound := pages.sound sharedSound high
      have notKernel := newPage.notKernel sound written
      cases answer with
      | false => exact (not_null createdSound null translate makeStack map ends).elim
      | true =>
          have addresses := pages.addresses sharedSound notKernel high
            (newPage.addresses_shared sound least written)
          obtain ⟨entry, found, isDirectory⟩ := Option.map_eq_some_iff.mp addresses.sees
          obtain ⟨again, translated, used⟩ := vmmGetPhysicalAddress_of_walk createdSound.structures
            createdSound.kernel createdSound.structures.kernelDirectory found addresses.apart
          have same := translated.symm.trans translate
          rw [EStateM.Result.ok.injEq] at same
          obtain ⟨isPhysical, rfl⟩ := same
          have readSound := createdSound.windowUsed used
          have stackResult := stackResult_of_run readSound stackedFaithful makeStack
          have readAddresses := used.addresses createdSound.structures addresses
          have stackedSound := stackResult.sound readSound
          have stackedNotKernel := sharedSound.notKernel stackedSound notKernel
          have stackedAddresses := (stackResult.extended readSound directory).addresses readAddresses
          cases stack with
          | none =>
              cases stackResult with
              | failed => exact absurd rfl notNull
          | some stackPhysical =>
              obtain ⟨stack, rfl, rfl, _⟩ := stackResult.of_frame readSound
              have mapResult := mapFrameResult_of_run stackedSound ends map (.inl rfl) stackedNotKernel
                stackedAddresses
              have fails := starved_of_false stackedAddresses.sees
                stackedSound.structures.kernelDirectory.sees map ends
              refine ⟨directory, ?_, rfl, .built least newPage written shares pages used stackResult
                mapResult fails⟩
              rw [← isPhysical, isDirectory]

end KdbOS.Proc
