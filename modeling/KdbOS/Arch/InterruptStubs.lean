import KdbOS.Arch.Cpu
import KdbOS.Arch.Descriptors

/-! `interrupts.asm`: the 256 stubs, between the gate through which the processor enters them
and the `iret` with which they end. No privilege level is changed on the way: the kernel has no
task state segment. -/

set_option autoImplicit false

namespace KdbOS.Arch

open Library

/-- The segment registers that the stubs load. -/
inductive DataSegment where
  | ds | es | fs | gs
  deriving DecidableEq, Repr

/-- All segments in use are flat, so that offsets are linear addresses. -/
structure Processor where
  cpu : Cpu
  cs : UInt16
  data : DataSegment → UInt16

inductive StubInstruction where
  | general (instruction : Instruction)
  | pushImmediate (value : UInt32)
  | push (source : Register)
  | popEax
  /-- `mov ax, ds` -/
  | movAxDs
  | movAx (value : UInt16)
  /-- `mov dest, ax` -/
  | movSegment (dest : DataSegment)
  | addEsp (bytes : UInt32)
  | callMasterExceptionHandler
  | iret
  deriving DecidableEq, Repr

open StubInstruction in
def commonStubHandler : List StubInstruction :=
  [general .pusha,
    movAxDs, push .eax,
    movAx 0x10, movSegment .ds, movSegment .es, movSegment .fs, movSegment .gs,
    push .esp, callMasterExceptionHandler, addEsp 4,
    popEax, movSegment .ds, movSegment .es, movSegment .fs, movSegment .gs,
    general .popa,
    addEsp 8, iret]

/-- The condition of the `%if` that chooses `ISR_ERRCODE`. -/
def isrErrCode (i : Nat) : Bool :=
  i == 8 || (i ≥ 10 && i ≤ 14) || i == 17 || i == 21 || i == 29 || i == 30

/-- `exception_stub_i`, with the code that it jumps to. -/
def exceptionStub (i : Nat) : List StubInstruction :=
  if isrErrCode i then .pushImmediate (UInt32.ofNat i) :: commonStubHandler
  else .pushImmediate 0 :: .pushImmediate (UInt32.ofNat i) :: commonStubHandler

/-- The exceptions for which the processor pushes an error code. -/
def errorCodeVectors : List Nat := [8, 10, 11, 12, 13, 14, 17, 21, 29, 30]

/-- An exception or an external interrupt. -/
structure InterruptDelivery where
  vector : Fin 256
  errorCode : Option UInt32
  /-- Faults have the resume flag set in the image of EFLAGS. -/
  resume : Bool
  hasErrorCode : errorCode.isSome = true ↔ vector.val ∈ errorCodeVectors

/-- The image of EFLAGS that is pushed. -/
def InterruptDelivery.image (delivery : InterruptDelivery) (eflags : Eflags) : UInt32 :=
  if delivery.resume then eflags.value ||| 0x10000 else eflags.value

/-- An interrupt gate clears TF, IF and NT. -/
def Eflags.entered (eflags : Eflags) : Eflags := .ofWord (eflags.value &&& ~~~0x4300)

/-- Data, or code that can be read. Only code that conforms may have a higher privilege than the
selector's and the current one. -/
def Segment.loadable (segment : Segment) (privilege : Nat) : Bool :=
  segment.present && segment.ordinary && (!segment.executable || segment.readable) &&
    (segment.executable && segment.conforming || decide (privilege ≤ segment.privilege))

/-- Code that does not conform, of the current privilege. -/
def Segment.runnable (segment : Segment) (privilege : Nat) : Bool :=
  segment.present && segment.ordinary && segment.executable && !segment.conforming &&
    decide (segment.privilege = privilege)

/-- What is in force around the stubs. -/
structure InterruptSystem (Handler : Type) where
  pages : UInt32 → Paging
  segments : Nat → Option Segment
  gates : Nat → Option Gate
  /-- The stub that starts at an address. -/
  stubAt : UInt32 → Option (List StubInstruction)
  /-- Behind the `call`. -/
  returnAddress : UInt32
  /-- The flags after an addition. -/
  addFlags : UInt32 → UInt32 → Eflags → Eflags
  /-- What the load from the table of a vector gives. -/
  handlerFor : UInt32 → Option Handler
  /-- `master_exception_handler` as compiled, from its first instruction until it has returned,
  where the load gives this handler. -/
  masterExceptionHandler : Option Handler → Processor → Option Processor

namespace Processor

def setCpu (processor : Processor) (cpu : Cpu) : Processor := { processor with cpu := cpu }

/-- The current privilege level. -/
def privilege (processor : Processor) : Nat := processor.cs.toNat % 4

def setData (processor : Processor) (dest : DataSegment) (selector : UInt16) : Processor :=
  { processor with data := Function.update processor.data dest selector }

section Exec

variable {Handler : Type} (system : InterruptSystem Handler)

/-- A null selector can be loaded into a data segment register. -/
def loadableSelector (privilege : Nat) (selector : UInt16) : Bool :=
  selector.toNat / 4 = 0 ||
    (system.segments selector.toNat).any (·.loadable (max privilege (selector.toNat % 4)))

/-- The lower half of `eax`. -/
def ax (processor : Processor) : UInt16 := (processor.cpu.registers .eax).toUInt16

def setAx (processor : Processor) (value : UInt16) : Processor :=
  processor.setCpu (processor.cpu.set .eax
    (processor.cpu.registers .eax &&& 0xFFFF0000 ||| value.toUInt32))

/-- The handler that is called depends on `regs->interrupt_number`. -/
def callHandler (processor : Processor) : Option Processor := do
  let cpu ← processor.cpu.push system.pages system.returnAddress
  let regs ← (system.pages cpu.cr3).load cpu.memory (cpu.registers .esp + 4)
  let vector ← (system.pages cpu.cr3).load cpu.memory (regs + 36)
  system.masterExceptionHandler (system.handlerFor vector) (processor.setCpu cpu)

/-- A return to the same privilege level. -/
def interruptReturn (processor : Processor) : Option Processor := do
  let (eip, cpu) ← processor.cpu.pop system.pages
  let (cs, cpu) ← cpu.pop system.pages
  let (image, cpu) ← cpu.pop system.pages
  let segment ← system.segments cs.toUInt16.toNat
  if processor.privilege = 0 ∧ cs.toUInt16.toNat % 4 = 0 ∧ segment.runnable 0 = true then
    some { processor with
      cpu := { cpu with eip := eip, eflags := .ofWord image }, cs := cs.toUInt16 }
  else none

def exec (instruction : StubInstruction) (processor : Processor) : Option Processor :=
  match instruction with
  | .general instruction => (processor.cpu.exec system.pages instruction).map processor.setCpu
  | .pushImmediate value => (processor.cpu.push system.pages value).map processor.setCpu
  | .push source =>
      (processor.cpu.push system.pages (processor.cpu.registers source)).map processor.setCpu
  | .popEax => do
      let (word, cpu) ← processor.cpu.pop system.pages
      some (processor.setCpu (cpu.set .eax word))
  | .movAxDs => some (processor.setAx (processor.data .ds))
  | .movAx value => some (processor.setAx value)
  | .movSegment dest =>
      if loadableSelector system processor.privilege processor.ax then
        some (processor.setData dest processor.ax)
      else none
  | .addEsp bytes =>
      let cpu := processor.cpu
      some (processor.setCpu { cpu.set .esp (cpu.registers .esp + bytes) with
        eflags := system.addFlags (cpu.registers .esp) bytes cpu.eflags })
  | .callMasterExceptionHandler => processor.callHandler system
  | .iret => processor.interruptReturn system

def run (program : List StubInstruction) (processor : Processor) : Option Processor :=
  program.foldlM (fun processor instruction => processor.exec system instruction) processor

/-- What the processor pushes on its way through a gate. -/
def entryWords (processor : Processor) (delivery : InterruptDelivery) : List UInt32 :=
  [delivery.image processor.cpu.eflags, processor.cs.toUInt32, processor.cpu.eip] ++
    delivery.errorCode.toList

/-- Through the gate of a vector. -/
def enter (delivery : InterruptDelivery) (processor : Processor) : Option Processor := do
  let gate ← system.gates delivery.vector
  let segment ← system.segments gate.selector
  if gate.present ∧ gate.interrupt32 ∧ segment.runnable processor.privilege then
    let cpu ← processor.cpu.pushAll system.pages (processor.entryWords delivery)
    some { processor with
      cpu := { cpu with eip := UInt32.ofNat gate.offset, eflags := cpu.eflags.entered }
      cs := UInt16.ofNat (gate.selector / 4 * 4 + processor.privilege) }
  else none

/-- From the interrupted instruction to the instruction at which it goes on. -/
def interrupt (delivery : InterruptDelivery) (processor : Processor) : Option Processor := do
  let entered ← processor.enter system delivery
  let stub ← system.stubAt entered.cpu.eip
  entered.run system stub

end Exec

end Processor

/-! ## Pushes that find their pages -/

namespace Cpu

variable {pages : UInt32 → Paging} {cpu after : Cpu} {word : UInt32} {words placed : List UInt32}
variable {count : Nat}

/-- The pages of the words below the top of the stack are mapped. -/
def Room (pages : UInt32 → Paging) (cpu : Cpu) (count : Nat) : Prop :=
  ∀ offset : UInt32, 0 < offset.toNat → offset.toNat ≤ 4 * count →
    ((pages cpu.cr3).locate (cpu.registers .esp - offset)).isSome = true

theorem Room.mono {fewer : Nat} (room : Room pages cpu count) (less : fewer ≤ count) :
    Room pages cpu fewer :=
  fun offset positive below => room offset positive (by omega)

private theorem storeByte_isSome {paging : Paging} {address : UInt32}
    (mapped : (paging.locate address).isSome = true) (memory : Memory) (value : UInt8) :
    ∃ after, paging.storeByte memory address value = some after := by
  obtain ⟨place, found⟩ := Option.isSome_iff_exists.mp mapped
  exact ⟨_, by rw [Paging.storeByte, found]; rfl⟩

theorem Room.push (room : Room pages cpu (count + 1)) (few : count < 1000) (word : UInt32) :
    ∃ after, cpu.push pages word = some after ∧ Room pages after count := by
  have four : (4 : UInt32).toNat = 4 := rfl
  have mapped : ∀ offset : UInt32, offset.toNat < 4 →
      ((pages cpu.cr3).locate (cpu.registers .esp - 4 + offset)).isSome = true := by
    intro offset small
    have distance : (4 - offset).toNat = 4 - offset.toNat :=
      UInt32.toNat_sub_of_le _ _ (UInt32.le_iff_toNat_le.mpr (by omega))
    have place : cpu.registers .esp - 4 + offset = cpu.registers .esp - (4 - offset) := by grind
    rw [place]
    exact room _ (by omega) (by omega)
  have start := mapped 0 (by decide)
  rw [UInt32.add_zero] at start
  obtain ⟨first, isFirst⟩ := storeByte_isSome start cpu.memory (UInt8.ofNat word.toNat)
  obtain ⟨second, isSecond⟩ := storeByte_isSome (mapped 1 (by decide)) first
    (UInt8.ofNat (word.toNat / 256))
  obtain ⟨third, isThird⟩ := storeByte_isSome (mapped 2 (by decide)) second
    (UInt8.ofNat (word.toNat / 65536))
  obtain ⟨fourth, isFourth⟩ := storeByte_isSome (mapped 3 (by decide)) third
    (UInt8.ofNat (word.toNat / 16777216))
  have stored : (pages cpu.cr3).store cpu.memory (cpu.registers .esp - 4) word = some fourth := by
    simp only [Paging.store, isFirst, isSecond, isThird, isFourth, Option.bind_eq_bind,
      Option.bind_some]
  refine ⟨{ cpu.set .esp (cpu.registers .esp - 4) with memory := fourth }, ?_, ?_⟩
  · rw [Cpu.push, stored]
    rfl
  · intro offset positive below
    have sum : (4 + offset).toNat = 4 + offset.toNat := by
      rw [UInt32.toNat_add]
      omega
    have place : cpu.registers .esp - 4 - offset = cpu.registers .esp - (4 + offset) := by grind
    have top : (cpu.set .esp (cpu.registers .esp - 4)).registers .esp = cpu.registers .esp - 4 :=
      set_registers_self _ _ _
    show ((pages cpu.cr3).locate
      ((cpu.set .esp (cpu.registers .esp - 4)).registers .esp - offset)).isSome = true
    rw [top, place]
    exact room _ (by omega) (by omega)

theorem Room.pushAll (room : Room pages cpu (words.length + count))
    (few : words.length + count < 1000) :
    ∃ after, cpu.pushAll pages words = some after ∧ Room pages after count := by
  induction words generalizing cpu with
  | nil => exact ⟨cpu, rfl, room.mono (Nat.le_add_left _ _)⟩
  | cons word words ih =>
      rw [List.length_cons] at room few
      obtain ⟨middle, pushed, rest⟩ :=
        (room.mono (by omega) : Room pages cpu (words.length + count + 1)).push (by omega) word
      obtain ⟨after, run, last⟩ := ih rest (by omega)
      exact ⟨after, by rw [Cpu.pushAll, List.foldlM_cons, pushed]; exact run, last⟩

theorem OnStack.set {register : Register} (onStack : OnStack pages cpu words)
    (notEsp : register ≠ .esp) (value : UInt32) : OnStack pages (cpu.set register value) words := by
  unfold OnStack
  rw [set_registers_of_ne notEsp.symm]
  exact onStack

theorem Room.set {register : Register} (room : Room pages cpu count) (notEsp : register ≠ .esp)
    (value : UInt32) : Room pages (cpu.set register value) count := by
  unfold Room
  rw [set_registers_of_ne notEsp.symm]
  exact room

end Cpu

/-! ## The frame -/

/-- The fields of `CpuRegisters`. -/
inductive RegistersField where
  | ds | edi | esi | ebp | esp | ebx | edx | ecx | eax | interruptNumber | errorCode
  | eip | cs | eflags | useresp | ss
  deriving DecidableEq, Repr

namespace RegistersField

/-- In the order of the structure. -/
def all : List RegistersField :=
  [.ds, .edi, .esi, .ebp, .esp, .ebx, .edx, .ecx, .eax, .interruptNumber, .errorCode,
    .eip, .cs, .eflags, .useresp, .ss]

def offset (field : RegistersField) : Nat := 4 * all.idxOf field

/-- The last two are pushed only when the privilege changes. -/
def pushed : List RegistersField := all.take 14

end RegistersField

abbrev CpuRegisters := RegistersField → UInt32

/-- What is in the frame of an interrupt; `above` is what lay on the stack before. -/
def interruptedRegisters (delivery : InterruptDelivery) (processor : Processor)
    (above : RegistersField → UInt32) : CpuRegisters
  | .ds => processor.cpu.registers .eax &&& 0xFFFF0000 ||| (processor.data .ds).toUInt32
  | .edi => processor.cpu.registers .edi
  | .esi => processor.cpu.registers .esi
  | .ebp => processor.cpu.registers .ebp
  | .esp => processor.cpu.registers .esp - 20
  | .ebx => processor.cpu.registers .ebx
  | .edx => processor.cpu.registers .edx
  | .ecx => processor.cpu.registers .ecx
  | .eax => processor.cpu.registers .eax
  | .interruptNumber => UInt32.ofNat delivery.vector
  | .errorCode => delivery.errorCode.getD 0
  | .eip => processor.cpu.eip
  | .cs => processor.cs.toUInt32
  | .eflags => delivery.image processor.cpu.eflags
  | field => above field

/-- The pushed part of the frame. -/
def frameWords (delivery : InterruptDelivery) (processor : Processor) : List UInt32 :=
  RegistersField.pushed.map (interruptedRegisters delivery processor fun _ => 0)

namespace Processor

variable {Handler : Type} {system : InterruptSystem Handler} {delivery : InterruptDelivery}
variable {processor middle after : Processor} {words placed : List UInt32} {count : Nat}
variable {idtStubTable : Vector UInt32 idtEntries} {stub : UInt32}

/-- Words have been pushed since the interrupt, and nothing else has happened in the stub. -/
structure Entered (system : InterruptSystem Handler) (processor middle : Processor)
    (words placed : List UInt32) (count : Nat) : Prop where
  onStack : Cpu.OnStack system.pages middle.cpu (words.reverse ++ placed)
  registers : ∀ register ≠ .esp, middle.cpu.registers register = processor.cpu.registers register
  esp : middle.cpu.registers .esp + UInt32.ofNat (4 * words.length) = processor.cpu.registers .esp
  eflags : middle.cpu.eflags = processor.cpu.eflags.entered
  cr3 : middle.cpu.cr3 = processor.cpu.cr3
  cs : middle.cs = 0x08
  data : middle.data = processor.data
  room : Cpu.Room system.pages middle.cpu count

theorem entryWords_length (processor : Processor) (delivery : InterruptDelivery) :
    (processor.entryWords delivery).length ≤ 4 := by
  rw [entryWords, List.length_append]
  cases delivery.errorCode with
  | none => exact Nat.le_succ 3
  | some code => exact Nat.le_refl 4

theorem enter_entered (inForce : InForce system.segments system.gates idtStubTable)
    (kernelMode : processor.cs = 0x08) (isStub : idtStubTable[delivery.vector.val]? = some stub)
    (onStack : Cpu.OnStack system.pages processor.cpu placed) (few : placed.length ≤ 900)
    (room : Cpu.Room system.pages processor.cpu
      ((processor.entryWords delivery).length + count)) (fits : count ≤ 100) :
    ∃ middle, processor.enter system delivery = some middle ∧ middle.cpu.eip = stub ∧
      Entered system processor middle (processor.entryWords delivery) placed count := by
  have gate : system.gates delivery.vector = some (bootGate stub) := by
    rw [inForce.gates, isStub]
    rfl
  have segment : system.segments (bootGate stub).selector = some (flatSegment 0x9A) :=
    inForce.segments 0x08
  have opens : (bootGate stub).present = true ∧ (bootGate stub).interrupt32 = true ∧
      (flatSegment 0x9A).runnable 0 = true := by
    refine ⟨?_, ?_, by decide⟩
    · simp [Gate.present, bootGate]
    · simp [Gate.interrupt32, bootGate]
  have selector : UInt16.ofNat ((bootGate stub).selector / 4 * 4 + 0) = 0x08 := by
    simp [bootGate]
  have privilege : processor.privilege = 0 := by
    rw [Processor.privilege, kernelMode]
    rfl
  have length := entryWords_length processor delivery
  obtain ⟨cpu, pushes, left⟩ := room.pushAll (by omega)
  have pushed := Cpu.pushAll_pushed onStack (by omega) pushes
  let entered : Processor :=
    { processor with
      cpu := { cpu with eip := UInt32.ofNat stub.toNat, eflags := cpu.eflags.entered }
      cs := 0x08 }
  refine ⟨entered, ?_, UInt32.ofNat_toNat, pushed.onStack, pushed.registers, pushed.esp,
    congrArg Eflags.entered pushed.eflags, pushed.cr3, rfl, rfl, left⟩
  rw [enter, gate, Option.bind_eq_bind, Option.bind_some, segment, Option.bind_eq_bind,
    Option.bind_some, privilege, if_pos opens, pushes,
    selector]
  rfl

@[simp] theorem run_cons (instruction : StubInstruction) (program : List StubInstruction) :
    processor.run system (instruction :: program) =
      (processor.exec system instruction).bind (run system program) := rfl

@[simp] theorem setAx_ax (processor : Processor) (value : UInt16) :
    (processor.setAx value).ax = value := by
  have low (word : UInt32) : (word &&& 0xFFFF0000 ||| value.toUInt32).toUInt16 = value := by
    rw [UInt32.toUInt16_or, UInt32.toUInt16_and, UInt16.toUInt16_toUInt32]
    have none : (0xFFFF0000 : UInt32).toUInt16 = 0 := rfl
    rw [none, UInt16.and_zero, UInt16.zero_or]
  rw [ax, setAx, setCpu, Cpu.set_registers_self]
  exact low _

theorem Entered.pushImmediate (entered : Entered system processor middle words placed (count + 1))
    (few : words.length + placed.length < 1000) (fits : count ≤ 100) (value : UInt32) :
    ∃ after, middle.exec system (.pushImmediate value) = some after ∧
      Entered system processor after (words ++ [value]) placed count := by
  obtain ⟨cpu, push, left⟩ := entered.room.push (by omega) value
  have pushed := Cpu.push_pushed entered.onStack (by
    rw [List.length_append, List.length_reverse]
    omega) push
  refine ⟨middle.setCpu cpu, ?_, ?_, fun register notEsp => ?_, ?_, pushed.eflags.trans entered.eflags,
    pushed.cr3.trans entered.cr3, entered.cs, entered.data, left⟩
  · rw [exec, push]
    rfl
  · rw [List.reverse_append, List.append_assoc]
    exact pushed.onStack
  · exact (pushed.registers register notEsp).trans (entered.registers register notEsp)
  · rw [List.length_append, Nat.mul_add, Nat.add_comm, UInt32.ofNat_add, ← UInt32.add_assoc]
    have last := pushed.esp
    rw [List.length_singleton] at last ⊢
    rw [show (middle.setCpu cpu).cpu = cpu from rfl, last]
    exact entered.esp

/-- What lies on the stack when the stub reaches the common part. -/
def numberedWords (delivery : InterruptDelivery) (processor : Processor) : List UInt32 :=
  [delivery.image processor.cpu.eflags, processor.cs.toUInt32, processor.cpu.eip,
    delivery.errorCode.getD 0, UInt32.ofNat delivery.vector]

/-- The stubs push a code where the processor has pushed none. -/
theorem isrErrCode_iff (i : Nat) : isrErrCode i = true ↔ i ∈ errorCodeVectors := by
  simp only [isrErrCode, errorCodeVectors, List.mem_cons, List.not_mem_nil, or_false]
  grind

theorem exceptionStub_numbered {left : Nat}
    (entered : Entered system processor middle (processor.entryWords delivery) placed left)
    (exact : (processor.entryWords delivery).length + left = count + 5)
    (few : placed.length ≤ 900) (fits : count ≤ 90) :
    ∃ numbered, middle.run system (exceptionStub delivery.vector) =
        numbered.run system commonStubHandler ∧
      Entered system processor numbered (numberedWords delivery processor) placed count := by
  have agrees := (isrErrCode_iff delivery.vector.val).trans delivery.hasErrorCode.symm
  unfold exceptionStub
  cases code : delivery.errorCode with
  | none =>
      rw [code] at agrees
      have without : isrErrCode delivery.vector = false :=
        Bool.eq_false_iff.mpr fun is => Bool.false_ne_true (agrees.mp is)
      have words : processor.entryWords delivery ++ [0] ++ [UInt32.ofNat delivery.vector] =
          numberedWords delivery processor := by
        rw [entryWords, numberedWords, code]
        rfl
      have length : (processor.entryWords delivery).length = 3 := by
        rw [entryWords, code]
        rfl
      obtain rfl : left = count + 2 := by omega
      obtain ⟨coded, first, pushedCode⟩ := entered.pushImmediate (by omega) (by omega) 0
      obtain ⟨numbered, second, pushedNumber⟩ := pushedCode.pushImmediate (by
        rw [List.length_append, length]
        simp only [List.length_singleton]
        omega) (by omega) (UInt32.ofNat delivery.vector)
      rw [words] at pushedNumber
      refine ⟨numbered, ?_, pushedNumber⟩
      rw [without, if_neg Bool.false_ne_true, run_cons, first, Option.bind_some, run_cons, second,
        Option.bind_some]
  | some value =>
      rw [code] at agrees
      have has : isrErrCode delivery.vector = true := agrees.mpr rfl
      have words : processor.entryWords delivery ++ [UInt32.ofNat delivery.vector] =
          numberedWords delivery processor := by
        rw [entryWords, numberedWords, code]
        rfl
      have length : (processor.entryWords delivery).length = 4 := by
        rw [entryWords, code]
        rfl
      obtain rfl : left = count + 1 := by omega
      obtain ⟨numbered, run, pushedNumber⟩ :=
        entered.pushImmediate (by omega) (by omega) (UInt32.ofNat delivery.vector)
      rw [words] at pushedNumber
      refine ⟨numbered, ?_, pushedNumber⟩
      rw [has, if_pos rfl, run_cons, run, Option.bind_some]

/-! ## The common part, up to the handler -/

open StubInstruction in
def loadSegments : List StubInstruction :=
  [movSegment .ds, movSegment .es, movSegment .fs, movSegment .gs]

/-- After the call. -/
def restoreRegisters : List StubInstruction := commonStubHandler.drop 10

/-- Every data segment register gets the lower half of `eax`. -/
theorem loadSegments_run (loadable : loadableSelector system processor.privilege processor.ax = true)
    (rest : List StubInstruction) :
    processor.run system (loadSegments ++ rest) =
      run system rest { processor with data := fun _ => processor.ax } := by
  have step (data : DataSegment → UInt16) (dest : DataSegment) :
      exec system (.movSegment dest) { processor with data := data } =
        some { processor with data := Function.update data dest processor.ax } := by
    have same : loadableSelector system (Processor.privilege { processor with data := data })
      (ax { processor with data := data }) = true := loadable
    rw [exec, if_pos same]
    rfl
  have all : Function.update (Function.update (Function.update (Function.update processor.data .ds
      processor.ax) .es processor.ax) .fs processor.ax) .gs processor.ax = fun _ => processor.ax := by
    funext register
    cases register <;> simp [Function.update]
  have first := step processor.data .ds
  rw [loadSegments, List.cons_append, run_cons, first, Option.bind_some, List.cons_append, run_cons,
    step, Option.bind_some, List.cons_append, run_cons, step, Option.bind_some, List.cons_append,
    run_cons, step, Option.bind_some, List.nil_append, all]

/-- At the first instruction of `master_exception_handler`. -/
structure Called (system : InterruptSystem Handler) (delivery : InterruptDelivery)
    (processor called : Processor) (placed : List UInt32) : Prop where
  onStack : Cpu.OnStack system.pages called.cpu (system.returnAddress ::
    (called.cpu.registers .esp + 8) :: (frameWords delivery processor ++ placed))
  esp : called.cpu.registers .esp + 64 = processor.cpu.registers .esp
  eflags : called.cpu.eflags = processor.cpu.eflags.entered
  cr3 : called.cpu.cr3 = processor.cpu.cr3
  cs : called.cs = 0x08
  data : ∀ register, called.data register = 0x10

/-- The frame is complete. -/
structure Framed (system : InterruptSystem Handler) (delivery : InterruptDelivery)
    (processor framed : Processor) (placed : List UInt32) (count : Nat) : Prop where
  onStack : Cpu.OnStack system.pages framed.cpu (frameWords delivery processor ++ placed)
  esp : framed.cpu.registers .esp + 56 = processor.cpu.registers .esp
  eflags : framed.cpu.eflags = processor.cpu.eflags.entered
  cr3 : framed.cpu.cr3 = processor.cpu.cr3
  cs : framed.cs = 0x08
  room : Cpu.Room system.pages framed.cpu count

private theorem eax_ne_esp : Register.eax ≠ .esp := by decide

/-- The general registers, and `ds` below them. -/
theorem Entered.framed
    (numbered : Entered system processor middle (numberedWords delivery processor) placed (count + 9))
    (few : placed.length ≤ 900) (fits : count ≤ 80) :
    ∃ framed, Framed system delivery processor framed placed count ∧ ∀ rest,
      middle.run system (.general .pusha :: .movAxDs :: .push .eax :: rest) =
        framed.run system rest := by
  have few5 : (numberedWords delivery processor).reverse.length = 5 := rfl
  have eight : (Cpu.allRegisters.map middle.cpu.registers).length = 8 := rfl
  have roomForAll : Cpu.Room system.pages middle.cpu
      ((Cpu.allRegisters.map middle.cpu.registers).length + (count + 1)) := by
    rw [eight]
    exact numbered.room.mono (by omega)
  obtain ⟨general, pushesAll, room⟩ := roomForAll.pushAll (by rw [eight]; omega)
  have all := Cpu.pushAll_pushed numbered.onStack (by
    rw [List.length_append, few5, eight]
    omega) pushesAll
  have eax : general.registers .eax = processor.cpu.registers .eax :=
    (all.registers .eax eax_ne_esp).trans (numbered.registers .eax eax_ne_esp)
  let selector := general.registers .eax &&& 0xFFFF0000 ||| (middle.data .ds).toUInt32
  obtain ⟨withDs, pushesDs, room⟩ := (room.set eax_ne_esp selector).push (by omega) selector
  have isDs := Cpu.push_pushed (all.onStack.set eax_ne_esp selector) (by
    rw [List.length_append, List.length_append, List.length_reverse, eight, few5]
    omega) pushesDs
  have espNumbered : middle.cpu.registers .esp + 20 = processor.cpu.registers .esp := numbered.esp
  have frame : [selector].reverse ++ ((Cpu.allRegisters.map middle.cpu.registers).reverse ++
      ((numberedWords delivery processor).reverse ++ placed)) =
        frameWords delivery processor ++ placed := by
    have top : middle.cpu.registers .esp = processor.cpu.registers .esp - 20 := by grind
    have isSelector : selector = interruptedRegisters delivery processor (fun _ => 0) .ds := by
      show general.registers .eax &&& 0xFFFF0000 ||| (middle.data .ds).toUInt32 = _
      rw [eax, numbered.data]
      rfl
    rw [isSelector]
    simp [Cpu.allRegisters, numbered.registers, top, frameWords, RegistersField.pushed,
      RegistersField.all, interruptedRegisters, numberedWords]
  have framed := isDs.onStack
  rw [frame] at framed
  refine ⟨middle.setCpu withDs, ⟨framed, ?_, ?_, ?_, numbered.cs, room⟩, fun rest => ?_⟩
  · have espDs : withDs.registers .esp + 4 = (general.set .eax selector).registers .esp := isDs.esp
    have espAll : general.registers .esp + 32 = middle.cpu.registers .esp := all.esp
    have below : (general.set .eax selector).registers .esp = general.registers .esp :=
      Cpu.set_registers_of_ne eax_ne_esp.symm _ _
    show withDs.registers .esp + 56 = processor.cpu.registers .esp
    grind
  · rw [← numbered.eflags, ← all.eflags]
    exact isDs.eflags
  · rw [← numbered.cr3, ← all.cr3]
    exact isDs.cr3
  · have pusha : middle.exec system (.general .pusha) = some (middle.setCpu general) := by
      rw [exec, Cpu.exec, pushesAll]
      rfl
    have movAxDs : (middle.setCpu general).exec system .movAxDs =
        some (middle.setCpu (general.set .eax selector)) := rfl
    have pushEax : (middle.setCpu (general.set .eax selector)).exec system (.push .eax) =
        some (middle.setCpu withDs) := by
      rw [exec, setCpu, Cpu.set_registers_self, pushesDs]
      rfl
    rw [run_cons, pusha, Option.bind_some, run_cons, movAxDs, Option.bind_some, run_cons, pushEax,
      Option.bind_some]

/-- The word behind which `regs->interrupt_number` lies. -/
private theorem frameWords_number (delivery : InterruptDelivery) (processor : Processor)
    (first second : UInt32) (placed : List UInt32) :
    (first :: second :: (frameWords delivery processor ++ placed))[11]? =
      some (UInt32.ofNat delivery.vector) := by
  simp [frameWords, RegistersField.pushed, RegistersField.all, interruptedRegisters]

/-- The kernel's data segments, and the call with a pointer to the frame. -/
theorem Framed.called (inForce : InForce system.segments system.gates idtStubTable)
    (framed : Framed system delivery processor middle placed 2) (few : placed.length ≤ 900) :
    ∃ called, Called system delivery processor called placed ∧
      middle.run system (.movAx 0x10 :: (loadSegments ++ .push .esp :: .callMasterExceptionHandler ::
          restoreRegisters)) =
        (system.masterExceptionHandler (system.handlerFor (UInt32.ofNat delivery.vector)) called).bind
          (run system restoreRegisters) := by
  have length : (frameWords delivery processor ++ placed).length ≤ 914 := by
    rw [List.length_append, show (frameWords delivery processor).length = 14 from rfl]
    omega
  let kernel := middle.cpu.registers .eax &&& 0xFFFF0000 ||| (0x10 : UInt16).toUInt32
  let pointer := (middle.cpu.set .eax kernel).registers .esp
  have top : pointer = middle.cpu.registers .esp := Cpu.set_registers_of_ne eax_ne_esp.symm _ _
  obtain ⟨withPointer, pushesPointer, room⟩ :=
    (framed.room.set eax_ne_esp kernel).push (by decide) pointer
  have isPointer := Cpu.push_pushed (framed.onStack.set eax_ne_esp kernel) (by omega) pushesPointer
  obtain ⟨calledCpu, pushesReturn, _⟩ := room.push (by decide) system.returnAddress
  have isReturn := Cpu.push_pushed isPointer.onStack (by
    rw [List.length_append, List.length_reverse, List.length_singleton]
    omega) pushesReturn
  have callStack : Cpu.OnStack system.pages calledCpu
      (system.returnAddress :: pointer :: (frameWords delivery processor ++ placed)) := isReturn.onStack
  have espReturn : calledCpu.registers .esp + 4 = withPointer.registers .esp := isReturn.esp
  have espPointer : withPointer.registers .esp + 4 = pointer := isPointer.esp
  have isTop : pointer = calledCpu.registers .esp + 8 := by grind
  let loaded : Processor := { middle with cpu := middle.cpu.set .eax kernel, data := fun _ => 0x10 }
  let called : Processor := { middle with cpu := calledCpu, data := fun _ => 0x10 }
  refine ⟨called, ⟨isTop ▸ callStack, ?_, ?_, ?_, framed.cs, fun _ => rfl⟩, ?_⟩
  · have espFramed := framed.esp
    show calledCpu.registers .esp + 64 = processor.cpu.registers .esp
    grind
  · rw [← framed.eflags]
    exact isReturn.eflags.trans isPointer.eflags
  · rw [← framed.cr3]
    exact isReturn.cr3.trans isPointer.cr3
  · have movAx : middle.exec system (.movAx 0x10) = some (middle.setCpu (middle.cpu.set .eax kernel)) :=
      rfl
    have segments (rest : List StubInstruction) :
        (middle.setCpu (middle.cpu.set .eax kernel)).run system (loadSegments ++ rest) =
          loaded.run system rest := by
      have isKernel : (middle.setCpu (middle.cpu.set .eax kernel)).ax = 0x10 := setAx_ax middle 0x10
      have loadable : loadableSelector system (middle.setCpu (middle.cpu.set .eax kernel)).privilege
          (middle.setCpu (middle.cpu.set .eax kernel)).ax = true := by
        rw [isKernel, privilege, setCpu, framed.cs, loadableSelector, inForce.segments]
        decide
      rw [loadSegments_run loadable, isKernel]
      rfl
    have pushEsp : loaded.exec system (.push .esp) = some (loaded.setCpu withPointer) := by
      rw [exec, show loaded.cpu.registers .esp = pointer from rfl, pushesPointer]
      rfl
    have call : (loaded.setCpu withPointer).exec system .callMasterExceptionHandler =
        system.masterExceptionHandler (system.handlerFor (UInt32.ofNat delivery.vector)) called := by
      have argument : (system.pages calledCpu.cr3).load calledCpu.memory
          (calledCpu.registers .esp + 4) = some pointer := callStack.2.1
      have number : (system.pages calledCpu.cr3).load calledCpu.memory (pointer + 36) =
          some (UInt32.ofNat delivery.vector) := by
        have distance : (8 : UInt32) + 36 = UInt32.ofNat (4 * 11) := rfl
        have word := callStack.load (frameWords_number delivery processor _ _ placed)
        rw [isTop, UInt32.add_assoc, distance]
        exact word
      have pushed : (loaded.setCpu withPointer).cpu.push system.pages system.returnAddress =
          some calledCpu := pushesReturn
      rw [exec, callHandler, pushed, Option.bind_eq_bind, Option.bind_some, argument,
        Option.bind_eq_bind, Option.bind_some, number]
      rfl
    rw [run_cons, movAx, Option.bind_some, segments, run_cons, pushEsp, Option.bind_some, run_cons,
      call]

/-! ## Back to the interrupted code -/

/-- What the calling convention asks of a function with one argument, whose own caller's frame
lies above that argument. No handler writes through `regs`. -/
def KeepsFrame (system : InterruptSystem Handler) : Prop :=
  ∀ (handler : Option Handler) (called returned : Processor) (argument : UInt32)
    (frame : List UInt32), frame.length ≤ 1000 →
    Cpu.OnStack system.pages called.cpu (system.returnAddress :: argument :: frame) →
    system.masterExceptionHandler handler called = some returned →
    (∃ left, Cpu.OnStack system.pages returned.cpu (left :: frame)) ∧
      returned.cpu.registers .esp = called.cpu.registers .esp + 4 ∧
      returned.cpu.cr3 = called.cpu.cr3 ∧ returned.cs = called.cs

/-- The interrupted code goes on as if nothing had happened, with `ds` in the other three
registers too. -/
structure Resumed (system : InterruptSystem Handler) (processor after : Processor)
    (placed : List UInt32) : Prop where
  registers : after.cpu.registers = processor.cpu.registers
  eflags : after.cpu.eflags = processor.cpu.eflags
  eip : after.cpu.eip = processor.cpu.eip
  cr3 : after.cpu.cr3 = processor.cpu.cr3
  cs : after.cs = processor.cs
  data : ∀ register, after.data register = processor.data .ds
  onStack : Cpu.OnStack system.pages after.cpu placed

/-- The words that `popa` pops. -/
def generalWords (processor : Processor) : List UInt32 :=
  [processor.cpu.registers .edi, processor.cpu.registers .esi, processor.cpu.registers .ebp,
    processor.cpu.registers .esp - 20, processor.cpu.registers .ebx, processor.cpu.registers .edx,
    processor.cpu.registers .ecx, processor.cpu.registers .eax]

theorem frameWords_eq (delivery : InterruptDelivery) (processor : Processor) :
    frameWords delivery processor =
      (processor.cpu.registers .eax &&& 0xFFFF0000 ||| (processor.data .ds).toUInt32) ::
        (generalWords processor ++ [UInt32.ofNat delivery.vector, delivery.errorCode.getD 0,
          processor.cpu.eip, processor.cs.toUInt32, delivery.image processor.cpu.eflags]) := rfl

theorem image_ofWord (delivery : InterruptDelivery) (eflags : Eflags) :
    Eflags.ofWord (delivery.image eflags) = eflags := by
  have masked : Eflags.ofWord (eflags.value ||| 0x10000) = Eflags.ofWord eflags.value := by
    have split : (eflags.value ||| 0x10000) &&& Eflags.changeable =
        eflags.value &&& Eflags.changeable ||| 0x10000 &&& Eflags.changeable :=
      UInt32.toBitVec_inj.mp BitVec.and_or_distrib_right
    have none : 0x10000 &&& Eflags.changeable = 0 := by decide
    unfold Eflags.ofWord
    congr 2
    rw [split, none, UInt32.or_zero]
  unfold InterruptDelivery.image
  split
  case isTrue => rw [masked, Eflags.ofWord_value]
  case isFalse => exact Eflags.ofWord_value eflags

/-- Only what the processor pops is left, below two words. -/
structure FramePopped (system : InterruptSystem Handler) (delivery : InterruptDelivery)
    (processor returned popped : Processor) (placed : List UInt32) : Prop where
  onStack : Cpu.OnStack system.pages popped.cpu ([UInt32.ofNat delivery.vector,
    delivery.errorCode.getD 0, processor.cpu.eip, processor.cs.toUInt32,
    delivery.image processor.cpu.eflags] ++ placed)
  registers : ∀ register ≠ .esp, popped.cpu.registers register = processor.cpu.registers register
  esp : popped.cpu.registers .esp = returned.cpu.registers .esp + 40
  cr3 : popped.cpu.cr3 = returned.cpu.cr3
  cs : popped.cs = 0x08
  data : ∀ register, popped.data register = processor.data .ds

theorem restoreRegisters_popped {returned : Processor} {left : UInt32}
    (loadable : loadableSelector system 0 (processor.data .ds) = true) (cs : returned.cs = 0x08)
    (onStack : Cpu.OnStack system.pages returned.cpu
      (left :: (frameWords delivery processor ++ placed))) :
    ∃ popped, FramePopped system delivery processor returned popped placed ∧
      returned.run system restoreRegisters = popped.run system [.addEsp 8, .iret] := by
  let selector := processor.cpu.registers .eax &&& 0xFFFF0000 ||| (processor.data .ds).toUInt32
  let argued : Cpu := { returned.cpu.set .esp (returned.cpu.registers .esp + 4) with
    eflags := system.addFlags (returned.cpu.registers .esp) 4 returned.cpu.eflags }
  have framed : Cpu.OnStack system.pages argued (frameWords delivery processor ++ placed) :=
    onStack.popped
  rw [frameWords_eq, List.cons_append, List.append_assoc] at framed
  let selected := (argued.set .esp (argued.registers .esp + 4)).set .eax selector
  have general : Cpu.OnStack system.pages selected (generalWords processor ++
      ([UInt32.ofNat delivery.vector, delivery.errorCode.getD 0, processor.cpu.eip,
        processor.cs.toUInt32, delivery.image processor.cpu.eflags] ++ placed)) :=
    framed.popped.set eax_ne_esp selector
  obtain ⟨popped, popRun, isPopped⟩ := Cpu.popAll_popped
    (by decide : Cpu.allRegisters.reverse.Nodup) rfl general
  let data : DataSegment → UInt16 := fun _ => processor.data .ds
  refine ⟨{ returned with cpu := popped, data := data }, ⟨isPopped.onStack, ?_, ?_, isPopped.cr3, cs,
    fun _ => rfl⟩, ?_⟩
  · intro register notEsp
    refine isPopped.popped register _ ?_ notEsp
    cases register with
    | esp => exact absurd rfl notEsp
    | _ => simp [Cpu.allRegisters, generalWords]
  · have top : selected.registers .esp = returned.cpu.registers .esp + 4 + 4 := by
      show ((argued.set .esp (argued.registers .esp + 4)).set .eax selector).registers .esp = _
      rw [Cpu.set_registers_of_ne eax_ne_esp.symm, Cpu.set_registers_self]
      exact congrArg (· + 4) (Cpu.set_registers_self returned.cpu .esp _)
    have last := isPopped.esp
    rw [top, UInt32.add_assoc, UInt32.add_assoc] at last
    exact last
  · have isSelector : (returned.setCpu selected).ax = processor.data .ds :=
      (congrArg UInt32.toUInt16 (Cpu.set_registers_self _ _ _)).trans
        (setAx_ax processor (processor.data .ds))
    have addEsp : returned.exec system (.addEsp 4) = some (returned.setCpu argued) := rfl
    have popEax : (returned.setCpu argued).exec system .popEax =
        some (returned.setCpu selected) := by
      rw [exec, show (returned.setCpu argued).cpu = argued from rfl, Cpu.pop_eq framed]
      rfl
    have segments (rest : List StubInstruction) :
        (returned.setCpu selected).run system (loadSegments ++ rest) =
          run system rest { returned with cpu := selected, data := data } := by
      have mayLoad : loadableSelector system (returned.setCpu selected).privilege
          (returned.setCpu selected).ax = true := by
        rw [isSelector, privilege, setCpu, cs]
        exact loadable
      rw [loadSegments_run mayLoad, isSelector]
      rfl
    have popa : exec system (.general .popa) { returned with cpu := selected, data := data } =
        some { returned with cpu := popped, data := data } := by
      rw [exec, Cpu.exec, popRun]
      rfl
    have program : restoreRegisters = .addEsp 4 :: .popEax ::
        (loadSegments ++ .general .popa :: [.addEsp 8, .iret]) := rfl
    rw [program, run_cons, addEsp, Option.bind_some, run_cons, popEax, Option.bind_some, segments,
      run_cons, popa, Option.bind_some]

theorem FramePopped.resumed {returned popped : Processor}
    (inForce : InForce system.segments system.gates idtStubTable)
    (isPopped : FramePopped system delivery processor returned popped placed)
    (kernelMode : processor.cs = 0x08)
    (esp : returned.cpu.registers .esp + 60 = processor.cpu.registers .esp)
    (cr3 : returned.cpu.cr3 = processor.cpu.cr3) :
    ∃ after, popped.run system [.addEsp 8, .iret] = some after ∧
      Resumed system processor after placed := by
  let added : Cpu := { popped.cpu.set .esp (popped.cpu.registers .esp + 8) with
    eflags := system.addFlags (popped.cpu.registers .esp) 8 popped.cpu.eflags }
  have addedEsp : added.registers .esp = popped.cpu.registers .esp + 8 :=
    Cpu.set_registers_self popped.cpu .esp _
  have onStack : Cpu.OnStack system.pages added (processor.cpu.eip :: processor.cs.toUInt32 ::
      delivery.image processor.cpu.eflags :: placed) := by
    have row := isPopped.onStack.2.2
    rw [UInt32.add_assoc] at row
    unfold Cpu.OnStack
    rw [addedEsp]
    exact row
  let first := added.set .esp (added.registers .esp + 4)
  let second := first.set .esp (first.registers .esp + 4)
  let third := second.set .esp (second.registers .esp + 4)
  have firstEsp : first.registers .esp = added.registers .esp + 4 := Cpu.set_registers_self _ _ _
  have secondEsp : second.registers .esp = first.registers .esp + 4 := Cpu.set_registers_self _ _ _
  have thirdEsp : third.registers .esp = second.registers .esp + 4 := Cpu.set_registers_self _ _ _
  have kept (register : Register) (notEsp : register ≠ .esp) :
      third.registers register = popped.cpu.registers register := by
    show (second.set .esp _).registers register = _
    rw [Cpu.set_registers_of_ne notEsp, Cpu.set_registers_of_ne notEsp, Cpu.set_registers_of_ne notEsp]
    exact Cpu.set_registers_of_ne notEsp popped.cpu _
  let after : Processor :=
    { popped with
      cpu := { third with
        eip := processor.cpu.eip, eflags := .ofWord (delivery.image processor.cpu.eflags) }
      cs := processor.cs.toUInt32.toUInt16 }
  refine ⟨after, ?_, ⟨?_, image_ofWord delivery processor.cpu.eflags, rfl, ?_,
    UInt16.toUInt16_toUInt32 _, isPopped.data, onStack.popped.popped.popped⟩⟩
  · have addEsp : popped.exec system (.addEsp 8) = some (popped.setCpu added) := rfl
    have segment : system.segments processor.cs.toUInt32.toUInt16.toNat = some (flatSegment 0x9A) := by
      rw [UInt16.toUInt16_toUInt32, kernelMode]
      exact inForce.segments 0x08
    have permits : (popped.setCpu added).privilege = 0 ∧
        processor.cs.toUInt32.toUInt16.toNat % 4 = 0 ∧ (flatSegment 0x9A).runnable 0 = true := by
      refine ⟨?_, ?_, by decide⟩
      · rw [privilege, setCpu, isPopped.cs]
        rfl
      · rw [UInt16.toUInt16_toUInt32, kernelMode]
        rfl
    have iret : (popped.setCpu added).exec system .iret = some after := by
      simp only [exec, interruptReturn, show (popped.setCpu added).cpu = added from rfl,
        Cpu.pop_eq onStack, Cpu.pop_eq onStack.popped, Cpu.pop_eq onStack.popped.popped, segment,
        Option.bind_eq_bind, Option.bind_some, if_pos permits]
      rfl
    rw [run_cons, addEsp, Option.bind_some, run_cons, iret]
    rfl
  · funext register
    by_cases isEsp : register = .esp
    · subst isEsp
      have last := isPopped.esp
      show third.registers .esp = processor.cpu.registers .esp
      grind
    · exact (kept register isEsp).trans (isPopped.registers register isEsp)
  · exact isPopped.cr3.trans cr3

/-- What the handler is given, and in which state it is called. -/
structure HandlerSees (system : InterruptSystem Handler) (delivery : InterruptDelivery)
    (processor called : Processor) : Prop where
  fields : ∃ regs, (system.pages called.cpu.cr3).load called.cpu.memory
      (called.cpu.registers .esp + 4) = some regs ∧ ∀ field ∈ RegistersField.pushed,
    (system.pages called.cpu.cr3).load called.cpu.memory (regs + UInt32.ofNat field.offset) =
      some (interruptedRegisters delivery processor (fun _ => 0) field)
  disabled : called.cpu.eflags.interrupts = false
  cr3 : called.cpu.cr3 = processor.cpu.cr3
  data : ∀ register, called.data register = 0x10

theorem entered_interrupts (eflags : Eflags) : eflags.entered.interrupts = false := by
  have split : eflags.entered.value &&& 0x200 =
      eflags.value &&& ~~~0x4300 &&& Eflags.changeable &&& 0x200 ||| 2 &&& 0x200 :=
    UInt32.toBitVec_inj.mp BitVec.and_or_distrib_right
  have cleared : ~~~0x4300 &&& (Eflags.changeable &&& 0x200) = 0 := by decide
  have two : (2 : UInt32) &&& 0x200 = 0 := by decide
  rw [UInt32.and_assoc, UInt32.and_assoc, cleared, two, UInt32.and_zero, UInt32.or_zero] at split
  exact decide_eq_false fun set => set split

theorem Called.sees {called : Processor} (isCalled : Called system delivery processor called placed) :
    HandlerSees system delivery processor called where
  fields := by
    refine ⟨_, isCalled.onStack.2.1, fun field pushed => ?_⟩
    have row := isCalled.onStack.2.2
    rw [UInt32.add_assoc] at row
    refine row.load ?_
    cases field with
    | useresp => exact absurd pushed (by decide)
    | ss => exact absurd pushed (by decide)
    | _ => rfl
  disabled := by
    rw [isCalled.eflags]
    exact entered_interrupts _
  cr3 := isCalled.cr3
  data := isCalled.data

/-- Every interrupt calls the handler of its vector, with the interrupted registers in
`CpuRegisters`, and once that has returned the interrupted code goes on. -/
theorem interrupt_transparent (delivery : InterruptDelivery)
    (inForce : InForce system.segments system.gates idtStubTable)
    (linked : ∀ (vector : Nat) (stub : UInt32), idtStubTable[vector]? = some stub →
      system.stubAt stub = some (exceptionStub vector))
    (keeps : KeepsFrame system) (kernelMode : processor.cs = 0x08)
    (loadable : loadableSelector system 0 (processor.data .ds) = true)
    (onStack : Cpu.OnStack system.pages processor.cpu placed) (few : placed.length ≤ 900)
    (room : Cpu.Room system.pages processor.cpu 16) :
    ∃ called, HandlerSees system delivery processor called ∧
      (system.masterExceptionHandler (system.handlerFor (UInt32.ofNat delivery.vector)) called =
          none → processor.interrupt system delivery = none) ∧
      ∀ returned, system.masterExceptionHandler
          (system.handlerFor (UInt32.ofNat delivery.vector)) called = some returned →
        ∃ after, processor.interrupt system delivery = some after ∧
          Resumed system processor after placed := by
  have isStub : idtStubTable[delivery.vector.val]? = some idtStubTable[delivery.vector] :=
    Vector.getElem?_eq_getElem delivery.vector.isLt
  have length := entryWords_length processor delivery
  obtain ⟨left, split⟩ := Nat.exists_eq_add_of_le (Nat.le_trans length (by decide : 4 ≤ 16))
  obtain ⟨entered, enters, eip, isEntered⟩ := enter_entered inForce kernelMode isStub onStack few
    (split ▸ room) (by omega)
  obtain ⟨numbered, numbers, isNumbered⟩ :=
    exceptionStub_numbered isEntered (split.symm : _ = 11 + 5) few (by decide)
  obtain ⟨framed, isFramed, frames⟩ :=
    Entered.framed (isNumbered : Entered system processor numbered _ placed (2 + 9)) few (by decide)
  obtain ⟨called, isCalled, calls⟩ := isFramed.called inForce few
  have whole : processor.interrupt system delivery =
      (system.masterExceptionHandler (system.handlerFor (UInt32.ofNat delivery.vector)) called).bind
        (run system restoreRegisters) := by
    rw [interrupt, enters, Option.bind_eq_bind, Option.bind_some, eip, linked _ _ isStub,
      Option.bind_eq_bind, Option.bind_some, numbers, ← calls]
    exact frames _
  refine ⟨called, isCalled.sees, fun never => ?_, fun returned returns => ?_⟩
  · rw [whole, never, Option.bind_none]
  · obtain ⟨⟨left, row⟩, esp, cr3, cs⟩ := keeps _ called returned _ _ (by
      rw [List.length_append, show (frameWords delivery processor).length = 14 from rfl]
      omega) isCalled.onStack returns
    obtain ⟨popped, isPopped, pops⟩ := restoreRegisters_popped loadable (cs.trans isCalled.cs) row
    obtain ⟨after, ends, resumed⟩ := isPopped.resumed inForce kernelMode (by
      have top := isCalled.esp
      grind) (cr3.trans isCalled.cr3)
    refine ⟨after, ?_, resumed⟩
    rw [whole, returns, Option.bind_some, pops, ends]

/-- Stubs of 16 bytes each, and a handler that returns at once. -/
def sampleStubs : Vector UInt32 idtEntries := Vector.ofFn fun vector => UInt32.ofNat (16 * vector)

def sampleSystem : InterruptSystem Unit where
  pages _ page := some page
  segments := bootSegment
  gates vector := sampleStubs[vector]?.map bootGate
  stubAt address := some (exceptionStub (address.toNat / 16))
  returnAddress := 0x1000
  addFlags _ _ eflags := eflags
  handlerFor _ := none
  masterExceptionHandler _ called :=
    (called.cpu.exec (fun _ page => some page) .ret).map called.setCpu

theorem sampleSystem_keepsFrame : KeepsFrame sampleSystem := by
  intro _ called returned argument frame _ onStack returns
  have popped : (called.cpu.exec sampleSystem.pages .ret).map called.setCpu = some returned := returns
  obtain ⟨cpu, exit, rfl⟩ := Option.map_eq_some_iff.mp popped
  rw [Cpu.exec, Cpu.pop_eq onStack] at exit
  cases exit
  exact ⟨⟨argument, onStack.popped⟩, Cpu.set_registers_self called.cpu .esp _, rfl, rfl⟩

theorem sampleStubs_linked (vector : Nat) (stub : UInt32) (isStub : sampleStubs[vector]? = some stub) :
    sampleSystem.stubAt stub = some (exceptionStub vector) := by
  obtain ⟨inside, rfl⟩ := Vector.getElem?_eq_some_iff.mp isStub
  have below : vector < 256 := inside
  have number : (UInt32.ofNat (16 * vector)).toNat / 16 = vector := by
    rw [UInt32.toNat_ofNat']
    omega
  rw [sampleStubs, Vector.getElem_ofFn]
  exact congrArg (some ∘ exceptionStub) number

def sampleProcessor : Processor where
  cpu := ⟨fun _ => 0x8000, .ofWord 0x202, 0x2000, 0, fun _ => 0⟩
  cs := 0x08
  data _ := 0x10

def timerInterrupt : InterruptDelivery := ⟨32, none, false, by decide⟩

theorem interrupt_transparent_sample : ∃ after,
    sampleProcessor.interrupt sampleSystem timerInterrupt = some after ∧
      Resumed sampleSystem sampleProcessor after [] := by
  have inForce : InForce sampleSystem.segments sampleSystem.gates sampleStubs :=
    ⟨fun _ => rfl, fun _ => rfl⟩
  have kernelMode : sampleProcessor.cs = 0x08 := rfl
  have empty : Cpu.OnStack sampleSystem.pages sampleProcessor.cpu [] := trivial
  obtain ⟨called, _, _, returns⟩ := interrupt_transparent timerInterrupt inForce sampleStubs_linked
    sampleSystem_keepsFrame kernelMode (by decide) empty (by decide) fun _ _ _ => rfl
  exact returns _ rfl

end Processor

end KdbOS.Arch
