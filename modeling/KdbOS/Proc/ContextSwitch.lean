import KdbOS.Arch.Cpu

/-! `ctxswitch.asm`, and `CpuContext` of `proc.h`: what the first puts on the stack and
takes from it is laid out as the second says. -/

set_option autoImplicit false

namespace KdbOS.Proc

open Library Arch

/-- The fields of `CpuContext`. -/
inductive ContextField where
  | eflags | edi | esi | ebp | espDummy | ebx | edx | ecx | eax | eip
  deriving DecidableEq, Repr

namespace ContextField

/-- In the order of the packed structure. -/
def all : List ContextField :=
  [.eflags, .edi, .esi, .ebp, .espDummy, .ebx, .edx, .ecx, .eax, .eip]

def offset (field : ContextField) : Nat := 4 * all.idxOf field

end ContextField

abbrev CpuContext := ContextField → UInt32

def CpuContext.words (context : CpuContext) : List UInt32 := ContextField.all.map context

/-- `sizeof(CpuContext)`. -/
def contextSize : Nat := 4 * ContextField.all.length

/-- The field of a general register; that of `esp` is filled by `pusha`, and `popa` skips it. -/
def registerField : Register → ContextField
  | .eax => .eax
  | .ecx => .ecx
  | .edx => .edx
  | .ebx => .ebx
  | .esp => .espDummy
  | .ebp => .ebp
  | .esi => .esi
  | .edi => .edi

/-- The first two instructions of `context_switch`. -/
def saveContext : List Instruction := [.pusha, .pushfd]

/-- The last three of both routines. -/
def restoreContext : List Instruction := [.popf, .popa, .ret]

def contextSwitch : List Instruction :=
  [.pusha, .pushfd,
    .load .eax .esp 40, .store .eax .esp,
    .load .edx .esp 44, .load .ecx .esp 48,
    .mov .esp .edx, .movCr3 .ecx,
    .popf, .popa, .ret]

def bootstrapFirstProcess : List Instruction :=
  [.load .edx .esp 4, .load .ecx .esp 8,
    .mov .esp .edx, .movCr3 .ecx,
    .popf, .popa, .ret]

theorem saveContext_prefix : saveContext <+: contextSwitch :=
  ⟨contextSwitch.drop 2, rfl⟩

theorem restoreContext_suffix :
    restoreContext <:+ contextSwitch ∧ restoreContext <:+ bootstrapFirstProcess :=
  ⟨⟨contextSwitch.take 8, rfl⟩, ⟨bootstrapFirstProcess.take 4, rfl⟩⟩

/-- The processor's state as a context that goes on at `returnAddress`. -/
def savedContext (cpu : Cpu) (returnAddress : UInt32) : CpuContext
  | .eflags => cpu.eflags.value
  | .edi => cpu.registers .edi
  | .esi => cpu.registers .esi
  | .ebp => cpu.registers .ebp
  | .espDummy => cpu.registers .esp
  | .ebx => cpu.registers .ebx
  | .edx => cpu.registers .edx
  | .ecx => cpu.registers .ecx
  | .eax => cpu.registers .eax
  | .eip => returnAddress

variable {pages : UInt32 → Paging} {cpu after : Cpu} {context : CpuContext}
variable {returnAddress : UInt32}

theorem savedContext_registerField (cpu : Cpu) (returnAddress : UInt32) (register : Register) :
    savedContext cpu returnAddress (registerField register) = cpu.registers register := by
  cases register <;> rfl

/-- The stack image that is pushed is the context, above which the stack is as before. -/
theorem saveContext_words {arguments : List UInt32}
    (called : Cpu.OnStack pages cpu (returnAddress :: arguments)) (few : arguments.length < 1000)
    (run : cpu.run pages saveContext = some after) :
    Cpu.OnStack pages after ((savedContext cpu returnAddress).words ++ arguments) ∧
      after.registers .esp + 36 = cpu.registers .esp ∧ after.cr3 = cpu.cr3 := by
  rw [Cpu.run, saveContext, List.foldlM_cons] at run
  obtain ⟨middle, general, rest⟩ := Option.bind_eq_some_iff.mp run
  rw [List.foldlM_cons] at rest
  obtain ⟨last, flags, done⟩ := Option.bind_eq_some_iff.mp rest
  obtain rfl := Option.some.inj done
  have length : (Cpu.allRegisters.map cpu.registers).length = 8 := rfl
  have pushed := Cpu.pushAll_pushed called (by rw [length, List.length_cons]; omega) general
  have pushedFlags := Cpu.push_pushed pushed.onStack (by
    rw [List.length_append, List.length_reverse, length, List.length_cons]
    omega) flags
  have both := pushed.trans pushedFlags
  refine ⟨?_, both.esp, both.cr3⟩
  have row := both.onStack
  rw [pushed.eflags] at row
  exact row

/-- What is popped where a context lies on the stack. -/
theorem restoreContext_run (onStack : Cpu.OnStack pages cpu context.words) :
    ∃ after, cpu.run pages restoreContext = some after ∧
      (∀ register ≠ .esp, after.registers register = context (registerField register)) ∧
      after.registers .esp = cpu.registers .esp + 40 ∧
      after.eflags = .ofWord (context .eflags) ∧ after.eip = context .eip ∧
      after.cr3 = cpu.cr3 ∧ after.memory = cpu.memory := by
  let flagged : Cpu :=
    { cpu.set .esp (cpu.registers .esp + 4) with eflags := .ofWord (context .eflags) }
  have general : Cpu.OnStack pages flagged
      ([context .edi, context .esi, context .ebp, context .espDummy, context .ebx, context .edx,
        context .ecx, context .eax] ++ [context .eip]) := onStack.popped
  obtain ⟨popped, popRun, isPopped⟩ := Cpu.popAll_popped
    (by decide : Cpu.allRegisters.reverse.Nodup) rfl general
  let last : Cpu := { popped.set .esp (popped.registers .esp + 4) with eip := context .eip }
  have last_registers : ∀ register ≠ .esp, last.registers register = popped.registers register :=
    fun register notEsp => Cpu.set_registers_of_ne notEsp popped (popped.registers .esp + 4)
  refine ⟨last, ?_, fun register notEsp => ?_, ?_, isPopped.eflags, rfl, isPopped.cr3, isPopped.memory⟩
  · rw [Cpu.run, restoreContext, List.foldlM_cons, Cpu.exec, Cpu.pop_eq onStack]
    show (flagged.popAll pages Cpu.allRegisters.reverse).bind _ = _
    rw [popRun]
    show (Cpu.exec pages .ret popped).bind _ = _
    rw [Cpu.exec, Cpu.pop_eq isPopped.onStack]
    rfl
  · rw [last_registers register notEsp]
    refine isPopped.popped register _ ?_ notEsp
    cases register <;> simp [Cpu.allRegisters, registerField]
  · have top : last.registers .esp = popped.registers .esp + 4 :=
      Cpu.set_registers_self popped .esp (popped.registers .esp + 4)
    have first : flagged.registers .esp = cpu.registers .esp + 4 :=
      Cpu.set_registers_self cpu .esp (cpu.registers .esp + 4)
    rw [top, isPopped.esp, first, UInt32.add_assoc, UInt32.add_assoc]
    rfl

/-- Both routines up to the new stack and address space. -/
def switchStacks : List Instruction := contextSwitch.take 8

def loadStack : List Instruction := bootstrapFirstProcess.take 4

/-- The whole of `context_switch`: the address of the saved context is stored behind the
first argument, and a context is restored from the stack and in the space that the other
two arguments name by then. -/
theorem contextSwitch_run {oldStack newStack newSpace : UInt32}
    (called : Cpu.OnStack pages cpu [returnAddress, oldStack, newStack, newSpace])
    (run : cpu.run pages contextSwitch = some after) :
    ∃ (saved : Cpu) (memory : Memory) (target space : UInt32) (switched : Cpu),
      cpu.run pages saveContext = some saved ∧
      (pages cpu.cr3).store saved.memory oldStack (saved.registers .esp) = some memory ∧
      (pages cpu.cr3).WordsAt memory (cpu.registers .esp + 8) [target, space] ∧
      switched.registers .esp = target ∧ switched.cr3 = space ∧ switched.memory = memory ∧
      cpu.run pages switchStacks = some switched ∧
      switched.run pages restoreContext = some after := by
  obtain ⟨switched, switches, restored⟩ : ∃ switched, cpu.run pages switchStacks = some switched ∧
      switched.run pages restoreContext = some after := by
    rw [Cpu.run, show contextSwitch = switchStacks ++ restoreContext from rfl,
      List.foldlM_append] at run
    exact Option.bind_eq_some_iff.mp run
  obtain ⟨saved, save, rest⟩ : ∃ saved, cpu.run pages saveContext = some saved ∧
      saved.run pages (switchStacks.drop 2) = some switched := by
    have both := switches
    rw [Cpu.run, show switchStacks = saveContext ++ switchStacks.drop 2 from rfl,
      List.foldlM_append] at both
    exact Option.bind_eq_some_iff.mp both
  obtain ⟨image, esp, cr3⟩ := saveContext_words called (by
    rw [List.length_cons, List.length_cons, List.length_singleton]
    decide) save
  have first : (pages saved.cr3).load saved.memory (saved.registers .esp + 40) = some oldStack :=
    (Paging.wordsAt_append.mp image).2.1
  -- The arguments are found above the context.
  obtain ⟨_, loaded, rest⟩ := Option.bind_eq_some_iff.mp rest
  obtain ⟨_, found, same⟩ := Option.bind_eq_some_iff.mp loaded
  obtain rfl := Option.some.inj (first.symm.trans found)
  obtain rfl := Option.some.inj same
  obtain ⟨_, stored, rest⟩ := Option.bind_eq_some_iff.mp rest
  obtain ⟨memory, store, same⟩ := Option.bind_eq_some_iff.mp stored
  obtain rfl := Option.some.inj same
  obtain ⟨_, loaded, rest⟩ := Option.bind_eq_some_iff.mp rest
  obtain ⟨target, isTarget, same⟩ := Option.bind_eq_some_iff.mp loaded
  obtain rfl := Option.some.inj same
  obtain ⟨_, loaded, rest⟩ := Option.bind_eq_some_iff.mp rest
  obtain ⟨space, isSpace, same⟩ := Option.bind_eq_some_iff.mp loaded
  obtain rfl := Option.some.inj same
  obtain rfl := Option.some.inj rest
  refine ⟨saved, memory, target, space, _, save, ?_, ?_, rfl, rfl, rfl, switches, restored⟩
  · rw [← cr3]
    exact store
  · have place : saved.registers .esp + 44 = cpu.registers .esp + 8 := by
      rw [← esp, UInt32.add_assoc]
      rfl
    have next : saved.registers .esp + 48 = cpu.registers .esp + 8 + 4 := by
      rw [← esp, UInt32.add_assoc, UInt32.add_assoc]
      rfl
    rw [← cr3]
    refine ⟨?_, ?_, trivial⟩
    · rw [← place]
      exact isTarget
    · rw [← next]
      exact isSpace

/-- The whole of `bootstrap_first_process`. -/
theorem bootstrapFirstProcess_run {newStack newSpace : UInt32}
    (called : Cpu.OnStack pages cpu [returnAddress, newStack, newSpace])
    (run : cpu.run pages bootstrapFirstProcess = some after) :
    ∃ switched : Cpu, cpu.run pages loadStack = some switched ∧
      switched.run pages restoreContext = some after ∧
      switched.registers .esp = newStack ∧ switched.cr3 = newSpace := by
  obtain ⟨switched, loads, restored⟩ : ∃ switched, cpu.run pages loadStack = some switched ∧
      switched.run pages restoreContext = some after := by
    rw [Cpu.run, show bootstrapFirstProcess = loadStack ++ restoreContext from rfl,
      List.foldlM_append] at run
    exact Option.bind_eq_some_iff.mp run
  have stackWord : (pages cpu.cr3).load cpu.memory (cpu.registers .esp + 4) = some newStack :=
    called.2.1
  have spaceWord : (pages cpu.cr3).load cpu.memory (cpu.registers .esp + 8) = some newSpace := by
    have third := called.2.2.1
    rw [UInt32.add_assoc] at third
    exact third
  obtain ⟨_, loaded, rest⟩ := Option.bind_eq_some_iff.mp loads
  obtain ⟨_, found, same⟩ := Option.bind_eq_some_iff.mp loaded
  obtain rfl := Option.some.inj (stackWord.symm.trans found)
  obtain rfl := Option.some.inj same
  obtain ⟨_, loaded, rest⟩ := Option.bind_eq_some_iff.mp rest
  obtain ⟨_, found, same⟩ := Option.bind_eq_some_iff.mp loaded
  obtain rfl := Option.some.inj (spaceWord.symm.trans found)
  obtain rfl := Option.some.inj same
  obtain rfl := Option.some.inj rest
  exact ⟨_, loads, restored, rfl, rfl⟩

end KdbOS.Proc
