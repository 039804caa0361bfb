import KdbOS.Library.PagedWords
import Mathlib.Logic.Function.Basic

/-! The instructions of `ctxswitch.asm`, with 32-bit operands and in the kernel's privilege
level. Translations are those in force for a value of CR3. -/

set_option autoImplicit false

namespace KdbOS.Arch

open Library

inductive Register where
  | eax | ecx | edx | ebx | esp | ebp | esi | edi
  deriving DecidableEq, Repr

/-- The bits that `popf` sets: the status and control flags, IOPL, NT, AC and ID. -/
def Eflags.changeable : UInt32 := 0x00247FD5

/-- EFLAGS in the kernel. Of the other bits only bit 1 is set: RF is clear between two
instructions, and the kernel does not use the virtual-8086 mode. -/
structure Eflags where
  value : UInt32
  fixed : value &&& ~~~Eflags.changeable = 2

namespace Eflags

/-- What `popf` makes of a word. -/
def ofWord (word : UInt32) : Eflags where
  value := word &&& changeable ||| 2
  fixed := by
    have split : (word &&& changeable ||| 2) &&& ~~~changeable =
        word &&& changeable &&& ~~~changeable ||| 2 &&& ~~~changeable :=
      UInt32.toBitVec_inj.mp BitVec.and_or_distrib_right
    have none : changeable &&& ~~~changeable = 0 := by decide
    have one : 2 &&& ~~~changeable = 2 := by decide
    rw [split, UInt32.and_assoc, none, one, UInt32.and_zero, UInt32.zero_or]

theorem ofWord_value (eflags : Eflags) : ofWord eflags.value = eflags := by
  have all : changeable ||| ~~~changeable = -1 := by decide
  have split : eflags.value &&& (changeable ||| ~~~changeable) =
      eflags.value &&& changeable ||| eflags.value &&& ~~~changeable :=
    UInt32.toBitVec_inj.mp BitVec.and_or_distrib_left
  rw [all, UInt32.and_neg_one, eflags.fixed] at split
  obtain ⟨value, fixed⟩ := eflags
  unfold ofWord
  congr
  exact split.symm

/-- Whether interrupts are enabled. -/
def interrupts (eflags : Eflags) : Bool := eflags.value &&& 0x200 ≠ 0

end Eflags

structure Cpu where
  registers : Register → UInt32
  eflags : Eflags
  eip : UInt32
  cr3 : UInt32
  memory : Memory

inductive Instruction where
  | pusha
  | pushfd
  | popf
  | popa
  | ret
  /-- `mov dest, [base + displacement]` -/
  | load (dest base : Register) (displacement : UInt32)
  /-- `mov [base], source` -/
  | store (base source : Register)
  | mov (dest source : Register)
  | movCr3 (source : Register)
  deriving DecidableEq, Repr

namespace Cpu

def set (cpu : Cpu) (register : Register) (value : UInt32) : Cpu :=
  { cpu with registers := Function.update cpu.registers register value }

/-- What is popped for `esp` is thrown away. -/
def take (cpu : Cpu) (register : Register) (word : UInt32) : Cpu :=
  if register = .esp then cpu else cpu.set register word

section Exec

variable (pages : UInt32 → Paging)

def push (word : UInt32) (cpu : Cpu) : Option Cpu := do
  let memory ← (pages cpu.cr3).store cpu.memory (cpu.registers .esp - 4) word
  return { cpu.set .esp (cpu.registers .esp - 4) with memory := memory }

def pop (cpu : Cpu) : Option (UInt32 × Cpu) := do
  let word ← (pages cpu.cr3).load cpu.memory (cpu.registers .esp)
  return (word, cpu.set .esp (cpu.registers .esp + 4))

/-- The registers in the order of `pusha`. -/
def allRegisters : List Register := [.eax, .ecx, .edx, .ebx, .esp, .ebp, .esi, .edi]

def pushAll (words : List UInt32) (cpu : Cpu) : Option Cpu :=
  words.foldlM (fun cpu word => cpu.push pages word) cpu

def popAll : List Register → Cpu → Option Cpu
  | [], cpu => some cpu
  | register :: rest, cpu => do
      let (word, cpu) ← cpu.pop pages
      popAll rest (cpu.take register word)

/-- One instruction; an access to an absent page has no result. -/
def exec (instruction : Instruction) (cpu : Cpu) : Option Cpu :=
  match instruction with
  | .pusha => cpu.pushAll pages (allRegisters.map cpu.registers)
  | .pushfd => cpu.push pages cpu.eflags.value
  | .popf => do
      let (word, cpu) ← cpu.pop pages
      return { cpu with eflags := .ofWord word }
  | .popa => cpu.popAll pages allRegisters.reverse
  | .ret => do
      let (word, cpu) ← cpu.pop pages
      return { cpu with eip := word }
  | .load dest base displacement => do
      let word ← (pages cpu.cr3).load cpu.memory (cpu.registers base + displacement)
      return cpu.set dest word
  | .store base source => do
      let memory ← (pages cpu.cr3).store cpu.memory (cpu.registers base) (cpu.registers source)
      return { cpu with memory := memory }
  | .mov dest source => some (cpu.set dest (cpu.registers source))
  | .movCr3 source => some { cpu with cr3 := cpu.registers source }

def run (program : List Instruction) (cpu : Cpu) : Option Cpu :=
  program.foldlM (fun cpu instruction => cpu.exec pages instruction) cpu

end Exec

/-! ## Rows of words on the stack -/

variable {pages : UInt32 → Paging} {cpu after : Cpu} {word : UInt32} {words placed : List UInt32}

@[simp] theorem set_registers_self (cpu : Cpu) (register : Register) (value : UInt32) :
    (cpu.set register value).registers register = value := Function.update_self _ _ _

theorem set_registers_of_ne {register other : Register} (different : other ≠ register)
    (cpu : Cpu) (value : UInt32) : (cpu.set register value).registers other = cpu.registers other :=
  Function.update_of_ne different _ _

theorem take_of_ne {register other : Register} (different : other ≠ register) (cpu : Cpu)
    (word : UInt32) : (cpu.take register word).registers other = cpu.registers other := by
  unfold take
  split
  · rfl
  · exact set_registers_of_ne different _ _

theorem take_self {register : Register} (notEsp : register ≠ .esp) (cpu : Cpu) (word : UInt32) :
    (cpu.take register word).registers register = word := by
  rw [take, if_neg notEsp, set_registers_self]

theorem take_esp (cpu : Cpu) (register : Register) (word : UInt32) :
    (cpu.take register word).registers .esp = cpu.registers .esp := by
  by_cases isEsp : register = .esp
  · rw [take, if_pos isEsp]
  · exact take_of_ne (Ne.symm isEsp) _ _

theorem take_kept (cpu : Cpu) (register : Register) (word : UInt32) :
    (cpu.take register word).eflags = cpu.eflags ∧ (cpu.take register word).eip = cpu.eip ∧
      (cpu.take register word).cr3 = cpu.cr3 ∧ (cpu.take register word).memory = cpu.memory := by
  unfold take
  split
  · exact ⟨rfl, rfl, rfl, rfl⟩
  · exact ⟨rfl, rfl, rfl, rfl⟩

/-- The words from the top of the stack on. -/
def OnStack (pages : UInt32 → Paging) (cpu : Cpu) (words : List UInt32) : Prop :=
  (pages cpu.cr3).WordsAt cpu.memory (cpu.registers .esp) words

theorem pop_eq (onStack : OnStack pages cpu (word :: words)) :
    cpu.pop pages = some (word, cpu.set .esp (cpu.registers .esp + 4)) := by
  rw [pop, onStack.1]
  rfl

theorem OnStack.popped (onStack : OnStack pages cpu (word :: words)) :
    OnStack pages (cpu.set .esp (cpu.registers .esp + 4)) words := by
  unfold OnStack
  rw [set_registers_self]
  exact onStack.2

/-- Words have been pushed, and only `esp` and the memory are different. -/
structure Pushed (pages : UInt32 → Paging) (cpu after : Cpu) (pushed placed : List UInt32) :
    Prop where
  onStack : OnStack pages after (pushed.reverse ++ placed)
  registers : ∀ register ≠ .esp, after.registers register = cpu.registers register
  esp : after.registers .esp + UInt32.ofNat (4 * pushed.length) = cpu.registers .esp
  eflags : after.eflags = cpu.eflags
  cr3 : after.cr3 = cpu.cr3

theorem push_pushed (onStack : OnStack pages cpu placed) (few : placed.length < 1024)
    (run : cpu.push pages word = some after) : Pushed pages cpu after [word] placed := by
  obtain ⟨memory, stored, returned⟩ := Option.bind_eq_some_iff.mp run
  obtain rfl := Option.some.inj returned
  refine ⟨?_, fun register different => Function.update_of_ne different _ _, ?_, rfl, rfl⟩
  · have row := onStack.push few stored
    unfold OnStack
    rw [set_registers_self]
    exact row
  · rw [set_registers_self]
    exact UInt32.sub_add_cancel _ 4

theorem Pushed.trans {middle : Cpu} {first second : List UInt32}
    (start : Pushed pages cpu middle first placed)
    (next : Pushed pages middle after second (first.reverse ++ placed)) :
    Pushed pages cpu after (first ++ second) placed where
  onStack := by
    rw [List.reverse_append, List.append_assoc]
    exact next.onStack
  registers register different :=
    (next.registers register different).trans (start.registers register different)
  esp := by
    rw [List.length_append, Nat.mul_add, Nat.add_comm, UInt32.ofNat_add, ← UInt32.add_assoc,
      next.esp, start.esp]
  eflags := next.eflags.trans start.eflags
  cr3 := next.cr3.trans start.cr3

theorem pushAll_pushed (onStack : OnStack pages cpu placed)
    (fits : words.length + placed.length ≤ 1024) (run : cpu.pushAll pages words = some after) :
    Pushed pages cpu after words placed := by
  induction words generalizing cpu placed with
  | nil =>
      obtain rfl := Option.some.inj run
      exact ⟨onStack, fun _ _ => rfl, UInt32.add_zero _, rfl, rfl⟩
  | cons word words ih =>
      rw [List.length_cons] at fits
      rw [pushAll, List.foldlM_cons] at run
      obtain ⟨middle, first, rest⟩ := Option.bind_eq_some_iff.mp run
      have start := push_pushed onStack (by omega) first
      refine start.trans (ih start.onStack ?_ rest)
      rw [List.length_append, List.length_reverse, List.length_singleton]
      omega

/-- Registers have been popped from words, and nothing else but `esp` is different. -/
structure Popped (pages : UInt32 → Paging) (cpu after : Cpu) (registers : List Register)
    (words placed : List UInt32) : Prop where
  onStack : OnStack pages after placed
  popped : ∀ register word, (register, word) ∈ registers.zip words → register ≠ .esp →
    after.registers register = word
  kept : ∀ register ∉ registers, register ≠ .esp →
    after.registers register = cpu.registers register
  esp : after.registers .esp = cpu.registers .esp + UInt32.ofNat (4 * registers.length)
  eflags : after.eflags = cpu.eflags
  eip : after.eip = cpu.eip
  cr3 : after.cr3 = cpu.cr3
  memory : after.memory = cpu.memory

theorem popAll_popped {registers : List Register} (distinct : registers.Nodup)
    (length : words.length = registers.length) (onStack : OnStack pages cpu (words ++ placed)) :
    ∃ after, cpu.popAll pages registers = some after ∧
      Popped pages cpu after registers words placed := by
  induction registers generalizing cpu words with
  | nil =>
      obtain rfl := List.eq_nil_of_length_eq_zero length
      exact ⟨cpu, rfl, onStack, nofun, fun _ _ _ => rfl, (UInt32.add_zero _).symm, rfl, rfl, rfl, rfl⟩
  | cons register registers ih =>
      obtain ⟨word, words, rfl⟩ := List.exists_cons_of_length_eq_add_one length
      rw [List.nodup_cons] at distinct
      let next := cpu.set .esp (cpu.registers .esp + 4)
      obtain ⟨eflags, eip, cr3, memory⟩ := next.take_kept register word
      have esp : (next.take register word).registers .esp = cpu.registers .esp + 4 :=
        (take_esp _ _ _).trans (set_registers_self _ _ _)
      have rest : OnStack pages (next.take register word) (words ++ placed) := by
        unfold OnStack
        rw [esp, cr3, memory]
        exact onStack.2
      obtain ⟨after, run, popped⟩ := ih distinct.2 (Nat.succ.inj length) rest
      refine ⟨after, ?_, popped.onStack, ?_, ?_, ?_, popped.eflags.trans eflags,
        popped.eip.trans eip, popped.cr3.trans cr3, popped.memory.trans memory⟩
      · rw [popAll, pop_eq onStack]
        exact run
      · intro other value member notEsp
        rw [List.zip_cons_cons, List.mem_cons] at member
        rcases member with pair | later
        · obtain ⟨rfl, rfl⟩ := Prod.mk.inj pair
          rw [popped.kept other distinct.1 notEsp, take_self notEsp]
        · exact popped.popped other value later notEsp
      · intro other notMember notEsp
        rw [List.mem_cons, not_or] at notMember
        rw [popped.kept other notMember.2 notEsp, take_of_ne notMember.1]
        exact set_registers_of_ne notEsp _ _
      · rw [popped.esp, esp, List.length_cons, Nat.mul_add, Nat.add_comm, UInt32.ofNat_add,
          UInt32.add_assoc]
        rfl

end Cpu

end KdbOS.Arch
