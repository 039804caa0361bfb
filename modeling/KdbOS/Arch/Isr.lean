import Mathlib.Data.List.Induction
import Mathlib.Tactic.Common

/-! `isr.c`: the three handler tables. A handler is a function pointer, with `none` for
NULL. An operation is `none` where it would index a table out of its declared bounds. -/

set_option autoImplicit false

namespace KdbOS.Arch

def cpuEntries : Nat := 32

def irqEntries : Nat := 16

def syscallEntries : Nat := 256

structure Isr (Handler : Type) where
  cpuExceptionHandlers : Vector (Option Handler) cpuEntries
  irqHandlers : Vector (Option Handler) irqEntries
  syscallHandlers : Vector (Option Handler) syscallEntries

section

variable {Entry : Type} {entries : Nat}

def loadEntry (table : Vector Entry entries) (index : Nat) : Option Entry := table[index]?

def storeEntry (table : Vector Entry entries) (index : Nat) (entry : Entry) :
    Option (Vector Entry entries) :=
  if inside : index < entries then some (table.set index entry inside) else none

theorem storeEntry_isSome (table : Vector Entry entries) (entry : Entry) {index : Nat} :
    (storeEntry table index entry).isSome = true ↔ index < entries := by
  unfold storeEntry
  split <;> simp [*]

theorem loadEntry_isSome {table : Vector Entry entries} {index : Nat} :
    (loadEntry table index).isSome = true ↔ index < entries := by
  simp [loadEntry]

theorem loadEntry_storeEntry {table stored : Vector Entry entries} {index other : Nat}
    {entry : Entry} (success : storeEntry table index entry = some stored) :
    loadEntry stored other = if index = other then some entry else loadEntry table other := by
  unfold storeEntry at success
  split at success
  case isTrue inside =>
    obtain rfl := Option.some.inj success
    rw [loadEntry, Vector.getElem?_set]
    rfl
  case isFalse => cases success

end

variable {Handler : Type}

/-- The static initialisers. -/
def Isr.zero : Isr Handler :=
  ⟨Vector.replicate _ none, Vector.replicate _ none, Vector.replicate _ none⟩

def registerCpuHandler (vector : UInt8) (handler : Option Handler) (isr : Isr Handler) :
    Option (Isr Handler) :=
  if vector < 32 then do
    let table ← storeEntry isr.cpuExceptionHandlers vector.toNat handler
    some { isr with cpuExceptionHandlers := table }
  else some isr

def registerIrqHandler (irqLine : UInt8) (handler : Option Handler) (isr : Isr Handler) :
    Option (Isr Handler) :=
  if irqLine ≥ 32 ∧ irqLine < 48 then do
    let table ← storeEntry isr.irqHandlers irqLine.toNat handler
    some { isr with irqHandlers := table }
  else some isr

def registerSyscallHandler (vector : UInt8) (handler : Option Handler) (isr : Isr Handler) :
    Option (Isr Handler) :=
  if vector ≥ 48 then do
    let table ← storeEntry isr.syscallHandlers vector.toNat handler
    some { isr with syscallHandlers := table }
  else some isr

/-- The handler that is called for `regs->interrupt_number`, if any. -/
def masterExceptionHandler (interruptNumber : UInt32) (isr : Isr Handler) :
    Option (Option Handler) :=
  if interruptNumber < 32 then loadEntry isr.cpuExceptionHandlers interruptNumber.toNat
  else if interruptNumber ≥ 32 ∧ interruptNumber < 48 then
    loadEntry isr.irqHandlers interruptNumber.toNat
  else if interruptNumber ≥ 48 ∧ interruptNumber < 256 then
    loadEntry isr.syscallHandlers interruptNumber.toNat
  else some none

/-! ## Registration histories -/

inductive RegisterFunction where
  | registerCpuHandler
  | registerIrqHandler
  | registerSyscallHandler
  deriving DecidableEq, Repr

/-- The vectors that the function accepts. -/
def RegisterFunction.accepts (function : RegisterFunction) (vector : Nat) : Bool :=
  match function with
  | registerCpuHandler => vector < 32
  | registerIrqHandler => 32 ≤ vector && vector < 48
  | registerSyscallHandler => 48 ≤ vector

structure Registration (Handler : Type) where
  function : RegisterFunction
  vector : UInt8
  handler : Option Handler

def Registration.perform (isr : Isr Handler) (call : Registration Handler) : Option (Isr Handler) :=
  match call.function with
  | .registerCpuHandler => registerCpuHandler call.vector call.handler isr
  | .registerIrqHandler => registerIrqHandler call.vector call.handler isr
  | .registerSyscallHandler => registerSyscallHandler call.vector call.handler isr

/-- The call is for `vector`, through the function whose range contains it. -/
def Registration.binds (call : Registration Handler) (vector : Nat) : Bool :=
  call.vector.toNat = vector && call.function.accepts vector

/-- The handler of the last call that is for `vector`. -/
def lastRegistered (calls : List (Registration Handler)) (vector : Nat) : Option Handler :=
  (calls.reverse.find? (·.binds vector)).bind Registration.handler

/-- `init_isr` is a history of its own: it clears the tables and fills the first one. -/
def initIsr (kernelPanic : Handler) : Option (Isr Handler) :=
  (List.range 32).foldlM (fun isr i => registerCpuHandler (UInt8.ofNat i) (some kernelPanic) isr)
    Isr.zero

/-- A call is safe when it stays inside its table. -/
def Registration.Safe (call : Registration Handler) : Prop :=
  ¬ (call.function = .registerIrqHandler ∧ call.function.accepts call.vector.toNat = true)

/-- The vectors that go to `irq_handlers`. -/
def IrqVector (vector : Nat) : Prop := 32 ≤ vector ∧ vector < 48

instance (vector : Nat) : Decidable (IrqVector vector) := inferInstanceAs (Decidable (_ ∧ _))

variable {isr after : Isr Handler} {call : Registration Handler}
variable {calls : List (Registration Handler)}

/-- Dispatch with its three range checks on the vector's number. -/
theorem masterExceptionHandler_eq (number : UInt32) (isr : Isr Handler) :
    masterExceptionHandler number isr =
      if number.toNat < 32 then loadEntry isr.cpuExceptionHandlers number.toNat
      else if number.toNat < 48 then loadEntry isr.irqHandlers number.toNat
      else if number.toNat < 256 then loadEntry isr.syscallHandlers number.toNat
      else some none := by
  simp only [masterExceptionHandler, UInt32.lt_iff_toNat_lt, ge_iff_le, UInt32.le_iff_toNat_le,
    UInt32.reduceToNat]
  by_cases cpu : number.toNat < 32
  · rw [if_pos cpu, if_pos cpu]
  · have notCpu : 32 ≤ number.toNat := Nat.not_lt.mp cpu
    rw [if_neg cpu, if_neg cpu]
    by_cases irq : number.toNat < 48
    · rw [if_pos ⟨notCpu, irq⟩, if_pos irq]
    · have notIrq : 48 ≤ number.toNat := Nat.not_lt.mp irq
      rw [if_neg fun both => irq both.2, if_neg irq]
      exact if_congr (and_iff_right notIrq) rfl rfl

/-- Dispatch stays inside its table exactly outside the interrupt lines. -/
theorem masterExceptionHandler_isSome (isr : Isr Handler) {number : UInt32} :
    (masterExceptionHandler number isr).isSome = true ↔ ¬ IrqVector number.toNat := by
  rw [masterExceptionHandler_eq]
  unfold IrqVector
  split
  case isTrue low =>
    rw [loadEntry_isSome]
    exact iff_of_true low (by omega)
  case isFalse =>
    split
    case isTrue =>
      rw [loadEntry_isSome]
      exact iff_of_false (by unfold irqEntries; omega) (by omega)
    case isFalse =>
      split
      case isTrue high =>
        rw [loadEntry_isSome]
        exact iff_of_true high (by omega)
      case isFalse => exact iff_of_true rfl (by omega)

/-- What a registration that stays inside its table leaves behind. -/
def Registered (call : Registration Handler) (isr after : Isr Handler) : Prop :=
  ∀ number : UInt32, ¬ IrqVector number.toNat →
    masterExceptionHandler number after =
      if call.binds number.toNat then some call.handler else masterExceptionHandler number isr

/-- A call whose vector its function does not accept changes nothing. -/
theorem Registered.ignored (outside : call.function.accepts call.vector.toNat = false) :
    Registered call isr isr := by
  intro number _
  have unbound : call.binds number.toNat = false := by
    rw [Registration.binds, Bool.and_eq_false_iff, decide_eq_false_iff_not]
    by_cases same : call.vector.toNat = number.toNat
    · exact .inr (same ▸ outside)
    · exact .inl same
  rw [if_neg (Bool.eq_false_iff.mp unbound)]

theorem registerCpuHandler_cases (vector : UInt8) (handler : Option Handler) (isr : Isr Handler) :
    ∃ after, registerCpuHandler vector handler isr = some after ∧
      Registered ⟨.registerCpuHandler, vector, handler⟩ isr after := by
  simp only [registerCpuHandler, UInt8.lt_iff_toNat_lt, UInt8.reduceToNat]
  by_cases inside : vector.toNat < 32
  · rw [if_pos inside]
    obtain ⟨table, stored⟩ := Option.isSome_iff_exists.mp
      ((storeEntry_isSome isr.cpuExceptionHandlers handler).mpr inside)
    refine ⟨_, by rw [stored]; rfl, fun number _ => ?_⟩
    rw [masterExceptionHandler_eq, masterExceptionHandler_eq, loadEntry_storeEntry stored]
    simp only [Registration.binds, RegisterFunction.accepts, Bool.and_eq_true, decide_eq_true_eq]
    grind
  · exact ⟨isr, if_neg inside, .ignored (by simpa [RegisterFunction.accepts] using inside)⟩

theorem registerSyscallHandler_cases (vector : UInt8) (handler : Option Handler)
    (isr : Isr Handler) :
    ∃ after, registerSyscallHandler vector handler isr = some after ∧
      Registered ⟨.registerSyscallHandler, vector, handler⟩ isr after := by
  simp only [registerSyscallHandler, ge_iff_le, UInt8.le_iff_toNat_le, UInt8.reduceToNat]
  by_cases accepted : 48 ≤ vector.toNat
  · rw [if_pos accepted]
    obtain ⟨table, stored⟩ := Option.isSome_iff_exists.mp
      ((storeEntry_isSome isr.syscallHandlers handler).mpr vector.toNat_lt)
    refine ⟨_, by rw [stored]; rfl, fun number _ => ?_⟩
    have bounded := vector.toNat_lt
    rw [masterExceptionHandler_eq, masterExceptionHandler_eq, loadEntry_storeEntry stored]
    simp only [Registration.binds, RegisterFunction.accepts, Bool.and_eq_true, decide_eq_true_eq]
    grind
  · exact ⟨isr, if_neg accepted, .ignored (by simpa [RegisterFunction.accepts] using accepted)⟩

/-- `irq_handlers` has 16 entries, and the accepted lines are 32 to 47: no accepted call
stays inside it. -/
theorem registerIrqHandler_cases (irqLine : UInt8) (handler : Option Handler) (isr : Isr Handler) :
    registerIrqHandler irqLine handler isr =
      if IrqVector irqLine.toNat then none else some isr := by
  simp only [registerIrqHandler, ge_iff_le, UInt8.le_iff_toNat_le, UInt8.lt_iff_toNat_lt,
    UInt8.reduceToNat]
  by_cases accepted : 32 ≤ irqLine.toNat ∧ irqLine.toNat < 48
  · have outside : ¬ irqLine.toNat < irqEntries := by
      unfold irqEntries
      omega
    rw [if_pos accepted, storeEntry, dif_neg outside, if_pos (show IrqVector _ from accepted)]
    rfl
  · rw [if_neg accepted, if_neg (show ¬ IrqVector _ from accepted)]

theorem Registration.safe_iff :
    call.Safe ↔ (call.function = .registerIrqHandler → ¬ IrqVector call.vector.toNat) := by
  obtain ⟨function, vector, handler⟩ := call
  cases function <;> simp [Registration.Safe, RegisterFunction.accepts, IrqVector]

/-- One registration: it leaves its table exactly when it is one for an interrupt line;
otherwise it changes the handler of its own vector only. -/
theorem perform_cases (call : Registration Handler) (isr : Isr Handler) :
    (¬ call.Safe ∧ call.perform isr = none) ∨
      (call.Safe ∧ ∃ after, call.perform isr = some after ∧ Registered call isr after) := by
  rw [Registration.safe_iff]
  obtain ⟨function, vector, handler⟩ := call
  cases function with
  | registerCpuHandler =>
      exact .inr ⟨nofun, registerCpuHandler_cases vector handler isr⟩
  | registerSyscallHandler =>
      exact .inr ⟨nofun, registerSyscallHandler_cases vector handler isr⟩
  | registerIrqHandler =>
      have result := registerIrqHandler_cases vector handler isr
      by_cases accepted : IrqVector vector.toNat
      · exact .inl ⟨fun safe => safe rfl accepted, result.trans (if_pos accepted)⟩
      · refine .inr ⟨fun _ => accepted, isr, result.trans (if_neg accepted), .ignored ?_⟩
        simpa [RegisterFunction.accepts, IrqVector] using accepted

/-! ## What every history serves -/

/-- The tables after the calls. -/
def registered (calls : List (Registration Handler)) : Option (Isr Handler) :=
  calls.foldlM Registration.perform Isr.zero

theorem registered_concat (calls : List (Registration Handler)) (call : Registration Handler) :
    registered (calls ++ [call]) = (registered calls).bind call.perform := by
  simp [registered, List.foldlM_append]

theorem lastRegistered_concat (calls : List (Registration Handler)) (call : Registration Handler)
    (vector : Nat) :
    lastRegistered (calls ++ [call]) vector =
      if call.binds vector then call.handler else lastRegistered calls vector := by
  rw [lastRegistered, List.reverse_append, List.reverse_singleton, List.singleton_append,
    List.find?_cons]
  cases call.binds vector <;> rfl

/-- A handler that all calls register is found where one of them binds the vector. -/
theorem lastRegistered_of_all {handler : Option Handler} {vector : Nat}
    (same : ∀ call ∈ calls, call.handler = handler) (bound : ∃ call ∈ calls, call.binds vector) :
    lastRegistered calls vector = handler := by
  obtain ⟨call, member, binds⟩ := bound
  have exists_ : (calls.reverse.find? (·.binds vector)).isSome = true :=
    List.find?_isSome.mpr ⟨call, List.mem_reverse.mpr member, binds⟩
  obtain ⟨last, found⟩ := Option.isSome_iff_exists.mp exists_
  rw [lastRegistered, found]
  exact same last (List.mem_reverse.mp (List.mem_of_find?_eq_some found))

theorem masterExceptionHandler_zero {number : UInt32} (notIrq : ¬ IrqVector number.toNat) :
    masterExceptionHandler number (Isr.zero : Isr Handler) = some none := by
  obtain ⟨handler, found⟩ :=
    Option.isSome_iff_exists.mp ((masterExceptionHandler_isSome Isr.zero).mpr notIrq)
  rw [found]
  rw [masterExceptionHandler_eq] at found
  simp only [Isr.zero, loadEntry, Vector.getElem?_replicate] at found
  grind

/-- Dispatch after safe calls finds the last handler registered for the vector. -/
theorem registered_of_safe (calls : List (Registration Handler)) (safe : ∀ call ∈ calls, call.Safe) :
    ∃ isr, registered calls = some isr ∧
      ∀ number, ¬ IrqVector number.toNat →
        masterExceptionHandler number isr = some (lastRegistered calls number.toNat) := by
  induction calls using List.reverseRecOn with
  | nil => exact ⟨Isr.zero, rfl, fun number notIrq => masterExceptionHandler_zero notIrq⟩
  | append_singleton calls call ih =>
      obtain ⟨isr, reached, serves⟩ := ih fun other member => safe other (List.mem_append_left _ member)
      cases perform_cases call isr with
      | inl leaves => exact absurd (safe call (by simp)) leaves.1
      | inr performs =>
          obtain ⟨_, after, performed, changed⟩ := performs
          refine ⟨after, by rw [registered_concat, reached]; exact performed, ?_⟩
          intro number notIrq
          rw [changed number notIrq, lastRegistered_concat, serves number notIrq]
          split <;> rfl

/-- A history that leaves no table consists of safe calls. -/
theorem safe_of_registered (reached : registered calls = some isr) : ∀ call ∈ calls, call.Safe := by
  induction calls using List.reverseRecOn generalizing isr with
  | nil => simp
  | append_singleton calls last ih =>
      rw [registered_concat] at reached
      obtain ⟨before, earlier, performed⟩ := Option.bind_eq_some_iff.mp reached
      intro call member
      cases List.mem_append.mp member with
      | inl member => exact ih earlier call member
      | inr member =>
          obtain rfl := List.mem_singleton.mp member
          cases perform_cases call before with
          | inl leaves =>
              rw [leaves.2] at performed
              cases performed
          | inr performs => exact performs.1

/-- The calls that `init_isr` makes. -/
theorem initIsr_eq (kernelPanic : Handler) :
    initIsr kernelPanic = registered ((List.range 32).map fun i =>
      ⟨.registerCpuHandler, UInt8.ofNat i, some kernelPanic⟩) := by
  rw [registered, List.foldlM_map]
  rfl

/-- After `init_isr` every exception panics. -/
theorem initIsr_serves (kernelPanic : Handler) :
    ∃ isr, initIsr kernelPanic = some isr ∧
      ∀ number : UInt32, number.toNat < 32 →
        masterExceptionHandler number isr = some (some kernelPanic) := by
  rw [initIsr_eq]
  obtain ⟨isr, reached, serves⟩ := registered_of_safe
    ((List.range 32).map fun i => ⟨.registerCpuHandler, UInt8.ofNat i, some kernelPanic⟩)
    (by simp [Registration.safe_iff])
  refine ⟨isr, reached, fun number low => ?_⟩
  rw [serves number fun irq => Nat.not_lt.mpr irq.1 low]
  refine congrArg some (lastRegistered_of_all (by simp) ?_)
  refine ⟨_, List.mem_map.mpr ⟨number.toNat, List.mem_range.mpr low, rfl⟩, ?_⟩
  have small : number.toNat % 256 = number.toNat := Nat.mod_eq_of_lt (by omega)
  simp [Registration.binds, RegisterFunction.accepts, small, low]

/-- The call stays inside its table and leaves the other vectors alone. -/
def OwnVectorOnly (before : Isr Handler) (call : Registration Handler) : Prop :=
  ∃ after, call.perform before = some after ∧
    ∀ other : UInt32, other.toNat ≠ call.vector.toNat →
      masterExceptionHandler other after = masterExceptionHandler other before

theorem ownVectorOnly_of_safe (safe : call.Safe) (before : Isr Handler) :
    OwnVectorOnly before call := by
  cases perform_cases call before with
  | inl leaves => exact absurd safe leaves.1
  | inr performs =>
      obtain ⟨_, after, performed, changed⟩ := performs
      refine ⟨after, performed, fun other different => ?_⟩
      by_cases irq : IrqVector other.toNat
      · have none : ∀ isr : Isr Handler, masterExceptionHandler other isr = none := fun isr =>
          Option.not_isSome_iff_eq_none.mp fun inside =>
            (masterExceptionHandler_isSome isr).mp inside irq
        rw [none, none]
      · have unbound : call.binds other.toNat = false := by
          simp [Registration.binds, Ne.symm different]
        rw [changed other irq, unbound]
        rfl

/-- All accesses of the calls and of the dispatch stay inside the tables, a call changes
its own vector only, and dispatch invokes the last handler registered for the vector. -/
def TablesServe (calls : List (Registration Handler)) (interruptNumber : UInt32) : Prop :=
  (∀ front call back, calls = front ++ call :: back →
    ∃ before, registered front = some before ∧ OwnVectorOnly before call) ∧
  ∃ isr, registered calls = some isr ∧
    masterExceptionHandler interruptNumber isr =
      some (lastRegistered calls interruptNumber.toNat)

/-- Whatever the handlers, the tables serve exactly the histories without an access to
`irq_handlers`. -/
theorem tablesServe_iff (calls : List (Registration Handler)) (interruptNumber : UInt32) :
    TablesServe calls interruptNumber ↔
      (∀ call ∈ calls, call.Safe) ∧ ¬ IrqVector interruptNumber.toNat := by
  constructor
  · rintro ⟨_, isr, reached, served⟩
    refine ⟨safe_of_registered reached, (masterExceptionHandler_isSome isr).mp ?_⟩
    rw [served]
    rfl
  · rintro ⟨safe, notIrq⟩
    refine ⟨?_, ?_⟩
    · rintro front call back rfl
      obtain ⟨before, reached, _⟩ := registered_of_safe _ fun other member =>
        safe other (List.mem_append_left _ member)
      exact ⟨before, reached, ownVectorOnly_of_safe (safe call (by simp)) before⟩
    · obtain ⟨isr, reached, serves⟩ := registered_of_safe _ safe
      exact ⟨isr, reached, serves interruptNumber notIrq⟩

/-- The keyboard's handler for line 33 does not fit into `irq_handlers`. -/
theorem tablesServe_fails :
    ¬ ∀ (calls : List (Registration Nat)) (interruptNumber : UInt32),
      TablesServe calls interruptNumber := by
  intro serve
  obtain ⟨_, isr, reached, _⟩ := serve [⟨.registerIrqHandler, 33, some 1⟩] 33
  have outside : registered [⟨.registerIrqHandler, 33, some 1⟩] = (none : Option (Isr Nat)) := rfl
  rw [outside] at reached
  cases reached

end KdbOS.Arch
