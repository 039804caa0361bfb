import KdbOS.Proc.ProcessStack
import KdbOS.Proc.SchedProperties

/-! Timer interrupts with the stack switch in which they end: what is stored for the process
that was interrupted, and what is loaded for the one that gets the processor. -/

set_option autoImplicit false

namespace KdbOS.Proc

open Library Arch

/-! ## Calls of the two routines -/

/-- A call of `context_switch` that returns on another stack. The word behind `oldStack`
belongs to a process control block, and lies beside the stack. -/
structure SwitchCall where
  pages : UInt32 → Paging
  /-- At the first instruction. -/
  cpu : Cpu
  returnAddress : UInt32
  oldStack : UInt32
  newStack : UInt32
  newSpace : UInt32
  after : Cpu
  called : Cpu.OnStack pages cpu [returnAddress, oldStack, newStack, newSpace]
  apart : ∀ i j : UInt32, i.toNat < 4 → j.toNat < 52 →
    (pages cpu.cr3).locate (oldStack + i) ≠ (pages cpu.cr3).locate (cpu.registers .esp - 36 + j)
  run : cpu.run pages contextSwitch = some after

/-- A call of `bootstrap_first_process`. -/
structure BootstrapCall where
  pages : UInt32 → Paging
  cpu : Cpu
  returnAddress : UInt32
  newStack : UInt32
  newSpace : UInt32
  after : Cpu
  called : Cpu.OnStack pages cpu [returnAddress, newStack, newSpace]
  run : cpu.run pages bootstrapFirstProcess = some after

namespace SwitchCall

/-- Where the context is pushed. -/
def savedStack (call : SwitchCall) : UInt32 := call.cpu.registers .esp - 36

/-- The context of the caller. -/
def context (call : SwitchCall) : CpuContext := savedContext call.cpu call.returnAddress

/-- The address of the pushed context is stored for the old process, and a context is popped
from the stack and in the address space that were passed for the new one. -/
theorem restores (call : SwitchCall) :
    ∃ switched : Cpu, call.cpu.run call.pages switchStacks = some switched ∧
      switched.run call.pages restoreContext = some call.after ∧
      switched.registers .esp = call.newStack ∧ switched.cr3 = call.newSpace ∧
      (call.pages call.cpu.cr3).WordsAt switched.memory call.savedStack call.context.words ∧
      (call.pages call.cpu.cr3).load switched.memory call.oldStack = some call.savedStack := by
  obtain ⟨saved, memory, target, space, switched, save, stored, arguments, esp, cr3, rfl, switches,
    restore⟩ := contextSwitch_run call.called call.run
  obtain ⟨image, top, sameSpace⟩ := saveContext_words call.called (by
    rw [List.length_cons, List.length_cons, List.length_singleton]
    decide) save
  have savedAt : saved.registers .esp = call.savedStack := by
    rw [savedStack, ← top, UInt32.add_sub_cancel]
  rw [Cpu.OnStack, sameSpace, savedAt] at image
  change (call.pages call.cpu.cr3).WordsAt saved.memory call.savedStack
    (call.context.words ++ [call.oldStack, call.newStack, call.newSpace]) at image
  rw [savedAt] at stored
  have length : (call.context.words ++ [call.oldStack, call.newStack, call.newSpace]).length =
      13 := by
    rw [List.length_append, CpuContext.words, List.length_map]
    rfl
  have kept := image.store_apart stored (fun i j iSmall jSmall => call.apart i j iSmall (by
    rw [length] at jSmall
    exact jSmall)) (by
    rw [length]
    decide)
  obtain ⟨pushed, rest⟩ := Paging.wordsAt_append.mp kept
  have place : call.savedStack + UInt32.ofNat (4 * call.context.words.length) + 4 =
      call.cpu.registers .esp + 8 := by
    have words : call.context.words.length = 10 := by
      rw [CpuContext.words, List.length_map]
      rfl
    rw [words, ← top, savedAt, UInt32.add_assoc, UInt32.add_assoc]
    rfl
  have passed := rest.2
  rw [place] at passed
  have same := arguments.unique passed rfl
  obtain ⟨rfl, isSpace⟩ := List.cons.inj same
  obtain ⟨rfl, _⟩ := List.cons.inj isSpace
  exact ⟨switched, switches, restore, esp, cr3, pushed, Paging.load_store_self stored⟩

end SwitchCall

/-! ## Runs -/

inductive SwitchOp where
  | enqueue (address pid addressSpace addressSpacePhysical kernelStackPtr : Nat)
  /-- The interrupted process goes on. -/
  | tick
  | bootstrap (call : BootstrapCall)
  | switch (old : Nat) (call : SwitchCall)

/-- The store of `context_switch` behind `&old_pcb->kernel_stack_ptr`. -/
def Scheduler.saveStack (scheduler : Scheduler) (address : Nat) (kernelStackPtr : UInt32) :
    Scheduler :=
  scheduler.setPcb address
    { scheduler.pcb address with kernelStackPtr := kernelStackPtr.toNat }

/-- Fresh processes are enqueued, and timer interrupts end as `sched_timer_handler` says. -/
inductive SwitchStep : SchedSystem → SwitchOp → SchedSystem → Prop where
  | enqueue {before after : SchedSystem}
      {address pid addressSpace addressSpacePhysical kernelStackPtr : Nat} :
      SchedStep before (.enqueue address pid addressSpace addressSpacePhysical kernelStackPtr)
        after →
      SwitchStep before (.enqueue address pid addressSpace addressSpacePhysical kernelStackPtr)
        after
  | tick {before : SchedSystem} {fuel : Nat} {scheduler : Scheduler} :
      schedTimerHandler fuel before.scheduler = some (.none, scheduler) →
      SwitchStep before .tick ⟨scheduler, before.created⟩
  | bootstrap {before : SchedSystem} {fuel : Nat} {scheduler : Scheduler}
      {newStackPtr newCr3 : Nat} {call : BootstrapCall} :
      schedTimerHandler fuel before.scheduler =
        some (.bootstrapFirstProcess newStackPtr newCr3, scheduler) →
      call.newStack = UInt32.ofNat newStackPtr → call.newSpace = UInt32.ofNat newCr3 →
      SwitchStep before (.bootstrap call) ⟨scheduler, before.created⟩
  | switch {before : SchedSystem} {fuel : Nat} {scheduler : Scheduler}
      {old newStackPtr newCr3 : Nat} {call : SwitchCall} :
      schedTimerHandler fuel before.scheduler =
        some (.contextSwitch old newStackPtr newCr3, scheduler) →
      call.newStack = UInt32.ofNat newStackPtr → call.newSpace = UInt32.ofNat newCr3 →
      SwitchStep before (.switch old call)
        ⟨scheduler.saveStack old call.savedStack, before.created⟩

abbrev SwitchRun := Run SwitchStep

/-- One step as a function. -/
def performSwitch (fuel : Nat) (system : SchedSystem) : SwitchOp → Option SchedSystem
  | .enqueue address pid addressSpace addressSpacePhysical kernelStackPtr =>
      perform fuel system (.enqueue address pid addressSpace addressSpacePhysical kernelStackPtr)
  | .tick =>
      match schedTimerHandler fuel system.scheduler with
      | some (.none, scheduler) => some ⟨scheduler, system.created⟩
      | _ => none
  | .bootstrap call =>
      match schedTimerHandler fuel system.scheduler with
      | some (.bootstrapFirstProcess newStackPtr newCr3, scheduler) =>
          if call.newStack = UInt32.ofNat newStackPtr ∧ call.newSpace = UInt32.ofNat newCr3 then
            some ⟨scheduler, system.created⟩
          else none
      | _ => none
  | .switch old call =>
      match schedTimerHandler fuel system.scheduler with
      | some (.contextSwitch oldPcb newStackPtr newCr3, scheduler) =>
          if old = oldPcb ∧ call.newStack = UInt32.ofNat newStackPtr ∧
              call.newSpace = UInt32.ofNat newCr3 then
            some ⟨scheduler.saveStack old call.savedStack, system.created⟩
          else none
      | _ => none

theorem performSwitch_step {fuel : Nat} {before after : SchedSystem} {label : SwitchOp}
    (performed : performSwitch fuel before label = some after) : SwitchStep before label after := by
  cases label with
  | enqueue address pid addressSpace addressSpacePhysical kernelStackPtr =>
      have enqueued : perform fuel before (.enqueue address pid addressSpace addressSpacePhysical
        kernelStackPtr) = some after := performed
      exact .enqueue (perform_step enqueued)
  | tick =>
      rw [performSwitch] at performed
      split at performed
      · rename_i handled
        obtain rfl := Option.some.inj performed
        exact .tick handled
      · cases performed
  | bootstrap call =>
      rw [performSwitch] at performed
      split at performed
      · rename_i handled
        rw [Option.ite_none_right_eq_some] at performed
        obtain ⟨⟨stack, space⟩, same⟩ := performed
        obtain rfl := Option.some.inj same
        exact .bootstrap handled stack space
      · cases performed
  | switch old call =>
      rw [performSwitch] at performed
      split at performed
      · rename_i handled
        rw [Option.ite_none_right_eq_some] at performed
        obtain ⟨⟨rfl, stack, space⟩, same⟩ := performed
        obtain rfl := Option.some.inj same
        exact .switch handled stack space
      · cases performed

/-- Where the context of a process comes from: `create_process_stack`, or its most recent
suspension. -/
inductive Origin where
  | created (kernelStackPtr : Nat)
  | suspended (call : SwitchCall)

def Origin.stackPtr : Origin → Nat
  | created kernelStackPtr => kernelStackPtr
  | suspended call => call.savedStack.toNat

/-- How a process goes on when `context_switch` or `bootstrap_first_process` returns, as long
as its context lies where it was left. -/
def Origin.Resumes (pages : UInt32 → Paging) (switched after : Cpu) : Origin → Prop
  | created _ => ∀ entryPoint, Cpu.OnStack pages switched (startContext entryPoint).words →
      (∀ register ≠ .esp, after.registers register = 0) ∧ after.eflags.interrupts = true ∧
        after.eip = entryPoint
  | suspended call => Cpu.OnStack pages switched call.context.words →
      (∀ register ≠ .esp, after.registers register = call.cpu.registers register) ∧
        after.registers .esp = call.cpu.registers .esp + 4 ∧ after.eflags = call.cpu.eflags ∧
        after.eip = call.returnAddress

def SwitchOp.origins (origins : Nat → Origin) : SwitchOp → Nat → Origin
  | enqueue address _ _ _ kernelStackPtr => Function.update origins address (.created kernelStackPtr)
  | tick | bootstrap _ => origins
  | switch old call => Function.update origins old (.suspended call)

/-- Where the contexts come from after a run. -/
def origins (start : SchedSystem) (trace : List (Transition SchedSystem SwitchOp)) :
    Nat → Origin :=
  trace.foldl (fun origins transition => transition.label.origins origins)
    fun address => .created (start.scheduler.pcb address).kernelStackPtr

/-- The process that is current has been given the stack pointer that was stored for it when
it was suspended last, or when it was created, and goes on from there. -/
structure Continues (origins : Nat → Origin) (after : SchedSystem) (pages : UInt32 → Paging)
    (next : Nat) (switched result : Cpu) : Prop where
  current : after.scheduler.currentPcb = some next
  stack : switched.registers .esp = UInt32.ofNat (origins next).stackPtr
  space : switched.cr3 = UInt32.ofNat (after.scheduler.pcb next).addressSpacePhysical
  restores : switched.run pages restoreContext = some result
  resumes : (origins next).Resumes pages switched result

/-- What a transition has to do with the origins after it. -/
def DispatchesAsStored (origins : Nat → Origin) (after : SchedSystem) : SwitchOp → Prop
  | .enqueue .. | .tick => True
  | .bootstrap call => ∃ next switched, call.cpu.run call.pages loadStack = some switched ∧
      Continues origins after call.pages next switched call.after
  | .switch _ call => ∃ next switched, call.cpu.run call.pages switchStacks = some switched ∧
      Continues origins after call.pages next switched call.after

variable {start final before after : SchedSystem} {label : SwitchOp}
variable {trace : List (Transition SchedSystem SwitchOp)}
variable {scheduler : Scheduler} {created : List Nat} {queue : Queues}

theorem origins_concat (start : SchedSystem) (trace : List (Transition SchedSystem SwitchOp))
    (last : Transition SchedSystem SwitchOp) :
    origins start (trace ++ [last]) = last.label.origins (origins start trace) := by
  rw [origins, List.foldl_append]
  rfl

theorem Origin.resumes {pages : UInt32 → Paging} {switched after : Cpu} (origin : Origin)
    (run : switched.run pages restoreContext = some after)
    (esp : switched.registers .esp = UInt32.ofNat origin.stackPtr) :
    origin.Resumes pages switched after := by
  cases origin with
  | created kernelStackPtr =>
      intro entryPoint onStack
      obtain ⟨other, again, registers, _, eflags, eip, _⟩ := restoreContext_run onStack
      obtain rfl := Option.some.inj (run.symm.trans again)
      refine ⟨fun register notEsp => ?_, ?_, eip⟩
      · rw [registers register notEsp]
        cases register <;> rfl
      · rw [eflags]
        show (Eflags.ofWord 0x0202).interrupts = true
        decide
  | suspended call =>
      intro onStack
      obtain ⟨other, again, registers, top, eflags, eip, _⟩ := restoreContext_run onStack
      obtain rfl := Option.some.inj (run.symm.trans again)
      refine ⟨fun register notEsp => ?_, ?_, ?_, eip⟩
      · rw [registers register notEsp]
        exact savedContext_registerField _ _ register
      · rw [top, esp]
        show UInt32.ofNat (call.cpu.registers .esp - 36).toNat + 40 = _
        rw [UInt32.ofNat_toNat, show (40 : UInt32) = 36 + 4 from rfl, ← UInt32.add_assoc,
          UInt32.sub_add_cancel]
      · rw [eflags]
        exact Eflags.ofWord_value call.cpu.eflags

/-! ## The scheduler's invariant -/

theorem saveStack_pcb (scheduler : Scheduler) (old : Nat) (saved : UInt32) (address : Nat) :
    (scheduler.saveStack old saved).pcb address =
      { scheduler.pcb address with
        kernelStackPtr := if address = old then saved.toNat
          else (scheduler.pcb address).kernelStackPtr } := by
  by_cases same : address = old
  · subst same
    rw [if_pos rfl]
    exact setPcb_self
  · rw [if_neg same]
    exact setPcb_of_ne same

/-- Where the stacks are does not matter to the scheduler. -/
theorem SchedInv.saveStack (inv : SchedInv scheduler created queue) (old : Nat) (saved : UInt32) :
    SchedInv (scheduler.saveStack old saved) created queue where
  holds := inv.holds
  queued := inv.queued
  block {address} member notIdle := by
    have block := inv.block member notIdle
    constructor
    · intro level isQueued
      rw [saveStack_pcb]
      have ready := block.ready isQueued
      exact ⟨ready.state, ready.priority, ready.quantum, ready.age⟩
    · intro isWaiting
      rw [saveStack_pcb]
      exact block.waiting isWaiting
    · intro isCurrent
      rw [saveStack_pcb]
      obtain ⟨running, place⟩ := block.running isCurrent
      exact ⟨⟨running.priority, running.quantum, running.quantumMax, running.age⟩, place⟩
    · exact block.placed
  current := inv.current
  idle isIdle := by
    rw [saveStack_pcb]
    exact inv.idle isIdle

/-- What is kept through a run: the scheduler's invariant without waiting processes, and in
every block the stack pointer that was stored last. -/
structure Switching (origins : Nat → Origin) (system : SchedSystem) : Prop where
  inv : ∃ queue, SchedInv system.scheduler system.created queue ∧ queue .waiting = []
  pointers : ∀ address,
    (system.scheduler.pcb address).kernelStackPtr = (origins address).stackPtr

theorem TimerDone.next {dispatch : Dispatch} {after : Scheduler} {queue' : Queues}
    (done : TimerDone scheduler dispatch after queue queue') (dispatched : dispatch ≠ .none) :
    ∃ next, after.currentPcb = some next ∧
      dispatch = switchTo scheduler.currentPcb (after.pcb next) := by
  obtain ⟨next, isCurrent, ⟨goesOn, _⟩ | switches⟩ := done.current
  · exact absurd goesOn dispatched
  · exact ⟨next, isCurrent, switches⟩

namespace Switching

variable {known : Nat → Origin} (switching : Switching known before)

include switching

/-- The invariant through a timer interrupt, before a stack pointer is stored. -/
theorem handled {fuel : Nat} {dispatch : Dispatch} {after : Scheduler}
    (handled : schedTimerHandler fuel before.scheduler = some (dispatch, after)) :
    ∃ queue queue', SchedInv after before.created queue' ∧ queue' .waiting = [] ∧
      TimerDone before.scheduler dispatch after queue queue' ∧
      ∀ address, (after.pcb address).kernelStackPtr = (known address).stackPtr := by
  obtain ⟨queue, inv, empty⟩ := switching.inv
  obtain ⟨queue', inv', done⟩ := inv.handled (inv.awake_of_empty empty) handled
  exact ⟨queue, queue', inv', done.waiting.trans empty, done, fun address =>
    (done.context address).kernelStackPtr.trans (switching.pointers address)⟩

theorem step (step : SwitchStep before label after) :
    Switching (label.origins known) after ∧
      (¬ ExpiresAlone before.scheduler → DispatchesAsStored (label.origins known) after label) := by
  cases step with
  | @enqueue _ address pid addressSpace addressSpacePhysical kernelStackPtr stepped =>
      refine ⟨?_, fun _ => trivial⟩
      obtain ⟨queue, inv, empty⟩ := switching.inv
      cases stepped with
      | enqueue fresh enqueued =>
          obtain ⟨lists, result, inv'⟩ :=
            inv.enqueue fresh pid addressSpace addressSpacePhysical kernelStackPtr
          obtain rfl := Option.some.inj (enqueued.symm.trans result)
          refine ⟨⟨_, inv', ?_⟩, fun other => ?_⟩
          · have apart : SchedList.waiting ≠ .level 0 := nofun
            rw [Function.update_of_ne apart]
            exact empty
          · show ((before.scheduler.setPcb address _).pcb other).kernelStackPtr =
              (Function.update known address _ other).stackPtr
            by_cases same : other = address
            · subst same
              rw [setPcb_self, Function.update_self]
              rfl
            · rw [setPcb_of_ne same, Function.update_of_ne same]
              exact switching.pointers other
  | tick handled =>
      obtain ⟨_, queue', inv', empty, _, pointers⟩ := switching.handled handled
      exact ⟨⟨⟨queue', inv', empty⟩, pointers⟩, fun _ => trivial⟩
  | @bootstrap fuel scheduler newStackPtr newCr3 call handled isStack isSpace =>
      obtain ⟨queue, queue', inv', empty, done, pointers⟩ := switching.handled handled
      refine ⟨⟨⟨queue', inv', empty⟩, pointers⟩, fun _ => ?_⟩
      obtain ⟨next, isCurrent, dispatch⟩ := done.next nofun
      obtain ⟨switched, loads, run, esp, cr3⟩ := bootstrapFirstProcess_run call.called call.run
      have sameWords : newStackPtr = (scheduler.pcb next).kernelStackPtr ∧
          newCr3 = (scheduler.pcb next).addressSpacePhysical := by
        unfold switchTo at dispatch
        split at dispatch
        · exact Dispatch.bootstrapFirstProcess.inj dispatch
        · cases dispatch
      have stored : switched.registers .esp = UInt32.ofNat (known next).stackPtr := by
        rw [esp, isStack, sameWords.1, pointers next]
      refine ⟨next, switched, loads, isCurrent, stored, ?_, run, (known next).resumes run stored⟩
      rw [cr3, isSpace, sameWords.2]
  | @switch fuel scheduler old newStackPtr newCr3 call handled isStack isSpace =>
      obtain ⟨queue, queue', inv', empty, done, pointers⟩ := switching.handled handled
      refine ⟨⟨⟨queue', inv'.saveStack old call.savedStack, empty⟩, fun address => ?_⟩, fun several => ?_⟩
      · rw [saveStack_pcb]
        show (if address = old then _ else _) = (Function.update known old _ address).stackPtr
        by_cases same : address = old
        · subst same
          rw [if_pos rfl, Function.update_self]
          rfl
        · rw [if_neg same, Function.update_of_ne same]
          exact pointers address
      · obtain ⟨next, isCurrent, dispatch⟩ := done.next nofun
        obtain ⟨switched, switches, run, esp, cr3, _⟩ := call.restores
        obtain ⟨wasCurrent, sameStack, sameSpace⟩ :
            before.scheduler.currentPcb = some old ∧
              newStackPtr = (scheduler.pcb next).kernelStackPtr ∧
              newCr3 = (scheduler.pcb next).addressSpacePhysical := by
          unfold switchTo at dispatch
          split at dispatch
          · cases dispatch
          · rename_i current
            obtain ⟨isOld, words⟩ := Dispatch.contextSwitch.inj dispatch
            rw [current, isOld]
            exact ⟨rfl, words⟩
        -- The process that was interrupted is not the one that goes on.
        have different : next ≠ old := by
          rintro rfl
          exact several (done.switches next wasCurrent nofun isCurrent)
        have origin : Function.update known old (.suspended call) next = known next :=
          Function.update_of_ne different _ _
        have stored : switched.registers .esp = UInt32.ofNat (known next).stackPtr := by
          rw [esp, isStack, sameStack, pointers next]
        refine ⟨next, switched, switches, isCurrent, ?_, ?_, run, ?_⟩
        · show _ = UInt32.ofNat (Function.update known old (.suspended call) next).stackPtr
          rw [origin]
          exact stored
        · rw [cr3, isSpace, sameSpace, saveStack_pcb]
        · show (Function.update known old (.suspended call) next).Resumes _ _ _
          rw [origin]
          exact (known next).resumes run stored

end Switching

theorem Initialised.switching (initialised : Initialised start) :
    Switching (origins start []) start :=
  ⟨⟨_, initialised.inv, rfl⟩, fun _ => rfl⟩

/-- As long as no process is picked right after its own quantum ran out, every process that
gets the processor goes on from where it was suspended last, or from the context that was made
for it. -/
theorem dispatches_as_stored (initialised : Initialised start) (run : SwitchRun start trace final)
    (several : ∀ transition ∈ trace, ¬ ExpiresAlone transition.before.scheduler) :
    ∀ earlier transition later, trace = earlier ++ transition :: later →
      DispatchesAsStored (origins start (earlier ++ [transition])) transition.after
        transition.label := by
  have both : Switching (origins start trace) final ∧
      ∀ earlier transition later, trace = earlier ++ transition :: later →
        DispatchesAsStored (origins start (earlier ++ [transition])) transition.after
          transition.label := by
    induction run with
    | start => exact ⟨initialised.switching, fun earlier _ _ split => by
        simp at split⟩
    | @step trace before label after run step ih =>
        obtain ⟨switching, dispatches⟩ := ih fun transition member =>
          several transition (List.mem_append_left _ member)
        obtain ⟨next, dispatch⟩ := switching.step step
        refine ⟨?_, fun earlier transition later split => ?_⟩
        · rw [origins_concat]
          exact next
        · rcases snoc_split split with ⟨_, rfl, rfl⟩ | ⟨_, _, inside⟩
          · rw [origins_concat]
            exact dispatch (several _ (List.mem_append_right _ (List.mem_singleton.mpr rfl)))
          · exact dispatches earlier transition _ inside
  exact both.2

/-! ## Samples -/

/-- Every page lies in the frame of its own number. -/
def flatPages : UInt32 → Paging := fun _ page => some page

/-- A processor whose stack begins with the words, at 0x1000. -/
def stackCpu (words : List UInt32) : Cpu where
  registers register := if register = .esp then 0x1000 else 0
  eflags := .ofWord 0
  eip := 0
  cr3 := 0
  memory address :=
    match words[(address - 0x1000) / 4]? with
    | some word =>
        if 0x1000 ≤ address then UInt8.ofNat (word.toNat / 256 ^ (address % 4)) else 0
    | none => 0

/-- A process is enqueued whose context lies at 0xC0001FD8, and started by this call. -/
def sampleBootstrap : BootstrapCall where
  pages := flatPages
  cpu := stackCpu [7, 0xC0001FD8, 0x2000]
  returnAddress := 7
  newStack := 0xC0001FD8
  newSpace := 0x2000
  after := ((stackCpu [7, 0xC0001FD8, 0x2000]).run flatPages bootstrapFirstProcess).get
    (by decide +kernel)
  called := ⟨by decide +kernel, by decide +kernel, by decide +kernel, trivial⟩
  run := (Option.some_get _).symm

def sampleEnqueue : SwitchOp := .enqueue 200 1 0x4000 0x2000 0xC0001FD8

/-- A process has been enqueued and is started. -/
theorem dispatches_as_stored_sample : ∃ trace final, SwitchRun sampleStart trace final ∧
    trace.map Transition.label = [sampleEnqueue, .bootstrap sampleBootstrap] ∧
    ∀ earlier transition later, trace = earlier ++ transition :: later →
      DispatchesAsStored (origins sampleStart (earlier ++ [transition])) transition.after
        transition.label := by
  have performed : ((performSwitch 4 sampleStart sampleEnqueue).bind fun first =>
      (performSwitch 4 first (.bootstrap sampleBootstrap)).map fun _ =>
        first.scheduler.currentPcb) = some none := by decide +kernel
  obtain ⟨first, enqueued, performed⟩ := Option.bind_eq_some_iff.mp performed
  obtain ⟨final, started, nobody⟩ := Option.map_eq_some_iff.mp performed
  have run : SwitchRun sampleStart _ final :=
    (Run.start.step (performSwitch_step enqueued)).step (performSwitch_step started)
  refine ⟨_, final, run, rfl, dispatches_as_stored sampleStart_initialised run ?_⟩
  rintro transition member ⟨address, isCurrent, _⟩
  rcases List.mem_cons.mp member with rfl | member
  · cases isCurrent
  · rw [List.mem_singleton.mp member, nobody] at isCurrent
    cases isCurrent

/-- The process is interrupted at this call, and gets the processor again. -/
def sampleSwitch : SwitchCall where
  pages := flatPages
  cpu := stackCpu [7, 0x5000, 0xC0001FD8, 0x2000]
  returnAddress := 7
  oldStack := 0x5000
  newStack := 0xC0001FD8
  newSpace := 0x2000
  after := ((stackCpu [7, 0x5000, 0xC0001FD8, 0x2000]).run flatPages contextSwitch).get
    (by decide +kernel)
  called := ⟨by decide +kernel, by decide +kernel, by decide +kernel, by decide +kernel, trivial⟩
  apart i j iSmall jSmall same := by
    have places : (0x5000 + i : UInt32).toNat = ((0x1000 : UInt32) - 36 + j).toNat := by
      have located : (0x5000 + i : UInt32).toNat / 4096 * 4096 + (0x5000 + i : UInt32).toNat % 4096 =
          ((0x1000 : UInt32) - 36 + j).toNat / 4096 * 4096 +
            ((0x1000 : UInt32) - 36 + j).toNat % 4096 := Option.some.inj same
      omega
    rw [show (0x1000 : UInt32) - 36 = 4060 from rfl, UInt32.toNat_add, UInt32.toNat_add] at places
    have five : (0x5000 : UInt32).toNat = 0x5000 := rfl
    have four : (4060 : UInt32).toNat = 4060 := rfl
    omega
  run := (Option.some_get _).symm

/-- A process that is alone gets the stack pointer with which it was created, and not the one
that is stored for it at this moment. -/
theorem dispatches_as_stored_fails :
    ¬ ∀ start trace final, Initialised start → SwitchRun start trace final →
      ∀ earlier transition later, trace = earlier ++ transition :: later →
        DispatchesAsStored (origins start (earlier ++ [transition])) transition.after
          transition.label := by
  intro dispatches
  let labels : List SwitchOp :=
    [sampleEnqueue, .bootstrap sampleBootstrap] ++ List.replicate 39 .tick
  have performed : ((labels.foldlM (performSwitch 4) sampleStart).bind fun before =>
      (performSwitch 4 before (.switch 200 sampleSwitch)).map fun final =>
        final.scheduler.currentPcb) = some (some 200) := by decide +kernel
  obtain ⟨before, front, performed⟩ := Option.bind_eq_some_iff.mp performed
  obtain ⟨final, last, isCurrent⟩ := Option.map_eq_some_iff.mp performed
  obtain ⟨trace, run, _⟩ := Run.of_foldlM performSwitch_step labels front
  have longer := run.step (performSwitch_step last)
  obtain ⟨next, switched, switches, continues⟩ :=
    dispatches sampleStart _ final sampleStart_initialised longer trace _ [] rfl
  obtain rfl : 200 = next := Option.some.inj (isCurrent.symm.trans continues.current)
  have stack := continues.stack
  obtain ⟨other, again, _, esp, _⟩ := sampleSwitch.restores
  obtain rfl := Option.some.inj (switches.symm.trans again)
  rw [origins_concat, esp] at stack
  have origin : (SwitchOp.switch 200 sampleSwitch).origins (origins sampleStart trace) 200 =
      .suspended sampleSwitch := by
    rw [SwitchOp.origins, Function.update_self]
  have stored : (0xC0001FD8 : UInt32) = UInt32.ofNat sampleSwitch.savedStack.toNat :=
    stack.trans (congrArg (fun origin => UInt32.ofNat origin.stackPtr) origin)
  exact absurd stored (by decide)

end KdbOS.Proc
