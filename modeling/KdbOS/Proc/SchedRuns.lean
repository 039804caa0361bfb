import KdbOS.Library.Runs
import KdbOS.Proc.Sched

/-! Runs of the scheduler after `sched_init`: fresh blocks are enqueued, timer
interrupts are handled, and processes block and are unblocked, in any order. -/

set_option autoImplicit false

namespace KdbOS.Proc

open Library Ds

/-- The scheduler together with the blocks that `create_pcb` has returned so far. -/
structure SchedSystem where
  scheduler : Scheduler
  created : List Nat

inductive SchedOp where
  | enqueue (address pid addressSpace addressSpacePhysical kernelStackPtr : Nat)
  | timer
  | block
  | unblock (address : Nat)
  deriving DecidableEq, Repr

/-- A new block as `create_pcb` hands it over: filled in, its node unlinked. -/
def Scheduler.create (scheduler : Scheduler) (address : Nat) (block : ProcessControlBlock) :
    Scheduler :=
  let lists := { scheduler.lists with
    links := Function.update scheduler.lists.links (.node address) Link.null }
  (scheduler.setLists lists).setPcb address block

inductive SchedStep : SchedSystem → SchedOp → SchedSystem → Prop where
  | enqueue {system : SchedSystem} {scheduler : Scheduler}
      {address pid addressSpace addressSpacePhysical kernelStackPtr : Nat} :
      address ∉ system.created →
      schedEnqueue (system.scheduler.create address
        (createdPcb pid addressSpace addressSpacePhysical kernelStackPtr)) (some address) =
          some scheduler →
      SchedStep system
        (.enqueue address pid addressSpace addressSpacePhysical kernelStackPtr)
        ⟨scheduler, address :: system.created⟩
  | timer {system : SchedSystem} {fuel : Nat} {dispatch : Dispatch} {scheduler : Scheduler} :
      schedTimerHandler fuel system.scheduler = some (dispatch, scheduler) →
      SchedStep system .timer ⟨scheduler, system.created⟩
  | block {system : SchedSystem} {scheduler : Scheduler} :
      schedBlockProcess system.scheduler = some scheduler →
      SchedStep system .block ⟨scheduler, system.created⟩
  | unblock {system : SchedSystem} {scheduler : Scheduler} {address : Nat} :
      address ∈ system.created →
      schedUnblockProcess system.scheduler (some address) = some scheduler →
      SchedStep system (.unblock address) ⟨scheduler, system.created⟩

/-- One step as a function, with the same `fuel` for every walk it makes. -/
def perform (fuel : Nat) (system : SchedSystem) : SchedOp → Option SchedSystem
  | .enqueue address pid addressSpace addressSpacePhysical kernelStackPtr =>
      if address ∈ system.created then none
      else
        (schedEnqueue (system.scheduler.create address
          (createdPcb pid addressSpace addressSpacePhysical kernelStackPtr)) (some address)).map
          fun scheduler => ⟨scheduler, address :: system.created⟩
  | .timer =>
      (schedTimerHandler fuel system.scheduler).map fun result => ⟨result.2, system.created⟩
  | .block => (schedBlockProcess system.scheduler).map fun scheduler => ⟨scheduler, system.created⟩
  | .unblock address =>
      if address ∈ system.created then
        (schedUnblockProcess system.scheduler (some address)).map
          fun scheduler => ⟨scheduler, system.created⟩
      else none

theorem perform_step {fuel : Nat} {before after : SchedSystem} {label : SchedOp}
    (performed : perform fuel before label = some after) : SchedStep before label after := by
  cases label with
  | enqueue address pid addressSpace addressSpacePhysical kernelStackPtr =>
      simp only [perform, Option.ite_none_left_eq_some, Option.map_eq_some_iff] at performed
      obtain ⟨fresh, scheduler, enqueued, rfl⟩ := performed
      exact .enqueue fresh enqueued
  | timer =>
      simp only [perform, Option.map_eq_some_iff] at performed
      obtain ⟨result, handled, rfl⟩ := performed
      exact .timer handled
  | block =>
      simp only [perform, Option.map_eq_some_iff] at performed
      obtain ⟨scheduler, blocked, rfl⟩ := performed
      exact .block blocked
  | unblock address =>
      simp only [perform, Option.ite_none_right_eq_some, Option.map_eq_some_iff] at performed
      obtain ⟨member, scheduler, unblocked, rfl⟩ := performed
      exact .unblock member unblocked

/-- The states `sched_init` can leave, with the idle block that its `create_pcb`
call returned, if it returned one. -/
inductive Initialised : SchedSystem → Prop where
  | withIdle (errMsg : SchedList → Nat) (bytes : Memory) (popHeadText popTailText : Nat)
      (pcb : Nat → ProcessControlBlock)
      (idle pid addressSpace addressSpacePhysical kernelStackPtr : Nat) :
      Initialised ⟨schedInit errMsg bytes popHeadText popTailText
        (Function.update pcb idle
          (createdPcb pid addressSpace addressSpacePhysical kernelStackPtr)) (some idle), [idle]⟩
  | withoutIdle (errMsg : SchedList → Nat) (bytes : Memory) (popHeadText popTailText : Nat)
      (pcb : Nat → ProcessControlBlock) :
      Initialised ⟨schedInit errMsg bytes popHeadText popTailText pcb none, []⟩

abbrev SchedRun := Run SchedStep

/-- A scheduler just initialised, with its idle block at address 100. -/
def sampleStart : SchedSystem :=
  ⟨schedInit (fun _ => 0) (fun _ => 0) 0 0
    (Function.update (fun _ => createdPcb 0 0 0 0) 100 (createdPcb 0 4096 4096 8192)) (some 100),
    [100]⟩

theorem sampleStart_initialised : Initialised sampleStart :=
  .withIdle ..

/-- A run from the sample that performs the given operations. -/
theorem sampleRun {fuel : Nat} {final : SchedSystem} (labels : List SchedOp)
    (performed : labels.foldlM (perform fuel) sampleStart = some final) :
    ∃ trace, SchedRun sampleStart trace final ∧ trace.map Transition.label = labels :=
  Run.of_foldlM perform_step labels performed

end KdbOS.Proc
