import KdbOS.Ds.List
import KdbOS.Proc.Pcb

/-! `sched.c`: the multi-level feedback queue scheduler over intrusive lists.
A pointer to a block is its address, with `none` for NULL. An operation is
`none` where the source would dereference NULL, index an array out of bounds,
take a list root for a block, or walk a list for longer than its fuel. -/

set_option autoImplicit false

namespace KdbOS.Proc

open Library Ds

def mlfqLevels : Nat := 4

def ageTickMax : Nat := 600

def mlfqQuantums : List Nat := [40, 80, 120, 160]

instance neZero_levels : NeZero 4 := ⟨by decide⟩

/-- The five `List` objects that `sched_init` allocates. -/
inductive SchedList where
  | level (index : Fin 4)
  | waiting
  deriving DecidableEq, Repr

/-- `scheduler.priority_queues[index]`. -/
def priorityQueue (index : Nat) : Option SchedList :=
  if bounded : index < 4 then some (.level ⟨index, bounded⟩) else none

structure Scheduler where
  lists : ListStore SchedList Nat
  pcb : Nat → ProcessControlBlock
  currentPcb : Option Nat
  idlePcb : Option Nat
  /-- Port writes in program order, as pairs of port and value. -/
  outb : List (Nat × Nat)

namespace Scheduler

def setPcb (scheduler : Scheduler) (address : Nat) (block : ProcessControlBlock) : Scheduler :=
  { scheduler with pcb := Function.update scheduler.pcb address block }

def setLists (scheduler : Scheduler) (lists : ListStore SchedList Nat) : Scheduler :=
  { scheduler with lists := lists }

def setCurrent (scheduler : Scheduler) (current : Option Nat) : Scheduler :=
  { scheduler with currentPcb := current }

end Scheduler

/-- `container_of(node, ProcessControlBlock, sched_node)`. -/
def containerOf : ListNode SchedList Nat → Option Nat
  | .node address => some address
  | .root _ => none

/-- The scheduler after `sched_init` with all allocations successful. `idle` is
what `create_pcb` returned, and every `sched_node` is still unlinked. -/
def schedInit (errMsg : SchedList → Nat) (bytes : Memory) (popHeadText popTailText : Nat)
    (pcb : Nat → ProcessControlBlock) (idle : Option Nat) : Scheduler :=
  let unlinked : ListStore SchedList Nat :=
    { links := fun _ => Link.null
      header := fun _ => ⟨0, 0, 0⟩
      bytes := bytes
      popHeadText := popHeadText
      popTailText := popTailText
      pushed := [] }
  let lists := [.level 0, .level 1, .level 2, .level 3, .waiting].foldl
    (fun store list => listInit store list (errMsg list)) unlinked
  { lists := lists, pcb := pcb, currentPcb := none, idlePcb := idle, outb := [] }

def schedEnqueue (scheduler : Scheduler) (pcb : Option Nat) : Option Scheduler :=
  match pcb with
  | none => some scheduler
  | some address =>
      match (scheduler.pcb address).state with
      | .ready => do
          let queue ← priorityQueue (scheduler.pcb address).priority
          let lists ← listPushTail scheduler.lists queue (.node address)
          some (scheduler.setLists lists)
      | .waiting => do
          let lists ← listPushTail scheduler.lists .waiting (.node address)
          some (scheduler.setLists lists)
      | _ => some scheduler

/-- The search of `sched_pick_next_process` over the remaining levels. -/
def pickFrom (scheduler : Scheduler) : List (Fin 4) → Option (Option Nat × Scheduler)
  | [] => some (none, scheduler)
  | level :: rest =>
      if listGetSize scheduler.lists (.level level) > 0 then do
        let (node, lists) ← listPopHead scheduler.lists (.level level)
        let address ← containerOf (← node)
        some (some address, scheduler.setLists lists)
      else pickFrom scheduler rest

def schedPickNextProcess (scheduler : Scheduler) : Option Scheduler := do
  let (found, scheduler) ← pickFrom scheduler [0, 1, 2, 3]
  let next ← match found with
    | some address => some address
    | none => scheduler.idlePcb
  let scheduler := scheduler.setCurrent (some next)
  some (scheduler.setPcb next { scheduler.pcb next with state := .running })

/-- The list walk of `sched_tick` on one level, from `currentNode` on. -/
def ageWalk (level : Fin 4) :
    Nat → Option (ListNode SchedList Nat) → Scheduler → Option Scheduler
  | 0, _, _ => none
  | fuel + 1, currentNode, scheduler =>
      if currentNode = some (.root (.level level)) then some scheduler
      else do
        let node ← currentNode
        let nextNode := (scheduler.lists.links node).next
        let address ← containerOf node
        let block := scheduler.pcb address
        let block := { block with ageTicks := u32 (block.ageTicks + 1) }
        if block.ageTicks ≥ ageTickMax then
          let block := { block with ageTicks := 0 }
          let (_, lists) ← listRemoveNode scheduler.lists (.level level) node
          let block := { block with priority := u32Sub block.priority 1 }
          let quantum ← mlfqQuantums[block.priority]?
          let block := { block with quantumRemaining := quantum }
          let queue ← priorityQueue block.priority
          let lists ← listPushTail lists queue (.node address)
          ageWalk level fuel nextNode ((scheduler.setPcb address block).setLists lists)
        else ageWalk level fuel nextNode (scheduler.setPcb address block)

/-- The aging pass over the remaining levels. -/
def ageLevels (fuel : Nat) (scheduler : Scheduler) : List (Fin 4) → Option Scheduler
  | [] => some scheduler
  | level :: rest => do
      let first := (scheduler.lists.links (.root (.level level))).next
      let scheduler ← ageWalk level fuel first scheduler
      ageLevels fuel scheduler rest

def schedTick (fuel : Nat) (scheduler : Scheduler) : Option Scheduler :=
  match scheduler.currentPcb with
  | none => some scheduler
  | some current =>
      if some current = scheduler.idlePcb then some scheduler
      else
        let block := scheduler.pcb current
        let block := { block with quantumRemaining := u32Sub block.quantumRemaining 1 }
        if block.quantumRemaining = 0 then do
          let block := { block with state := .ready }
          let block := { block with
            priority := if block.priority < mlfqLevels - 1 then block.priority + 1
              else block.priority }
          let quantum ← mlfqQuantums[block.priority]?
          let block := { block with quantumRemaining := quantum }
          let scheduler ← schedEnqueue (scheduler.setPcb current block) (some current)
          some (scheduler.setCurrent none)
        else ageLevels fuel (scheduler.setPcb current block) [1, 2, 3]

def schedBlockProcess (scheduler : Scheduler) : Option Scheduler :=
  match scheduler.currentPcb with
  | none => some scheduler
  | some current =>
      if some current = scheduler.idlePcb then some scheduler
      else
        schedEnqueue
          (scheduler.setPcb current { scheduler.pcb current with state := .waiting })
          (some current)

def schedUnblockProcess (scheduler : Scheduler) (pcb : Option Nat) : Option Scheduler :=
  match pcb with
  | none => some scheduler
  | some address =>
      if (scheduler.pcb address).state ≠ .waiting then some scheduler
      else do
        let (_, lists) ← listRemoveNode scheduler.lists .waiting (.node address)
        let block := scheduler.pcb address
        let quantum ← mlfqQuantums[block.priority]?
        let block := { block with state := .ready, ageTicks := 0, quantumRemaining := quantum }
        schedEnqueue ((scheduler.setLists lists).setPcb address block) (some address)

/-- `pic_send_eoi(irq_line)`. -/
def picSendEoi (irqLine : Nat) (scheduler : Scheduler) : Scheduler :=
  { scheduler with
    outb := scheduler.outb ++ (if irqLine ≥ 8 then [(0xA0, 0x20)] else []) ++ [(0x20, 0x20)] }

/-- The stack switch a timer interrupt ends in, with the argument values that the
call passes: they are read before the callee stores anything. -/
inductive Dispatch where
  | none
  | bootstrapFirstProcess (newStackPtr newCr3 : Nat)
  | contextSwitch (oldPcb newStackPtr newCr3 : Nat)
  deriving DecidableEq, Repr

def schedTimerHandler (fuel : Nat) (scheduler : Scheduler) : Option (Dispatch × Scheduler) := do
  let oldPcb := scheduler.currentPcb
  let scheduler ← schedTick fuel scheduler
  let scheduler := picSendEoi 0 scheduler
  if scheduler.currentPcb = none ∨ oldPcb = none then do
    let scheduler ← schedPickNextProcess scheduler
    let next ← scheduler.currentPcb
    let block := scheduler.pcb next
    match oldPcb with
    | none =>
        some (.bootstrapFirstProcess block.kernelStackPtr block.addressSpacePhysical, scheduler)
    | some old =>
        some (.contextSwitch old block.kernelStackPtr block.addressSpacePhysical, scheduler)
  else some (.none, scheduler)

end KdbOS.Proc
