import KdbOS.Library.Word

/-! `proc.h`: process control blocks. The embedded `sched_node` lives in the link
map of the list store, under the address of its block. -/

set_option autoImplicit false

namespace KdbOS.Proc

inductive ProcessState where
  | new
  | ready
  | running
  | waiting
  | terminating
  deriving DecidableEq, Repr

structure ProcessControlBlock where
  pid : Nat
  state : ProcessState
  priority : Nat
  quantumRemaining : Nat
  ageTicks : Nat
  addressSpace : Nat
  addressSpacePhysical : Nat
  kernelStackPtr : Nat
  deriving DecidableEq, Repr

/-- The scheduling fields that `create_pcb` leaves in a block it returns. -/
def createdPcb (pid addressSpace addressSpacePhysical kernelStackPtr : Nat) :
    ProcessControlBlock :=
  { pid := pid
    state := .ready
    priority := 0
    quantumRemaining := 40
    ageTicks := 0
    addressSpace := addressSpace
    addressSpacePhysical := addressSpacePhysical
    kernelStackPtr := kernelStackPtr }

end KdbOS.Proc
