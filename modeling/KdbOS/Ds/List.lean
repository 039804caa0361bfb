import KdbOS.Klibc.Kstring
import KdbOS.Library.Ring

/-! `list.c`: intrusive circular doubly linked lists. `Index` names the `List`
objects and `Object` the structures that embed a `ListNode`. Every pointer
dereference that would go through NULL is a `none`. -/

set_option autoImplicit false

namespace KdbOS.Ds

open Library

/-- A `ListNode*`: the root embedded in a list or the node embedded in an object. -/
inductive ListNode (Index Object : Type) where
  | root (list : Index)
  | node (object : Object)
  deriving DecidableEq, Repr

def maxErrLength : Nat := 256

/-- The fields of a `List` other than its root node. -/
structure ListHeader where
  size : Nat
  errCode : Nat
  errMsg : Nat

/-- All lists and nodes, with the bytes of the error buffers and of the two
error texts of `list_pop_head` and `list_pop_tail`. -/
structure ListStore (Index Object : Type) where
  links : ListNode Index Object → Link (ListNode Index Object)
  header : Index → ListHeader
  bytes : Memory
  popHeadText : Nat
  popTailText : Nat
  /-- History, read by no operation: every node pushed so far, with the links it
  had just before. -/
  pushed : List (ListNode Index Object × Link (ListNode Index Object))

section

variable {Index Object : Type} [DecidableEq Index] [DecidableEq Object]

def ListStore.setHeader (store : ListStore Index Object) (list : Index) (header : ListHeader) :
    ListStore Index Object :=
  { store with header := Function.update store.header list header }

def ListStore.setSize (store : ListStore Index Object) (list : Index) (size : Nat) :
    ListStore Index Object :=
  store.setHeader list { store.header list with size := size }

/-- The initialised fields of `list_init`, once both allocations succeeded. -/
def listInit (store : ListStore Index Object) (list : Index) (errMsg : Nat) :
    ListStore Index Object :=
  { store with
    links := Function.update store.links (.root list) ⟨some (.root list), some (.root list)⟩
    header := Function.update store.header list ⟨0, 0, errMsg⟩ }

/-- `__list_add(new_node, prev, next)`. -/
def listAdd (store : ListStore Index Object) (newNode prev next : ListNode Index Object) :
    ListStore Index Object :=
  { store with
    links := Ring.insertBetween store.links newNode prev next
    pushed := store.pushed ++ [(newNode, store.links newNode)] }

def listPushHead (store : ListStore Index Object) (list : Index)
    (newNode : ListNode Index Object) : Option (ListStore Index Object) := do
  let next ← (store.links (.root list)).next
  some ((listAdd store newNode (.root list) next).setSize list ((store.header list).size + 1))

def listPushTail (store : ListStore Index Object) (list : Index)
    (newNode : ListNode Index Object) : Option (ListStore Index Object) := do
  let prev ← (store.links (.root list)).prev
  some ((listAdd store newNode prev (.root list)).setSize list ((store.header list).size + 1))

/-- Returns the status code with the store. -/
def listRemoveNode (store : ListStore Index Object) (list : Index)
    (node : ListNode Index Object) : Option (Nat × ListStore Index Object) :=
  if node = .root list ∨ (store.header list).size = 0 then some (1, store)
  else do
    let prev ← (store.links node).prev
    let next ← (store.links node).next
    let store := { store with links := Ring.removeBetween store.links node prev next }
    some (0, store.setSize list ((store.header list).size - 1))

/-- The error exit shared by the two pops. The call in the source passes the
buffer as `src` and the text as `dest`. -/
def ListStore.popError (store : ListStore Index Object) (list : Index) (text : Nat) :
    ListStore Index Object :=
  let store := store.setHeader list { store.header list with errCode := 1 }
  { store with
    bytes := Klibc.kstrncpy (store.header list).errMsg text maxErrLength store.bytes }

def listPopHead (store : ListStore Index Object) (list : Index) :
    Option (Option (ListNode Index Object) × ListStore Index Object) :=
  if (store.header list).size = 0 then some (none, store.popError list store.popHeadText)
  else do
    let target ← (store.links (.root list)).next
    let (_, store) ← listRemoveNode store list target
    some (some target, store)

def listPopTail (store : ListStore Index Object) (list : Index) :
    Option (Option (ListNode Index Object) × ListStore Index Object) :=
  if (store.header list).size = 0 then some (none, store.popError list store.popTailText)
  else do
    let target ← (store.links (.root list)).prev
    let (_, store) ← listRemoveNode store list target
    some (some target, store)

def listGetSize (store : ListStore Index Object) (list : Index) : Nat :=
  (store.header list).size

end

end KdbOS.Ds
