import KdbOS.Ds.ListChains
import KdbOS.Library.Runs

/-! The lists of `list.c` as double-ended sequences, over any sequence of calls on any
number of lists. -/

set_option autoImplicit false

namespace KdbOS.Ds

open Library

inductive ListOp (Index Object : Type) where
  | listInit (list : Index) (errMsg : Nat)
  | listPushHead (list : Index) (object : Object)
  | listPushTail (list : Index) (object : Object)
  | listPopHead (list : Index)
  | listPopTail (list : Index)
  | listRemoveNode (list : Index) (object : Object)

/-- What a call returns. -/
inductive ListResult (Index Object : Type) where
  | made
  | status (code : Nat)
  | node (target : Option (ListNode Index Object))

section

variable {Index Object : Type} [DecidableEq Index] [DecidableEq Object]

namespace ListOp

/-- The list that the call is about. -/
def target : ListOp Index Object → Index
  | .listInit list _ => list
  | .listPushHead list _ => list
  | .listPushTail list _ => list
  | .listPopHead list => list
  | .listPopTail list => list
  | .listRemoveNode list _ => list

/-- The call as the code performs it; the nodes pushed and removed are not NULL. -/
def perform (store : ListStore Index Object) :
    ListOp Index Object → Option (ListResult Index Object × ListStore Index Object)
  | .listInit list errMsg => some (.made, Ds.listInit store list errMsg)
  | .listPushHead list object =>
      (Ds.listPushHead store list (.node object)).map fun store => (.status 0, store)
  | .listPushTail list object =>
      (Ds.listPushTail store list (.node object)).map fun store => (.status 0, store)
  | .listPopHead list =>
      (Ds.listPopHead store list).map fun (node, store) => (.node node, store)
  | .listPopTail list =>
      (Ds.listPopTail store list).map fun (node, store) => (.node node, store)
  | .listRemoveNode list object =>
      (Ds.listRemoveNode store list (.node object)).map fun (code, store) => (.status code, store)

/-- The call on sequences. -/
def expected (sequences : Sequences Index Object) :
    ListOp Index Object → ListResult Index Object × Sequences Index Object
  | .listInit list _ => (.made, Function.update sequences list (some []))
  | .listPushHead list object =>
      (.status 0, Function.update sequences list ((sequences list).map fun objects => object :: objects))
  | .listPushTail list object =>
      (.status 0, Function.update sequences list ((sequences list).map fun objects => objects ++ [object]))
  | .listPopHead list =>
      (.node (((sequences list).bind List.head?).map .node),
        Function.update sequences list ((sequences list).map List.tail))
  | .listPopTail list =>
      (.node (((sequences list).bind List.getLast?).map .node),
        Function.update sequences list ((sequences list).map List.dropLast))
  | .listRemoveNode list object =>
      (.status 0, Function.update sequences list ((sequences list).map fun objects => objects.erase object))

/-- Lists are made once and before they are used; pushed nodes are on no list, and removed
nodes are on the named list. -/
def Allowed (sequences : Sequences Index Object) : ListOp Index Object → Prop
  | .listInit list _ => sequences list = none
  | .listPushHead list object => (sequences list).isSome ∧ Unlisted sequences object
  | .listPushTail list object => (sequences list).isSome ∧ Unlisted sequences object
  | .listPopHead list => (sequences list).isSome
  | .listPopTail list => (sequences list).isSome
  | .listRemoveNode list object => ∃ objects, sequences list = some objects ∧ object ∈ objects

/-- The object that the call takes off its list. -/
def removed (sequences : Sequences Index Object) : ListOp Index Object → Option Object
  | .listPopHead list => (sequences list).bind List.head?
  | .listPopTail list => (sequences list).bind List.getLast?
  | .listRemoveNode _ object => some object
  | _ => none

/-- A call changes the sequence of its own list only. -/
theorem expected_of_ne {sequences : Sequences Index Object} {op : ListOp Index Object}
    {other : Index} (different : other ≠ op.target) :
    (op.expected sequences).2 other = sequences other := by
  cases op with
  | listInit => exact Function.update_of_ne different _ _
  | listPushHead => exact Function.update_of_ne different _ _
  | listPushTail => exact Function.update_of_ne different _ _
  | listPopHead => exact Function.update_of_ne different _ _
  | listPopTail => exact Function.update_of_ne different _ _
  | listRemoveNode => exact Function.update_of_ne different _ _

end ListOp

/-- A list that reads as a sequence both ways. -/
structure Reads (store : ListStore Index Object) (list : Index) (objects : List Object) : Prop where
  ring : Ring.IsRing store.links (.root list) (objects.map .node)
  forwards : ∀ fuel, objects.length < fuel →
    Ring.gather (fun node => (store.links node).next) (.root list) fuel
      (store.links (.root list)).next = some (objects.map .node)
  backwards : ∀ fuel, objects.length < fuel →
    Ring.gather (fun node => (store.links node).prev) (.root list) fuel
      (store.links (.root list)).prev = some (objects.reverse.map .node)
  unique : objects.Nodup
  size : listGetSize store list = objects.length

/-- The root, the members and the other fields of the list are as before. -/
structure SameList (store after : ListStore Index Object) (list : Index) (objects : List Object) :
    Prop where
  root : after.links (.root list) = store.links (.root list)
  members : ∀ object ∈ objects, after.links (.node object) = store.links (.node object)
  header : after.header list = store.header list

variable {store after : ListStore Index Object} {sequences : Sequences Index Object}
variable {list : Index} {object : Object} {objects touched front back : List Object}
variable {op : ListOp Index Object}

theorem Chains.reads (chains : Chains store sequences) (isSequence : sequences list = some objects) :
    Reads store list objects := by
  have ring := chains.ring isSequence
  have outside : ListNode.root list ∉ objects.map (ListNode.node : Object → ListNode Index Object) := by
    simp
  refine ⟨ring, fun fuel enough => ?_, fun fuel enough => ?_, chains.unique isSequence,
    chains.size isSequence⟩
  · exact ring.gather_next outside (by rwa [List.length_map])
  · rw [List.map_reverse]
    exact ring.gather_prev outside (by rwa [List.length_map])

/-- One call on the code's lists is the expected one on their sequences. -/
structure Performed (store : ListStore Index Object) (sequences : Sequences Index Object)
    (op : ListOp Index Object) (after : ListStore Index Object) : Prop where
  result : op.perform store = some ((op.expected sequences).1, after)
  chains : Chains after (op.expected sequences).2
  unlinked : ∀ object ∈ op.removed sequences, after.links (.node object) = Link.null
  others : ∀ other ≠ op.target, ∀ objects, sequences other = some objects →
    SameList store after other objects

omit [DecidableEq Index] [DecidableEq Object] in
theorem Confined.sameList (confined : Confined store after list touched)
    (elsewhere : ∀ object ∈ touched, ∀ other ≠ list, ∀ others, sequences other = some others →
      object ∉ others) {other : Index} (different : other ≠ list)
    (isSequence : sequences other = some objects) : SameList store after other objects where
  root := confined.links _ (fun same => different (ListNode.root.inj same)) fun _ _ => nofun
  members := by
    intro object inside
    refine confined.links _ nofun ?_
    rintro member isTouched same
    obtain rfl := ListNode.node.inj same
    exact elsewhere object isTouched other different objects isSequence inside
  header := confined.header other different

theorem Chains.performed_push (chains : Chains store sequences)
    (split : sequences list = some (front ++ back)) (fresh : Unlisted sequences object)
    (isTarget : op.target = list)
    (result : op.perform store = some (.status 0, store.linked list object front back))
    (expected : op.expected sequences =
      (.status 0, Function.update sequences list (some (front ++ object :: back))))
    (removed : op.removed sequences = none) :
    Performed store sequences op (store.linked list object front back) where
  result := by rw [result, expected]
  chains := by
    rw [expected]
    exact chains.insert split fresh
  unlinked := by
    rw [removed]
    exact nofun
  others := by
    rw [isTarget]
    exact fun other different objects isSequence =>
      (linked_confined (fresh list _ split)).sameList (chains.elsewhere split fresh) different
        isSequence

theorem Chains.performed_remove (chains : Chains store sequences)
    (result : ListResult Index Object)
    (split : sequences list = some (front ++ object :: back)) (isTarget : op.target = list)
    (performs : op.perform store = some (result, store.unlinked list object front back))
    (expected : op.expected sequences =
      (result, Function.update sequences list (some (front ++ back))))
    (removed : op.removed sequences = some object) :
    Performed store sequences op (store.unlinked list object front back) where
  result := by rw [performs, expected]
  chains := by
    rw [expected]
    exact chains.remove split
  unlinked := by
    rw [removed]
    intro other same
    obtain rfl := Option.some.inj same
    exact unlinked_links_self
  others := by
    rw [isTarget]
    exact fun other different objects isSequence =>
      unlinked_confined.sameList (chains.elsewhere_of_listed split) different isSequence

omit [DecidableEq Object] in
/-- A pop of an empty list leaves the links and the sizes alone. -/
theorem popError_confined (list : Index) (text : Nat) :
    Confined store (store.popError list text) list [] where
  links := fun _ _ _ => rfl
  header := fun _ different => Function.update_of_ne different _ _

theorem Chains.performed_popError (chains : Chains store sequences) (text : Nat)
    (isEmpty : sequences list = some []) (isTarget : op.target = list)
    (performs : op.perform store = some (.node none, store.popError list text))
    (expected : op.expected sequences = (.node none, Function.update sequences list (some [])))
    (removed : op.removed sequences = none) :
    Performed store sequences op (store.popError list text) where
  result := by rw [performs, expected]
  chains := by
    rw [expected]
    refine chains.change (popError_confined list text)
      (fun _ inside => absurd inside List.not_mem_nil) (chains.ring isEmpty) List.nodup_nil
      (fun _ => id) ?_
    have size : ((store.popError list text).header list).size = (store.header list).size := by
      simp [ListStore.popError, ListStore.setHeader]
    rw [size, chains.size isEmpty]
  unlinked := by
    rw [removed]
    exact fun _ isRemoved => absurd isRemoved (Option.not_mem_none _)
  others := by
    rw [isTarget]
    exact fun other different objects isSequence =>
      (popError_confined list text).sameList (fun _ inside => absurd inside List.not_mem_nil)
        different isSequence

/-- A list that is made starts empty. -/
theorem Chains.performed_init (chains : Chains store sequences) (list : Index) (errMsg : Nat) :
    Performed store sequences (.listInit list errMsg) (listInit store list errMsg) := by
  have confined : Confined store (listInit store list errMsg) list [] :=
    ⟨fun node notRoot _ => Function.update_of_ne notRoot _ _,
      fun other different => Function.update_of_ne different _ _⟩
  refine ⟨rfl, ?_, nofun, fun other different objects isSequence =>
    confined.sameList nofun different isSequence⟩
  refine chains.change confined nofun ?_ List.nodup_nil (fun _ => id) ?_
  · rw [List.map_nil, Ring.isRing_nil_iff]
    exact Function.update_self _ _ _
  · simp [listInit]

/-- Every allowed call is performed as expected. -/
theorem Chains.perform (chains : Chains store sequences) (allowed : op.Allowed sequences) :
    ∃ after, Performed store sequences op after := by
  cases op with
  | listInit list errMsg => exact ⟨_, chains.performed_init list errMsg⟩
  | listPushHead list object =>
      obtain ⟨made, fresh⟩ := allowed
      obtain ⟨objects, isSequence⟩ := Option.isSome_iff_exists.mp made
      have split : sequences list = some ([] ++ objects) := isSequence
      refine ⟨_, chains.performed_push split fresh rfl ?_ ?_ rfl⟩
      · rw [ListOp.perform, chains.pushHead object isSequence]
        rfl
      · rw [ListOp.expected, isSequence]
        rfl
  | listPushTail list object =>
      obtain ⟨made, fresh⟩ := allowed
      obtain ⟨objects, isSequence⟩ := Option.isSome_iff_exists.mp made
      have split : sequences list = some (objects ++ []) := by rw [isSequence, List.append_nil]
      refine ⟨_, chains.performed_push split fresh rfl ?_ ?_ rfl⟩
      · rw [ListOp.perform, chains.pushTail object isSequence]
        rfl
      · rw [ListOp.expected, isSequence]
        rfl
  | listPopHead list =>
      obtain ⟨objects, isSequence⟩ := Option.isSome_iff_exists.mp allowed
      cases objects with
      | nil =>
          refine ⟨_, chains.performed_popError store.popHeadText isSequence rfl ?_ ?_ ?_⟩
          · rw [ListOp.perform, chains.popHead_empty isSequence]
            rfl
          · rw [ListOp.expected, isSequence]
            rfl
          · rw [ListOp.removed, isSequence]
            rfl
      | cons object back =>
          have split : sequences list = some ([] ++ object :: back) := isSequence
          refine ⟨_, chains.performed_remove (.node (some (.node object))) split rfl ?_ ?_ ?_⟩
          · rw [ListOp.perform, chains.popHead isSequence]
            rfl
          · rw [ListOp.expected, isSequence]
            rfl
          · rw [ListOp.removed, isSequence]
            rfl
  | listPopTail list =>
      obtain ⟨objects, isSequence⟩ := Option.isSome_iff_exists.mp allowed
      rcases List.eq_nil_or_concat' objects with rfl | ⟨front, object, rfl⟩
      · refine ⟨_, chains.performed_popError store.popTailText isSequence rfl ?_ ?_ ?_⟩
        · rw [ListOp.perform, chains.popTail_empty isSequence]
          rfl
        · rw [ListOp.expected, isSequence]
          rfl
        · rw [ListOp.removed, isSequence]
          rfl
      · refine ⟨_, chains.performed_remove (.node (some (.node object))) isSequence rfl ?_ ?_ ?_⟩
        · rw [ListOp.perform, chains.popTail isSequence]
          rfl
        · rw [ListOp.expected, isSequence]
          simp
        · rw [ListOp.removed, isSequence]
          simp
  | listRemoveNode list object =>
      obtain ⟨objects, isSequence, member⟩ := allowed
      obtain ⟨front, back, rfl⟩ := List.append_of_mem member
      have unique := chains.unique isSequence
      refine ⟨_, chains.performed_remove (.status 0) isSequence rfl ?_ ?_ rfl⟩
      · rw [ListOp.perform, chains.removeNode isSequence]
        rfl
      · have notInFront : object ∉ front :=
          fun inside => (List.nodup_cons.mp (List.nodup_middle.mp unique)).1
            (List.mem_append_left _ inside)
        rw [ListOp.expected, isSequence, Option.map_some, List.erase_append_right _ notInFront,
          List.erase_cons_head]

/-! ## Runs -/

/-- The lists of the code with the sequences that are expected of them. -/
structure ListSystem (Index Object : Type) where
  store : ListStore Index Object
  sequences : Sequences Index Object

inductive ListStep : ListSystem Index Object → ListOp Index Object → ListSystem Index Object → Prop
  | call {system : ListSystem Index Object} {op : ListOp Index Object}
      {result : ListResult Index Object} {store : ListStore Index Object} :
      op.perform system.store = some (result, store) →
      ListStep system op ⟨store, (op.expected system.sequences).2⟩

abbrev ListRun (start : ListSystem Index Object) := Run ListStep start

variable {start : ListStore Index Object} {final before : ListSystem Index Object}
variable {trace : List (Transition (ListSystem Index Object) (ListOp Index Object))}

theorem Chains.step {system after : ListSystem Index Object}
    (chains : Chains system.store system.sequences) (allowed : op.Allowed system.sequences)
    (step : ListStep system op after) :
    Performed system.store system.sequences op after.store ∧
      after.sequences = (op.expected system.sequences).2 := by
  obtain ⟨store, performed⟩ := chains.perform allowed
  cases step with
  | call performs =>
      have same := performs.symm.trans performed.result
      obtain ⟨_, rfl⟩ := Prod.mk.inj (Option.some.inj same)
      exact ⟨performed, rfl⟩

/-- An allowed call can be made. -/
theorem Chains.next (chains : Chains store sequences) (op : ListOp Index Object)
    (allowed : op.Allowed sequences) :
    ∃ after, ListStep ⟨store, sequences⟩ op ⟨after, (op.expected sequences).2⟩ ∧
      Chains after (op.expected sequences).2 := by
  obtain ⟨after, performed⟩ := chains.perform allowed
  exact ⟨after, .call performed.result, performed.chains⟩

omit [DecidableEq Index] [DecidableEq Object] in
/-- Before the first `list_init` no list is made. -/
theorem chains_none (store : ListStore Index Object) :
    Chains store (fun _ => none : Sequences Index Object) :=
  ⟨nofun, nofun, nofun, nofun⟩

theorem ListRun.chains (run : ListRun ⟨start, fun _ => none⟩ trace final)
    (allowed : ∀ transition ∈ trace, transition.label.Allowed transition.before.sequences) :
    Chains final.store final.sequences ∧ ∀ transition ∈ trace,
      Chains transition.before.store transition.before.sequences ∧
      Chains transition.after.store transition.after.sequences ∧
      ListStep transition.before transition.label transition.after := by
  refine run.invariant (fun system op => op.Allowed system.sequences)
    (fun system => Chains system.store system.sequences) (chains_none start) ?_ allowed
  intro system op after chains isAllowed step
  obtain ⟨performed, same⟩ := chains.step isAllowed step
  rw [same]
  exact performed.chains

/-- In every run of allowed calls each list reads as the expected sequence, forwards and
backwards; every call acts as the one on sequences, and what it removes has null links,
while the other lists stay as they are. The next allowed call can always be made. -/
theorem lists_are_sequences (run : ListRun ⟨start, fun _ => none⟩ trace final)
    (allowed : ∀ transition ∈ trace, transition.label.Allowed transition.before.sequences) :
    (∀ list objects, final.sequences list = some objects → Reads final.store list objects) ∧
    (∀ op, op.Allowed final.sequences → ∃ after, ListStep final op after) ∧
    ∀ transition ∈ trace,
      (∀ list objects, transition.before.sequences list = some objects →
        Reads transition.before.store list objects) ∧
      (∀ list objects, transition.after.sequences list = some objects →
        Reads transition.after.store list objects) ∧
      transition.label.perform transition.before.store =
        some ((transition.label.expected transition.before.sequences).1, transition.after.store) ∧
      transition.after.sequences = (transition.label.expected transition.before.sequences).2 ∧
      (∀ object ∈ transition.label.removed transition.before.sequences,
        transition.after.store.links (.node object) = Link.null) ∧
      ∀ other ≠ transition.label.target, ∀ objects,
        transition.before.sequences other = some objects →
        transition.after.sequences other = some objects ∧
          SameList transition.before.store transition.after.store other objects := by
  obtain ⟨chains, transitions⟩ := ListRun.chains run allowed
  refine ⟨fun list objects isSequence => chains.reads isSequence, fun op isAllowed => ?_,
    fun transition member => ?_⟩
  · obtain ⟨store, step, _⟩ := chains.next op isAllowed
    exact ⟨_, step⟩
  · obtain ⟨chainsBefore, chainsAfter, step⟩ := transitions transition member
    obtain ⟨performed, same⟩ := chainsBefore.step (allowed transition member) step
    refine ⟨fun list objects isSequence => chainsBefore.reads isSequence,
      fun list objects isSequence => chainsAfter.reads isSequence, performed.result, same,
      performed.unlinked, fun other different objects isSequence => ?_⟩
    refine ⟨?_, performed.others other different objects isSequence⟩
    rw [same, ListOp.expected_of_ne different, isSequence]

end

/-- A list is made, and a node is pushed onto each end. -/
theorem lists_are_sequences_sample :
    ∃ final : ListSystem Bool Nat, final.sequences true = some [8, 7] ∧
      Reads final.store true [8, 7] := by
  let start : ListStore Bool Nat := ⟨fun _ => Link.null, fun _ => ⟨0, 0, 0⟩, fun _ => 0, 0, 0, []⟩
  have initAllowed : (ListOp.listInit true 4096).Allowed (fun _ => none : Sequences Bool Nat) := rfl
  obtain ⟨made, first, isMade⟩ := (chains_none start).next _ initAllowed
  have tailAllowed : (ListOp.listPushTail true 7).Allowed
      ((ListOp.listInit true 4096).expected (fun _ => none : Sequences Bool Nat)).2 := by
    refine ⟨rfl, fun list objects isSequence => ?_⟩
    cases list with
    | true => exact Option.some.inj isSequence ▸ List.not_mem_nil
    | false => cases isSequence
  obtain ⟨one, second, isOne⟩ := isMade.next _ tailAllowed
  have headAllowed : (ListOp.listPushHead true 8).Allowed ((ListOp.listPushTail true 7).expected
      ((ListOp.listInit true 4096).expected (fun _ => none : Sequences Bool Nat)).2).2 := by
    refine ⟨rfl, fun list objects isSequence => ?_⟩
    cases list with
    | true => exact Option.some.inj isSequence ▸ (by decide : (8 : Nat) ∉ [7])
    | false => cases isSequence
  obtain ⟨two, third, _⟩ := isOne.next _ headAllowed
  refine ⟨_, rfl, (lists_are_sequences (((Run.start.step first).step second).step third) ?_).1 true
    [8, 7] rfl⟩
  intro transition member
  simp only [List.nil_append, List.cons_append, List.mem_cons, List.not_mem_nil, or_false] at member
  rcases member with rfl | rfl | rfl
  · exact initAllowed
  · exact tailAllowed
  · exact headAllowed

end KdbOS.Ds
