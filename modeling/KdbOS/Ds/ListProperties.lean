import KdbOS.Ds.ListChains

/-! The lists of `list.c` hold sequences: pushing, popping and removing act on
the stored sequence of one list and leave every other list as it was. -/

set_option autoImplicit false

namespace KdbOS.Ds

open Library

/-- The lists hold the sequences `queue`: each is a ring through its own root, no
object lies on two of them, a node on none of them has null links, and no node was
ever pushed while it was linked. -/
structure Holds {Index Object : Type} (store : ListStore Index Object)
    (queue : Index → List Object) : Prop where
  ring : ∀ list, Ring.IsRing store.links (.root list) ((queue list).map .node)
  unique : ∀ list, (queue list).Nodup
  apart : ∀ {left right object}, object ∈ queue left → object ∈ queue right → left = right
  size : ∀ list, (store.header list).size = (queue list).length
  loose : ∀ {object}, (∀ list, object ∉ queue list) → store.links (.node object) = Link.null
  clean : ∀ entry ∈ store.pushed, entry.2 = Link.null

section

variable {Index Object : Type} [DecidableEq Index] [DecidableEq Object]
variable {store : ListStore Index Object} {queue : Index → List Object}
variable {list : Index} {object : Object} {front back : List Object}

omit [DecidableEq Index] [DecidableEq Object] in
theorem Holds.chains (holds : Holds store queue) : Chains store fun list => some (queue list) where
  ring := by
    intro list objects isSequence
    obtain rfl := Option.some.inj isSequence
    exact holds.ring list
  unique := by
    intro list objects isSequence
    obtain rfl := Option.some.inj isSequence
    exact holds.unique list
  apart := by
    intro left right lefts rights object isLeft isRight inLeft inRight
    obtain rfl := Option.some.inj isLeft
    obtain rfl := Option.some.inj isRight
    exact holds.apart inLeft inRight
  size := by
    intro list objects isSequence
    obtain rfl := Option.some.inj isSequence
    exact holds.size list

omit [DecidableEq Object] in
private theorem Holds.of_chains {objects : List Object}
    (chains : Chains store (Function.update (fun list => some (queue list)) list (some objects)))
    (loose : ∀ {object}, (∀ other, object ∉ Function.update queue list objects other) →
      store.links (.node object) = Link.null)
    (clean : ∀ entry ∈ store.pushed, entry.2 = Link.null) :
    Holds store (Function.update queue list objects) := by
  have same : Function.update (fun list => some (queue list)) list (some objects) =
      fun other => some (Function.update queue list objects other) :=
    (Function.comp_update some queue list objects).symm
  rw [same] at chains
  exact ⟨fun _ => chains.ring rfl, fun _ => chains.unique rfl,
    fun inLeft inRight => chains.apart rfl rfl inLeft inRight, fun _ => chains.size rfl, loose, clean⟩

/-- Linking an object that is on no list in between two members of a list. -/
private theorem Holds.insert (holds : Holds store queue) (split : queue list = front ++ back)
    (fresh : ∀ other, object ∉ queue other) :
    Holds (store.linked list object front back)
      (Function.update queue list (front ++ object :: back)) := by
  have absent : object ∉ front ++ back := split ▸ fresh list
  refine .of_chains (holds.chains.insert (congrArg some split) ?_) ?_ ?_
  · intro other objects isSequence
    obtain rfl := Option.some.inj isSequence
    exact fresh other
  · intro other absentEverywhere
    have notHere := absentEverywhere list
    rw [Function.update_self] at notHere
    rw [(linked_confined absent).links (.node other) nofun]
    · refine holds.loose fun otherList member => ?_
      by_cases same : otherList = list
      · subst same
        rw [split, List.mem_append] at member
        exact notHere (List.mem_append.mpr (member.imp id (List.mem_cons_of_mem _)))
      · have still := absentEverywhere otherList
        rw [Function.update_of_ne same] at still
        exact still member
    · intro member inside same
      exact notHere (ListNode.node.inj same ▸ inside)
  · intro entry member
    rcases List.mem_append.mp member with earlier | now
    · exact holds.clean entry earlier
    · rw [List.mem_singleton.mp now]
      exact holds.loose fresh

/-- Unlinking a member of a list. -/
private theorem Holds.remove (holds : Holds store queue)
    (split : queue list = front ++ object :: back) :
    Holds (store.unlinked list object front back) (Function.update queue list (front ++ back)) := by
  refine .of_chains (holds.chains.remove (congrArg some split)) ?_ holds.clean
  intro other absentEverywhere
  by_cases gone : other = object
  · subst gone
    exact unlinked_links_self
  · have notHere := absentEverywhere list
    rw [Function.update_self, List.mem_append] at notHere
    rw [unlinked_confined.links (.node other) nofun]
    · refine holds.loose fun otherList member => ?_
      by_cases same : otherList = list
      · subst same
        rw [split, List.mem_append, List.mem_cons] at member
        tauto
      · have still := absentEverywhere otherList
        rw [Function.update_of_ne same] at still
        exact still member
    · rintro member inside same
      obtain rfl := ListNode.node.inj same
      rw [List.mem_append, List.mem_cons] at inside
      tauto

/-- Pushing an object that is on no list appends it to the list's sequence. -/
theorem listPushTail_holds (holds : Holds store queue) (list : Index) {object : Object}
    (fresh : ∀ other, object ∉ queue other) :
    ∃ store', listPushTail store list (.node object) = some store' ∧
      Holds store' (Function.update queue list (queue list ++ [object])) :=
  ⟨_, holds.chains.pushTail object rfl, holds.insert (List.append_nil (queue list)).symm fresh⟩

theorem listPushHead_holds (holds : Holds store queue) (list : Index) {object : Object}
    (fresh : ∀ other, object ∉ queue other) :
    ∃ store', listPushHead store list (.node object) = some store' ∧
      Holds store' (Function.update queue list (object :: queue list)) :=
  ⟨_, holds.chains.pushHead object rfl, holds.insert (List.nil_append (queue list)).symm fresh⟩

/-- Removing a member takes exactly it out of the list's sequence. -/
theorem listRemoveNode_holds {list : Index} {object : Object} {before after : List Object}
    (holds : Holds store queue) (split : queue list = before ++ object :: after) :
    ∃ store', listRemoveNode store list (.node object) = some (0, store') ∧
      Holds store' (Function.update queue list (before ++ after)) :=
  ⟨_, holds.chains.removeNode (congrArg some split), holds.remove split⟩

/-- Popping the head of a list that holds a nonempty sequence. -/
theorem listPopHead_holds {list : Index} {object : Object} {rest : List Object}
    (holds : Holds store queue) (split : queue list = object :: rest) :
    ∃ store', listPopHead store list = some (some (.node object), store') ∧
      Holds store' (Function.update queue list rest) := by
  have front : queue list = [] ++ object :: rest := split
  exact ⟨_, holds.chains.popHead (congrArg some split), holds.remove front⟩

end

end KdbOS.Ds
