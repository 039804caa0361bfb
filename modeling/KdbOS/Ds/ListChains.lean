import KdbOS.Ds.List

/-! The sequences that the lists of `list.c` stand for. Some lists have been made, and each
of them is a ring through its own root; what other nodes point at does not matter. -/

set_option autoImplicit false

namespace KdbOS.Ds

open Library

section

variable {Index Object : Type} [DecidableEq Index] [DecidableEq Object]

omit [DecidableEq Object] in
@[simp] theorem setSize_links (store : ListStore Index Object) (list : Index) (size : Nat) :
    (store.setSize list size).links = store.links := rfl

omit [DecidableEq Object] in
@[simp] theorem setSize_pushed (store : ListStore Index Object) (list : Index) (size : Nat) :
    (store.setSize list size).pushed = store.pushed := rfl

omit [DecidableEq Object] in
theorem setSize_size (store : ListStore Index Object) (list other : Index) (size : Nat) :
    ((store.setSize list size).header other).size =
      if other = list then size else (store.header other).size := by
  by_cases same : other = list
  · subst same
    simp [ListStore.setSize, ListStore.setHeader]
  · simp [ListStore.setSize, ListStore.setHeader, same]

/-- The sequences of the lists made so far. -/
abbrev Sequences (Index Object : Type) := Index → Option (List Object)

structure Chains {Index Object : Type} (store : ListStore Index Object)
    (sequences : Sequences Index Object) : Prop where
  ring : ∀ {list objects}, sequences list = some objects →
    Ring.IsRing store.links (.root list) (objects.map .node)
  unique : ∀ {list objects}, sequences list = some objects → objects.Nodup
  apart : ∀ {left right lefts rights object}, sequences left = some lefts →
    sequences right = some rights → object ∈ lefts → object ∈ rights → left = right
  size : ∀ {list objects}, sequences list = some objects →
    (store.header list).size = objects.length

/-- No made list holds the object. -/
def Unlisted (sequences : Sequences Index Object) (object : Object) : Prop :=
  ∀ list objects, sequences list = some objects → object ∉ objects

/-- Only one list and the nodes of some objects have changed. -/
structure Confined (store after : ListStore Index Object) (list : Index) (touched : List Object) :
    Prop where
  links : ∀ node, node ≠ .root list → (∀ object ∈ touched, node ≠ .node object) →
    after.links node = store.links node
  header : ∀ other ≠ list, after.header other = store.header other

variable {store after : ListStore Index Object} {sequences : Sequences Index Object}
variable {list : Index} {object : Object} {objects touched front back : List Object}

omit [DecidableEq Object] in
/-- A change that is confined to one list and its own objects leaves the other chains. -/
theorem Chains.change (chains : Chains store sequences)
    (confined : Confined store after list touched)
    (elsewhere : ∀ object ∈ touched, ∀ other ≠ list, ∀ others, sequences other = some others →
      object ∉ others)
    (ring : Ring.IsRing after.links (.root list) (objects.map .node)) (unique : objects.Nodup)
    (inside : ∀ object ∈ objects, object ∈ touched)
    (size : (after.header list).size = objects.length) :
    Chains after (Function.update sequences list (some objects)) := by
  have updated : ∀ {other others}, Function.update sequences list (some objects) other = some others →
      other = list ∧ others = objects ∨ other ≠ list ∧ sequences other = some others := by
    intro other others isSequence
    by_cases same : other = list
    · subst same
      rw [Function.update_self] at isSequence
      exact .inl ⟨rfl, (Option.some.inj isSequence).symm⟩
    · rw [Function.update_of_ne same] at isSequence
      exact .inr ⟨same, isSequence⟩
  constructor
  · intro other others isSequence
    rcases updated isSequence with ⟨rfl, rfl⟩ | ⟨different, isSequence⟩
    · exact ring
    · refine (chains.ring isSequence).congr fun node member => confined.links node ?_ ?_
      · rintro rfl
        simp only [ListNode.root.injEq, List.mem_map, reduceCtorEq, and_false, exists_false,
          or_false] at member
        exact different member.symm
      · rintro object member' rfl
        simp only [reduceCtorEq, List.mem_map, ListNode.node.injEq, exists_eq_right,
          false_or] at member
        exact elsewhere object member' other different others isSequence member
  · intro other others isSequence
    rcases updated isSequence with ⟨rfl, rfl⟩ | ⟨_, isSequence⟩
    · exact unique
    · exact chains.unique isSequence
  · intro left right lefts rights object isLeft isRight leftMember rightMember
    rcases updated isLeft with ⟨rfl, rfl⟩ | ⟨leftNe, leftHas⟩
    · rcases updated isRight with ⟨rfl, rfl⟩ | ⟨rightNe, rightHas⟩
      · rfl
      · exact absurd rightMember
          (elsewhere object (inside object leftMember) right rightNe rights rightHas)
    · rcases updated isRight with ⟨rfl, rfl⟩ | ⟨_, rightHas⟩
      · exact absurd leftMember
          (elsewhere object (inside object rightMember) left leftNe lefts leftHas)
      · exact chains.apart leftHas rightHas leftMember rightMember
  · intro other others isSequence
    rcases updated isSequence with ⟨rfl, rfl⟩ | ⟨different, isSequence⟩
    · exact size
    · rw [confined.header other different]
      exact chains.size isSequence

omit [DecidableEq Index] [DecidableEq Object] in
private theorem around_nodup (list : Index) {objects : List Object} (unique : objects.Nodup) :
    (ListNode.root list :: (objects.map ListNode.node : List (ListNode Index Object))).Nodup := by
  refine List.nodup_cons.mpr ⟨by simp, unique.map ?_⟩
  intro left right same
  exact ListNode.node.inj same

/-- The neighbours between which an object is linked or unlinked. -/
def prevOf (list : Index) (front : List Object) : ListNode Index Object :=
  (ListNode.root list :: front.map ListNode.node).getLast (by simp)

def nextOf (list : Index) (back : List Object) : ListNode Index Object :=
  (back.map ListNode.node ++ [ListNode.root list]).head (by simp)

omit [DecidableEq Index] [DecidableEq Object] in
theorem prevOf_cases (list : Index) (front : List Object) :
    prevOf list front = .root list ∨ ∃ object ∈ front, prevOf list front = .node object := by
  have member : prevOf list front ∈ ListNode.root list :: front.map ListNode.node :=
    List.getLast_mem _
  rcases List.mem_cons.mp member with isRoot | inside
  · exact .inl isRoot
  · obtain ⟨object, inside, same⟩ := List.mem_map.mp inside
    exact .inr ⟨object, inside, same.symm⟩

omit [DecidableEq Index] [DecidableEq Object] in
theorem nextOf_cases (list : Index) (back : List Object) :
    nextOf list back = .root list ∨ ∃ object ∈ back, nextOf list back = .node object := by
  have member : nextOf list back ∈ back.map ListNode.node ++ [ListNode.root list] :=
    List.head_mem _
  rcases List.mem_append.mp member with inside | isRoot
  · obtain ⟨object, inside, same⟩ := List.mem_map.mp inside
    exact .inr ⟨object, inside, same.symm⟩
  · exact .inl (List.mem_singleton.mp isRoot)

/-- The store after `object` has been linked into the list between its two parts. -/
def ListStore.linked (store : ListStore Index Object) (list : Index) (object : Object)
    (front back : List Object) : ListStore Index Object :=
  (listAdd store (.node object) (prevOf list front) (nextOf list back)).setSize list
    ((store.header list).size + 1)

def ListStore.unlinked (store : ListStore Index Object) (list : Index) (object : Object)
    (front back : List Object) : ListStore Index Object :=
  { store with
    links := Ring.removeBetween store.links (.node object) (prevOf list front)
      (nextOf list back) }.setSize list ((store.header list).size - 1)

theorem linked_confined (fresh : object ∉ front ++ back) :
    Confined store (store.linked list object front back) list (front ++ object :: back) where
  links := by
    intro node notRoot different
    have newPrev : ListNode.node object ≠ prevOf list front := by
      rcases prevOf_cases list front with same | ⟨other, inside, same⟩
      · rw [same]
        exact nofun
      · rw [same]
        intro equal
        exact fresh (List.mem_append_left _ (ListNode.node.inj equal ▸ inside))
    have newNext : ListNode.node object ≠ nextOf list back := by
      rcases nextOf_cases list back with same | ⟨other, inside, same⟩
      · rw [same]
        exact nofun
      · rw [same]
        intro equal
        exact fresh (List.mem_append_right _ (ListNode.node.inj equal ▸ inside))
    refine Ring.insertBetween_of_ne newPrev newNext (different object (by simp)) ?_ ?_
    · rcases prevOf_cases list front with same | ⟨other, inside, same⟩
      · rw [same]
        exact notRoot
      · rw [same]
        exact different other (List.mem_append_left _ inside)
    · rcases nextOf_cases list back with same | ⟨other, inside, same⟩
      · rw [same]
        exact notRoot
      · rw [same]
        exact different other (List.mem_append_right _ (List.mem_cons_of_mem _ inside))
  header := fun other apart => Function.update_of_ne apart _ _

theorem unlinked_confined :
    Confined store (store.unlinked list object front back) list (front ++ object :: back) where
  links := by
    intro node notRoot different
    refine Ring.removeBetween_of_ne (different object (by simp)) ?_ ?_
    · rcases prevOf_cases list front with same | ⟨other, inside, same⟩
      · rw [same]
        exact notRoot
      · rw [same]
        exact different other (List.mem_append_left _ inside)
    · rcases nextOf_cases list back with same | ⟨other, inside, same⟩
      · rw [same]
        exact notRoot
      · rw [same]
        exact different other (List.mem_append_right _ (List.mem_cons_of_mem _ inside))
  header := fun other apart => Function.update_of_ne apart _ _

omit [DecidableEq Index] [DecidableEq Object] in
/-- What one list has, or is about to get, no other list has. -/
theorem Chains.elsewhere (chains : Chains store sequences)
    (split : sequences list = some (front ++ back)) (fresh : Unlisted sequences object) :
    ∀ member ∈ front ++ object :: back, ∀ other ≠ list, ∀ others, sequences other = some others →
      member ∉ others := by
  intro member isMember otherList different others isSequence inside
  rcases List.mem_append.mp isMember with inFront | inBack
  · exact different (chains.apart isSequence split inside (List.mem_append_left _ inFront))
  · rcases List.mem_cons.mp inBack with rfl | inBack
    · exact fresh otherList others isSequence inside
    · exact different (chains.apart isSequence split inside (List.mem_append_right _ inBack))

omit [DecidableEq Index] [DecidableEq Object] in
theorem Chains.elsewhere_of_listed (chains : Chains store sequences)
    (split : sequences list = some objects) :
    ∀ member ∈ objects, ∀ other ≠ list, ∀ others, sequences other = some others →
      member ∉ others :=
  fun _ isMember _ different _ isSequence inside =>
    different (chains.apart isSequence split inside isMember)

/-- Linking an object that is on no list in between two members of a list. -/
theorem Chains.insert (chains : Chains store sequences)
    (split : sequences list = some (front ++ back)) (fresh : Unlisted sequences object) :
    Chains (store.linked list object front back)
      (Function.update sequences list (some (front ++ object :: back))) := by
  have unique := chains.unique split
  have absent := fresh list _ split
  have ring := chains.ring split
  rw [List.map_append] at ring
  refine chains.change (linked_confined absent) (chains.elsewhere split fresh) ?_ ?_ (fun _ => id) ?_
  · rw [List.map_append, List.map_cons]
    refine ring.insert ?_ ?_
    · simpa using around_nodup list unique
    · simpa using absent
  · rw [List.nodup_middle, List.nodup_cons]
    exact ⟨absent, unique⟩
  · rw [ListStore.linked, setSize_size, if_pos rfl, chains.size split, List.length_append,
      List.length_append, List.length_cons, Nat.add_assoc]

/-- Unlinking a member of a list. -/
theorem Chains.remove (chains : Chains store sequences)
    (split : sequences list = some (front ++ object :: back)) :
    Chains (store.unlinked list object front back)
      (Function.update sequences list (some (front ++ back))) := by
  have unique := chains.unique split
  have ring := chains.ring split
  rw [List.map_append, List.map_cons] at ring
  refine chains.change unlinked_confined (chains.elsewhere_of_listed split) ?_ ?_ ?_ ?_
  · rw [List.map_append]
    refine ring.remove ?_
    simpa using around_nodup list unique
  · exact (List.nodup_cons.mp (List.nodup_middle.mp unique)).2
  · intro other member
    rw [List.mem_append] at member ⊢
    exact member.imp id (List.mem_cons_of_mem _)
  · rw [ListStore.unlinked, setSize_size, if_pos rfl, chains.size split, List.length_append,
      List.length_append, List.length_cons]
    rfl

theorem unlinked_links_self :
    (store.unlinked list object front back).links (.node object) = Link.null :=
  Ring.removeBetween_self

/-! ## The calls on a list that has been made -/

namespace Chains

variable (chains : Chains store sequences)

include chains

theorem pushTail (object : Object) (isSequence : sequences list = some objects) :
    listPushTail store list (.node object) = some (store.linked list object objects []) := by
  rw [listPushTail, (chains.ring isSequence).prev_root]
  rfl

theorem pushHead (object : Object) (isSequence : sequences list = some objects) :
    listPushHead store list (.node object) = some (store.linked list object [] objects) := by
  rw [listPushHead, (chains.ring isSequence).next_root]
  rfl

omit [DecidableEq Index] [DecidableEq Object] in
theorem size_ne_zero (split : sequences list = some (front ++ object :: back)) :
    (store.header list).size ≠ 0 := by
  rw [chains.size split, List.length_append, List.length_cons]
  omega

theorem removeNode (split : sequences list = some (front ++ object :: back)) :
    listRemoveNode store list (.node object) =
      some (0, store.unlinked list object front back) := by
  have ring := chains.ring split
  rw [List.map_append, List.map_cons] at ring
  have guard : ¬ (ListNode.node object = .root list ∨ (store.header list).size = 0) :=
    fun either => either.elim nofun (chains.size_ne_zero split)
  rw [listRemoveNode, if_neg guard, ring.prev_member, ring.next_member]
  rfl

theorem popHead (split : sequences list = some (object :: back)) :
    listPopHead store list = some (some (.node object), store.unlinked list object [] back) := by
  have front : sequences list = some ([] ++ object :: back) := split
  have first : (store.links (.root list)).next = some (.node object) :=
    (chains.ring split).next_root
  rw [listPopHead, if_neg (chains.size_ne_zero front), first]
  dsimp only [Option.bind_eq_bind, Option.bind_some]
  rw [chains.removeNode front]
  rfl

theorem popTail (split : sequences list = some (front ++ [object])) :
    listPopTail store list = some (some (.node object), store.unlinked list object front []) := by
  have last : (store.links (.root list)).prev = some (.node object) := by
    rw [(chains.ring split).prev_root]
    simp
  rw [listPopTail, if_neg (chains.size_ne_zero split), last]
  dsimp only [Option.bind_eq_bind, Option.bind_some]
  rw [chains.removeNode split]
  rfl

theorem popHead_empty (isEmpty : sequences list = some []) :
    listPopHead store list = some (none, store.popError list store.popHeadText) :=
  if_pos (chains.size isEmpty)

theorem popTail_empty (isEmpty : sequences list = some []) :
    listPopTail store list = some (none, store.popError list store.popTailText) :=
  if_pos (chains.size isEmpty)

end Chains

end

end KdbOS.Ds
