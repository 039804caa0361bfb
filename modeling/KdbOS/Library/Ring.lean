import Mathlib.Data.List.Chain
import Mathlib.Data.List.Nodup
import Mathlib.Logic.Function.Basic
import Mathlib.Tactic.Common

/-! Intrusive circular doubly linked rings. Links are a total map from nodes to
their two pointers, a ring runs through a distinguished root node, and several
rings may share one map as long as no node lies on two of them. -/

set_option autoImplicit false

namespace KdbOS.Library

/-- The two link fields of an intrusive node; `none` is the null pointer. -/
structure Link (Node : Type) where
  next : Option Node
  prev : Option Node
  deriving DecidableEq, Repr

namespace Link

/-- A node that has never been linked, or has been unlinked. -/
def null {Node : Type} : Link Node := ⟨none, none⟩

end Link

namespace Ring

variable {Node : Type}

/-- The two nodes point at each other. -/
def Linked (links : Node → Link Node) (left right : Node) : Prop :=
  (links left).next = some right ∧ (links right).prev = some left

/-- The circular chain leaving `root`, visiting `members` and returning. -/
def IsRing (links : Node → Link Node) (root : Node) (members : List Node) : Prop :=
  List.IsChain (Linked links) (root :: members ++ [root])

/-- A path depends only on the forward links of all its nodes but the last and
on the backward links of all but the first. -/
theorem chain_transport {links other : Node → Link Node} {path : List Node}
    (chain : List.IsChain (Linked links) path)
    (forward : ∀ node ∈ path.dropLast, (other node).next = (links node).next)
    (backward : ∀ node ∈ path.tail, (other node).prev = (links node).prev) :
    List.IsChain (Linked other) path := by
  rw [List.isChain_iff_forall_rel_of_append_cons_cons] at chain ⊢
  intro left right before after split
  have linked := chain split
  refine ⟨(forward left ?_).trans linked.1, (backward right ?_).trans linked.2⟩
  · simp [split]
  · cases before <;> simp [split]

theorem IsRing.congr {links other : Node → Link Node} {root : Node} {members : List Node}
    (ring : IsRing links root members)
    (agree : ∀ node, node = root ∨ node ∈ members → other node = links node) :
    IsRing other root members := by
  apply ring.imp_of_mem_imp
  intro left right leftMember rightMember linked
  have leftSame := agree left (by simp at leftMember; tauto)
  have rightSame := agree right (by simp at rightMember; tauto)
  exact ⟨leftSame ▸ linked.1, rightSame ▸ linked.2⟩

@[simp] theorem isRing_nil_iff {links : Node → Link Node} {root : Node} :
    IsRing links root [] ↔ links root = ⟨some root, some root⟩ := by
  simp only [IsRing, List.singleton_append, List.isChain_pair, Linked]
  constructor
  · rintro ⟨forward, backward⟩
    exact congrArg₂ Link.mk forward backward
  · intro same
    simp [same]

/-- The root's successor is the first member, or the root itself. -/
theorem IsRing.next_root {links : Node → Link Node} {root : Node} {members : List Node}
    (ring : IsRing links root members) :
    (links root).next = some ((members ++ [root]).head (by simp)) := by
  cases members with
  | nil => simp [isRing_nil_iff.mp ring]
  | cons first rest =>
      have linked := (List.isChain_cons_cons.mp ring).1
      simpa using linked.1

/-- The root's predecessor is the last member, or the root itself. -/
theorem IsRing.prev_root {links : Node → Link Node} {root : Node} {members : List Node}
    (ring : IsRing links root members) :
    (links root).prev = some ((root :: members).getLast (by simp)) := by
  have split : root :: members ++ [root] =
      (root :: members).dropLast ++ (root :: members).getLast (by simp) :: root :: [] := by
    conv_lhs => rw [← List.dropLast_append_getLast (l := root :: members) (by simp)]
    simp
  unfold IsRing at ring
  rw [split, List.isChain_append_cons_cons] at ring
  exact ring.2.1.2

theorem IsRing.next_member {links : Node → Link Node} {root node : Node}
    {before after : List Node} (ring : IsRing links root (before ++ node :: after)) :
    (links node).next = some ((after ++ [root]).head (by simp)) := by
  have split : root :: (before ++ node :: after) ++ [root] =
      (root :: before) ++ node :: (after ++ [root]) := by simp
  unfold IsRing at ring
  rw [split, List.isChain_split] at ring
  cases after with
  | nil => exact (List.isChain_cons_cons.mp ring.2).1.1
  | cons second rest => exact (List.isChain_cons_cons.mp ring.2).1.1

theorem IsRing.prev_member {links : Node → Link Node} {root node : Node}
    {before after : List Node} (ring : IsRing links root (before ++ node :: after)) :
    (links node).prev = some ((root :: before).getLast (by simp)) := by
  have split : root :: (before ++ node :: after) ++ [root] =
      (root :: before).dropLast ++ (root :: before).getLast (by simp) :: node ::
        (after ++ [root]) := by
    conv_lhs => rw [show root :: (before ++ node :: after) ++ [root] =
      (root :: before) ++ node :: (after ++ [root]) by simp,
      ← List.dropLast_append_getLast (l := root :: before) (by simp)]
    simp
  unfold IsRing at ring
  rw [split, List.isChain_append_cons_cons] at ring
  exact ring.2.1.2

/-! ## Reading a ring -/

/-- The nodes met on the way along one of the two pointers until the root is back. -/
def gather [DecidableEq Node] (step : Node → Option Node) (root : Node) :
    Nat → Option Node → Option (List Node)
  | 0, _ => none
  | _ + 1, none => none
  | fuel + 1, some node =>
      if node = root then some []
      else (gather step root fuel (step node)).map fun nodes => node :: nodes

/-- The same ring the other way round. -/
theorem IsRing.reverse {links : Node → Link Node} {root : Node} {members : List Node}
    (ring : IsRing links root members) :
    IsRing (fun node => ⟨(links node).prev, (links node).next⟩) root members.reverse := by
  have path : root :: members.reverse ++ [root] = (root :: members ++ [root]).reverse := by simp
  unfold IsRing at *
  rw [path, List.isChain_reverse]
  exact ring.imp fun left right linked => ⟨linked.2, linked.1⟩

theorem IsRing.gather_next [DecidableEq Node] {links : Node → Link Node} {root : Node}
    {members : List Node} (ring : IsRing links root members) (outside : root ∉ members) {fuel : Nat}
    (enough : members.length < fuel) :
    gather (fun node => (links node).next) root fuel (links root).next = some members := by
  have onward : ∀ (back front : List Node), members = front ++ back → ∀ fuel, back.length < fuel →
      gather (fun node => (links node).next) root fuel (some ((back ++ [root]).head (by simp))) =
        some back := by
    intro back
    induction back with
    | nil =>
        intro front _ fuel positive
        obtain ⟨fuel, rfl⟩ := Nat.exists_eq_succ_of_ne_zero (Nat.ne_zero_of_lt positive)
        exact if_pos rfl
    | cons node back ih =>
        intro front split fuel enough
        obtain ⟨fuel, rfl⟩ := Nat.exists_eq_succ_of_ne_zero (Nat.ne_zero_of_lt enough)
        have notRoot : node ≠ root := by
          rintro rfl
          exact outside (split ▸ List.mem_append_right _ List.mem_cons_self)
        rw [split] at ring
        have rest := ih (front ++ [node]) (by rw [split]; simp) fuel (Nat.lt_of_succ_lt_succ enough)
        rw [← ring.next_member] at rest
        show gather _ root (fuel + 1) (some node) = _
        rw [gather, if_neg notRoot, rest]
        rfl
  rw [ring.next_root]
  exact onward members [] rfl fuel enough

theorem IsRing.gather_prev [DecidableEq Node] {links : Node → Link Node} {root : Node}
    {members : List Node} (ring : IsRing links root members) (outside : root ∉ members) {fuel : Nat}
    (enough : members.length < fuel) :
    gather (fun node => (links node).prev) root fuel (links root).prev = some members.reverse := by
  refine ring.reverse.gather_next ?_ ?_
  · rwa [List.mem_reverse]
  · rwa [List.length_reverse]

/-! ## Linking and unlinking -/

/-- Where a member sits between its two neighbours on the way round the ring. -/
private theorem around_eq (root : Node) (before after middle : List Node) :
    root :: (before ++ middle ++ after) ++ [root] =
      (root :: before).dropLast ++ (root :: before).getLast (by simp) ::
        (middle ++ (after ++ [root]).head (by simp) :: (after ++ [root]).tail) := by
  rw [List.cons_head_tail]
  conv_lhs =>
    rw [show root :: (before ++ middle ++ after) ++ [root] =
      (root :: before) ++ (middle ++ (after ++ [root])) by simp,
      ← List.dropLast_append_getLast (l := root :: before) (by simp)]
  simp

private theorem around_sources {root : Node} {before after : List Node}
    (unique : (root :: (before ++ after)).Nodup) :
    ((root :: before).dropLast ++ (root :: before).getLast (by simp) ::
      ((after ++ [root]).head (by simp) :: (after ++ [root]).tail).dropLast).Nodup := by
  rw [List.cons_head_tail, List.dropLast_concat, List.append_cons, List.dropLast_append_getLast]
  simpa using unique

private theorem around_targets {root : Node} {before after : List Node}
    (unique : (root :: (before ++ after)).Nodup) :
    (((root :: before).dropLast ++ [(root :: before).getLast (by simp)]).tail ++
      (after ++ [root]).head (by simp) :: (after ++ [root]).tail).Nodup := by
  rw [List.cons_head_tail, List.dropLast_append_getLast, List.tail_cons, ← List.append_assoc]
  exact List.nodup_append_comm.mp (by simpa using unique)

variable [DecidableEq Node]

def setNext (links : Node → Link Node) (node : Node) (next : Option Node) : Node → Link Node :=
  Function.update links node { links node with next := next }

def setPrev (links : Node → Link Node) (node : Node) (prev : Option Node) : Node → Link Node :=
  Function.update links node { links node with prev := prev }

/-- Link `new` in between the neighbours `prev` and `next`. -/
def insertBetween (links : Node → Link Node) (new prev next : Node) : Node → Link Node :=
  setNext (setPrev (setNext (setPrev links next (some new)) new (some next)) new (some prev))
    prev (some new)

/-- Close the gap between the neighbours of `node` and null its links. -/
def removeBetween (links : Node → Link Node) (node prev next : Node) : Node → Link Node :=
  setPrev (setNext (setPrev (setNext links prev (some next)) next (some prev)) node none) node none

theorem insertBetween_next {links : Node → Link Node} {new prev next : Node}
    (newPrev : new ≠ prev) (node : Node) :
    (insertBetween links new prev next node).next =
      if node = prev then some new else if node = new then some next else (links node).next := by
  simp only [insertBetween, setNext, setPrev, Function.update_apply]
  split_ifs <;> simp_all

theorem insertBetween_prev {links : Node → Link Node} {new prev next : Node}
    (newNext : new ≠ next) (node : Node) :
    (insertBetween links new prev next node).prev =
      if node = new then some prev else if node = next then some new else (links node).prev := by
  simp only [insertBetween, setNext, setPrev, Function.update_apply]
  split_ifs <;> simp_all

theorem removeBetween_next {links : Node → Link Node} {gone prev next : Node} (node : Node) :
    (removeBetween links gone prev next node).next =
      if node = gone then none else if node = prev then some next else (links node).next := by
  simp only [removeBetween, setNext, setPrev, Function.update_apply]
  split_ifs <;> simp_all

theorem removeBetween_prev {links : Node → Link Node} {gone prev next : Node} (node : Node) :
    (removeBetween links gone prev next node).prev =
      if node = gone then none else if node = next then some prev else (links node).prev := by
  simp only [removeBetween, setNext, setPrev, Function.update_apply]
  split_ifs <;> simp_all

theorem insertBetween_of_ne {links : Node → Link Node} {new prev next node : Node}
    (newPrev : new ≠ prev) (newNext : new ≠ next)
    (neNew : node ≠ new) (nePrev : node ≠ prev) (neNext : node ≠ next) :
    insertBetween links new prev next node = links node :=
  congrArg₂ Link.mk ((insertBetween_next newPrev node).trans (by simp [neNew, nePrev]))
    ((insertBetween_prev newNext node).trans (by simp [neNew, neNext]))

@[simp] theorem removeBetween_self {links : Node → Link Node} {gone prev next : Node} :
    removeBetween links gone prev next gone = Link.null :=
  congrArg₂ Link.mk ((removeBetween_next gone).trans (by simp))
    ((removeBetween_prev gone).trans (by simp))

theorem removeBetween_of_ne {links : Node → Link Node} {gone prev next node : Node}
    (neGone : node ≠ gone) (nePrev : node ≠ prev) (neNext : node ≠ next) :
    removeBetween links gone prev next node = links node :=
  congrArg₂ Link.mk ((removeBetween_next node).trans (by simp [neGone, nePrev]))
    ((removeBetween_prev node).trans (by simp [neGone, neNext]))

/-- Linking a fresh node between two neighbours of a path whose nodes occur
once as a source and once as a target. -/
private theorem chain_insert {links : Node → Link Node} {before after : List Node}
    {new prev next : Node}
    (chain : List.IsChain (Linked links) (before ++ prev :: next :: after))
    (fresh : new ∉ before ++ prev :: next :: after)
    (sources : (before ++ prev :: (next :: after).dropLast).Nodup)
    (targets : ((before ++ [prev]).tail ++ next :: after).Nodup) :
    List.IsChain (Linked (insertBetween links new prev next))
      (before ++ prev :: new :: next :: after) := by
  have newPrev : new ≠ prev := by rintro rfl; simp at fresh
  have newNext : new ≠ next := by rintro rfl; simp at fresh
  have forward : ∀ node ∈ before ++ (next :: after).dropLast,
      (insertBetween links new prev next node).next = (links node).next := by
    intro node member
    have different : node ≠ prev := by
      rintro rfl
      simp only [List.nodup_middle, List.nodup_cons] at sources
      exact sources.1 member
    have old : node ≠ new := by
      rintro rfl
      have included := (List.dropLast_sublist (next :: after)).subset
      simp only [List.mem_append] at member fresh
      rcases member with member | member
      · exact fresh (.inl member)
      · exact fresh (.inr (List.mem_cons_of_mem _ (included member)))
    simp [insertBetween_next newPrev, different, old]
  have backward : ∀ node ∈ (before ++ [prev]).tail ++ after,
      (insertBetween links new prev next node).prev = (links node).prev := by
    intro node member
    have different : node ≠ next := by
      rintro rfl
      simp only [List.nodup_middle, List.nodup_cons] at targets
      exact targets.1 member
    have old : node ≠ new := by
      rintro rfl
      simp only [List.mem_append, List.mem_cons] at member fresh
      rcases member with member | member
      · have included := List.mem_of_mem_tail member
        simp only [List.mem_append, List.mem_singleton] at included
        tauto
      · tauto
    simp [insertBetween_prev newNext, different, old]
  rw [List.isChain_append_cons_cons] at chain ⊢
  refine ⟨?_, ⟨?_, ?_⟩, List.isChain_cons_cons.mpr ⟨⟨?_, ?_⟩, ?_⟩⟩
  · refine chain_transport chain.1 (fun node member => forward node ?_)
      (fun node member => backward node (List.mem_append_left _ member))
    exact List.mem_append_left _ (by simpa using member)
  · exact (insertBetween_next newPrev prev).trans (by simp)
  · exact (insertBetween_prev newNext new).trans (by simp)
  · exact (insertBetween_next newPrev new).trans (by simp [newPrev])
  · exact (insertBetween_prev newNext next).trans (by simp [newNext.symm])
  · exact chain_transport chain.2.2 (fun node member => forward node (List.mem_append_right _ member))
      (fun node member => backward node (List.mem_append_right _ (by simpa using member)))

/-- Unlinking the node between two neighbours of such a path. -/
private theorem chain_remove {links : Node → Link Node} {before after : List Node}
    {gone prev next : Node}
    (chain : List.IsChain (Linked links) (before ++ prev :: gone :: next :: after))
    (leaves : gone ∉ before ++ prev :: next :: after)
    (sources : (before ++ prev :: (next :: after).dropLast).Nodup)
    (targets : ((before ++ [prev]).tail ++ next :: after).Nodup) :
    List.IsChain (Linked (removeBetween links gone prev next))
      (before ++ prev :: next :: after) := by
  have prevGone : prev ≠ gone := by rintro rfl; simp at leaves
  have nextGone : next ≠ gone := by rintro rfl; simp at leaves
  have forward : ∀ node ∈ before ++ (next :: after).dropLast,
      (removeBetween links gone prev next node).next = (links node).next := by
    intro node member
    have different : node ≠ prev := by
      rintro rfl
      simp only [List.nodup_middle, List.nodup_cons] at sources
      exact sources.1 member
    have stays : node ≠ gone := by
      rintro rfl
      have included := (List.dropLast_sublist (next :: after)).subset
      simp only [List.mem_append] at member leaves
      rcases member with member | member
      · exact leaves (.inl member)
      · exact leaves (.inr (List.mem_cons_of_mem _ (included member)))
    simp [removeBetween_next, different, stays]
  have backward : ∀ node ∈ (before ++ [prev]).tail ++ after,
      (removeBetween links gone prev next node).prev = (links node).prev := by
    intro node member
    have different : node ≠ next := by
      rintro rfl
      simp only [List.nodup_middle, List.nodup_cons] at targets
      exact targets.1 member
    have stays : node ≠ gone := by
      rintro rfl
      simp only [List.mem_append, List.mem_cons] at member leaves
      rcases member with member | member
      · have included := List.mem_of_mem_tail member
        simp only [List.mem_append, List.mem_singleton] at included
        tauto
      · tauto
    simp [removeBetween_prev, different, stays]
  rw [List.isChain_append_cons_cons] at chain ⊢
  refine ⟨?_, ⟨?_, ?_⟩, ?_⟩
  · refine chain_transport chain.1 (fun node member => forward node ?_)
      (fun node member => backward node (List.mem_append_left _ member))
    exact List.mem_append_left _ (by simpa using member)
  · exact (removeBetween_next prev).trans (by simp [prevGone])
  · exact (removeBetween_prev next).trans (by simp [nextGone])
  · exact chain_transport (List.isChain_cons_cons.mp chain.2.2).2
      (fun node member => forward node (List.mem_append_right _ member))
      (fun node member => backward node (List.mem_append_right _ (by simpa using member)))

/-- Linking a fresh node in after `before` keeps the ring. -/
theorem IsRing.insert {links : Node → Link Node} {root new : Node} {before after : List Node}
    (ring : IsRing links root (before ++ after)) (unique : (root :: (before ++ after)).Nodup)
    (fresh : new ∉ root :: (before ++ after)) :
    IsRing (insertBetween links new ((root :: before).getLast (by simp))
      ((after ++ [root]).head (by simp))) root (before ++ new :: after) := by
  have path := around_eq root before after []
  have goal := around_eq root before after [new]
  simp only [List.append_nil, List.nil_append] at path
  simp only [List.append_assoc, List.singleton_append] at goal
  unfold IsRing at ring ⊢
  rw [path] at ring
  rw [goal]
  refine chain_insert ring ?_ (around_sources unique) (around_targets unique)
  rw [← path]
  simp only [List.mem_cons, List.mem_append, not_or] at fresh
  simp [fresh]

/-- Unlinking a member keeps the ring. -/
theorem IsRing.remove {links : Node → Link Node} {root gone : Node} {before after : List Node}
    (ring : IsRing links root (before ++ gone :: after))
    (unique : (root :: (before ++ gone :: after)).Nodup) :
    IsRing (removeBetween links gone ((root :: before).getLast (by simp))
      ((after ++ [root]).head (by simp))) root (before ++ after) := by
  have path := around_eq root before after [gone]
  have goal := around_eq root before after []
  simp only [List.append_assoc, List.singleton_append] at path
  simp only [List.append_nil, List.nil_append] at goal
  have leaves : gone ∉ root :: (before ++ after) := by
    rw [← List.cons_append, List.nodup_middle, List.nodup_cons] at unique
    exact unique.1
  have remaining : (root :: (before ++ after)).Nodup := by
    rw [← List.cons_append, List.nodup_middle, List.nodup_cons] at unique
    exact unique.2
  unfold IsRing at ring ⊢
  rw [path] at ring
  rw [goal]
  refine chain_remove ring ?_ (around_sources remaining) (around_targets remaining)
  rw [← goal]
  simp only [List.mem_cons, List.mem_append, not_or] at leaves
  simp [leaves]

/-- No link points at `target`. -/
def Avoids (links : Node → Link Node) (target : Node) : Prop :=
  ∀ node, (links node).next ≠ some target ∧ (links node).prev ≠ some target

namespace Avoids

variable {links : Node → Link Node} {target : Node}

theorem update (avoids : Avoids links target) {node : Node} {link : Link Node}
    (next : link.next ≠ some target) (prev : link.prev ≠ some target) :
    Avoids (Function.update links node link) target := by
  intro other
  by_cases same : other = node
  · subst same
    rw [Function.update_self]
    exact ⟨next, prev⟩
  · rw [Function.update_of_ne same]
    exact avoids other

theorem setNext (avoids : Avoids links target) {node : Node} {next : Option Node}
    (other : next ≠ some target) : Avoids (setNext links node next) target :=
  avoids.update other (avoids node).2

theorem setPrev (avoids : Avoids links target) {node : Node} {prev : Option Node}
    (other : prev ≠ some target) : Avoids (setPrev links node prev) target :=
  avoids.update (avoids node).1 other

theorem insertBetween (avoids : Avoids links target) {new prev next : Node}
    (newOther : new ≠ target) (prevOther : prev ≠ target) (nextOther : next ≠ target) :
    Avoids (insertBetween links new prev next) target :=
  (((avoids.setPrev (by simpa)).setNext (by simpa)).setPrev (by simpa)).setNext (by simpa)

theorem removeBetween (avoids : Avoids links target) {gone prev next : Node}
    (prevOther : prev ≠ target) (nextOther : next ≠ target) :
    Avoids (removeBetween links gone prev next) target :=
  (((avoids.setNext (by simpa)).setPrev (by simpa)).setNext (by simp)).setPrev (by simp)

end Avoids

end Ring

end KdbOS.Library
