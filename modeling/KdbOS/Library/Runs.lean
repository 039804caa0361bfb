import Mathlib.Data.List.Basic
import Mathlib.Data.List.Induction
import Mathlib.Tactic.Common

/-! Runs of labelled state machines. A run records every transition it takes, so
that a property may speak of all its steps as well as of the states it visits. -/

set_option autoImplicit false

namespace KdbOS.Library

structure Transition (State Label : Type) where
  before : State
  label : Label
  after : State

/-- The states reached from `start`, with the transitions taken in order. -/
inductive Run {State Label : Type} (Step : State → Label → State → Prop) (start : State) :
    List (Transition State Label) → State → Prop where
  | start : Run Step start [] start
  | step {trace before label after} :
      Run Step start trace before → Step before label after →
      Run Step start (trace ++ [⟨before, label, after⟩]) after

/-- One transition of a longer sequence is the last one, or one of the shorter sequence. -/
theorem snoc_split {α : Type} {shorter earlier later : List α} {last item : α}
    (split : shorter ++ [last] = earlier ++ item :: later) :
    later = [] ∧ shorter = earlier ∧ last = item ∨
      ∃ later', later = later' ++ [last] ∧ shorter = earlier ++ item :: later' := by
  rcases List.eq_nil_or_concat' later with rfl | ⟨later', final, rfl⟩
  · obtain ⟨same, lastSame⟩ := List.append_inj' split rfl
    exact .inl ⟨rfl, same, (List.cons.inj lastSame).1⟩
  · have inner : shorter ++ [last] = (earlier ++ item :: later') ++ [final] := by
      rw [split, List.append_assoc, List.cons_append]
    obtain ⟨same, lastSame⟩ := List.append_inj' inner rfl
    obtain rfl := (List.cons.inj lastSame).1
    exact .inr ⟨later', rfl, same⟩

namespace Run

variable {State Label : Type} {Step : State → Label → State → Prop} {start final : State}
variable {trace : List (Transition State Label)}

/-- An invariant that every allowed step preserves holds in the final state and
on both sides of every transition of a run whose steps are all allowed. -/
theorem invariant (Allowed : State → Label → Prop) (Inv : State → Prop)
    (run : Run Step start trace final) (initial : Inv start)
    (preserved : ∀ {before label after}, Inv before → Allowed before label →
      Step before label after → Inv after)
    (allowed : ∀ transition ∈ trace, Allowed transition.before transition.label) :
    Inv final ∧ ∀ transition ∈ trace,
      Inv transition.before ∧ Inv transition.after ∧
        Step transition.before transition.label transition.after := by
  induction run with
  | start => exact ⟨initial, by simp⟩
  | @step trace before label after run step ih =>
      obtain ⟨reached, earlier⟩ := ih fun transition member =>
        allowed transition (List.mem_append_left _ member)
      have last := preserved reached
        (allowed ⟨before, label, after⟩ (List.mem_append_right _ (List.mem_singleton.mpr rfl))) step
      refine ⟨last, ?_⟩
      intro transition member
      rcases List.mem_append.mp member with member | member
      · exact earlier transition member
      · obtain rfl := List.mem_singleton.mp member
        exact ⟨reached, last, step⟩

/-- An invariant that needs a mark on the states, where no step sets a mark that was lost. -/
theorem invariant_of_mark (Allowed : Label → Prop) (Inv Marked : State → Prop)
    (run : Run Step start trace final) (initial : Inv start)
    (earlier : ∀ {before label after}, Step before label after → Marked after → Marked before)
    (preserved : ∀ {before label after}, Inv before → Marked before → Marked after →
      Allowed label → Step before label after → Inv after)
    (allowed : ∀ transition ∈ trace, Allowed transition.label) (marked : Marked final) :
    Inv final := by
  induction run with
  | start => exact initial
  | @step trace before label after run step ih =>
      have markedBefore := earlier step marked
      have reached := ih (fun transition member => allowed transition
        (List.mem_append_left _ member)) markedBefore
      exact preserved reached markedBefore marked
        (allowed _ (List.mem_append_right _ (List.mem_singleton.mpr rfl))) step

/-- A rank that no step raises and that every counted step lowers, until the goal is reached,
bounds how many steps are counted on the way. -/
theorem ranked (Allowed : Transition State Label → Prop) (counts : Label → Bool)
    (Goal : State → Prop) (Rank : State → Nat → Prop) {rank : Nat}
    (run : Run Step start trace final) (initial : Rank start rank)
    (lowers : ∀ {transition rank}, Rank transition.before rank →
      Step transition.before transition.label transition.after → Allowed transition →
      Goal transition.after ∨ ∃ less, Rank transition.after less ∧
        less + (if counts transition.label then 1 else 0) ≤ rank)
    (allowed : ∀ transition ∈ trace, Allowed transition) :
    (∃ transition ∈ trace, Goal transition.after) ∨
      ∃ less, Rank final less ∧
        less + trace.countP (fun transition => counts transition.label) ≤ rank := by
  induction run with
  | start => exact .inr ⟨rank, initial, Nat.le_refl _⟩
  | @step trace before label after run step ih =>
      rcases ih fun transition member => allowed transition (List.mem_append_left _ member) with
        ⟨transition, member, reached⟩ | ⟨less, ranked, bound⟩
      · exact .inl ⟨transition, List.mem_append_left _ member, reached⟩
      · have isLast : (⟨before, label, after⟩ : Transition State Label) ∈
            trace ++ [⟨before, label, after⟩] := List.mem_append_right _ (List.mem_singleton.mpr rfl)
        rcases @lowers ⟨before, label, after⟩ _ ranked step (allowed _ isLast) with
          reached | ⟨least, rankedAfter, lower⟩
        · exact .inl ⟨_, isLast, reached⟩
        · refine .inr ⟨least, rankedAfter, ?_⟩
          rw [List.countP_append, List.countP_singleton]
          dsimp only at lower ⊢
          omega

/-- Every transition of a run is a step of the machine. -/
theorem steps (run : Run Step start trace final) :
    ∀ transition ∈ trace, Step transition.before transition.label transition.after :=
  fun transition member =>
    ((invariant (fun _ _ => True) (fun _ => True) run trivial
      (fun _ _ _ => trivial) (fun _ _ => trivial)).2 transition member).2.2

/-- A run of one machine is a run of another that takes the same steps under other labels. -/
theorem relabel {OtherLabel : Type} {OtherStep : State → OtherLabel → State → Prop}
    (change : Label → OtherLabel)
    (steps : ∀ {before label after}, Step before label after →
      OtherStep before (change label) after)
    (run : Run Step start trace final) :
    Run OtherStep start (trace.map fun transition =>
      ⟨transition.before, change transition.label, transition.after⟩) final := by
  induction run with
  | start => exact .start
  | step _ step ih =>
      rw [List.map_append]
      exact ih.step (steps step)

/-- Performing labels in turn is a run over exactly these labels. -/
theorem of_foldlM {perform : State → Label → Option State}
    (sound : ∀ {before label after}, perform before label = some after → Step before label after)
    (labels : List Label) :
    ∀ {final : State}, labels.foldlM perform start = some final →
      ∃ trace, Run Step start trace final ∧ trace.map Transition.label = labels := by
  induction labels using List.reverseRecOn with
  | nil =>
      intro final performed
      obtain rfl := Option.some.inj performed
      exact ⟨[], .start, rfl⟩
  | append_singleton labels label ih =>
      intro final performed
      rw [List.foldlM_append] at performed
      obtain ⟨before, earlier, last⟩ := Option.bind_eq_some_iff.mp performed
      obtain ⟨trace, run, same⟩ := ih earlier
      rw [List.foldlM_cons] at last
      obtain ⟨after, stepped, done⟩ := Option.bind_eq_some_iff.mp last
      obtain rfl := Option.some.inj done
      exact ⟨_, run.step (sound stepped), by simp [same]⟩

end Run

end KdbOS.Library
