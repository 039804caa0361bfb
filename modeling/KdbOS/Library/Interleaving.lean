import KdbOS.Library.Runs
import Mathlib.Logic.Function.Basic

/-! Components that take turns over a state which they share, with an environment between
their steps. Each relies on the others to leave alone what its own steps depend on. -/

set_option autoImplicit false

namespace KdbOS.Library

variable {Component Shared Local : Type}

/-- What every component would do alone: its steps lead from each of its positions to the next
as long as the shared state is ready, and neither they nor the environment change that. -/
structure Undisturbed (perform : Component → Shared → Local → Option (Shared × Local))
    (Environment : Shared → Shared → Prop) (Ready : Shared → Prop)
    (position : Component → Nat → Local) (effect : Component → Nat → Shared → Shared) : Prop where
  advances : ∀ component count shared, Ready shared →
    perform component shared (position component count) =
      some (effect component count shared, position component (count + 1))
  guarantees : ∀ component count shared, Ready shared → Ready (effect component count shared)
  relies : ∀ before after, Environment before after → Ready before → Ready after

/-- Several steps of one component, with none of another between them. -/
def performTimes (perform : Component → Shared → Local → Option (Shared × Local))
    (component : Component) : Nat → Shared × Local → Option (Shared × Local)
  | 0, state => some state
  | times + 1, state =>
      (perform component state.1 state.2).bind (performTimes perform component times)

/-- Their effects, from the step with the number `count` on. -/
def effects (effect : Nat → Shared → Shared) : Nat → Nat → Shared → Shared
  | _, 0, shared => shared
  | count, times + 1, shared => effects effect (count + 1) times (effect count shared)

structure Joint (Component Shared Local : Type) where
  shared : Shared
  locals : Component → Local

/-- One component takes a step, or the environment does. -/
inductive Interleaved [DecidableEq Component]
    (perform : Component → Shared → Local → Option (Shared × Local))
    (Environment : Shared → Shared → Prop) :
    Joint Component Shared Local → Option Component → Joint Component Shared Local → Prop where
  | own {joint : Joint Component Shared Local} {component : Component} {shared : Shared}
      {after : Local} :
      perform component joint.shared (joint.locals component) = some (shared, after) →
      Interleaved perform Environment joint (some component)
        ⟨shared, Function.update joint.locals component after⟩
  | environment {joint : Joint Component Shared Local} {shared : Shared} :
      Environment joint.shared shared →
      Interleaved perform Environment joint none ⟨shared, joint.locals⟩

/-- How many steps the component has taken. -/
def stepsOf [DecidableEq Component] (component : Component)
    (trace : List (Transition (Joint Component Shared Local) (Option Component))) : Nat :=
  trace.countP fun transition => transition.label = some component

theorem stepsOf_append [DecidableEq Component] (component : Component)
    (trace : List (Transition (Joint Component Shared Local) (Option Component)))
    (transition : Transition (Joint Component Shared Local) (Option Component)) :
    stepsOf component (trace ++ [transition]) =
      stepsOf component trace + if transition.label = some component then 1 else 0 := by
  rw [stepsOf, List.countP_append, List.countP_singleton]
  simp [stepsOf]

namespace Undisturbed

variable {perform : Component → Shared → Local → Option (Shared × Local)}
variable {Environment : Shared → Shared → Prop} {Ready : Shared → Prop}
variable {position : Component → Nat → Local} {effect : Component → Nat → Shared → Shared}
variable {start final : Joint Component Shared Local}
variable {trace : List (Transition (Joint Component Shared Local) (Option Component))}
variable (undisturbed : Undisturbed perform Environment Ready position effect)

include undisturbed

/-- A component that is left alone for a while. -/
theorem performs (component : Component) (count times : Nat) {shared : Shared}
    (ready : Ready shared) :
    performTimes perform component times (shared, position component count) =
      some (effects (effect component) count times shared, position component (count + times)) := by
  induction times generalizing count shared with
  | zero => rfl
  | succ times ih =>
      rw [performTimes, undisturbed.advances component count shared ready, Option.bind_some,
        ih (count + 1) (undisturbed.guarantees component count shared ready), effects,
        Nat.add_right_comm, Nat.add_assoc count times 1]

/-- In every order of the steps each component is where it would be alone. -/
theorem positions [DecidableEq Component]
    (run : Run (Interleaved perform Environment) start trace final) (ready : Ready start.shared)
    (begins : ∀ component, start.locals component = position component 0) :
    Ready final.shared ∧
      ∀ component, final.locals component = position component (stepsOf component trace) := by
  induction run with
  | start => exact ⟨ready, begins⟩
  | @step trace before label after run step ih =>
      obtain ⟨readyBefore, reached⟩ := ih
      cases step with
      | @own component shared local_ performed =>
          rw [reached component, undisturbed.advances component _ _ readyBefore] at performed
          obtain ⟨rfl, rfl⟩ := Prod.mk.inj (Option.some.inj performed)
          refine ⟨undisturbed.guarantees component _ _ readyBefore, fun other => ?_⟩
          rw [stepsOf_append]
          dsimp only
          by_cases same : other = component
          · rw [same, Function.update_self, if_pos rfl]
          · rw [Function.update_of_ne same, if_neg fun isOther => same (Option.some.inj isOther).symm]
            exact reached other
      | environment changed =>
          refine ⟨undisturbed.relies _ _ changed readyBefore, fun other => ?_⟩
          rw [stepsOf_append, if_neg (by nofun)]
          exact reached other

end Undisturbed

end KdbOS.Library
