import Mathlib.Tactic.Common

/-! Counting loops over a state, with a body that may fail. -/

set_option autoImplicit false

namespace KdbOS.Library

variable {State : Type}

/-- `for (i = first; i < first + count; i++)`. -/
def forLoop (first count : Nat) (body : State → Nat → Option State) (state : State) :
    Option State :=
  (List.range' first count).foldlM body state

/-- An invariant that counts the iterations done, and that every iteration carries on. -/
theorem forLoop_spec (first count : Nat) (body : State → Nat → Option State) {state : State}
    (Inv : Nat → State → Prop) (initial : Inv 0 state)
    (iteration : ∀ done < count, ∀ current, Inv done current →
      ∃ next, body current (first + done) = some next ∧ Inv (done + 1) next) :
    ∃ final, forLoop first count body state = some final ∧ Inv count final := by
  induction count with
  | zero => exact ⟨state, rfl, initial⟩
  | succ count ih =>
      obtain ⟨reached, loop, inv⟩ := ih fun done less => iteration done (Nat.lt_succ_of_lt less)
      obtain ⟨next, step, inv⟩ := iteration count (Nat.lt_succ_self count) reached inv
      refine ⟨next, ?_, inv⟩
      rw [forLoop, List.range'_concat, List.foldlM_append]
      simp only [forLoop] at loop
      rw [loop]
      simpa using step

/-- What every iteration that succeeds keeps. -/
theorem forLoop_keeps {first count : Nat} {body : State → Nat → Option State}
    {state final : State} (Inv : State → Prop) (loop : forLoop first count body state = some final)
    (initial : Inv state)
    (iteration : ∀ current index next, Inv current → body current index = some next → Inv next) :
    Inv final := by
  unfold forLoop at loop
  generalize List.range' first count = indices at loop
  induction indices generalizing state with
  | nil =>
      cases loop
      exact initial
  | cons index rest ih =>
      obtain ⟨next, step, loop⟩ := Option.bind_eq_some_iff.mp loop
      exact ih (iteration state index next initial step) loop

/-- A loop whose state after each iteration is known. -/
theorem forLoop_eq (first count : Nat) (body : State → Nat → Option State)
    (after : Nat → State)
    (iteration : ∀ done < count, body (after done) (first + done) = some (after (done + 1))) :
    forLoop first count body (after 0) = some (after count) := by
  obtain ⟨final, loop, rfl⟩ := forLoop_spec first count body
    (fun done state => state = after done) rfl
    (by
      rintro done less current rfl
      exact ⟨_, iteration done less, rfl⟩)
  exact loop

/-- A loop over the rows and columns of a grid, whose state after each cell in
row-major order is known. -/
theorem forLoop_grid_eq (first rows cols : Nat) (body : State → Nat → Nat → Option State)
    (after : Nat → State)
    (cell : ∀ row < rows, ∀ col < cols,
      body (after (row * cols + col)) (first + row) col = some (after (row * cols + col + 1))) :
    forLoop first rows (fun state row => forLoop 0 cols (fun state col => body state row col) state)
        (after 0) = some (after (rows * cols)) := by
  have loop := forLoop_eq first rows
    (fun state row => forLoop 0 cols (fun state col => body state row col) state)
    (fun row => after (row * cols)) (by
      intro row rowInside
      have inner := forLoop_eq 0 cols (fun state col => body state (first + row) col)
        (fun col => after (row * cols + col)) (by
          intro col colInside
          rw [Nat.zero_add]
          exact cell row rowInside col colInside)
      rw [Nat.succ_mul]
      exact inner)
  rw [Nat.zero_mul] at loop
  exact loop

/-- A change of the state that every iteration passes on is passed on by the loop. -/
theorem forLoop_map (first count : Nat) (body : State → Nat → Option State)
    (change : State → State)
    (passes : ∀ state index, body (change state) index = (body state index).map change)
    (state : State) :
    forLoop first count body (change state) = (forLoop first count body state).map change := by
  unfold forLoop
  induction List.range' first count generalizing state with
  | nil => rfl
  | cons index rest ih =>
      rw [List.foldlM_cons, List.foldlM_cons, passes]
      cases body state index with
      | none => rfl
      | some next => exact ih next

end KdbOS.Library
