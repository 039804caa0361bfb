import Mathlib.Data.List.Induction
import Mathlib.Tactic.Common

/-! Text laid out in rows of a bounded width, and the window that a scrolling terminal
shows of it. -/

set_option autoImplicit false

namespace KdbOS.Library

/-- Rows of text, of which the last is still being written. -/
structure TextRows (α : Type) where
  above : List (List α)
  last : List α

namespace TextRows

variable {α : Type} (text : TextRows α)

def empty : TextRows α := ⟨[], []⟩

def rows : List (List α) := text.above ++ [text.last]

/-- A new row is begun. -/
def push (row : List α) : TextRows α := ⟨text.rows, row⟩

/-- The last row grows. -/
def extend (c : α) : TextRows α := ⟨text.above, text.last ++ [c]⟩

/-- Rows break at the newline, and before a character that no longer fits. -/
def write [DecidableEq α] (newline : α) (width : Nat) (c : α) : TextRows α :=
  if c = newline then text.push []
  else if text.last.length < width then text.extend c
  else text.push [c]

/-- The rows of a text. -/
def layout [DecidableEq α] (newline : α) (width : Nat) (string : List α) : TextRows α :=
  string.foldl (fun text c => text.write newline width c) empty

/-- What the window over the last `height` rows shows; outside the text it is blank. -/
def shown (height : Nat) (blank : α) (row col : Nat) : α :=
  ((text.rows[text.rows.length - height + row]?).bind fun entry => entry[col]?).getD blank

/-- The row of the window in which the text ends. -/
def lastRow (height : Nat) : Nat := text.rows.length - 1 - (text.rows.length - height)

@[simp] theorem rows_length : text.rows.length = text.above.length + 1 := by simp [rows]

@[simp] theorem push_rows (row : List α) : (text.push row).rows = text.rows ++ [row] := rfl

@[simp] theorem push_above (row : List α) : (text.push row).above = text.rows := rfl

@[simp] theorem push_last (row : List α) : (text.push row).last = row := rfl

@[simp] theorem extend_above (c : α) : (text.extend c).above = text.above := rfl

@[simp] theorem extend_last (c : α) : (text.extend c).last = text.last ++ [c] := rfl

@[simp] theorem layout_nil [DecidableEq α] (newline : α) (width : Nat) :
    layout newline width [] = empty := rfl

theorem layout_concat [DecidableEq α] (newline : α) (width : Nat) (front : List α) (c : α) :
    layout newline width (front ++ [c]) = (layout newline width front).write newline width c := by
  simp [layout]

theorem write_rows_length_le [DecidableEq α] (newline : α) (width : Nat) (c : α) :
    (text.write newline width c).rows.length ≤ text.rows.length + 1 := by
  unfold write
  split
  case isTrue => simp
  case isFalse =>
    split
    case isTrue => simp
    case isFalse => simp

/-- Each character begins at most one row. -/
theorem layout_rows_length_le [DecidableEq α] (newline : α) (width : Nat) (string : List α) :
    (layout newline width string).rows.length ≤ string.length + 1 := by
  induction string using List.reverseRecOn with
  | nil => exact Nat.le_refl 1
  | append_singleton front c ih =>
      rw [layout_concat, List.length_append, List.length_singleton]
      exact Nat.le_trans (write_rows_length_le _ newline width c) (Nat.succ_le_succ ih)

variable {height : Nat} {blank : α} {row col : Nat}

theorem shown_empty : (empty : TextRows α).shown height blank row col = blank := by
  unfold shown empty rows
  rcases row with _ | row <;> rcases height with _ | height <;> simp

/-- Below the window's last row nothing is lost when a row is begun. -/
theorem shown_push_of_lt (added : List α) (room : text.rows.length < height) :
    (text.push added).shown height blank row col =
      if row = text.rows.length then added[col]?.getD blank else text.shown height blank row col := by
  have before : text.rows.length - height = 0 := by omega
  have after : (text.push added).rows.length - height = 0 := by
    rw [push_rows, List.length_append, List.length_singleton]
    omega
  unfold shown
  rw [before, after, push_rows, Nat.zero_add]
  by_cases new : row = text.rows.length
  · simp [new]
  · rw [if_neg new]
    by_cases old : row < text.rows.length
    · rw [List.getElem?_append_left old]
    · have beyond : text.rows.length + 1 ≤ row := by omega
      rw [List.getElem?_eq_none (by simpa using beyond), List.getElem?_eq_none (by omega)]

/-- Past it, the window scrolls. -/
theorem shown_push_of_le (added : List α) (full : height ≤ text.rows.length)
    (inside : row < height) :
    (text.push added).shown height blank row col =
      if row = height - 1 then added[col]?.getD blank
      else text.shown height blank (row + 1) col := by
  have after : (text.push added).rows.length - height + row =
      text.rows.length - height + (row + 1) := by
    rw [push_rows, List.length_append, List.length_singleton]
    omega
  unfold shown
  rw [after, push_rows]
  by_cases new : row = height - 1
  · have index : text.rows.length - height + (row + 1) = text.rows.length := by omega
    rw [index, if_pos new]
    simp
  · rw [if_neg new, List.getElem?_append_left (by omega)]

theorem shown_extend (c : α) (inside : row < height) :
    (text.extend c).shown height blank row col =
      if row = text.lastRow height ∧ col = text.last.length then c
      else text.shown height blank row col := by
  have count : (text.extend c).rows.length = text.rows.length := by simp
  have length := text.rows_length
  unfold shown lastRow
  rw [count]
  generalize index : text.rows.length - height + row = line
  have last : row = text.rows.length - 1 - (text.rows.length - height) ↔
      line = text.above.length := by omega
  simp only [last]
  unfold rows
  rw [extend_above, extend_last]
  rcases Nat.lt_trichotomy line text.above.length with above | here | beyond
  · rw [List.getElem?_append_left above, List.getElem?_append_left above, if_neg (by omega)]
  · subst here
    simp only [List.getElem?_append_right (Nat.le_refl _), Nat.sub_self, true_and,
      List.getElem?_cons_zero, Option.bind_some]
    rcases Nat.lt_trichotomy col text.last.length with before | new | past
    · rw [List.getElem?_append_left before, if_neg (by omega)]
    · simp [new]
    · rw [if_neg (by omega), List.getElem?_eq_none (by simp; omega),
        List.getElem?_eq_none (by omega)]
  · rw [if_neg (by omega), List.getElem?_eq_none (by simp; omega),
      List.getElem?_eq_none (by simp; omega)]

theorem lastRow_push (added : List α) :
    (text.push added).lastRow height = if text.rows.length < height then text.rows.length
      else height - 1 := by
  unfold lastRow
  rw [push_rows, List.length_append, List.length_singleton]
  split <;> omega

@[simp] theorem lastRow_extend (c : α) : (text.extend c).lastRow height = text.lastRow height := by
  unfold lastRow
  simp

end TextRows

end KdbOS.Library
