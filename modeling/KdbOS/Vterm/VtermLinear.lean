import KdbOS.Vterm.VtermOperations
import Mathlib.Data.List.TakeWhile

/-! The terminal as one line of cells in row-major order, for as long as it does not scroll. -/

set_option autoImplicit false

namespace KdbOS.Vterm

open Library Arch

variable {term before middle after : VTerm} {c : UInt8} {row col : Nat} {str : List UInt8}

namespace VTerm

/-- The cursor in row-major order. The end of a row and the start of the next are the same. -/
def linear (term : VTerm) : Nat := 80 * term.cursorRow + term.cursorCol

def cellAt (term : VTerm) (index : Nat) : VTermCell := term.screenBuffer (index / 80) (index % 80)

/-- The cursor is in a row, or just behind it. -/
structure OnGrid (term : VTerm) : Prop where
  row : term.cursorRow < 25
  col : term.cursorCol ≤ 80

end VTerm

/-- The characters that are stored in a cell; NUL ends a string before it is written. -/
def Printable (c : UInt8) : Prop := c ≠ 0 ∧ c ≠ 8 ∧ c ≠ 10

/-- Writing the character calls `vterm_scroll`. -/
def Scrolls (c : UInt8) (term : VTerm) : Prop :=
  if c = 10 then (vtermMoveCursor (u16 (term.cursorRow + 1)) 0 term).cursorRow ≥ screenRows
  else if c = 8 then False
  else (if term.cursorCol ≥ screenCols then u16 (term.cursorRow + 1) else term.cursorRow) ≥
    screenRows

/-- One `vterm_write_char` after the other. -/
def writeChars (str : List UInt8) (term : VTerm) : Option VTerm :=
  str.foldlM (fun term c => vtermWriteChar c term) term

def NeverScrolls : List UInt8 → VTerm → Prop
  | [], _ => True
  | c :: rest, term =>
      ¬ Scrolls c term ∧ ∀ next, vtermWriteChar c term = some next → NeverScrolls rest next

/-! ## One character -/

private theorem cell_index (inside : OnScreen row col) (index : Nat) :
    index / 80 = row ∧ index % 80 = col ↔ index = 80 * row + col := by
  obtain ⟨_, colInside⟩ := inside
  omega

/-- A step that changes one cell and leaves the colours and the mode. -/
structure CellStep (index : Nat) (cell : VTermCell) (before after : VTerm) : Prop where
  grid : after.OnGrid
  here : after.cellAt index = cell
  others : ∀ other, other ≠ index → after.cellAt other = before.cellAt other
  fg : after.currentFg = before.currentFg
  bg : after.currentBg = before.currentBg
  mode : after.currentMode = before.currentMode

/-- Where a printable character goes without scrolling. -/
private theorem wrapCursor_stays (grid : term.OnGrid) (room : term.linear < 2000) :
    ∃ wrapped, wrapCursor term = some wrapped ∧ OnScreen wrapped.cursorRow wrapped.cursorCol ∧
      wrapped.linear = term.linear ∧ wrapped.screenBuffer = term.screenBuffer ∧
      wrapped.currentFg = term.currentFg ∧ wrapped.currentBg = term.currentBg ∧
      wrapped.currentMode = term.currentMode := by
  obtain ⟨rowInside, colInside⟩ := grid
  unfold VTerm.linear at room
  unfold wrapCursor
  by_cases full : term.cursorCol ≥ screenCols
  · have end_ : term.cursorCol = 80 := Nat.le_antisymm colInside full
    have word : u16 (term.cursorRow + 1) = term.cursorRow + 1 := u16_of_lt (by omega)
    have below : term.cursorRow + 1 < 25 := by omega
    have notBelow : ¬ term.cursorRow + 1 ≥ screenRows := Nat.not_le.mpr below
    simp only [if_pos full, word, if_neg notBelow]
    refine ⟨_, rfl, ⟨below, Nat.zero_lt_succ _⟩, ?_, rfl, rfl, rfl, rfl⟩
    simp only [VTerm.linear]
    omega
  · have notBelow : ¬ term.cursorRow ≥ screenRows := Nat.not_le.mpr rowInside
    simp only [if_neg full, if_neg notBelow]
    exact ⟨term, rfl, ⟨rowInside, Nat.not_le.mp full⟩, rfl, rfl, rfl, rfl, rfl⟩

theorem vtermWriteChar_linear (grid : term.OnGrid) (printable : Printable c)
    (room : term.linear < 2000) :
    ∃ after, vtermWriteChar c term = some after ∧ after.linear = term.linear + 1 ∧
      CellStep term.linear (term.inked c) term after := by
  obtain ⟨wrapped, wrap, inside, same, screen, fg, bg, mode⟩ := wrapCursor_stays grid room
  obtain ⟨stored, store, spec⟩ := storeChar_spec (fun _ => wrapped.inked c) c inside
  have next : u16 (stored.cursorCol + 1) = stored.cursorCol + 1 := by
    rw [spec.col]
    exact u16_of_lt (by have := inside.2; omega)
  have colRoom : stored.cursorCol + 1 ≤ 80 := by
    rw [spec.col]
    exact inside.2
  have rowInside : stored.cursorRow < 25 := by
    rw [spec.row]
    exact inside.1
  rw [vtermWriteChar, if_neg printable.2.2, if_neg printable.2.1, wrap, Option.bind_eq_bind,
    Option.bind_some]
  refine ⟨_, by rw [← VTerm.inked, store]; rfl, ?_, ⟨?_, ?_⟩, ?_, fun other different => ?_, ?_,
    ?_, ?_⟩
  · simp only [VTerm.linear, vtermMoveCursor_cursorRow, vtermMoveCursor_cursorCol, next,
      if_pos colRoom, if_pos rowInside] at same ⊢
    rw [spec.row, spec.col, ← Nat.add_assoc, same]
  · simpa using rowInside
  · simp [next, colRoom]
  · simp only [VTerm.cellAt, vtermMoveCursor_screenBuffer, spec.screen]
    rw [if_pos ((cell_index inside _).mpr same.symm), VTerm.inked, VTerm.inked, fg, bg]
  · simp only [VTerm.cellAt, vtermMoveCursor_screenBuffer, spec.screen]
    rw [if_neg fun here => different (((cell_index inside _).mp here).trans same), screen]
  · simp [spec.fg, fg]
  · simp [spec.bg, bg]
  · simp [spec.mode, mode]

theorem not_scrolls (grid : term.OnGrid) (printable : Printable c) (room : term.linear < 2000) :
    ¬ Scrolls c term := by
  obtain ⟨rowInside, colInside⟩ := grid
  unfold VTerm.linear at room
  have word : u16 (term.cursorRow + 1) = term.cursorRow + 1 := u16_of_lt (by omega)
  unfold Scrolls screenRows screenCols
  rw [if_neg printable.2.2, if_neg printable.2.1, word]
  split <;> omega

/-- A backspace steps back over either kind of row boundary. -/
theorem vtermWriteChar_backspace_linear (grid : term.OnGrid) (positive : 0 < term.linear) :
    ∃ after, vtermWriteChar 8 term = some after ∧ after.linear = term.linear - 1 ∧
      CellStep (term.linear - 1) { term.cellAt (term.linear - 1) with character := 32 }
        term after := by
  obtain ⟨rowInside, colInside⟩ := grid
  unfold VTerm.linear at positive
  obtain ⟨row, col, target, inside, same⟩ : ∃ row col, backspaceTarget term = some (row, col) ∧
      OnScreen row col ∧ 80 * row + col = term.linear - 1 := by
    unfold backspaceTarget VTerm.linear OnScreen screenCols
    by_cases inRow : term.cursorCol > 0
    · exact ⟨_, _, if_pos inRow, by omega, by omega⟩
    · have above : term.cursorRow > 0 := by omega
      exact ⟨_, _, by rw [if_neg inRow, if_pos above], by omega, by omega⟩
  obtain ⟨after, erase, spec⟩ := vtermWriteChar_erases target inside
  refine ⟨after, erase, ?_, ⟨?_, ?_⟩, ?_, fun other different => ?_, spec.fg, spec.bg, spec.mode⟩
  · rw [VTerm.linear, spec.row, spec.col, same]
  · exact spec.row ▸ inside.1
  · exact spec.col ▸ Nat.le_of_lt inside.2
  · simp only [VTerm.cellAt, spec.screen]
    rw [if_pos ((cell_index inside _).mpr same.symm)]
  · simp only [VTerm.cellAt, spec.screen]
    rw [if_neg fun here => different (((cell_index inside _).mp here).trans same)]

/-! ## Strings -/

theorem writeChars_append (front back : List UInt8) (term : VTerm) :
    writeChars (front ++ back) term = (writeChars front term).bind (writeChars back) :=
  List.foldlM_append ..

theorem writeChars_cons (c : UInt8) (rest : List UInt8) (term : VTerm) :
    writeChars (c :: rest) term = (vtermWriteChar c term).bind (writeChars rest) :=
  List.foldlM_cons ..

theorem NeverScrolls.append {front back : List UInt8} (first : NeverScrolls front term)
    (second : ∀ middle, writeChars front term = some middle → NeverScrolls back middle) :
    NeverScrolls (front ++ back) term := by
  induction front generalizing term with
  | nil => exact second term rfl
  | cons c rest ih =>
      refine ⟨first.1, fun next wrote => ih (first.2 next wrote) fun middle written => ?_⟩
      refine second middle ?_
      rw [writeChars_cons, wrote, Option.bind_some, written]

/-- The string stands in the cells from `start` on, in the colours that are current. -/
structure Printed (start : Nat) (str : List UInt8) (before after : VTerm) : Prop where
  linear : after.linear = start + str.length
  cells : ∀ i (inside : i < str.length), after.cellAt (start + i) = before.inked str[i]
  others : ∀ index, index < start ∨ start + str.length ≤ index →
    after.cellAt index = before.cellAt index
  fg : after.currentFg = before.currentFg
  bg : after.currentBg = before.currentBg
  mode : after.currentMode = before.currentMode

/-- A printable string up to the end of the screen. -/
theorem writeChars_printed (grid : term.OnGrid) (printable : ∀ c ∈ str, Printable c)
    (fits : term.linear + str.length ≤ 2000) :
    ∃ after, writeChars str term = some after ∧ after.OnGrid ∧
      Printed term.linear str term after ∧ NeverScrolls str term := by
  induction str generalizing term with
  | nil =>
      exact ⟨term, rfl, grid, ⟨rfl, nofun, fun _ _ => rfl, rfl, rfl, rfl⟩, trivial⟩
  | cons c rest ih =>
      have first := printable c List.mem_cons_self
      rw [List.length_cons] at fits
      have room : term.linear < 2000 := by omega
      obtain ⟨next, wrote, moved, step⟩ := vtermWriteChar_linear grid first room
      obtain ⟨after, written, afterGrid, printed, never⟩ := ih step.grid
        (fun other member => printable other (List.mem_cons_of_mem _ member)) (by omega)
      refine ⟨after, by rw [writeChars_cons, wrote, Option.bind_some, written], afterGrid, ?_,
        not_scrolls grid first room, fun other wroteOther => ?_⟩
      · refine ⟨?_, fun i inside => ?_, fun index outside => ?_, printed.fg.trans step.fg,
          printed.bg.trans step.bg, printed.mode.trans step.mode⟩
        · rw [printed.linear, moved, List.length_cons]
          omega
        · cases i with
          | zero =>
              rw [Nat.add_zero, printed.others _ (.inl (by omega)), step.here]
              rfl
          | succ i =>
              have place : term.linear + (i + 1) = next.linear + i := by omega
              rw [place, printed.cells i (Nat.lt_of_succ_lt_succ inside), VTerm.inked, VTerm.inked,
                step.fg, step.bg]
              rfl
        · rw [List.length_cons] at outside
          rw [printed.others index (by omega), step.others index (by omega)]
      · obtain rfl := Option.some.inj (wrote.symm.trans wroteOther)
        exact never

/-- The `count` cells before the cursor have become spaces. -/
structure Cleaned (count : Nat) (before after : VTerm) : Prop where
  linear : after.linear = before.linear - count
  cells : ∀ index, before.linear - count ≤ index → index < before.linear →
    (after.cellAt index).character = 32
  others : ∀ index, index < before.linear - count ∨ before.linear ≤ index →
    after.cellAt index = before.cellAt index

theorem writeChars_cleaned (grid : term.OnGrid) (count : Nat) (enough : count ≤ term.linear) :
    ∃ after, writeChars (List.replicate count 8) term = some after ∧ Cleaned count term after ∧
      NeverScrolls (List.replicate count 8) term := by
  induction count generalizing term with
  | zero => exact ⟨term, rfl, ⟨rfl, fun _ _ _ => by omega, fun _ _ => rfl⟩, trivial⟩
  | succ count ih =>
      obtain ⟨next, erased, moved, step⟩ := vtermWriteChar_backspace_linear grid (by omega)
      obtain ⟨after, written, cleaned, never⟩ := ih step.grid (by omega)
      refine ⟨after, ?_, ?_, nofun, fun other erasedOther => ?_⟩
      · rw [List.replicate_succ, writeChars_cons, erased, Option.bind_some, written]
      · refine ⟨?_, fun index above below => ?_, fun index outside => ?_⟩
        · rw [cleaned.linear, moved]
          omega
        · by_cases last : index = term.linear - 1
          · rw [cleaned.others index (.inr (by omega)), last, step.here]
          · exact cleaned.cells index (by omega) (by omega)
        · rw [cleaned.others index (by omega), step.others index (by omega)]
      · obtain rfl := Option.some.inj (erased.symm.trans erasedOther)
        exact never

/-- Backspaces undo a printable string, across any number of row boundaries: its cells are left
as spaces, no other cell changes, and the screen never scrolls. -/
theorem write_then_erase (grid : term.OnGrid) (printable : ∀ c ∈ str, Printable c)
    (fits : term.linear + str.length ≤ 2000) :
    ∃ after, writeChars (str ++ List.replicate str.length 8) term = some after ∧
      after.linear = term.linear ∧
      (∀ index, term.linear ≤ index → index < term.linear + str.length →
        (after.cellAt index).character = 32) ∧
      (∀ index, index < term.linear ∨ term.linear + str.length ≤ index →
        after.cellAt index = term.cellAt index) ∧
      NeverScrolls (str ++ List.replicate str.length 8) term := by
  obtain ⟨middle, written, middleGrid, printed, never⟩ := writeChars_printed grid printable fits
  have position := printed.linear
  obtain ⟨after, erased, cleaned, neverBack⟩ :=
    writeChars_cleaned middleGrid str.length (by omega)
  refine ⟨after, ?_, ?_, fun index above below => ?_, fun index outside => ?_,
    never.append fun other writtenOther => ?_⟩
  · rw [writeChars_append, written, Option.bind_some, erased]
  · rw [cleaned.linear]
    omega
  · exact cleaned.cells index (by omega) (by omega)
  · rw [cleaned.others index (by omega), printed.others index outside]
  · obtain rfl := Option.some.inj (written.symm.trans writtenOther)
    exact neverBack

/-- The cursor stands behind the first row. -/
def rowEnd : VTerm := { VTerm.static (fun _ => 0) with cursorCol := 80 }

private theorem letters_printable (count : Nat) :
    ∀ c ∈ List.replicate count (65 : UInt8), Printable c := by
  intro c member
  rw [List.eq_of_mem_replicate member]
  exact ⟨by decide, by decide, by decide⟩

/-- Over two row boundaries, of which the first has been reached but not crossed. -/
theorem write_then_erase_sample :
    ∃ after, writeChars (List.replicate 100 65 ++ List.replicate 100 8) rowEnd = some after ∧
      after.linear = 80 := by
  obtain ⟨after, written, back, _⟩ := @write_then_erase rowEnd (List.replicate 100 65)
    ⟨by decide, by decide⟩ (letters_printable 100) (by decide)
  exact ⟨after, written, back⟩

/-! ## Printing at a position -/

theorem vtermWrite_eq (printable : ∀ c ∈ str, Printable c) (term : VTerm) :
    vtermWrite str term = writeChars str term := by
  induction str generalizing term with
  | nil => rfl
  | cons c rest ih =>
      have notEnd := (printable c List.mem_cons_self).1
      rw [vtermWrite, if_neg notEnd, writeChars_cons]
      cases vtermWriteChar c term with
      | none => rfl
      | some next => exact ih (fun other member => printable other (List.mem_cons_of_mem _ member)) next

theorem textLength_eq (printable : ∀ c ∈ str, Printable c) (short : str.length ≤ 2000) :
    textLength str = str.length := by
  have whole : str.takeWhile (· ≠ 0) = str :=
    List.takeWhile_eq_self_iff.mpr fun c member => by simpa using (printable c member).1
  rw [textLength, whole, u32_of_lt (by omega)]

private theorem Printed.coloured {start : Nat} (printed : Printed start str before after)
    (coloured : before.Coloured) : after.Coloured := by
  intro row col inside
  have colInside := inside.2
  have division : (80 * row + col) / 80 = row ∧ (80 * row + col) % 80 = col := by omega
  have cell : ∀ term : VTerm, term.cellAt (80 * row + col) = term.screenBuffer row col := by
    intro term
    rw [VTerm.cellAt, division.1, division.2]
  rw [← cell]
  by_cases written : start ≤ 80 * row + col ∧ 80 * row + col - start < str.length
  · obtain ⟨i, place⟩ := Nat.exists_eq_add_of_le written.1
    have index : i < str.length := by omega
    rw [place, printed.cells i index]
    exact before.inked_valid _
  · rw [printed.others _ (by omega), cell]
    exact coloured row col inside

private theorem Printed.of_moved {start row col : Nat}
    (printed : Printed start str (vtermMoveCursor row col before) after) :
    Printed start str before after := by
  refine ⟨printed.linear, fun i inside => ?_, fun index outside => ?_, ?_, ?_, ?_⟩
  · rw [printed.cells i inside]
    simp [VTerm.inked]
  · rw [printed.others index outside]
    simp [VTerm.cellAt]
  · simpa using printed.fg
  · simpa using printed.bg
  · simpa using printed.mode

private theorem Printed.of_same {start : Nat} (printed : Printed start str before middle)
    (same : SameScreen middle after) : Printed start str before after := by
  have cell : ∀ index, after.cellAt index = middle.cellAt index := fun index => by
    rw [VTerm.cellAt, VTerm.cellAt, same.screen]
  refine ⟨?_, fun i inside => ?_, fun index outside => ?_, same.fg.trans printed.fg,
    same.bg.trans printed.bg, same.mode.trans printed.mode⟩
  · rw [VTerm.linear, same.row, same.col]
    exact printed.linear
  · rw [cell, printed.cells i inside]
  · rw [cell, printed.others index outside]

/-- The text is printed from a position of the screen on, from where nothing scrolls. In stream
mode it is shown as well. -/
structure PrintedAt (row col : Nat) (text : List UInt8) (before after : VTerm) : Prop where
  printed : Printed (80 * row + col) text before after
  never : NeverScrolls text (vtermMoveCursor row col before)
  displayed : before.currentMode = .stream → after.Displayed

theorem vtermPrintAt_printed (coloured : term.Coloured) (rowInside : row < 25)
    (colInside : col ≤ 80) (printable : ∀ c ∈ str, Printable c)
    (fits : 80 * row + col + str.length ≤ 2000) :
    ∃ after, vtermPrintAt row col str term = some after ∧ PrintedAt row col str term after := by
  have rowEq : (vtermMoveCursor row col term).cursorRow = row := by
    rw [vtermMoveCursor_cursorRow, if_pos rowInside]
  have colEq : (vtermMoveCursor row col term).cursorCol = col := by
    rw [vtermMoveCursor_cursorCol, if_pos colInside]
  have start : (vtermMoveCursor row col term).linear = 80 * row + col := by
    rw [VTerm.linear, rowEq, colEq]
  have grid : (vtermMoveCursor row col term).OnGrid :=
    ⟨by rwa [rowEq], by rwa [colEq]⟩
  obtain ⟨written, wrote, _, printed, never⟩ :=
    writeChars_printed grid printable (start ▸ fits)
  rw [start] at printed
  have fromHere := printed.of_moved
  obtain ⟨after, flush, same, displayed⟩ := flushStream_spec (fromHere.coloured coloured)
  refine ⟨after, ?_, fromHere.of_same same, never, fun stream => displayed ?_⟩
  · rw [vtermPrintAt, vtermWrite_eq printable, wrote]
    exact flush
  · rw [fromHere.mode, stream]

/-- Where an aligned text starts and ends. -/
structure Aligned (align : VTermAlignment) (start length : Nat) : Prop where
  inside : start + length ≤ 80
  left : align = .left → start = 0
  right : align = .right → start + length = 80
  center : align = .center → start ≤ 80 - (start + length) ∧ 80 - (start + length) ≤ start + 1

theorem alignedCol_aligned (align : VTermAlignment) {length : Nat} (short : length ≤ 80) :
    Aligned align (alignedCol length align) length := by
  cases align with
  | left => exact ⟨by rw [alignedCol]; omega, fun _ => rfl, nofun, nofun⟩
  | center =>
      refine ⟨?_, nofun, nofun, fun _ => ?_⟩ <;>
      · unfold alignedCol screenCols
        dsimp only
        split <;> omega
  | right =>
      refine ⟨?_, nofun, fun _ => ?_, nofun⟩ <;>
      · unfold alignedCol screenCols
        dsimp only
        split <;> omega

/-- Both ways of printing at a position, up to the end of a row and of the screen. -/
theorem vtermPrint_places (coloured : term.Coloured) (rowInside : row < 25)
    (printable : ∀ c ∈ str, Printable c) :
    (∀ col ≤ 80, 80 * row + col + str.length ≤ 2000 →
      ∃ after, vtermPrintAt row col str term = some after ∧ PrintedAt row col str term after) ∧
    (str.length ≤ 80 → ∀ align, ∃ after start,
      vtermPrintAligned row str align term = some after ∧
      PrintedAt row start str term after ∧ Aligned align start str.length) := by
  refine ⟨fun col colInside fits =>
    vtermPrintAt_printed coloured rowInside colInside printable fits, fun short align => ?_⟩
  have aligned := alignedCol_aligned align short
  have inside := aligned.inside
  obtain ⟨after, print, printed⟩ := vtermPrintAt_printed coloured rowInside
    (by omega : alignedCol str.length align ≤ 80) printable (by omega)
  refine ⟨after, _, ?_, printed, aligned⟩
  rw [vtermPrintAligned, textLength_eq printable (by omega), print]

/-- Three characters in the middle of the last row. -/
theorem vtermPrint_places_sample :
    ∃ after start, vtermPrintAligned 24 (List.replicate 3 65) .center rowEnd = some after ∧
      PrintedAt 24 start (List.replicate 3 65) rowEnd after := by
  obtain ⟨after, start, print, printed, _⟩ := (@vtermPrint_places rowEnd 24 (List.replicate 3 65)
    (fun _ _ _ => ⟨Nat.zero_lt_succ _, Nat.zero_lt_succ _⟩) (by decide) (letters_printable 3)).2 (by decide) .center
  exact ⟨after, start, print, printed⟩

end KdbOS.Vterm
