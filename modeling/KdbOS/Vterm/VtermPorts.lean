import KdbOS.Vterm.VtermOperations

/-! The terminal writes to its ports and never asks what has been written: whatever was on
them before is only in front of what a call adds. -/

set_option autoImplicit false

namespace KdbOS.Vterm

open Library Arch

variable {ports : PortWrites} {term : VTerm}

/-- The same terminal, with other port writes before its own. -/
def VTerm.logged (ports : PortWrites) (term : VTerm) : VTerm :=
  { term with outb := ports ++ term.outb }

theorem vtermMoveCursor_logged (row col : Nat) :
    vtermMoveCursor row col (term.logged ports) = (vtermMoveCursor row col term).logged ports := by
  unfold vtermMoveCursor VTerm.logged VTerm.write
  by_cases rowInside : row < screenRows
  · by_cases colInside : col ≤ screenCols
    · simp only [rowInside, colInside, if_true]
      split <;> simp
    · simp only [rowInside, colInside, if_true, if_false]
      split <;> simp
  · by_cases colInside : col ≤ screenCols
    · simp only [rowInside, colInside, if_true, if_false]
      split <;> simp
    · simp only [rowInside, colInside, if_false]
      split <;> simp

theorem showCell_logged (character : UInt8) (row col : Nat) (fg bg : UInt8) :
    (term.logged ports).showCell character row col fg bg =
      (term.showCell character row col fg bg).map (VTerm.logged ports) := by
  unfold VTerm.showCell
  simp only [Option.bind_eq_bind, Option.map_bind, Function.comp_def]
  rfl

theorem updateCell_logged (row col : Nat) (change : VTermCell → VTermCell) :
    (term.logged ports).updateCell row col change =
      (term.updateCell row col change).map (VTerm.logged ports) := by
  unfold VTerm.updateCell
  split <;> rfl

theorem cell_logged (row col : Nat) : (term.logged ports).cell row col = term.cell row col := rfl

theorem vtermFlush_logged :
    vtermFlush (term.logged ports) = (vtermFlush term).map (VTerm.logged ports) := by
  have rows : ∀ current : VTerm, ∀ row, forLoop 0 screenCols (fun term col => do
        let cell ← term.cell row col
        term.showCell cell.character row col cell.fg cell.bg) (current.logged ports) =
      (forLoop 0 screenCols (fun term col => do
        let cell ← term.cell row col
        term.showCell cell.character row col cell.fg cell.bg) current).map (VTerm.logged ports) := by
    intro current row
    refine forLoop_map 0 screenCols _ _ (fun term col => ?_) current
    simp only [cell_logged, Option.bind_eq_bind, Option.map_bind]
    exact Option.bind_congr fun cell _ => showCell_logged _ _ _ _ _
  unfold vtermFlush
  rw [forLoop_map 0 screenRows _ _ rows]
  simp only [Option.bind_eq_bind, Option.map_bind, Option.bind_map]
  exact Option.bind_congr fun shown _ => congrArg some (vtermMoveCursor_logged _ _)

theorem flushStream_logged :
    flushStream (term.logged ports) = (flushStream term).map (VTerm.logged ports) := by
  unfold flushStream
  have mode : (term.logged ports).currentMode = term.currentMode := rfl
  rw [mode]
  split
  · exact vtermFlush_logged
  · rfl

theorem vtermScroll_logged :
    vtermScroll (term.logged ports) = (vtermScroll term).map (VTerm.logged ports) := by
  have copies : ∀ current : VTerm, ∀ row, forLoop 0 screenCols (fun term col => do
        let cell ← term.cell row col
        term.updateCell (row - 1) col fun _ => cell) (current.logged ports) =
      (forLoop 0 screenCols (fun term col => do
        let cell ← term.cell row col
        term.updateCell (row - 1) col fun _ => cell) current).map (VTerm.logged ports) := by
    intro current row
    refine forLoop_map 0 screenCols _ _ (fun term col => ?_) current
    simp only [cell_logged, Option.bind_eq_bind, Option.map_bind]
    exact Option.bind_congr fun cell _ => updateCell_logged _ _ _
  have blanks : ∀ current : VTerm, ∀ col,
      (current.logged ports).updateCell (screenRows - 1) col (fun _ =>
        ⟨32, (current.logged ports).currentFg.value, (current.logged ports).currentBg.value⟩) =
      (current.updateCell (screenRows - 1) col fun _ =>
        ⟨32, current.currentFg.value, current.currentBg.value⟩).map (VTerm.logged ports) :=
    fun current col => updateCell_logged _ _ _
  unfold vtermScroll
  rw [forLoop_map 1 (screenRows - 1) _ _ copies]
  simp only [Option.bind_eq_bind, Option.map_bind, Option.bind_map]
  refine Option.bind_congr fun copied _ => ?_
  simp only [Function.comp_apply]
  rw [forLoop_map 0 screenCols _ _ blanks]
  simp only [Option.map_bind, Option.bind_map]
  refine Option.bind_congr fun blanked _ => ?_
  rw [Function.comp_apply, vtermMoveCursor_logged, flushStream_logged]
  rfl

theorem wrapCursor_logged :
    wrapCursor (term.logged ports) = (wrapCursor term).map (VTerm.logged ports) := by
  unfold wrapCursor
  have col : (term.logged ports).cursorCol = term.cursorCol := rfl
  have row : (term.logged ports).cursorRow = term.cursorRow := rfl
  rw [col, row]
  have moved : (if term.cursorCol ≥ screenCols then
        { term.logged ports with cursorCol := 0, cursorRow := u16 (term.cursorRow + 1) }
      else term.logged ports) =
      (if term.cursorCol ≥ screenCols then
        { term with cursorCol := 0, cursorRow := u16 (term.cursorRow + 1) }
      else term).logged ports := by
    split <;> rfl
  simp only [moved]
  generalize (if term.cursorCol ≥ screenCols then
    { term with cursorCol := 0, cursorRow := u16 (term.cursorRow + 1) } else term) = reached
  have reachedRow : (reached.logged ports).cursorRow = reached.cursorRow := rfl
  rw [reachedRow]
  split
  · exact vtermScroll_logged
  · rfl

theorem storeChar_logged (change : VTermCell → VTermCell) (character : UInt8) :
    storeChar change character (term.logged ports) =
      (storeChar change character term).map (VTerm.logged ports) := by
  unfold storeChar
  have updated := @updateCell_logged ports term term.cursorRow term.cursorCol change
  have place : (term.logged ports).updateCell (term.logged ports).cursorRow
      (term.logged ports).cursorCol change =
        (term.updateCell term.cursorRow term.cursorCol change).map (VTerm.logged ports) := updated
  rw [place]
  simp only [Option.bind_eq_bind, Option.map_bind, Option.bind_map]
  refine Option.bind_congr fun stored _ => ?_
  simp only [Function.comp_apply]
  have mode : (stored.logged ports).currentMode = stored.currentMode := rfl
  rw [mode]
  split
  · exact showCell_logged _ _ _ _ _
  · rfl

theorem vtermWriteChar_logged (c : UInt8) :
    vtermWriteChar c (term.logged ports) = (vtermWriteChar c term).map (VTerm.logged ports) := by
  unfold vtermWriteChar
  by_cases newline : c = 10
  · rw [if_pos newline, if_pos newline]
    have moved := @vtermMoveCursor_logged ports term (u16 (term.cursorRow + 1)) 0
    have row : (term.logged ports).cursorRow = term.cursorRow := rfl
    rw [row, moved]
    have moves : ((vtermMoveCursor (u16 (term.cursorRow + 1)) 0 term).logged ports).cursorRow =
        (vtermMoveCursor (u16 (term.cursorRow + 1)) 0 term).cursorRow := rfl
    simp only [moves]
    split
    · exact vtermScroll_logged
    · rfl
  · rw [if_neg newline, if_neg newline]
    by_cases backspace : c = 8
    · rw [if_pos backspace, if_pos backspace]
      have target : backspaceTarget (term.logged ports) = backspaceTarget term := rfl
      rw [target]
      cases backspaceTarget term with
      | none => rfl
      | some place =>
          simp only
          rw [vtermMoveCursor_logged]
          exact storeChar_logged _ _
    · rw [if_neg backspace, if_neg backspace, wrapCursor_logged]
      simp only [Option.bind_eq_bind, Option.map_bind, Option.bind_map]
      refine Option.bind_congr fun wrapped _ => ?_
      simp only [Function.comp_apply]
      rw [storeChar_logged]
      simp only [Option.map_bind, Option.bind_map]
      exact Option.bind_congr fun stored _ => congrArg some (@vtermMoveCursor_logged ports
        { stored with cursorCol := u16 (stored.cursorCol + 1) } _ _)

end KdbOS.Vterm
