import KdbOS.Vterm.VtermOperations

/-! The cursor stays on the screen, and no call on the terminal indexes an array out of
its bounds. -/

set_option autoImplicit false

namespace KdbOS.Vterm

open Library Arch

variable {term after : VTerm}

/-- The call stays inside the arrays and leaves the cursor on the screen. -/
def Succeeds (result : Option VTerm) : Prop := ∃ after, result = some after ∧ after.Bounded

theorem VTerm.Bounded.congr (bounded : term.Bounded) (same : SameScreen term after) :
    after.Bounded := by
  refine ⟨same.row ▸ bounded.row, same.col ▸ bounded.col, fun row col inside => ?_⟩
  rw [same.screen]
  exact bounded.coloured row col inside

theorem VTerm.Bounded.moveCursor (bounded : term.Bounded) (row col : Nat) :
    (vtermMoveCursor row col term).Bounded := by
  refine ⟨?_, ?_, fun r c inside => ?_⟩
  · rw [vtermMoveCursor_cursorRow]
    have := bounded.row
    split <;> assumption
  · rw [vtermMoveCursor_cursorCol]
    have := bounded.col
    split <;> assumption
  · rw [vtermMoveCursor_screenBuffer]
    exact bounded.coloured r c inside

/-- Neither the colours, nor the style, nor the mode, nor port writes matter. -/
theorem VTerm.Bounded.of_fields (bounded : term.Bounded)
    (screen : after.screenBuffer = term.screenBuffer) (row : after.cursorRow = term.cursorRow)
    (col : after.cursorCol = term.cursorCol) : after.Bounded := by
  refine ⟨row ▸ bounded.row, col ▸ bounded.col, fun r c inside => ?_⟩
  rw [screen]
  exact bounded.coloured r c inside

theorem VTerm.Bounded.flush (bounded : term.Bounded) : Succeeds (vtermFlush term) := by
  obtain ⟨after, flush, same, _⟩ := vtermFlush_spec bounded.coloured
  exact ⟨after, flush, bounded.congr same⟩

theorem VTerm.Bounded.flushStream (bounded : term.Bounded) :
    Succeeds (Vterm.flushStream term) := by
  obtain ⟨after, flush, same, _⟩ := flushStream_spec bounded.coloured
  exact ⟨after, flush, bounded.congr same⟩

/-- A blank screen in the given colours, with the cursor in the upper left corner. -/
structure Cleared (fg bg : VTermColor) (term : VTerm) : Prop where
  screen : ∀ row col, OnScreen row col → term.screenBuffer row col = ⟨32, fg.value, bg.value⟩
  row : term.cursorRow = 0
  col : term.cursorCol = 0
  fg : term.currentFg = fg
  bg : term.currentBg = bg

namespace Cleared

variable {fg bg : VTermColor}

theorem of_same (cleared : Cleared fg bg term) (same : SameScreen term after) :
    Cleared fg bg after where
  screen row col inside := by
    rw [same.screen]
    exact cleared.screen row col inside
  row := same.row.trans cleared.row
  col := same.col.trans cleared.col
  fg := same.fg.trans cleared.fg
  bg := same.bg.trans cleared.bg

theorem bounded (cleared : Cleared fg bg term) : term.Bounded := by
  refine ⟨by simp [cleared.row], by simp [cleared.col], fun row col inside => ?_⟩
  rw [cleared.screen row col inside]
  exact ⟨fg.value_lt, bg.value_lt⟩

end Cleared

/-- Whatever the terminal was like before. -/
theorem vtermClear_spec (term : VTerm) (fg bg : VTermColor) :
    ∃ after, vtermClear fg bg term = some after ∧ Cleared fg bg after ∧
      after.currentMode = term.currentMode ∧ (term.currentMode = .stream → after.Displayed) := by
  have blank : Cleared fg bg (vtermMoveCursor 0 0 { term with
      currentFg := fg
      currentBg := bg
      screenBuffer := fun r c =>
        if OnScreen r c then ⟨32, fg.value, bg.value⟩ else term.screenBuffer r c }) := by
    refine ⟨fun row col inside => ?_, by simp, by simp, by simp, by simp⟩
    simp [inside]
  obtain ⟨after, flush, same, displayed⟩ := flushStream_spec blank.bounded.coloured
  rw [vtermClear_eq, flush]
  refine ⟨after, rfl, blank.of_same same, ?_, ?_⟩
  · simpa using same.mode
  · simpa using displayed

theorem vtermInit_spec (term : VTerm) (fg bg : VTermColor) :
    ∃ after, vtermInit fg bg term = some after ∧ Cleared fg bg after ∧
      after.currentMode = .stream ∧ after.Displayed := by
  obtain ⟨blank, clear, cleared, mode, _⟩ :=
    vtermClear_spec { term with currentMode := .stream } fg bg
  obtain ⟨after, flush, same, displayed⟩ := vtermFlush_spec cleared.bounded.coloured
  rw [vtermInit, clear]
  exact ⟨after, flush, cleared.of_same same, same.mode.trans mode, displayed⟩

theorem VTerm.Bounded.writeChar (bounded : term.Bounded) (c : UInt8) :
    Succeeds (vtermWriteChar c term) := by
  obtain ⟨after, wrote, step⟩ := vtermWriteChar_spec c bounded
  exact ⟨after, wrote, step.bounded bounded⟩

/-- Writing does not touch the mode. -/
theorem vtermWrite_spec (bounded : term.Bounded) (str : List UInt8) :
    ∃ after, vtermWrite str term = some after ∧ after.Bounded ∧
      after.currentMode = term.currentMode := by
  induction str generalizing term with
  | nil => exact ⟨term, rfl, bounded, rfl⟩
  | cons c rest ih =>
      unfold vtermWrite
      split
      case isTrue => exact ⟨term, rfl, bounded, rfl⟩
      case isFalse =>
        obtain ⟨next, wrote, step⟩ := vtermWriteChar_spec c bounded
        obtain ⟨after, remaining, afterBounded, mode⟩ := ih (step.bounded bounded)
        rw [wrote]
        exact ⟨after, remaining, afterBounded, mode.trans step.mode⟩

theorem VTerm.Bounded.write (bounded : term.Bounded) (str : List UInt8) :
    Succeeds (vtermWrite str term) := by
  obtain ⟨after, wrote, afterBounded, _⟩ := vtermWrite_spec bounded str
  exact ⟨after, wrote, afterBounded⟩

/-- A loop of calls that succeed succeeds. -/
theorem VTerm.Bounded.loop (bounded : term.Bounded) (count : Nat)
    (body : VTerm → Nat → Option VTerm)
    (iteration : ∀ index < count, ∀ current : VTerm, current.Bounded →
      Succeeds (body current index)) : Succeeds (forLoop 0 count body term) :=
  forLoop_spec 0 count body (fun _ => VTerm.Bounded) bounded (by
    intro index inside current currentBounded
    rw [Nat.zero_add]
    exact iteration index inside current currentBounded)

theorem VTerm.Bounded.writeBinary (bounded : term.Bounded) (byte : UInt8) :
    Succeeds (vtermWriteBinary byte term) :=
  bounded.loop 8 _ fun _ _ _ currentBounded => currentBounded.writeChar _

theorem VTerm.Bounded.setColor (bounded : term.Bounded) (fg bg : VTermColor) :
    (vtermSetColor fg bg term).Bounded :=
  bounded.of_fields rfl rfl rfl

theorem VTerm.Bounded.writeHex (bounded : term.Bounded) (val : UInt32) (fg bg : VTermColor) :
    Succeeds (vtermWriteHex val fg bg term) := by
  obtain ⟨first, zero, firstBounded⟩ := (bounded.setColor fg bg).writeChar 48
  obtain ⟨second, x, secondBounded⟩ := firstBounded.writeChar 120
  obtain ⟨third, digits, thirdBounded⟩ := secondBounded.loop 8
    (fun term i => do
      let nibble := (val.toNat >>> (28 - i * 4)) % 16
      let digit ← hexChars[nibble]?
      vtermWriteChar digit term) (by
    intro i inside current currentBounded
    have nibble : (val.toNat >>> (28 - i * 4)) % 16 < hexChars.length :=
      Nat.lt_trans (Nat.mod_lt _ (by decide)) (by decide)
    simp only [List.getElem?_eq_getElem nibble, Option.bind_eq_bind, Option.bind_some]
    exact currentBounded.writeChar _)
  refine ⟨vtermSetColor term.currentFg term.currentBg third, ?_, thirdBounded.setColor _ _⟩
  rw [Option.bind_eq_bind] at digits
  unfold vtermWriteHex
  simp only [zero, x, Option.bind_eq_bind, Option.bind_some]
  rw [digits, Option.bind_some]

theorem VTerm.Bounded.printAt (bounded : term.Bounded) (row col : Nat) (text : List UInt8) :
    Succeeds (vtermPrintAt row col text term) := by
  obtain ⟨written, wrote, writtenBounded⟩ := (bounded.moveCursor row col).write text
  rw [vtermPrintAt, wrote]
  exact writtenBounded.flushStream

theorem VTerm.Bounded.writeLabelHex (bounded : term.Bounded) (label : List UInt8)
    (value : UInt32) : Succeeds (vtermWriteLabelHex label value term) := by
  obtain ⟨first, labelled, firstBounded⟩ := bounded.write label
  obtain ⟨second, hex, secondBounded⟩ := firstBounded.writeHex value .white .black
  rw [vtermWriteLabelHex, labelled, Option.bind_eq_bind, Option.bind_some, hex, Option.bind_some]
  exact secondBounded.write [10]

theorem VTermOp.perform_succeeds (bounded : term.Bounded) (op : VTermOp) :
    Succeeds (op.perform term) := by
  cases op with
  | setCursorVisible visible currentVal =>
      exact ⟨_, rfl, bounded.congr (vtermSetCursorVisible_same visible currentVal term)⟩
  | setCursorShape shape startVal endVal =>
      exact ⟨_, rfl, bounded.congr (vtermSetCursorShape_same shape startVal endVal term)⟩
  | moveCursor row col => exact ⟨_, rfl, bounded.moveCursor row col⟩
  | setBufferingMode mode => exact ⟨_, rfl, bounded.of_fields rfl rfl rfl⟩
  | init fg bg =>
      obtain ⟨after, init, cleared, _⟩ := vtermInit_spec term fg bg
      exact ⟨after, init, cleared.bounded⟩
  | clear fg bg =>
      obtain ⟨after, clear, cleared, _⟩ := vtermClear_spec term fg bg
      exact ⟨after, clear, cleared.bounded⟩
  | writeChar c => exact bounded.writeChar c
  | write str => exact bounded.write str
  | writeBinary byte => exact bounded.writeBinary byte
  | writeHex val fg bg => exact bounded.writeHex val fg bg
  | printAt row col text => exact bounded.printAt row col text
  | printAligned row text align => exact bounded.printAt row _ text
  | setColor fg bg => exact ⟨_, rfl, bounded.setColor fg bg⟩
  | flush => exact bounded.flush
  | writeLabelHex label value => exact bounded.writeLabelHex label value

end KdbOS.Vterm
