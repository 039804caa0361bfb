import KdbOS.Vterm.Vterm

/-! What the operations on the terminal do: closed forms of the loops over the screen,
and one lemma for each kind of character that is written. -/

set_option autoImplicit false

namespace KdbOS.Vterm

open Library Arch

variable {term after : VTerm} {row col : Nat} {fg bg : UInt8} {character : UInt8}

/-- The position is one of the screen. -/
def OnScreen (row col : Nat) : Prop := row < 25 ∧ col < 80

instance (row col : Nat) : Decidable (OnScreen row col) := inferInstanceAs (Decidable (_ ∧ _))

/-- The colours of a cell can be looked up. -/
def VTermCell.Valid (cell : VTermCell) : Prop := cell.fg.toNat < 16 ∧ cell.bg.toNat < 16

/-- The word that shows a cell. -/
def VTermCell.rendering (cell : VTermCell) : UInt16 :=
  framebufferWord cell.character cell.fg cell.bg

def VTerm.Coloured (term : VTerm) : Prop :=
  ∀ row col, OnScreen row col → (term.screenBuffer row col).Valid

theorem VTermColor.value_lt (color : VTermColor) : color.value.toNat < 16 := by
  cases color <;> decide

theorem vgaColorLookup_eq {color : UInt8} (valid : color.toNat < 16) :
    vgaColorLookup[color.toNat]? = some color := by
  have every : ∀ index : Fin 16, vgaColorLookup[index.val]? = some (UInt8.ofNat index.val) := by
    decide
  rw [every ⟨color.toNat, valid⟩, UInt8.ofNat_toNat]

theorem VTerm.cell_eq (inside : OnScreen row col) :
    term.cell row col = some (term.screenBuffer row col) :=
  if_pos inside

theorem VTerm.updateCell_eq {change : VTermCell → VTermCell} (inside : OnScreen row col) :
    term.updateCell row col change = some { term with
      screenBuffer := fun r c =>
        if r = row ∧ c = col then change (term.screenBuffer r c) else term.screenBuffer r c } :=
  if_pos inside

theorem VTerm.showCell_eq (inside : OnScreen row col) (fgValid : fg.toNat < 16)
    (bgValid : bg.toNat < 16) :
    term.showCell character row col fg bg = some { term with
      framebuffer := Function.update term.framebuffer (col + row * 80)
        (framebufferWord character fg bg) } := by
  obtain ⟨rowInside, colInside⟩ := inside
  have index : col + row * screenCols < screenRows * screenCols := by
    unfold screenCols screenRows
    omega
  simp only [VTerm.showCell, vgaColorLookup_eq fgValid, vgaColorLookup_eq bgValid,
    writeCharToFramebuffer, if_pos index, Option.bind_eq_bind, Option.bind_some]
  rfl

/-! ## Cursor moves -/

section

variable (row col : Nat) (term : VTerm)

@[simp] theorem vtermMoveCursor_screenBuffer :
    (vtermMoveCursor row col term).screenBuffer = term.screenBuffer := by
  unfold vtermMoveCursor VTerm.write
  grind

@[simp] theorem vtermMoveCursor_framebuffer :
    (vtermMoveCursor row col term).framebuffer = term.framebuffer := by
  unfold vtermMoveCursor VTerm.write
  grind

@[simp] theorem vtermMoveCursor_currentFg :
    (vtermMoveCursor row col term).currentFg = term.currentFg := by
  unfold vtermMoveCursor VTerm.write
  grind

@[simp] theorem vtermMoveCursor_currentBg :
    (vtermMoveCursor row col term).currentBg = term.currentBg := by
  unfold vtermMoveCursor VTerm.write
  grind

@[simp] theorem vtermMoveCursor_currentMode :
    (vtermMoveCursor row col term).currentMode = term.currentMode := by
  unfold vtermMoveCursor VTerm.write
  grind

/-- A row past the end leaves the row alone, a column past 80 the column. -/
@[simp] theorem vtermMoveCursor_cursorRow :
    (vtermMoveCursor row col term).cursorRow = if row < 25 then row else term.cursorRow := by
  unfold vtermMoveCursor VTerm.write screenRows
  grind

@[simp] theorem vtermMoveCursor_cursorCol :
    (vtermMoveCursor row col term).cursorCol = if col ≤ 80 then col else term.cursorCol := by
  unfold vtermMoveCursor VTerm.write screenCols
  grind

end

/-! ## Loops over the screen -/

theorem vtermFlush_eq (coloured : term.Coloured) :
    vtermFlush term = some (vtermMoveCursor term.cursorRow term.cursorCol { term with
      framebuffer := fun index =>
        if index < 2000 then (term.screenBuffer (index / 80) (index % 80)).rendering
        else term.framebuffer index }) := by
  -- After `count` cells in row-major order, these are shown.
  have loop := forLoop_grid_eq 0 screenRows screenCols
    (fun (term : VTerm) r c => do
      let cell ← term.cell r c
      term.showCell cell.character r c cell.fg cell.bg)
    (fun count => { term with
      framebuffer := fun index =>
        if index < count then (term.screenBuffer (index / 80) (index % 80)).rendering
        else term.framebuffer index }) (by
      intro r rowInside c colInside
      have on : OnScreen r c := ⟨rowInside, colInside⟩
      obtain ⟨fgValid, bgValid⟩ := coloured r c on
      rw [Nat.zero_add, VTerm.cell_eq on, Option.bind_eq_bind, Option.bind_some]
      refine (VTerm.showCell_eq on fgValid bgValid).trans ?_
      simp only [Option.some.injEq, VTerm.mk.injEq, true_and, and_true]
      unfold screenCols at colInside ⊢
      funext index
      by_cases here : index = c + r * 80
      · subst here
        have division : (c + r * 80) / 80 = r ∧ (c + r * 80) % 80 = c := by omega
        rw [Function.update_self, if_pos (by omega), division.1, division.2]
        rfl
      · rw [Function.update_of_ne here]
        exact if_congr (by omega) rfl rfl)
  simp only [Nat.not_lt_zero, ↓reduceIte] at loop
  rw [vtermFlush, loop]
  rfl

theorem vtermClear_eq (fg bg : VTermColor) (term : VTerm) :
    vtermClear fg bg term = flushStream (vtermMoveCursor 0 0 { term with
      currentFg := fg
      currentBg := bg
      screenBuffer := fun r c =>
        if OnScreen r c then ⟨32, fg.value, bg.value⟩ else term.screenBuffer r c }) := by
  have loop := forLoop_grid_eq 0 screenRows screenCols
    (fun (term : VTerm) r c => term.updateCell r c fun _ => ⟨32, fg.value, bg.value⟩)
    (fun count => { term with
      currentFg := fg
      currentBg := bg
      screenBuffer := fun r c =>
        if r * 80 + c < count ∧ c < 80 then ⟨32, fg.value, bg.value⟩
        else term.screenBuffer r c }) (by
      intro r rowInside c colInside
      rw [Nat.zero_add, VTerm.updateCell_eq ⟨rowInside, colInside⟩]
      unfold screenCols at colInside ⊢
      simp only [Option.some.injEq, VTerm.mk.injEq, and_true]
      funext otherRow otherCol
      grind)
  simp only [Nat.not_lt_zero, false_and, ↓reduceIte] at loop
  rw [vtermClear, loop, Option.bind_eq_bind, Option.bind_some]
  refine congrArg (fun screen => flushStream (vtermMoveCursor 0 0 { term with
    currentFg := fg, currentBg := bg, screenBuffer := screen })) ?_
  funext r c
  refine if_congr ?_ rfl rfl
  unfold OnScreen screenRows screenCols
  omega

/-- The screen moved up by one row, with the last row blank. -/
def scrolled (term : VTerm) (row col : Nat) : VTermCell :=
  if row < 24 ∧ col < 80 then term.screenBuffer (row + 1) col
  else if row = 24 ∧ col < 80 then ⟨32, term.currentFg.value, term.currentBg.value⟩
  else term.screenBuffer row col

private theorem scroll_rows (term : VTerm) :
    forLoop 1 (screenRows - 1) (fun term r =>
        forLoop 0 screenCols (fun term c => do
          let cell ← term.cell r c
          term.updateCell (r - 1) c fun _ => cell) term) term =
      some { term with
        screenBuffer := fun r c =>
          if r < 24 ∧ c < 80 then term.screenBuffer (r + 1) c else term.screenBuffer r c } := by
  have loop := forLoop_grid_eq 1 (screenRows - 1) screenCols
    (fun (term : VTerm) r c => do
      let cell ← term.cell r c
      term.updateCell (r - 1) c fun _ => cell)
    (fun count => { term with
      screenBuffer := fun r c =>
        if r * 80 + c < count ∧ c < 80 then term.screenBuffer (r + 1) c
        else term.screenBuffer r c }) (by
      intro r rowInside c colInside
      unfold screenRows at rowInside
      unfold screenCols at colInside ⊢
      rw [VTerm.cell_eq ⟨by omega, colInside⟩, Option.bind_eq_bind, Option.bind_some,
        VTerm.updateCell_eq ⟨by omega, colInside⟩]
      simp only [Option.some.injEq, VTerm.mk.injEq, and_true]
      funext otherRow otherCol
      grind)
  simp only [Nat.not_lt_zero, false_and, ↓reduceIte] at loop
  rw [loop]
  simp only [Option.some.injEq, VTerm.mk.injEq, and_true]
  funext r c
  refine if_congr ?_ rfl rfl
  unfold screenRows screenCols
  omega

private theorem scroll_last (term : VTerm) :
    forLoop 0 screenCols (fun (term : VTerm) c =>
        term.updateCell (screenRows - 1) c fun _ =>
          ⟨32, term.currentFg.value, term.currentBg.value⟩) term =
      some { term with
        screenBuffer := fun r c =>
          if r = 24 ∧ c < 80 then ⟨32, term.currentFg.value, term.currentBg.value⟩
          else term.screenBuffer r c } := by
  have loop := forLoop_eq 0 screenCols
    (fun (term : VTerm) c => term.updateCell (screenRows - 1) c fun _ =>
      ⟨32, term.currentFg.value, term.currentBg.value⟩)
    (fun count => { term with
      screenBuffer := fun r c =>
        if r = 24 ∧ c < count then ⟨32, term.currentFg.value, term.currentBg.value⟩
        else term.screenBuffer r c }) (by
      intro c colInside
      rw [VTerm.updateCell_eq ⟨by decide, by rwa [Nat.zero_add]⟩]
      unfold screenRows
      simp only [Option.some.injEq, VTerm.mk.injEq, and_true]
      funext otherRow otherCol
      grind)
  simp only [Nat.not_lt_zero, and_false, ↓reduceIte] at loop
  exact loop

theorem vtermScroll_eq (term : VTerm) :
    vtermScroll term =
      flushStream (vtermMoveCursor 24 0 { term with screenBuffer := scrolled term }) := by
  rw [vtermScroll, scroll_rows, Option.bind_eq_bind, Option.bind_some, scroll_last,
    Option.bind_some]
  refine congrArg (fun screen => flushStream (vtermMoveCursor 24 0 { term with
    screenBuffer := screen })) ?_
  funext r c
  unfold scrolled
  grind

/-! ## Flushing -/

/-- The display shows the screen buffer. -/
def VTerm.Displayed (term : VTerm) : Prop :=
  ∀ row col, OnScreen row col →
    term.framebuffer (col + row * 80) = (term.screenBuffer row col).rendering

/-- Nothing but the framebuffer and the port writes differs. -/
structure SameScreen (before after : VTerm) : Prop where
  screen : after.screenBuffer = before.screenBuffer
  row : after.cursorRow = before.cursorRow
  col : after.cursorCol = before.cursorCol
  fg : after.currentFg = before.currentFg
  bg : after.currentBg = before.currentBg
  mode : after.currentMode = before.currentMode

theorem vtermSetCursorShape_same (shape : CursorShape) (startVal endVal : UInt8) (term : VTerm) :
    SameScreen term (vtermSetCursorShape shape startVal endVal term) := by
  unfold vtermSetCursorShape VTerm.write
  constructor <;> grind

theorem vtermSetCursorVisible_same (visible : Bool) (currentVal : UInt8) (term : VTerm) :
    SameScreen term (vtermSetCursorVisible visible currentVal term) := by
  unfold vtermSetCursorVisible VTerm.write
  constructor <;> cases visible <;> simp

theorem vtermSetCursorShape_framebuffer (shape : CursorShape) (startVal endVal : UInt8)
    (term : VTerm) :
    (vtermSetCursorShape shape startVal endVal term).framebuffer = term.framebuffer := by
  unfold vtermSetCursorShape VTerm.write
  grind

theorem vtermSetCursorVisible_framebuffer (visible : Bool) (currentVal : UInt8) (term : VTerm) :
    (vtermSetCursorVisible visible currentVal term).framebuffer = term.framebuffer := by
  unfold vtermSetCursorVisible VTerm.write
  cases visible <;> simp

theorem vtermFlush_spec (coloured : term.Coloured) :
    ∃ after, vtermFlush term = some after ∧ SameScreen term after ∧ after.Displayed := by
  refine ⟨_, vtermFlush_eq coloured, ⟨by simp, by simp, by simp, by simp, by simp, by simp⟩, ?_⟩
  intro row col inside
  obtain ⟨rowInside, colInside⟩ := inside
  have division : (col + row * 80) / 80 = row ∧ (col + row * 80) % 80 = col := by omega
  have index : col + row * 80 < 2000 := by omega
  simp only [vtermMoveCursor_framebuffer, vtermMoveCursor_screenBuffer, if_pos index, division.1,
    division.2]

theorem flushStream_spec (coloured : term.Coloured) :
    ∃ after, flushStream term = some after ∧ SameScreen term after ∧
      (term.currentMode = .stream → after.Displayed) := by
  unfold flushStream
  by_cases stream : term.currentMode = .stream
  · obtain ⟨after, flush, same, displayed⟩ := vtermFlush_spec coloured
    exact ⟨after, by rw [if_pos stream, flush], same, fun _ => displayed⟩
  · exact ⟨term, if_neg stream, ⟨rfl, rfl, rfl, rfl, rfl, rfl⟩, fun is => absurd is stream⟩

/-- A cell and its image on the display are written together. -/
theorem VTerm.Displayed.update (displayed : term.Displayed) (cell : VTermCell)
    (inside : OnScreen row col)
    (screen : after.screenBuffer = fun r c =>
      if r = row ∧ c = col then cell else term.screenBuffer r c)
    (framebuffer : after.framebuffer =
      Function.update term.framebuffer (col + row * 80) cell.rendering) :
    after.Displayed := by
  intro r c on
  rw [screen, framebuffer]
  have colInside := inside.2
  have cInside := on.2
  by_cases here : r = row ∧ c = col
  · obtain ⟨rfl, rfl⟩ := here
    simp
  · have apart : c + r * 80 ≠ col + row * 80 := by omega
    simp only [Function.update_of_ne apart, if_neg here]
    exact displayed r c on

theorem VTerm.Displayed.congr (displayed : term.Displayed)
    (framebuffer : after.framebuffer = term.framebuffer)
    (screen : after.screenBuffer = term.screenBuffer) : after.Displayed := by
  intro row col inside
  rw [framebuffer, screen]
  exact displayed row col inside

/-! ## Characters -/

/-- The cursor has a row of the screen, and a column of it or the one past its end. -/
structure VTerm.Bounded (term : VTerm) : Prop where
  row : term.cursorRow < 25
  col : term.cursorCol ≤ 80
  coloured : term.Coloured

/-- On the bottom row the requested row is refused, and the cursor only returns to its
start. -/
theorem vtermWriteChar_newline (bounded : term.cursorRow < 25) :
    vtermWriteChar 10 term = some (vtermMoveCursor (term.cursorRow + 1) 0 term) := by
  have word : u16 (term.cursorRow + 1) = term.cursorRow + 1 := u16_of_lt (by omega)
  have inside : ¬ (vtermMoveCursor (term.cursorRow + 1) 0 term).cursorRow ≥ screenRows := by
    rw [vtermMoveCursor_cursorRow]
    unfold screenRows
    split <;> omega
  simp only [vtermWriteChar, word, if_neg inside, ↓reduceIte]

/-- Where the next character goes: a full row is left first, by scrolling at the bottom. -/
def wrapRow (term : VTerm) : Nat :=
  if term.cursorCol < 80 then term.cursorRow
  else if term.cursorRow + 1 < 25 then term.cursorRow + 1 else 24

def wrapCol (term : VTerm) : Nat := if term.cursorCol < 80 then term.cursorCol else 0

def wrapScreen (term : VTerm) : Nat → Nat → VTermCell :=
  if term.cursorCol < 80 ∨ term.cursorRow + 1 < 25 then term.screenBuffer else scrolled term

/-- The cell that a character becomes in the current colours. -/
def VTerm.inked (term : VTerm) (character : UInt8) : VTermCell :=
  ⟨character, term.currentFg.value, term.currentBg.value⟩

theorem VTerm.inked_valid (term : VTerm) (character : UInt8) : (term.inked character).Valid :=
  ⟨term.currentFg.value_lt, term.currentBg.value_lt⟩

theorem scrolled_coloured (coloured : term.Coloured) {row col : Nat} (inside : OnScreen row col) :
    (scrolled term row col).Valid := by
  obtain ⟨rowInside, colInside⟩ := inside
  unfold scrolled
  split
  case isTrue upper => exact coloured _ _ ⟨by omega, colInside⟩
  case isFalse =>
    rw [if_pos ⟨by omega, colInside⟩]
    exact term.inked_valid 32

/-- The state in which the character itself is stored. -/
structure Wrapped (before after : VTerm) : Prop where
  screen : after.screenBuffer = wrapScreen before
  row : after.cursorRow = wrapRow before
  col : after.cursorCol = wrapCol before
  fg : after.currentFg = before.currentFg
  bg : after.currentBg = before.currentBg
  mode : after.currentMode = before.currentMode
  displayed : before.currentMode = .stream → before.Displayed → after.Displayed

/-- `'\n'` and `'\b'` apart, a character is stored at the wrapped position. -/
structure Wrote (c : UInt8) (before after : VTerm) : Prop where
  screen : after.screenBuffer = fun row col =>
    if row = wrapRow before ∧ col = wrapCol before then before.inked c
    else wrapScreen before row col
  row : after.cursorRow = wrapRow before
  col : after.cursorCol = wrapCol before + 1
  fg : after.currentFg = before.currentFg
  bg : after.currentBg = before.currentBg
  mode : after.currentMode = before.currentMode
  displayed : before.currentMode = .stream → before.Displayed → after.Displayed

theorem wrapCursor_spec (bounded : term.Bounded) :
    ∃ after, wrapCursor term = some after ∧ Wrapped term after := by
  obtain ⟨rowInside, colInside, coloured⟩ := bounded
  unfold wrapCursor
  by_cases room : term.cursorCol < 80
  · have notFull : ¬ term.cursorCol ≥ screenCols := Nat.not_le.mpr room
    have notBelow : ¬ term.cursorRow ≥ screenRows := Nat.not_le.mpr rowInside
    simp only [if_neg notFull, if_neg notBelow]
    exact ⟨term, rfl, by simp [wrapScreen, room], by simp [wrapRow, room],
      by simp [wrapCol, room], rfl, rfl, rfl, fun _ displayed => displayed⟩
  · have full : term.cursorCol ≥ screenCols := Nat.not_lt.mp room
    have word : u16 (term.cursorRow + 1) = term.cursorRow + 1 := u16_of_lt (by omega)
    simp only [if_pos full, word]
    by_cases below : term.cursorRow + 1 < 25
    · have notBelow : ¬ term.cursorRow + 1 ≥ screenRows := Nat.not_le.mpr below
      simp only [if_neg notBelow]
      exact ⟨_, rfl, by simp [wrapScreen, below], by simp [wrapRow, room, below],
        by simp [wrapCol, room], rfl, rfl, rfl, fun _ displayed => displayed.congr rfl rfl⟩
    · have atEnd : term.cursorRow + 1 ≥ screenRows := Nat.not_lt.mp below
      simp only [if_pos atEnd, vtermScroll_eq]
      have scrolledColoured : VTerm.Coloured (vtermMoveCursor 24 0 { term with
          cursorCol := 0
          cursorRow := term.cursorRow + 1
          screenBuffer := scrolled { term with
            cursorCol := 0, cursorRow := term.cursorRow + 1 } }) := by
        intro row col inside
        rw [vtermMoveCursor_screenBuffer]
        exact scrolled_coloured coloured inside
      obtain ⟨after, flush, same, displayed⟩ := flushStream_spec scrolledColoured
      refine ⟨after, flush, ?_, ?_, ?_, ?_, ?_, ?_, ?_⟩
      · rw [same.screen, vtermMoveCursor_screenBuffer]
        simp only [wrapScreen, room, below, or_self, ↓reduceIte]
        rfl
      · rw [same.row]
        simp [wrapRow, room, below]
      · rw [same.col]
        simp [wrapCol, room]
      · simpa using same.fg
      · simpa using same.bg
      · simpa using same.mode
      · exact fun stream _ => displayed (by simpa using stream)

theorem wrap_onScreen (bounded : term.Bounded) : OnScreen (wrapRow term) (wrapCol term) := by
  have row := bounded.row
  unfold OnScreen wrapRow wrapCol
  grind

/-- What storing a character at the cursor does. -/
structure Stored (change : VTermCell → VTermCell) (character : UInt8) (before after : VTerm) :
    Prop where
  screen : after.screenBuffer = fun row col =>
    if row = before.cursorRow ∧ col = before.cursorCol then change (before.screenBuffer row col)
    else before.screenBuffer row col
  row : after.cursorRow = before.cursorRow
  col : after.cursorCol = before.cursorCol
  fg : after.currentFg = before.currentFg
  bg : after.currentBg = before.currentBg
  mode : after.currentMode = before.currentMode
  framebuffer : before.currentMode = .stream →
    after.framebuffer = Function.update before.framebuffer
      (before.cursorCol + before.cursorRow * 80) (before.inked character).rendering

theorem storeChar_spec (change : VTermCell → VTermCell) (character : UInt8)
    (inside : OnScreen term.cursorRow term.cursorCol) :
    ∃ after, storeChar change character term = some after ∧ Stored change character term after := by
  rw [storeChar, VTerm.updateCell_eq inside, Option.bind_eq_bind, Option.bind_some]
  by_cases stream : term.currentMode = .stream
  · rw [if_pos stream]
    exact ⟨_, VTerm.showCell_eq inside term.currentFg.value_lt term.currentBg.value_lt,
      rfl, rfl, rfl, rfl, rfl, rfl, fun _ => rfl⟩
  · rw [if_neg stream]
    exact ⟨_, rfl, rfl, rfl, rfl, rfl, rfl, rfl, fun is => absurd is stream⟩

/-- A character in the current colours is shown as it is stored. -/
theorem Stored.displayed {before : VTerm}
    (spec : Stored (fun _ => before.inked character) character before after)
    (inside : OnScreen before.cursorRow before.cursorCol) (stream : before.currentMode = .stream)
    (shown : before.Displayed) : after.Displayed :=
  shown.update (before.inked character) inside spec.screen (spec.framebuffer stream)

theorem vtermWriteChar_other {c : UInt8} (bounded : term.Bounded) (notNewline : c ≠ 10)
    (notBackspace : c ≠ 8) : ∃ after, vtermWriteChar c term = some after ∧ Wrote c term after := by
  obtain ⟨wrapped, wrap, wrappedSpec⟩ := wrapCursor_spec bounded
  have inside := wrap_onScreen bounded
  rw [← wrappedSpec.row, ← wrappedSpec.col] at inside
  obtain ⟨stored, store, storedSpec⟩ := storeChar_spec (fun _ => wrapped.inked c) c inside
  have next : u16 (stored.cursorCol + 1) = stored.cursorCol + 1 := by
    rw [storedSpec.col]
    exact u16_of_lt (by have := inside.2; omega)
  have room : stored.cursorCol + 1 ≤ 80 := by
    rw [storedSpec.col]
    exact inside.2
  rw [vtermWriteChar, if_neg notNewline, if_neg notBackspace, wrap, Option.bind_eq_bind,
    Option.bind_some]
  refine ⟨_, by rw [← VTerm.inked, store]; rfl, ?_, ?_, ?_, ?_, ?_, ?_, ?_⟩
  · rw [vtermMoveCursor_screenBuffer, storedSpec.screen, wrappedSpec.screen, wrappedSpec.row,
      wrappedSpec.col, VTerm.inked, wrappedSpec.fg, wrappedSpec.bg]
    rfl
  · simp [storedSpec.row, wrappedSpec.row]
  · simp only [vtermMoveCursor_cursorCol, next, if_pos room]
    rw [storedSpec.col, wrappedSpec.col]
  · simp [storedSpec.fg, wrappedSpec.fg]
  · simp [storedSpec.bg, wrappedSpec.bg]
  · simp [storedSpec.mode, wrappedSpec.mode]
  · intro stream shown
    exact (storedSpec.displayed inside (wrappedSpec.mode.trans stream)
      (wrappedSpec.displayed stream shown)).congr (by simp) (by simp)

/-- What erasing the cell before the cursor does. -/
structure Erased (targetRow targetCol : Nat) (before after : VTerm) : Prop where
  screen : after.screenBuffer = fun r c =>
    if r = targetRow ∧ c = targetCol then { before.screenBuffer r c with character := 32 }
    else before.screenBuffer r c
  row : after.cursorRow = targetRow
  col : after.cursorCol = targetCol
  fg : after.currentFg = before.currentFg
  bg : after.currentBg = before.currentBg
  mode : after.currentMode = before.currentMode
  framebuffer : before.currentMode = .stream →
    after.framebuffer = Function.update before.framebuffer (targetCol + targetRow * 80)
      (before.inked 32).rendering

theorem backspaceTarget_onScreen (bounded : term.Bounded)
    (target : backspaceTarget term = some (row, col)) : OnScreen row col := by
  obtain ⟨rowInside, colInside, _⟩ := bounded
  unfold backspaceTarget screenCols at target
  unfold OnScreen
  grind

theorem vtermWriteChar_erases (target : backspaceTarget term = some (row, col))
    (inside : OnScreen row col) :
    ∃ after, vtermWriteChar 8 term = some after ∧ Erased row col term after := by
  have rowEq : (vtermMoveCursor row col term).cursorRow = row := by
    rw [vtermMoveCursor_cursorRow, if_pos inside.1]
  have colEq : (vtermMoveCursor row col term).cursorCol = col := by
    rw [vtermMoveCursor_cursorCol, if_pos (Nat.le_of_lt inside.2)]
  have moved : OnScreen (vtermMoveCursor row col term).cursorRow
      (vtermMoveCursor row col term).cursorCol := by rwa [rowEq, colEq]
  obtain ⟨after, store, spec⟩ :=
    storeChar_spec (fun cell => { cell with character := 32 }) 32 moved
  have notNewline : ¬ (8 : UInt8) = 10 := by decide
  refine ⟨after, ?_, ?_, ?_, ?_, ?_, ?_, ?_, ?_⟩
  · simp only [vtermWriteChar, if_neg notNewline, ↓reduceIte, target]
    exact store
  · rw [spec.screen, rowEq, colEq, vtermMoveCursor_screenBuffer]
  · rw [spec.row, rowEq]
  · rw [spec.col, colEq]
  · rw [spec.fg, vtermMoveCursor_currentFg]
  · rw [spec.bg, vtermMoveCursor_currentBg]
  · rw [spec.mode, vtermMoveCursor_currentMode]
  · intro stream
    rw [spec.framebuffer (by rw [vtermMoveCursor_currentMode, stream]), rowEq, colEq,
      vtermMoveCursor_framebuffer]
    simp only [VTerm.inked, vtermMoveCursor_currentFg, vtermMoveCursor_currentBg]

theorem vtermWriteChar_backspace (bounded : term.Bounded)
    (target : backspaceTarget term = some (row, col)) :
    ∃ after, vtermWriteChar 8 term = some after ∧ Erased row col term after :=
  vtermWriteChar_erases target (backspaceTarget_onScreen bounded target)

/-- The four things that writing a character can do. -/
inductive CharStep : UInt8 → VTerm → VTerm → Prop where
  | newline {before : VTerm} : CharStep 10 before (vtermMoveCursor (before.cursorRow + 1) 0 before)
  | corner {before : VTerm} : backspaceTarget before = none → CharStep 8 before before
  | erased {before after : VTerm} {row col : Nat} :
      backspaceTarget before = some (row, col) → Erased row col before after →
      CharStep 8 before after
  | wrote {c : UInt8} {before after : VTerm} :
      c ≠ 10 → c ≠ 8 → Wrote c before after → CharStep c before after

theorem vtermWriteChar_spec (c : UInt8) (bounded : term.Bounded) :
    ∃ after, vtermWriteChar c term = some after ∧ CharStep c term after := by
  by_cases isNewline : c = 10
  · subst isNewline
    exact ⟨_, vtermWriteChar_newline bounded.row, .newline⟩
  · by_cases isBackspace : c = 8
    · subst isBackspace
      cases target : backspaceTarget term with
      | none =>
          refine ⟨term, ?_, .corner target⟩
          simp [vtermWriteChar, target]
      | some position =>
          obtain ⟨after, wrote, erased⟩ := vtermWriteChar_backspace bounded target
          exact ⟨after, wrote, .erased target erased⟩
    · obtain ⟨after, wrote, spec⟩ := vtermWriteChar_other bounded isNewline isBackspace
      exact ⟨after, wrote, .wrote isNewline isBackspace spec⟩

namespace CharStep

variable {c : UInt8} {before : VTerm}

theorem mode (step : CharStep c before after) : after.currentMode = before.currentMode := by
  cases step with
  | newline => simp
  | corner => rfl
  | erased _ spec => exact spec.mode
  | wrote _ _ spec => exact spec.mode

theorem bounded (bounded : before.Bounded) (step : CharStep c before after) : after.Bounded := by
  cases step with
  | newline =>
      refine ⟨?_, ?_, fun row col inside => ?_⟩
      · rw [vtermMoveCursor_cursorRow]
        have row := bounded.row
        split <;> assumption
      · simp
      · rw [vtermMoveCursor_screenBuffer]
        exact bounded.coloured row col inside
  | corner => exact bounded
  | erased target spec =>
      have inside := backspaceTarget_onScreen bounded target
      refine ⟨spec.row ▸ inside.1, spec.col ▸ Nat.le_of_lt inside.2, fun row col on => ?_⟩
      rw [spec.screen]
      dsimp only
      split
      case isTrue => exact bounded.coloured row col on
      case isFalse => exact bounded.coloured row col on
  | wrote _ _ spec =>
      have inside := wrap_onScreen bounded
      refine ⟨spec.row ▸ inside.1, spec.col ▸ inside.2, fun row col on => ?_⟩
      rw [spec.screen]
      dsimp only
      split
      case isTrue => exact before.inked_valid c
      case isFalse =>
        unfold wrapScreen
        split
        case isTrue => exact bounded.coloured row col on
        case isFalse => exact scrolled_coloured bounded.coloured on

end CharStep

end KdbOS.Vterm
