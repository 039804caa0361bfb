import KdbOS.Arch.Io
import KdbOS.Library.Loops
import KdbOS.Library.Word

/-! `vterm.c`: the terminal, with its shadow buffer, the framebuffer and the cursor. An
operation is `none` where it would index an array out of its bounds. A string is the
list of its characters; reading stops at a NUL or at the end of the list. -/

set_option autoImplicit false

namespace KdbOS.Vterm

open Library Arch

inductive VTermColor where
  | black | blue | green | cyan | red | magenta | brown | lightgrey
  | darkgrey | lightblue | lightgreen | lightcyan | lightred | lightmagenta | lightbrown | white
  deriving DecidableEq, Repr

/-- The enumerator's value, as it is stored in a cell. -/
def VTermColor.value (color : VTermColor) : UInt8 := UInt8.ofNat color.ctorIdx

inductive VTermAlignment where
  | left
  | center
  | right
  deriving DecidableEq, Repr

structure VTermCell where
  character : UInt8
  fg : UInt8
  bg : UInt8
  deriving DecidableEq, Repr

inductive CursorShape where
  | line
  | block
  deriving DecidableEq, Repr

structure VTermCursor where
  shape : CursorShape
  visible : Bool
  deriving DecidableEq, Repr

inductive VTermBufferingMode where
  | stream
  | block
  deriving DecidableEq, Repr

structure VTerm where
  screenBuffer : Nat → Nat → VTermCell
  cursorRow : Nat
  cursorCol : Nat
  currentFg : VTermColor
  currentBg : VTermColor
  activeCursorStyle : VTermCursor
  currentMode : VTermBufferingMode
  framebuffer : Framebuffer
  outb : PortWrites

/-- The static initialisers, over whatever the framebuffer holds. -/
def VTerm.static (framebuffer : Framebuffer) : VTerm :=
  { screenBuffer := fun _ _ => ⟨0, 0, 0⟩
    cursorRow := 0
    cursorCol := 0
    currentFg := .white
    currentBg := .black
    activeCursorStyle := ⟨.block, true⟩
    currentMode := .stream
    framebuffer := framebuffer
    outb := [] }

/-- `VGA_COLOR_BLACK` to `VGA_COLOR_WHITE`. -/
def vgaColorLookup : List UInt8 := [0, 1, 2, 3, 4, 5, 6, 7, 8, 9, 10, 11, 12, 13, 14, 15]

namespace VTerm

/-- `screen_buffer[row][col]`. -/
def cell (row col : Nat) (term : VTerm) : Option VTermCell :=
  if row < screenRows ∧ col < screenCols then some (term.screenBuffer row col) else none

/-- Assignments to fields of `screen_buffer[row][col]`. -/
def updateCell (row col : Nat) (change : VTermCell → VTermCell) (term : VTerm) : Option VTerm :=
  if row < screenRows ∧ col < screenCols then
    some { term with
      screenBuffer := fun r c =>
        if r = row ∧ c = col then change (term.screenBuffer r c) else term.screenBuffer r c }
  else none

def write (term : VTerm) (writes : PortWrites) : VTerm := { term with outb := term.outb ++ writes }

/-- `write_char_to_framebuffer(character, row, col, vga_color_lookup[fg], vga_color_lookup[bg])`. -/
def showCell (character : UInt8) (row col : Nat) (fg bg : UInt8) (term : VTerm) : Option VTerm := do
  let fgColor ← vgaColorLookup[fg.toNat]?
  let bgColor ← vgaColorLookup[bg.toNat]?
  let framebuffer ← writeCharToFramebuffer character row col fgColor bgColor term.framebuffer
  some { term with framebuffer := framebuffer }

end VTerm

def vtermMoveCursor (row col : Nat) (term : VTerm) : VTerm :=
  let term := if row < screenRows then { term with cursorRow := row } else term
  let term := if col ≤ screenCols then { term with cursorCol := col } else term
  let hwCol := if term.cursorCol ≥ screenCols then screenCols - 1 else term.cursorCol
  let hwRow := if term.cursorRow ≥ screenRows then screenRows - 1 else term.cursorRow
  if term.activeCursorStyle.visible then
    let position := u16 (hwRow * screenCols + hwCol)
    term.write
      [(crtcCmdPort, cursorPosHighByteCmd), (crtcDataPort, position / 256 % 256),
        (crtcCmdPort, cursorPosLowByteCmd), (crtcDataPort, position % 256)]
  else term

/-- `currentVal` is what `inb(CRTC_DATA_PORT)` returns. -/
def vtermSetCursorVisible (visible : Bool) (currentVal : UInt8) (term : VTerm) : VTerm :=
  let term := { term with activeCursorStyle := { term.activeCursorStyle with visible := visible } }
  let term := term.write [(crtcCmdPort, cursorStyleStartCmd)]
  if !visible then term.write [(crtcDataPort, (currentVal ||| 0x20).toNat)]
  else
    let term := term.write [(crtcDataPort, (currentVal &&& ~~~0x20).toNat)]
    vtermMoveCursor term.cursorRow term.cursorCol term

/-- `startVal` and `endVal` are what the two `inb(CRTC_DATA_PORT)` return. -/
def vtermSetCursorShape (shape : CursorShape) (startVal endVal : UInt8) (term : VTerm) : VTerm :=
  let term := { term with activeCursorStyle := { term.activeCursorStyle with shape := shape } }
  if !term.activeCursorStyle.visible then term
  else
    let startScanline : UInt8 := if shape = .block then 0 else 14
    let endScanline : UInt8 := 15
    term.write
      [(crtcCmdPort, cursorStyleStartCmd),
        (crtcDataPort, ((startVal &&& 0xC0) ||| (startScanline &&& 0x1F)).toNat),
        (crtcCmdPort, cursorStyleEndCmd),
        (crtcDataPort, ((endVal &&& 0xE0) ||| (endScanline &&& 0x1F)).toNat)]

def vtermSetBufferingMode (mode : VTermBufferingMode) (term : VTerm) : VTerm :=
  { term with currentMode := mode }

def vtermFlush (term : VTerm) : Option VTerm := do
  let term ← forLoop 0 screenRows (fun term r =>
    forLoop 0 screenCols (fun term c => do
      let cell ← term.cell r c
      term.showCell cell.character r c cell.fg cell.bg) term) term
  some (vtermMoveCursor term.cursorRow term.cursorCol term)

/-- `if (current_mode == BUFFER_MODE_STREAM) vterm_flush();` -/
def flushStream (term : VTerm) : Option VTerm :=
  if term.currentMode = .stream then vtermFlush term else some term

def vtermClear (fg bg : VTermColor) (term : VTerm) : Option VTerm := do
  let term := { term with currentFg := fg, currentBg := bg }
  let term ← forLoop 0 screenRows (fun term r =>
    forLoop 0 screenCols (fun term c =>
      term.updateCell r c fun _ => ⟨32, fg.value, bg.value⟩) term) term
  flushStream (vtermMoveCursor 0 0 term)

def vtermInit (fg bg : VTermColor) (term : VTerm) : Option VTerm := do
  let term ← vtermClear fg bg { term with currentMode := .stream }
  vtermFlush term

def vtermScroll (term : VTerm) : Option VTerm := do
  let term ← forLoop 1 (screenRows - 1) (fun term r =>
    forLoop 0 screenCols (fun term c => do
      let cell ← term.cell r c
      term.updateCell (r - 1) c fun _ => cell) term) term
  let term ← forLoop 0 screenCols (fun term c =>
    term.updateCell (screenRows - 1) c fun _ =>
      ⟨32, term.currentFg.value, term.currentBg.value⟩) term
  flushStream (vtermMoveCursor (screenRows - 1) 0 term)

/-- The cell that `'\b'` erases, or `none` in the upper left corner. -/
def backspaceTarget (term : VTerm) : Option (Nat × Nat) :=
  if term.cursorCol > 0 then some (term.cursorRow, term.cursorCol - 1)
  else if term.cursorRow > 0 then some (term.cursorRow - 1, screenCols - 1)
  else none

/-- A full row is left before a character is stored, and the screen scrolls at its end. -/
def wrapCursor (term : VTerm) : Option VTerm :=
  let term :=
    if term.cursorCol ≥ screenCols then
      { term with cursorCol := 0, cursorRow := u16 (term.cursorRow + 1) }
    else term
  if term.cursorRow ≥ screenRows then vtermScroll term else some term

/-- The cell at the cursor is assigned to, and shown as `character` in the current colours. -/
def storeChar (change : VTermCell → VTermCell) (character : UInt8) (term : VTerm) :
    Option VTerm := do
  let term ← term.updateCell term.cursorRow term.cursorCol change
  if term.currentMode = .stream then
    term.showCell character term.cursorRow term.cursorCol term.currentFg.value term.currentBg.value
  else some term

def vtermWriteChar (c : UInt8) (term : VTerm) : Option VTerm :=
  if c = 10 then
    let term := vtermMoveCursor (u16 (term.cursorRow + 1)) 0 term
    if term.cursorRow ≥ screenRows then vtermScroll term else some term
  else if c = 8 then
    match backspaceTarget term with
    | none => some term
    | some (targetRow, targetCol) =>
        -- The colours of the cell stay as they were.
        storeChar (fun cell => { cell with character := 32 }) 32
          (vtermMoveCursor targetRow targetCol term)
  else do
    let term ← wrapCursor term
    let term ← storeChar (fun _ => ⟨c, term.currentFg.value, term.currentBg.value⟩) c term
    let term := { term with cursorCol := u16 (term.cursorCol + 1) }
    some (vtermMoveCursor term.cursorRow term.cursorCol term)

def vtermWrite : List UInt8 → VTerm → Option VTerm
  | [], term => some term
  | c :: rest, term =>
      if c = 0 then some term
      else do
        let term ← vtermWriteChar c term
        vtermWrite rest term

def vtermWriteBinary (byte : UInt8) (term : VTerm) : Option VTerm :=
  forLoop 0 8 (fun term bit =>
    vtermWriteChar (if byte.toNat.testBit (7 - bit) then 49 else 48) term) term

def vtermSetColor (fg bg : VTermColor) (term : VTerm) : VTerm :=
  { term with currentFg := fg, currentBg := bg }

/-- `"0123456789ABCDEF"`, with its NUL. -/
def hexChars : List UInt8 :=
  [48, 49, 50, 51, 52, 53, 54, 55, 56, 57, 65, 66, 67, 68, 69, 70, 0]

def vtermWriteHex (val : UInt32) (fg bg : VTermColor) (term : VTerm) : Option VTerm := do
  let oldFg := term.currentFg
  let oldBg := term.currentBg
  let term := vtermSetColor fg bg term
  let term ← vtermWriteChar 48 term
  let term ← vtermWriteChar 120 term
  let term ← forLoop 0 8 (fun term i => do
    let nibble := (val.toNat >>> (28 - i * 4)) % 16
    let digit ← hexChars[nibble]?
    vtermWriteChar digit term) term
  some (vtermSetColor oldFg oldBg term)

def vtermPrintAt (row col : Nat) (text : List UInt8) (term : VTerm) : Option VTerm := do
  let term ← vtermWrite text (vtermMoveCursor row col term)
  flushStream term

/-- `kstrlen(text)` as a `uint32_t`. -/
def textLength (text : List UInt8) : Nat := u32 (text.takeWhile (· ≠ 0)).length

def alignedCol (len : Nat) : VTermAlignment → Nat
  | .left => 0
  | .center => if len < screenCols then (screenCols - len) / 2 else 0
  | .right => if len < screenCols then screenCols - len else 0

def vtermPrintAligned (row : Nat) (text : List UInt8) (align : VTermAlignment) (term : VTerm) :
    Option VTerm :=
  vtermPrintAt row (alignedCol (textLength text) align) text term

def vtermWriteLabelHex (label : List UInt8) (value : UInt32) (term : VTerm) : Option VTerm := do
  let term ← vtermWrite label term
  let term ← vtermWriteHex value .white .black term
  vtermWrite [10] term

/-- The calls on the terminal, with the values that port reads return. -/
inductive VTermOp where
  | setCursorVisible (visible : Bool) (currentVal : UInt8)
  | setCursorShape (shape : CursorShape) (startVal endVal : UInt8)
  | moveCursor (row col : Nat)
  | setBufferingMode (mode : VTermBufferingMode)
  | init (fg bg : VTermColor)
  | clear (fg bg : VTermColor)
  | writeChar (c : UInt8)
  | write (str : List UInt8)
  | writeBinary (byte : UInt8)
  | writeHex (val : UInt32) (fg bg : VTermColor)
  | printAt (row col : Nat) (text : List UInt8)
  | printAligned (row : Nat) (text : List UInt8) (align : VTermAlignment)
  | setColor (fg bg : VTermColor)
  | flush
  | writeLabelHex (label : List UInt8) (value : UInt32)

def VTermOp.perform (term : VTerm) : VTermOp → Option VTerm
  | setCursorVisible visible currentVal => some (vtermSetCursorVisible visible currentVal term)
  | setCursorShape shape startVal endVal => some (vtermSetCursorShape shape startVal endVal term)
  | moveCursor row col => some (vtermMoveCursor row col term)
  | setBufferingMode mode => some (vtermSetBufferingMode mode term)
  | init fg bg => vtermInit fg bg term
  | clear fg bg => vtermClear fg bg term
  | writeChar c => vtermWriteChar c term
  | write str => vtermWrite str term
  | writeBinary byte => vtermWriteBinary byte term
  | writeHex val fg bg => vtermWriteHex val fg bg term
  | printAt row col text => vtermPrintAt row col text term
  | printAligned row text align => vtermPrintAligned row text align term
  | setColor fg bg => some (vtermSetColor fg bg term)
  | flush => vtermFlush term
  | writeLabelHex label value => vtermWriteLabelHex label value term

end KdbOS.Vterm
