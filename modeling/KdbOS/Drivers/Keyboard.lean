import KdbOS.Vterm.Vterm

/-! `keyboard.c`: the decoder of scancodes, in front of the terminal. The values that the
two port reads return are arguments; a map is read out of bounds as `none`. -/

set_option autoImplicit false

namespace KdbOS.Drivers

open Library Arch Vterm

/-- The decoder's flags and the terminal it types on. -/
structure Console where
  shiftPressed : Bool
  capsLockActive : Bool
  isExtended : Bool
  vterm : VTerm

/-- The static initialisers, over whatever the framebuffer holds. -/
def Console.static (framebuffer : Framebuffer) : Console :=
  ⟨false, false, false, VTerm.static framebuffer⟩

def kbdUsMap : List UInt8 :=
  [0, 27, 49, 50, 51, 52, 53, 54, 55, 56, 57, 48, 45, 61, 8,
    9, 113, 119, 101, 114, 116, 121, 117, 105, 111, 112, 91, 93, 10,
    0, 97, 115, 100, 102, 103, 104, 106, 107, 108, 59, 39, 96, 0,
    92, 122, 120, 99, 118, 98, 110, 109, 44, 46, 47, 0, 42, 0, 32] ++ List.replicate 70 0

def kbdUsShiftedMap : List UInt8 :=
  [0, 27, 33, 64, 35, 36, 37, 94, 38, 42, 40, 41, 95, 43, 8,
    9, 81, 87, 69, 82, 84, 89, 85, 73, 79, 80, 123, 125, 10,
    0, 65, 83, 68, 70, 71, 72, 74, 75, 76, 58, 34, 126, 0,
    124, 90, 88, 67, 86, 66, 78, 77, 60, 62, 63, 0, 42, 0, 32] ++ List.replicate 70 0

namespace Console

def setShift (pressed : Bool) (console : Console) : Console :=
  { console with shiftPressed := pressed }

def setExtended (extended : Bool) (console : Console) : Console :=
  { console with isExtended := extended }

def setVterm (vterm : VTerm) (console : Console) : Console := { console with vterm := vterm }

end Console

/-- The arrow keys of an extended make code. -/
def arrowKey (scancode : UInt8) (term : VTerm) : VTerm :=
  if scancode = 0x48 then vtermMoveCursor (u16Sub term.cursorRow 1) term.cursorCol term
  else if scancode = 0x50 then vtermMoveCursor (u16 (term.cursorRow + 1)) term.cursorCol term
  else if scancode = 0x4B then vtermMoveCursor term.cursorRow (u16Sub term.cursorCol 1) term
  else if scancode = 0x4D then vtermMoveCursor term.cursorRow (u16 (term.cursorCol + 1)) term
  else term

/-- Caps lock inverts shift for the keys that type a letter. -/
def useUppercase (baseChar : UInt8) (console : Console) : Bool :=
  if baseChar ≥ 97 ∧ baseChar ≤ 122 ∧ console.capsLockActive then !console.shiftPressed
  else console.shiftPressed

/-- An ordinary make code: the character it stands for is typed. -/
def typeKey (scancode : UInt8) (console : Console) : Option Console :=
  if scancode ≥ 128 then some console
  else do
    let baseChar ← kbdUsMap[scancode.toNat]?
    let map := if useUppercase baseChar console then kbdUsShiftedMap else kbdUsMap
    let ascii ← map[scancode.toNat]?
    if ascii ≠ 0 then do
      let vterm ← vtermWriteChar ascii console.vterm
      some (console.setVterm vterm)
    else some console

/-- The decoding of a scancode, after the end of interrupt has been sent. -/
def decodeScancode (scancode : UInt8) (console : Console) : Option Console :=
  if scancode = 0xE0 then some (console.setExtended true)
  else if console.isExtended then
    let console := console.setExtended false
    if scancode &&& 0x80 ≠ 0 then some console
    else some (console.setVterm (arrowKey scancode console.vterm))
  else if scancode &&& 0x80 ≠ 0 then
    let releasedScancode := scancode &&& 0x7F
    if releasedScancode = 0x2A ∨ releasedScancode = 0x36 then some (console.setShift false)
    else some console
  else if scancode = 0x2A ∨ scancode = 0x36 then some (console.setShift true)
  else if scancode = 0x3A then some { console with capsLockActive := !console.capsLockActive }
  else typeKey scancode console

/-- `status` and `scancode` are what the reads of the two ports return. -/
def keyboardHandler (status scancode : UInt8) (console : Console) : Option Console :=
  if status &&& 0x01 ≠ 0 then
    decodeScancode scancode (console.setVterm (console.vterm.write (picSendEoi 1)))
  else some console

/-- What runs on the console: terminal calls and keyboard interrupts. -/
inductive ConsoleOp where
  | vterm (op : VTermOp)
  | keyboardHandler (status scancode : UInt8)

def ConsoleOp.perform (console : Console) : ConsoleOp → Option Console
  | vterm op => do
      let vterm ← op.perform console.vterm
      some (console.setVterm vterm)
  | keyboardHandler status scancode => Drivers.keyboardHandler status scancode console

end KdbOS.Drivers
