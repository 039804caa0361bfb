import Mathlib.Logic.Function.Basic

/-! `io.c` and the port constants of `io.h` and `pic.h`. The framebuffer is an array of
`SCREEN_ROWS * SCREEN_COLS` words; a write past its end is `none`. -/

set_option autoImplicit false

namespace KdbOS.Arch

def screenCols : Nat := 80

def screenRows : Nat := 25

abbrev Framebuffer := Nat → UInt16

/-- The word that shows a character in two colours. -/
def framebufferWord (character fgColor bgColor : UInt8) : UInt16 :=
  let characterFramebuffer := 0x00FF &&& character.toUInt16
  let bgColorFramebuffer := (0x000F &&& bgColor.toUInt16) <<< 12
  let fgColorFramebuffer := (0x000F &&& fgColor.toUInt16) <<< 8
  characterFramebuffer ||| fgColorFramebuffer ||| bgColorFramebuffer

def writeCharToFramebuffer (character : UInt8) (row col : Nat) (fgColor bgColor : UInt8)
    (framebuffer : Framebuffer) : Option Framebuffer :=
  if col + row * screenCols < screenRows * screenCols then
    some (Function.update framebuffer (col + row * screenCols)
      (framebufferWord character fgColor bgColor))
  else none

/-- Port writes in program order, as pairs of port and value. -/
abbrev PortWrites := List (Nat × Nat)

def crtcCmdPort : Nat := 0x3D4

def crtcDataPort : Nat := 0x3D5

def cursorStyleStartCmd : Nat := 0x0A

def cursorStyleEndCmd : Nat := 0x0B

def cursorPosHighByteCmd : Nat := 0x0E

def cursorPosLowByteCmd : Nat := 0x0F

/-- The writes of `pic_send_eoi(irq_line)`. -/
def picSendEoi (irqLine : Nat) : PortWrites :=
  (if irqLine ≥ 8 then [(0xA0, 0x20)] else []) ++ [(0x20, 0x20)]

end KdbOS.Arch
