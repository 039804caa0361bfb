import KdbOS.Library.Numerals
import KdbOS.Vterm.VtermDisplay
import KdbOS.Vterm.VtermLinear

/-! The numbers that `vterm_write_hex` and `vterm_write_binary` print can be read off the
screen again. -/

set_option autoImplicit false

namespace KdbOS.Vterm

open Library Arch

variable {term after : VTerm} {fg bg : VTermColor} {str : List UInt8}

/-! ## Numerals -/

def hexSymbol (digit : Nat) : UInt8 := hexChars.getD digit 0

def binarySymbol (digit : Nat) : UInt8 := if digit = 1 then 49 else 48

/-- The value of a digit `'0'` to `'9'` or `'A'` to `'F'`, below the base. -/
def digitValue (base : Nat) (character : UInt8) : Option Nat :=
  (hexChars.take base).idxOf? character

def hexText (value : Nat) : List UInt8 := 48 :: 120 :: numeral hexSymbol 16 8 value

def binaryText (value : Nat) : List UInt8 := numeral binarySymbol 2 8 value

/-- The number behind `"0x"`. -/
def readHex (text : List UInt8) : Option Nat :=
  if text.take 2 = [48, 120] then readNumeral (digitValue 16) 16 (text.drop 2) else none

def readBinary (text : List UInt8) : Option Nat := readNumeral (digitValue 2) 2 text

theorem readHex_hexText {value : Nat} (fits : value < 4294967296) :
    readHex (hexText value) = some value := by
  have reads : ∀ d < 16, digitValue 16 (hexSymbol d) = some d := by decide
  have marked : (hexText value).take 2 = [48, 120] := rfl
  rw [readHex, if_pos marked]
  exact readNumeral_of_lt (by decide) reads fits

theorem readBinary_binaryText {value : Nat} (fits : value < 256) :
    readBinary (binaryText value) = some value := by
  have reads : ∀ d < 2, digitValue 2 (binarySymbol d) = some d := by decide
  exact readNumeral_of_lt (by decide) reads fits

theorem hexText_length (value : Nat) : (hexText value).length = 10 := by simp [hexText]

theorem hexText_printable (value : Nat) : ∀ c ∈ hexText value, Printable c := by
  have digits : ∀ d < 16, Printable (hexSymbol d) := by
    unfold Printable
    decide
  intro c member
  rcases List.mem_cons.mp member with rfl | member
  · exact ⟨by decide, by decide, by decide⟩
  rcases List.mem_cons.mp member with rfl | member
  · exact ⟨by decide, by decide, by decide⟩
  · obtain ⟨d, less, rfl⟩ := mem_numeral (by decide) member
    exact digits d less

theorem binaryText_printable (value : Nat) : ∀ c ∈ binaryText value, Printable c := by
  have digits : ∀ d < 2, Printable (binarySymbol d) := by
    unfold Printable
    decide
  intro c member
  obtain ⟨d, less, rfl⟩ := mem_numeral (by decide) member
  exact digits d less

/-! ## The loops -/

/-- A loop that writes digit after digit writes the numeral. -/
theorem forLoop_numeral {symbol : Nat → UInt8} {base width value : Nat}
    {body : VTerm → Nat → Option VTerm}
    (digit : ∀ current i, body current i =
      vtermWriteChar (symbol (value / base ^ (width - 1 - i) % base)) current) :
    forLoop 0 width body term = writeChars (numeral symbol base width value) term := by
  have bodies : body = fun current i =>
      vtermWriteChar (symbol (value / base ^ (width - 1 - i) % base)) current :=
    funext fun current => funext fun i => digit current i
  rw [forLoop, writeChars, numeral_eq_map, List.foldlM_map, bodies]

theorem vtermWriteBinary_eq (byte : UInt8) :
    vtermWriteBinary byte term = writeChars (binaryText byte.toNat) term := by
  refine forLoop_numeral fun current i => ?_
  rw [Nat.testBit_eq_decide_div_mod_eq]
  simp [binarySymbol]

theorem vtermWriteHex_eq (val : UInt32) :
    vtermWriteHex val fg bg term =
      (writeChars (hexText val.toNat) (vtermSetColor fg bg term)).map
        (vtermSetColor term.currentFg term.currentBg) := by
  have digits : ∀ current : VTerm,
      forLoop 0 8 (fun current i => do
        let nibble := (val.toNat >>> (28 - i * 4)) % 16
        let digit ← hexChars[nibble]?
        vtermWriteChar digit current) current =
      writeChars (numeral hexSymbol 16 8 val.toNat) current := by
    intro current
    refine forLoop_numeral fun current i => ?_
    have weight : 16 ^ (8 - 1 - i) = 2 ^ (28 - i * 4) := by
      have exponent : 28 - i * 4 = 4 * (8 - 1 - i) := by omega
      rw [exponent, Nat.pow_mul]
    have nibble : (val.toNat >>> (28 - i * 4)) % 16 < hexChars.length :=
      Nat.lt_trans (Nat.mod_lt _ (by decide)) (by decide)
    rw [weight, ← Nat.shiftRight_eq_div_pow, hexSymbol, List.getD_eq_getElem?_getD]
    simp only [List.getElem?_eq_getElem nibble, Option.bind_eq_bind, Option.bind_some,
      Option.getD_some]
  unfold vtermWriteHex
  simp only [Option.bind_eq_bind, hexText, writeChars_cons, Option.map_bind]
  refine Option.bind_congr fun first _ => ?_
  rw [Function.comp_apply, Option.map_bind]
  refine Option.bind_congr fun second _ => ?_
  rw [Function.comp_apply, ← digits second]
  exact Option.map_eq_bind.symm

/-! ## Reading the screen -/

/-- The characters of `count` cells from `start` on. -/
def VTerm.textAt (term : VTerm) (start count : Nat) : List UInt8 :=
  (List.range count).map fun i => (term.cellAt (start + i)).character

/-- The `width` cells from the cursor on show a text that reads as the number, in the given
colours, and the cursor is behind them. Nothing else changes on the screen, and what
was on the display is still there. -/
structure NumberShown (read : List UInt8 → Option Nat) (value width : Nat) (fg bg : VTermColor)
    (before after : VTerm) : Prop where
  reads : read (after.textAt before.linear width) = some value
  colours : ∀ i < width, (after.cellAt (before.linear + i)).fg = fg.value ∧
    (after.cellAt (before.linear + i)).bg = bg.value
  others : ∀ index, index < before.linear ∨ before.linear + width ≤ index →
    after.cellAt index = before.cellAt index
  linear : after.linear = before.linear + width
  currentFg : after.currentFg = before.currentFg
  currentBg : after.currentBg = before.currentBg
  streaming : before.Streaming → after.Streaming

theorem Printed.textAt {start : Nat} (printed : Printed start str term after) :
    after.textAt start str.length = str := by
  refine List.ext_getElem (by simp [VTerm.textAt]) fun i _ inside => ?_
  simp only [VTerm.textAt, List.getElem_map, List.getElem_range, printed.cells i inside,
    VTerm.inked]

theorem Printed.colours {start : Nat} (printed : Printed start str term after) :
    ∀ i < str.length, (after.cellAt (start + i)).fg = term.currentFg.value ∧
      (after.cellAt (start + i)).bg = term.currentBg.value := by
  intro i inside
  rw [printed.cells i inside]
  exact ⟨rfl, rfl⟩

/-- Numbers that fit on the rest of the screen are printed so that they read back as the
numbers that they are. -/
theorem numbers_readBack (grid : term.OnGrid) :
    (∀ val fg bg, term.linear + 10 ≤ 2000 → ∃ after, vtermWriteHex val fg bg term = some after ∧
      after.OnGrid ∧ NumberShown readHex val.toNat 10 fg bg term after) ∧
    ∀ byte, term.linear + 8 ≤ 2000 → ∃ after, vtermWriteBinary byte term = some after ∧
      after.OnGrid ∧
      NumberShown readBinary byte.toNat 8 term.currentFg term.currentBg term after := by
  constructor
  · intro val fg bg room
    have colouredGrid : (vtermSetColor fg bg term).OnGrid := ⟨grid.row, grid.col⟩
    obtain ⟨written, wrote, writtenGrid, printed, _⟩ := writeChars_printed colouredGrid
      (hexText_printable val.toNat) (by rwa [hexText_length])
    have call : vtermWriteHex val fg bg term =
        some (vtermSetColor term.currentFg term.currentBg written) := by
      rw [vtermWriteHex_eq, wrote, Option.map_some]
    have text := printed.textAt
    have colours := printed.colours
    have others := printed.others
    have linear := printed.linear
    rw [hexText_length] at text colours others linear
    refine ⟨_, call, ⟨writtenGrid.row, writtenGrid.col⟩, ?_, colours, others, linear, rfl, rfl, ?_⟩
    · exact (congrArg readHex text).trans (readHex_hexText val.toNat_lt)
    · intro streaming
      obtain ⟨after, again, shown⟩ := streaming.writeHex val fg bg
      obtain rfl := Option.some.inj (again.symm.trans call)
      exact shown
  · intro byte room
    have length : (binaryText byte.toNat).length = 8 := numeral_length
    obtain ⟨after, wrote, afterGrid, printed, _⟩ := writeChars_printed grid
      (binaryText_printable byte.toNat) (by rwa [length])
    have call : vtermWriteBinary byte term = some after := by
      rw [vtermWriteBinary_eq, wrote]
    have text := printed.textAt
    have colours := printed.colours
    have others := printed.others
    have linear := printed.linear
    rw [length] at text colours others linear
    refine ⟨after, call, afterGrid, ?_, colours, others, linear, printed.fg, printed.bg, ?_⟩
    · exact (congrArg readBinary text).trans (readBinary_binaryText byte.toNat_lt)
    · intro streaming
      obtain ⟨other, again, shown⟩ := streaming.writeBinary byte
      obtain rfl := Option.some.inj (again.symm.trans call)
      exact shown

theorem numbers_readBack_sample :
    ∃ after, vtermWriteHex 0xB8000 .white .black rowEnd = some after ∧ after.OnGrid ∧
      NumberShown readHex 0xB8000 10 .white .black rowEnd after :=
  (@numbers_readBack rowEnd ⟨Nat.zero_lt_succ _, Nat.le_refl _⟩).1 0xB8000 .white .black (by decide)

end KdbOS.Vterm
