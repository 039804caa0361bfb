import KdbOS.Vterm.VtermDisplay

/-! The cursor that the CRT controller shows, as what the terminal's port writes make of the
controller's registers. -/

set_option autoImplicit false

namespace KdbOS.Vterm

open Library Arch

/-! ## The controller -/

/-- An index selects the register that lies behind the data port. -/
structure Crtc where
  index : Nat
  registers : Nat → Nat

namespace Crtc

def write (crtc : Crtc) (write : Nat × Nat) : Crtc :=
  if write.1 = crtcCmdPort then { crtc with index := write.2 }
  else if write.1 = crtcDataPort then
    { crtc with registers := Function.update crtc.registers crtc.index write.2 }
  else crtc

def writes (crtc : Crtc) (writes : PortWrites) : Crtc := writes.foldl write crtc

/-- The cell in which the cursor stands. -/
def location (crtc : Crtc) : Nat :=
  crtc.registers cursorPosHighByteCmd * 256 + crtc.registers cursorPosLowByteCmd

/-- Bit 5 of the cursor's first scan line switches it off. -/
def shown (crtc : Crtc) : Bool := !(crtc.registers cursorStyleStartCmd).testBit 5

theorem writes_append (crtc : Crtc) (first second : PortWrites) :
    crtc.writes (first ++ second) = (crtc.writes first).writes second :=
  List.foldl_append

/-- A register is selected and written. -/
theorem writes_cons (crtc : Crtc) (register value : Nat) (rest : PortWrites) :
    crtc.writes ((crtcCmdPort, register) :: (crtcDataPort, value) :: rest) =
      writes ⟨register, Function.update crtc.registers register value⟩ rest := by
  have different : ¬ crtcDataPort = crtcCmdPort := by decide
  simp [writes, write, different]

end Crtc

/-! ## Cursor moves -/

variable {boot : Crtc} {before after term : VTerm}

/-- The controller that has got all the writes of the terminal. -/
def VTerm.crtc (boot : Crtc) (term : VTerm) : Crtc := boot.writes term.outb

/-- The cursor is on or off as the terminal says. -/
def Lit (boot : Crtc) (term : VTerm) : Prop :=
  (term.crtc boot).shown = term.activeCursorStyle.visible

/-- The position of the cursor; behind a full row that is the last column. -/
def VTerm.position (term : VTerm) : Nat := min term.cursorRow 24 * 80 + min term.cursorCol 79

/-- And it stands where the terminal has its own. -/
structure InStep (boot : Crtc) (term : VTerm) : Prop where
  lit : Lit boot term
  location : term.activeCursorStyle.visible = true → (term.crtc boot).location = term.position

theorem vtermMoveCursor_style (row col : Nat) (term : VTerm) :
    (vtermMoveCursor row col term).activeCursorStyle = term.activeCursorStyle := by
  unfold vtermMoveCursor VTerm.write
  grind

theorem position_eq (row col : Nat) :
    u16 ((if row ≥ 25 then 24 else row) * 80 + if col ≥ 80 then 79 else col) =
      min row 24 * 80 + min col 79 := by
  rw [u16_of_lt (by split <;> split <;> omega)]
  split <;> split <;> omega

theorem vtermMoveCursor_outb (row col : Nat) (term : VTerm) :
    (vtermMoveCursor row col term).outb = term.outb ++
      if term.activeCursorStyle.visible = true then
        [(crtcCmdPort, cursorPosHighByteCmd),
          (crtcDataPort, (vtermMoveCursor row col term).position / 256 % 256),
          (crtcCmdPort, cursorPosLowByteCmd),
          (crtcDataPort, (vtermMoveCursor row col term).position % 256)]
      else [] := by
  rw [VTerm.position, vtermMoveCursor_cursorRow, vtermMoveCursor_cursorCol, ← position_eq]
  unfold vtermMoveCursor VTerm.write screenRows screenCols
  grind

theorem Lit.moveCursor (lit : Lit boot term) (row col : Nat) :
    InStep boot (vtermMoveCursor row col term) := by
  have style := vtermMoveCursor_style row col term
  have writes := vtermMoveCursor_outb row col term
  by_cases visible : term.activeCursorStyle.visible = true
  · rw [if_pos visible] at writes
    have registers : (vtermMoveCursor row col term).crtc boot =
        ⟨cursorPosLowByteCmd, Function.update (Function.update (term.crtc boot).registers
          cursorPosHighByteCmd ((vtermMoveCursor row col term).position / 256 % 256))
            cursorPosLowByteCmd ((vtermMoveCursor row col term).position % 256)⟩ := by
      rw [VTerm.crtc, writes, Crtc.writes_append, Crtc.writes_cons, Crtc.writes_cons]
      rfl
    refine ⟨?_, fun _ => ?_⟩
    · rw [Lit, style, ← lit, Crtc.shown, Crtc.shown, registers]
      dsimp only
      rw [Function.update_of_ne (by decide), Function.update_of_ne (by decide)]
    · have small : (vtermMoveCursor row col term).position < 2000 := by
        unfold VTerm.position
        omega
      rw [Crtc.location, registers]
      dsimp only
      rw [Function.update_self, Function.update_of_ne (by decide), Function.update_self]
      show _ = (vtermMoveCursor row col term).position
      omega
  · rw [if_neg visible, List.append_nil] at writes
    have same : (vtermMoveCursor row col term).crtc boot = term.crtc boot := by
      rw [VTerm.crtc, writes, VTerm.crtc]
    refine ⟨?_, fun isVisible => absurd (style ▸ isVisible) visible⟩
    rw [Lit, style, same]
    exact lit

/-! ## What leaves the cursor alone -/

structure SameCursor (before after : VTerm) : Prop where
  outb : after.outb = before.outb
  style : after.activeCursorStyle = before.activeCursorStyle
  row : after.cursorRow = before.cursorRow
  col : after.cursorCol = before.cursorCol

namespace SameCursor

theorem refl (term : VTerm) : SameCursor term term := ⟨rfl, rfl, rfl, rfl⟩

theorem trans (first : SameCursor term before) (second : SameCursor before after) :
    SameCursor term after :=
  ⟨second.outb.trans first.outb, second.style.trans first.style, second.row.trans first.row,
    second.col.trans first.col⟩

theorem lit (same : SameCursor before after) (lit : Lit boot before) : Lit boot after := by
  rw [Lit, VTerm.crtc, same.outb, same.style]
  exact lit

theorem inStep (same : SameCursor before after) (inStep : InStep boot before) :
    InStep boot after := by
  refine ⟨same.lit inStep.lit, fun visible => ?_⟩
  rw [VTerm.crtc, same.outb, VTerm.position, same.row, same.col]
  exact inStep.location (same.style ▸ visible)

theorem updateCell {row col : Nat} {change : VTermCell → VTermCell}
    (updated : term.updateCell row col change = some after) : SameCursor term after := by
  unfold VTerm.updateCell at updated
  split at updated
  · cases updated
    exact ⟨rfl, rfl, rfl, rfl⟩
  · cases updated

theorem showCell {character fg bg : UInt8} {row col : Nat}
    (shown : term.showCell character row col fg bg = some after) : SameCursor term after := by
  obtain ⟨fgColor, _, shown⟩ := Option.bind_eq_some_iff.mp shown
  obtain ⟨bgColor, _, shown⟩ := Option.bind_eq_some_iff.mp shown
  obtain ⟨framebuffer, _, shown⟩ := Option.bind_eq_some_iff.mp shown
  cases shown
  exact ⟨rfl, rfl, rfl, rfl⟩

theorem storeChar {change : VTermCell → VTermCell} {character : UInt8}
    (stored : Vterm.storeChar change character term = some after) : SameCursor term after := by
  obtain ⟨updated, isUpdated, stored⟩ := Option.bind_eq_some_iff.mp stored
  split at stored
  · exact (updateCell isUpdated).trans (showCell stored)
  · cases stored
    exact updateCell isUpdated

theorem loop {first count : Nat} {body : VTerm → Nat → Option VTerm}
    (looped : forLoop first count body term = some after)
    (keeps : ∀ current index next, body current index = some next → SameCursor current next) :
    SameCursor term after :=
  forLoop_keeps (SameCursor term) looped (.refl term)
    fun current index next same step => same.trans (keeps current index next step)

end SameCursor

/-! ## The calls -/

theorem Lit.flush (lit : Lit boot term) (flushed : vtermFlush term = some after) :
    InStep boot after := by
  obtain ⟨shown, looped, moved⟩ := Option.bind_eq_some_iff.mp flushed
  cases moved
  refine (SameCursor.lit (.loop looped fun current row next inner => ?_) lit).moveCursor _ _
  refine .loop inner fun current col next step => ?_
  obtain ⟨cell, _, shown⟩ := Option.bind_eq_some_iff.mp step
  exact .showCell shown

theorem InStep.flushStream (inStep : InStep boot term)
    (flushed : Vterm.flushStream term = some after) : InStep boot after := by
  unfold Vterm.flushStream at flushed
  split at flushed
  · exact inStep.lit.flush flushed
  · cases flushed
    exact inStep

theorem Lit.clear {fg bg : VTermColor} (lit : Lit boot term)
    (cleared : vtermClear fg bg term = some after) : InStep boot after := by
  unfold vtermClear at cleared
  rw [Option.bind_eq_bind, Option.bind_eq_some_iff] at cleared
  obtain ⟨blank, looped, flushed⟩ := cleared
  have same : SameCursor { term with currentFg := fg, currentBg := bg } blank :=
    .loop looped fun current row next inner => .loop inner fun current col next step =>
      .updateCell step
  exact ((same.lit lit).moveCursor 0 0).flushStream flushed

theorem Lit.init {fg bg : VTermColor} (lit : Lit boot term)
    (started : vtermInit fg bg term = some after) : InStep boot after := by
  unfold vtermInit at started
  rw [Option.bind_eq_bind, Option.bind_eq_some_iff] at started
  obtain ⟨blank, cleared, flushed⟩ := started
  have streaming : Lit boot { term with currentMode := .stream } := lit
  exact (streaming.clear cleared).lit.flush flushed

theorem Lit.scroll (lit : Lit boot term) (scrolled : vtermScroll term = some after) :
    InStep boot after := by
  unfold vtermScroll at scrolled
  rw [Option.bind_eq_bind, Option.bind_eq_some_iff] at scrolled
  obtain ⟨copied, rows, scrolled⟩ := scrolled
  rw [Option.bind_eq_some_iff] at scrolled
  obtain ⟨blanked, last, flushed⟩ := scrolled
  have copies : SameCursor term copied := .loop rows fun current row next inner =>
    .loop inner fun current col next step => by
      obtain ⟨cell, _, updated⟩ := Option.bind_eq_some_iff.mp step
      exact .updateCell updated
  have blanks : SameCursor copied blanked :=
    .loop last fun current col next step => .updateCell step
  exact (((copies.trans blanks).lit lit).moveCursor _ _).flushStream flushed

theorem Lit.wrap (lit : Lit boot term) (wrapped : wrapCursor term = some after) :
    Lit boot after := by
  unfold wrapCursor at wrapped
  have fields : Lit boot (if term.cursorCol ≥ screenCols then
      { term with cursorCol := 0, cursorRow := u16 (term.cursorRow + 1) } else term) := by
    split
    · exact lit
    · exact lit
  generalize (if term.cursorCol ≥ screenCols then
    { term with cursorCol := 0, cursorRow := u16 (term.cursorRow + 1) } else term) = wide
    at wrapped fields
  by_cases below : wide.cursorRow ≥ screenRows
  · rw [if_pos below] at wrapped
    exact (fields.scroll wrapped).lit
  · rw [if_neg below] at wrapped
    cases wrapped
    exact fields

theorem InStep.writeChar {c : UInt8} (inStep : InStep boot term)
    (written : vtermWriteChar c term = some after) : InStep boot after := by
  unfold vtermWriteChar at written
  by_cases newline : c = 10
  · rw [if_pos newline] at written
    have moved := inStep.lit.moveCursor (u16 (term.cursorRow + 1)) 0
    dsimp only at written
    split at written
    · exact moved.lit.scroll written
    · cases written
      exact moved
  · rw [if_neg newline] at written
    by_cases backspace : c = 8
    · rw [if_pos backspace] at written
      cases target : backspaceTarget term with
      | none =>
          rw [target] at written
          cases written
          exact inStep
      | some place =>
          rw [target] at written
          exact (SameCursor.storeChar written).inStep (inStep.lit.moveCursor _ _)
    · rw [if_neg backspace] at written
      obtain ⟨wrapped, isWrapped, written⟩ := Option.bind_eq_some_iff.mp written
      obtain ⟨stored, isStored, written⟩ := Option.bind_eq_some_iff.mp written
      cases written
      have advanced : Lit boot { stored with cursorCol := u16 (stored.cursorCol + 1) } :=
        (SameCursor.storeChar isStored).lit (inStep.lit.wrap isWrapped)
      exact advanced.moveCursor _ _

theorem InStep.write {str : List UInt8} (inStep : InStep boot term)
    (written : vtermWrite str term = some after) : InStep boot after := by
  induction str generalizing term with
  | nil =>
      cases written
      exact inStep
  | cons c rest ih =>
      rw [vtermWrite] at written
      split at written
      · cases written
        exact inStep
      · obtain ⟨next, isNext, written⟩ := Option.bind_eq_some_iff.mp written
        exact ih (inStep.writeChar isNext) written

theorem InStep.setColor (inStep : InStep boot term) (fg bg : VTermColor) :
    InStep boot (vtermSetColor fg bg term) := by
  have same : SameCursor term (vtermSetColor fg bg term) := ⟨rfl, rfl, rfl, rfl⟩
  exact same.inStep inStep

theorem InStep.writeBinary {byte : UInt8} (inStep : InStep boot term)
    (written : vtermWriteBinary byte term = some after) : InStep boot after :=
  forLoop_keeps (InStep boot) written inStep fun _ _ _ reached step => reached.writeChar step

theorem InStep.writeHex {val : UInt32} {fg bg : VTermColor} (inStep : InStep boot term)
    (written : vtermWriteHex val fg bg term = some after) : InStep boot after := by
  obtain ⟨zero, isZero, written⟩ := Option.bind_eq_some_iff.mp written
  obtain ⟨start, isStart, written⟩ := Option.bind_eq_some_iff.mp written
  obtain ⟨digits, looped, written⟩ := Option.bind_eq_some_iff.mp written
  cases written
  have begun := ((inStep.setColor fg bg).writeChar isZero).writeChar isStart
  refine InStep.setColor (forLoop_keeps (InStep boot) looped begun
    fun _ _ _ reached step => ?_) _ _
  obtain ⟨digit, _, step⟩ := Option.bind_eq_some_iff.mp step
  exact reached.writeChar step

theorem InStep.printAt {row col : Nat} {text : List UInt8} (inStep : InStep boot term)
    (printed : vtermPrintAt row col text term = some after) : InStep boot after := by
  obtain ⟨written, isWritten, flushed⟩ := Option.bind_eq_some_iff.mp printed
  exact ((inStep.lit.moveCursor row col).write isWritten).flushStream flushed

theorem InStep.writeLabelHex {label : List UInt8} {value : UInt32} (inStep : InStep boot term)
    (written : vtermWriteLabelHex label value term = some after) : InStep boot after := by
  obtain ⟨labelled, isLabelled, written⟩ := Option.bind_eq_some_iff.mp written
  obtain ⟨digits, isDigits, written⟩ := Option.bind_eq_some_iff.mp written
  exact ((inStep.write isLabelled).writeHex isDigits).write written

/-! ## The cursor's style -/

theorem Lit.of_style (style : UInt8)
    (written : (after.crtc boot).registers cursorStyleStartCmd = style.toNat)
    (bit : style.toNat.testBit 5 = !after.activeCursorStyle.visible) : Lit boot after := by
  rw [Lit, Crtc.shown, written, bit, Bool.not_not]

theorem testBit_or_hidden (value : UInt8) : (value ||| 0x20).toNat.testBit 5 = true := by
  have bit : (0x20 : UInt8).toNat.testBit 5 = true := by decide
  rw [UInt8.toNat_or, Nat.testBit_or, bit, Bool.or_true]

theorem testBit_and_hidden (value mask : UInt8) (bit : mask.toNat.testBit 5 = false) :
    (value &&& mask).toNat.testBit 5 = false := by
  rw [UInt8.toNat_and, Nat.testBit_and, bit, Bool.and_false]

theorem InStep.setCursorVisible (boot : Crtc) (visible : Bool) (currentVal : UInt8)
    (term : VTerm) : InStep boot (vtermSetCursorVisible visible currentVal term) := by
  cases visible with
  | false =>
      refine ⟨.of_style (currentVal ||| 0x20) ?_ (testBit_or_hidden currentVal), nofun⟩
      simp [vtermSetCursorVisible, VTerm.write, VTerm.crtc, Crtc.writes_append, Crtc.writes_cons]
      rfl
  | true =>
      refine Lit.moveCursor (.of_style (currentVal &&& ~~~0x20) ?_ ?_) _ _
      · simp [VTerm.write, VTerm.crtc, Crtc.writes_append, Crtc.writes_cons]
        rfl
      · exact testBit_and_hidden currentVal (~~~0x20) (by decide)

/-- The shape of a hidden cursor is only kept. -/
theorem InStep.setCursorShape (inStep : InStep boot term) (shape : CursorShape)
    (startVal endVal : UInt8) : InStep boot (vtermSetCursorShape shape startVal endVal term) := by
  by_cases visible : term.activeCursorStyle.visible = true
  · have scanline (value : UInt8) : ((startVal &&& 0xC0) ||| (value &&& 0x1F)).toNat.testBit 5 =
        false := by
      rw [UInt8.toNat_or, Nat.testBit_or, testBit_and_hidden _ _ (by decide),
        testBit_and_hidden _ _ (by decide), Bool.or_false]
    have crtc : (vtermSetCursorShape shape startVal endVal term).crtc boot =
        ⟨cursorStyleEndCmd, Function.update (Function.update (term.crtc boot).registers
          cursorStyleStartCmd ((startVal &&& 0xC0) |||
            ((if shape = .block then 0 else 14) &&& 0x1F)).toNat)
          cursorStyleEndCmd ((endVal &&& 0xE0) ||| (15 &&& 0x1F)).toNat⟩ := by
      simp [vtermSetCursorShape, visible, VTerm.write, VTerm.crtc, Crtc.writes_append,
        Crtc.writes_cons]
      rfl
    have written : (vtermSetCursorShape shape startVal endVal term).activeCursorStyle.visible =
        true := by
      simp [vtermSetCursorShape, visible, VTerm.write]
    have location : ((vtermSetCursorShape shape startVal endVal term).crtc boot).location =
        (term.crtc boot).location := by
      rw [crtc]
      rfl
    refine ⟨.of_style ((startVal &&& 0xC0) ||| ((if shape = .block then 0 else 14) &&& 0x1F))
      ?_ ?_, fun _ => ?_⟩
    · rw [crtc]
      rfl
    · rw [scanline, written]
      rfl
    · rw [location, inStep.location visible]
      simp [vtermSetCursorShape, visible, VTerm.write, VTerm.position]
  · have same : vtermSetCursorShape shape startVal endVal term =
        { term with activeCursorStyle := { term.activeCursorStyle with shape := shape } } := by
      simp [vtermSetCursorShape, visible]
    refine ⟨?_, fun isVisible => absurd isVisible ?_⟩
    · rw [same]
      exact inStep.lit
    · rw [same]
      exact visible

/-! ## Runs -/

theorem InStep.perform (inStep : InStep boot term) {op : VTermOp}
    (performed : op.perform term = some after) : InStep boot after := by
  cases op with
  | setCursorVisible visible currentVal =>
      cases performed
      exact .setCursorVisible boot visible currentVal term
  | setCursorShape shape startVal endVal =>
      cases performed
      exact inStep.setCursorShape shape startVal endVal
  | moveCursor row col =>
      cases performed
      exact inStep.lit.moveCursor row col
  | setBufferingMode mode =>
      cases performed
      have same : SameCursor term (vtermSetBufferingMode mode term) := ⟨rfl, rfl, rfl, rfl⟩
      exact same.inStep inStep
  | init fg bg => exact inStep.lit.init performed
  | clear fg bg => exact inStep.lit.clear performed
  | writeChar c => exact inStep.writeChar performed
  | write str => exact inStep.write performed
  | writeBinary byte => exact inStep.writeBinary performed
  | writeHex val fg bg => exact inStep.writeHex performed
  | printAt row col text => exact inStep.printAt performed
  | printAligned row text align => exact inStep.printAt performed
  | setColor fg bg =>
      cases performed
      exact inStep.setColor fg bg
  | flush => exact inStep.lit.flush performed
  | writeLabelHex label value => exact inStep.writeLabelHex performed

/-- Once the cursor has been switched on or off, as the kernel does first of all, the
controller follows the terminal through every call, whatever it held before. -/
theorem cursor_inStep (boot : Crtc) (term : VTerm) (visible : Bool) (currentVal : UInt8)
    {trace : List (Transition VTerm VTermOp)} {final : VTerm}
    (run : Run VTermStep (vtermSetCursorVisible visible currentVal term) trace final) :
    InStep boot final ∧ ∀ transition ∈ trace, InStep boot transition.after := by
  obtain ⟨last, every⟩ := run.invariant (fun _ _ => True) (InStep boot)
    (.setCursorVisible boot visible currentVal term)
    (fun reached _ stepped => reached.perform stepped) (fun _ _ => trivial)
  exact ⟨last, fun transition member => (every transition member).2.1⟩

/-- A controller that holds nonsense, and a cursor that is hidden, moved and shown again. -/
theorem cursor_inStep_sample :
    ∃ final, (final.crtc ⟨77, fun _ => 0xFF⟩).shown = true ∧
      (final.crtc ⟨77, fun _ => 0xFF⟩).location = 3 * 80 + 79 ∧
      final = vtermSetCursorVisible true 0xFF (vtermMoveCursor 3 80
        (vtermSetCursorVisible false 0xFF (VTerm.static fun _ => 0))) := by
  have run : Run VTermStep (vtermSetCursorVisible false 0xFF (VTerm.static fun _ => 0))
      [⟨_, .moveCursor 3 80, _⟩, ⟨_, .setCursorVisible true 0xFF, _⟩] _ :=
    .step (.step .start rfl) rfl
  obtain ⟨inStep, _⟩ := cursor_inStep ⟨77, fun _ => 0xFF⟩ (VTerm.static fun _ => 0) false 0xFF run
  exact ⟨_, inStep.lit, inStep.location rfl, rfl⟩

end KdbOS.Vterm
