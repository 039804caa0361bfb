import KdbOS.Library.Runs
import KdbOS.Vterm.VtermBounds

/-! In stream mode the display shows the screen buffer after every call, as long as `'\b'`
erases in the colours of the cell it erases. -/

set_option autoImplicit false

namespace KdbOS.Vterm

open Library Arch

variable {before term after start : VTerm} {row col : Nat}

/-! ## Erasing -/

theorem framebufferWord_eq {fg bg : UInt8} (fgValid : fg.toNat < 16) (bgValid : bg.toNat < 16) :
    (framebufferWord 32 fg bg).toNat = 32 + fg.toNat * 256 + bg.toNat * 4096 := by
  have every : ∀ fg bg : Fin 16,
      (framebufferWord 32 (UInt8.ofNat fg) (UInt8.ofNat bg)).toNat =
        32 + fg.val * 256 + bg.val * 4096 := by decide +kernel
  have word := every ⟨fg.toNat, fgValid⟩ ⟨bg.toNat, bgValid⟩
  simpa only [UInt8.ofNat_toNat] using word

/-- The cell that `'\b'` erases, if any, has the current colours. -/
def VTerm.ErasesInColour (term : VTerm) : Prop :=
  ∀ row col, backspaceTarget term = some (row, col) →
    (term.screenBuffer row col).fg = term.currentFg.value ∧
      (term.screenBuffer row col).bg = term.currentBg.value

theorem erasesInColour_iff (target : backspaceTarget term = some (row, col)) :
    term.ErasesInColour ↔
      (term.screenBuffer row col).fg = term.currentFg.value ∧
        (term.screenBuffer row col).bg = term.currentBg.value := by
  constructor
  · exact fun inColour => inColour row col target
  · intro colours otherRow otherCol same
    obtain ⟨rfl, rfl⟩ := Prod.mk.inj (Option.some.inj (target.symm.trans same))
    exact colours

/-- A cell keeps its colours when it is erased, but the display takes the current ones. -/
theorem Erased.displayed_iff (erased : Erased row col before after) (bounded : before.Bounded)
    (target : backspaceTarget before = some (row, col)) (stream : before.currentMode = .stream)
    (shown : before.Displayed) : after.Displayed ↔ before.ErasesInColour := by
  have inside := backspaceTarget_onScreen bounded target
  have valid := bounded.coloured row col inside
  rw [erasesInColour_iff target]
  constructor
  · intro displayed
    have word := displayed row col inside
    rw [erased.framebuffer stream, erased.screen, Function.update_self] at word
    simp only [and_self, ↓reduceIte, VTerm.inked, VTermCell.rendering] at word
    have number := congrArg UInt16.toNat word
    rw [framebufferWord_eq before.currentFg.value_lt before.currentBg.value_lt,
      framebufferWord_eq valid.1 valid.2] at number
    have fgLt := before.currentFg.value_lt
    have fgValid := valid.1
    exact ⟨UInt8.toNat_inj.mp (by omega), UInt8.toNat_inj.mp (by omega)⟩
  · rintro ⟨fg, bg⟩
    refine shown.update (before.inked 32) inside ?_ (erased.framebuffer stream)
    rw [erased.screen]
    funext r c
    by_cases here : r = row ∧ c = col
    · obtain ⟨rfl, rfl⟩ := here
      rw [if_pos ⟨rfl, rfl⟩, if_pos ⟨rfl, rfl⟩, VTerm.inked, ← fg, ← bg]
    · rw [if_neg here, if_neg here]

/-! ## Calls -/

/-- The terminal in stream mode, with everything on the display. -/
structure VTerm.Streaming (term : VTerm) : Prop where
  bounded : term.Bounded
  stream : term.currentMode = .stream
  displayed : term.Displayed

/-- The call leaves everything on the display. -/
def Shows (result : Option VTerm) : Prop := ∃ after, result = some after ∧ after.Streaming

theorem shows_flush (bounded : term.Bounded) (stream : term.currentMode = .stream) :
    Shows (vtermFlush term) := by
  obtain ⟨after, flush, same, displayed⟩ := vtermFlush_spec bounded.coloured
  exact ⟨after, flush, bounded.congr same, same.mode.trans stream, displayed⟩

theorem shows_flushStream (bounded : term.Bounded) (stream : term.currentMode = .stream) :
    Shows (flushStream term) := by
  rw [flushStream, if_pos stream]
  exact shows_flush bounded stream

theorem vtermClear_shows (stream : term.currentMode = .stream) (fg bg : VTermColor) :
    Shows (vtermClear fg bg term) := by
  obtain ⟨after, clear, cleared, mode, displayed⟩ := vtermClear_spec term fg bg
  exact ⟨after, clear, cleared.bounded, mode.trans stream, displayed stream⟩

theorem vtermInit_shows (term : VTerm) (fg bg : VTermColor) : Shows (vtermInit fg bg term) := by
  obtain ⟨after, init, cleared, mode, displayed⟩ := vtermInit_spec term fg bg
  exact ⟨after, init, cleared.bounded, mode, displayed⟩

namespace VTerm.Streaming

theorem of_same (streaming : term.Streaming) (same : SameScreen term after)
    (framebuffer : after.framebuffer = term.framebuffer) : after.Streaming :=
  ⟨streaming.bounded.congr same, same.mode.trans streaming.stream,
    streaming.displayed.congr framebuffer same.screen⟩

theorem moveCursor (streaming : term.Streaming) (row col : Nat) :
    (vtermMoveCursor row col term).Streaming :=
  ⟨streaming.bounded.moveCursor row col, by simpa using streaming.stream,
    streaming.displayed.congr (by simp) (by simp)⟩

theorem setColor (streaming : term.Streaming) (fg bg : VTermColor) :
    (vtermSetColor fg bg term).Streaming :=
  ⟨streaming.bounded.setColor fg bg, streaming.stream, streaming.displayed⟩

theorem writeChar {c : UInt8} (streaming : term.Streaming)
    (inColour : c = 8 → term.ErasesInColour) : Shows (vtermWriteChar c term) := by
  obtain ⟨after, wrote, step⟩ := vtermWriteChar_spec c streaming.bounded
  refine ⟨after, wrote, step.bounded streaming.bounded, step.mode.trans streaming.stream, ?_⟩
  cases step with
  | newline => exact streaming.displayed.congr (by simp) (by simp)
  | corner => exact streaming.displayed
  | erased target erased =>
      exact (erased.displayed_iff streaming.bounded target streaming.stream
        streaming.displayed).mpr (inColour rfl)
  | wrote _ _ spec => exact spec.displayed streaming.stream streaming.displayed

end VTerm.Streaming

/-- Every `'\b'` of the string erases in colour, in the state in which it is read. -/
def WritesInColour : List UInt8 → VTerm → Prop
  | [], _ => True
  | c :: rest, term =>
      c = 0 ∨ (c = 8 → term.ErasesInColour) ∧
        ∀ next, vtermWriteChar c term = some next → WritesInColour rest next

namespace VTerm.Streaming

theorem write {str : List UInt8} (streaming : term.Streaming)
    (inColour : WritesInColour str term) : Shows (vtermWrite str term) := by
  induction str generalizing term with
  | nil => exact ⟨term, rfl, streaming⟩
  | cons c rest ih =>
      unfold vtermWrite
      unfold WritesInColour at inColour
      split
      case isTrue => exact ⟨term, rfl, streaming⟩
      case isFalse notNul =>
        obtain ⟨character, later⟩ := inColour.resolve_left notNul
        obtain ⟨next, wrote, nextStreaming⟩ := streaming.writeChar character
        rw [wrote]
        exact ih nextStreaming (later next wrote)

theorem loop (streaming : term.Streaming) (count : Nat) (body : VTerm → Nat → Option VTerm)
    (iteration : ∀ index < count, ∀ current : VTerm, current.Streaming →
      Shows (body current index)) : Shows (forLoop 0 count body term) :=
  forLoop_spec 0 count body (fun _ => VTerm.Streaming) streaming (by
    intro index inside current currentStreaming
    rw [Nat.zero_add]
    exact iteration index inside current currentStreaming)

theorem writeBinary (streaming : term.Streaming) (byte : UInt8) :
    Shows (vtermWriteBinary byte term) := by
  apply streaming.loop 8
  intro bit _ current currentStreaming
  apply currentStreaming.writeChar
  split <;> nofun

theorem hexDigit_ne_backspace : ∀ digit ∈ hexChars, digit ≠ 8 := by simp [hexChars]

theorem writeHex (streaming : term.Streaming) (val : UInt32) (fg bg : VTermColor) :
    Shows (vtermWriteHex val fg bg term) := by
  obtain ⟨first, zero, firstStreaming⟩ := (streaming.setColor fg bg).writeChar (c := 48) nofun
  obtain ⟨second, x, secondStreaming⟩ := firstStreaming.writeChar (c := 120) nofun
  obtain ⟨third, digits, thirdStreaming⟩ := secondStreaming.loop 8
    (fun term i => do
      let nibble := (val.toNat >>> (28 - i * 4)) % 16
      let digit ← hexChars[nibble]?
      vtermWriteChar digit term) (by
    intro i inside current currentStreaming
    have nibble : (val.toNat >>> (28 - i * 4)) % 16 < hexChars.length :=
      Nat.lt_trans (Nat.mod_lt _ (by decide)) (by decide)
    simp only [List.getElem?_eq_getElem nibble, Option.bind_eq_bind, Option.bind_some]
    apply currentStreaming.writeChar
    exact fun backspace => absurd backspace (hexDigit_ne_backspace _ (List.getElem_mem nibble)))
  refine ⟨vtermSetColor term.currentFg term.currentBg third, ?_, thirdStreaming.setColor _ _⟩
  rw [Option.bind_eq_bind] at digits
  unfold vtermWriteHex
  simp only [zero, x, Option.bind_eq_bind, Option.bind_some]
  rw [digits, Option.bind_some]

/-- The flush at the end shows whatever the text erased. -/
theorem printAt (streaming : term.Streaming) (row col : Nat) (text : List UInt8) :
    Shows (vtermPrintAt row col text term) := by
  obtain ⟨written, wrote, bounded, mode⟩ :=
    vtermWrite_spec (streaming.bounded.moveCursor row col) text
  rw [vtermPrintAt, wrote]
  apply shows_flushStream bounded
  rw [mode, vtermMoveCursor_currentMode, streaming.stream]

theorem writeLabelHex (streaming : term.Streaming) {label : List UInt8} (value : UInt32)
    (inColour : WritesInColour label term) : Shows (vtermWriteLabelHex label value term) := by
  obtain ⟨first, labelled, firstStreaming⟩ := streaming.write inColour
  obtain ⟨second, hex, secondStreaming⟩ := firstStreaming.writeHex value .white .black
  rw [vtermWriteLabelHex, labelled, Option.bind_eq_bind, Option.bind_some, hex, Option.bind_some]
  refine secondStreaming.write (.inr ⟨fun isErase => ?_, fun _ _ => trivial⟩)
  exact absurd isErase (by decide)

end VTerm.Streaming

/-- Every `'\b'` of the call erases in colour; the text of `vterm_print_at` is flushed
anyway. -/
def VTermOp.InColour (term : VTerm) : VTermOp → Prop
  | writeChar c => c = 8 → term.ErasesInColour
  | write str => WritesInColour str term
  | writeLabelHex label _ => WritesInColour label term
  | _ => True

theorem VTermOp.perform_shows {op : VTermOp} (streaming : term.Streaming)
    (stays : op ≠ .setBufferingMode .block) (inColour : op.InColour term) :
    Shows (op.perform term) := by
  cases op with
  | setCursorVisible visible currentVal =>
      refine ⟨_, rfl, streaming.of_same (vtermSetCursorVisible_same visible currentVal term) ?_⟩
      exact vtermSetCursorVisible_framebuffer visible currentVal term
  | setCursorShape shape startVal endVal =>
      refine ⟨_, rfl, streaming.of_same (vtermSetCursorShape_same shape startVal endVal term) ?_⟩
      exact vtermSetCursorShape_framebuffer shape startVal endVal term
  | moveCursor row col => exact ⟨_, rfl, streaming.moveCursor row col⟩
  | setBufferingMode mode =>
      cases mode with
      | block => exact absurd rfl stays
      | stream =>
          refine ⟨_, rfl, streaming.of_same ⟨rfl, rfl, rfl, rfl, rfl, ?_⟩ rfl⟩
          exact streaming.stream.symm
  | init fg bg => exact vtermInit_shows term fg bg
  | clear fg bg => exact vtermClear_shows streaming.stream fg bg
  | writeChar c => exact streaming.writeChar inColour
  | write str => exact streaming.write inColour
  | writeBinary byte => exact streaming.writeBinary byte
  | writeHex val fg bg => exact streaming.writeHex val fg bg
  | printAt row col text => exact streaming.printAt row col text
  | printAligned row text align => exact streaming.printAt row _ text
  | setColor fg bg => exact ⟨_, rfl, streaming.setColor fg bg⟩
  | flush => exact shows_flush streaming.bounded streaming.stream
  | writeLabelHex label value => exact streaming.writeLabelHex value inColour

/-! ## Runs -/

def VTermStep (before : VTerm) (op : VTermOp) (after : VTerm) : Prop :=
  op.perform before = some after

/-- Every cell is on the display, and flushing again changes nothing there. -/
def VTerm.Agrees (term : VTerm) : Prop :=
  term.Displayed ∧ ∃ flushed, vtermFlush term = some flushed ∧
    flushed.framebuffer = term.framebuffer

theorem VTerm.Streaming.agrees (streaming : term.Streaming) : term.Agrees := by
  refine ⟨streaming.displayed, _, vtermFlush_eq streaming.bounded.coloured, ?_⟩
  rw [vtermMoveCursor_framebuffer]
  funext index
  dsimp only
  by_cases inside : index < 2000
  · have cell := streaming.displayed (index / 80) (index % 80) ⟨by omega, by omega⟩
    have position : index % 80 + index / 80 * 80 = index := by omega
    rw [position] at cell
    rw [if_pos inside, cell]
  · rw [if_neg inside]

/-- After `vterm_init` the buffer and the display agree, and no call fails, as long as
stream mode is kept and every `'\b'` erases in colour. -/
theorem agrees_of_inColour {fg bg : VTermColor} {trace : List (Transition VTerm VTermOp)}
    {final : VTerm} (started : vtermInit fg bg term = some start)
    (run : Run VTermStep start trace final)
    (stays : ∀ transition ∈ trace, transition.label ≠ .setBufferingMode .block)
    (inColour : ∀ transition ∈ trace, transition.label.InColour transition.before) :
    start.Agrees ∧ (∀ transition ∈ trace, transition.after.Agrees) ∧ final.Agrees ∧
      ∀ op : VTermOp, (op.perform final).isSome := by
  obtain ⟨initial, init, streaming⟩ := vtermInit_shows term fg bg
  obtain rfl := Option.some.inj (init.symm.trans started)
  obtain ⟨last, every⟩ := run.invariant
    (fun before op => op ≠ .setBufferingMode .block ∧ op.InColour before) VTerm.Streaming
    streaming (by
      intro before op after holds allowed stepped
      obtain ⟨next, performed, nextStreaming⟩ := op.perform_shows holds allowed.1 allowed.2
      obtain rfl := Option.some.inj (performed.symm.trans stepped)
      exact nextStreaming)
    (fun transition member => ⟨stays transition member, inColour transition member⟩)
  refine ⟨streaming.agrees, fun transition member => ?_, last.agrees, fun op => ?_⟩
  · exact (every transition member).2.1.agrees
  · obtain ⟨next, performed, _⟩ := op.perform_succeeds last.bounded
    rw [performed]
    rfl

/-- Writing `'a'` after `vterm_init`, changing the foreground and erasing the `'a'`: the
display agrees only when the foreground is still the one of the `'a'`. -/
theorem eraseRecoloured (term : VTerm) (color : VTermColor) :
    ∃ start written final, vtermInit .white .black term = some start ∧
      Run VTermStep start
        [⟨start, .writeChar 97, written⟩,
          ⟨written, .setColor color .black, vtermSetColor color .black written⟩,
          ⟨vtermSetColor color .black written, .writeChar 8, final⟩] final ∧
      ((vtermSetColor color .black written).ErasesInColour ↔ color = .white) ∧
      (final.Displayed ↔ color = .white) := by
  obtain ⟨start, init, cleared, mode, displayed⟩ := vtermInit_spec term .white .black
  have streaming : start.Streaming := ⟨cleared.bounded, mode, displayed⟩
  obtain ⟨written, write, step⟩ := vtermWriteChar_spec 97 streaming.bounded
  obtain ⟨shown, again, writtenStreaming⟩ := streaming.writeChar (c := 97) nofun
  obtain rfl := Option.some.inj (again.symm.trans write)
  have recoloured := writtenStreaming.setColor color .black
  obtain ⟨final, erase, last⟩ := vtermWriteChar_spec 8 recoloured.bounded
  refine ⟨start, shown, final, init, .step (.step (.step .start write) rfl) erase, ?_⟩
  cases step with
  | wrote _ _ wrote =>
      have target : backspaceTarget (vtermSetColor color .black shown) = some (0, 0) := by
        have position : shown.cursorRow = 0 ∧ shown.cursorCol = 1 := by
          rw [wrote.row, wrote.col, wrapRow, wrapCol, cleared.row, cleared.col]
          exact ⟨rfl, rfl⟩
        simp [backspaceTarget, vtermSetColor, position]
      have ink : shown.screenBuffer 0 0 = ⟨97, VTermColor.white.value, VTermColor.black.value⟩ := by
        rw [wrote.screen, wrapRow, wrapCol, cleared.row, cleared.col, VTerm.inked, cleared.fg,
          cleared.bg]
        rfl
      have same : (vtermSetColor color .black shown).ErasesInColour ↔ color = .white := by
        rw [erasesInColour_iff target]
        simp only [vtermSetColor, ink]
        cases color <;> decide
      refine ⟨same, ?_⟩
      cases last with
      | corner none => cases none.symm.trans target
      | erased erasedTarget erased =>
          obtain ⟨rfl, rfl⟩ := Prod.mk.inj (Option.some.inj (erasedTarget.symm.trans target))
          rw [← same]
          exact erased.displayed_iff recoloured.bounded target recoloured.stream
            recoloured.displayed
      | wrote _ notBackspace => exact absurd rfl notBackspace

theorem agrees_of_inColour_sample :
    ∃ start trace final, vtermInit .white .black (VTerm.static fun _ => 0) = some start ∧
      Run VTermStep start trace final ∧
      trace.map (·.label) = [.writeChar 97, .setColor .white .black, .writeChar 8] ∧
      final.Agrees := by
  obtain ⟨start, written, final, init, run, inColour, _⟩ :=
    eraseRecoloured (VTerm.static fun _ => 0) .white
  refine ⟨start, _, final, init, run, rfl, ?_⟩
  refine (agrees_of_inColour init run (by simp) ?_).2.2.1
  intro transition member
  rcases List.mem_cons.mp member with rfl | member
  · exact nofun
  · rcases List.mem_cons.mp member with rfl | member
    · trivial
    · obtain rfl := List.mem_singleton.mp member
      exact fun _ => inColour.mpr rfl

/-- A white `'a'` that is erased in red is white in the buffer and red on the display. -/
theorem agrees_fails :
    ¬ ∀ (term start final : VTerm) (fg bg : VTermColor) (trace : List (Transition VTerm VTermOp)),
      vtermInit fg bg term = some start → Run VTermStep start trace final →
      (∀ transition ∈ trace, transition.label ≠ .setBufferingMode .block) →
      ∀ transition ∈ trace, transition.after.Agrees := by
  intro agrees
  obtain ⟨start, written, final, init, run, _, displayed⟩ :=
    eraseRecoloured (VTerm.static fun _ => 0) .red
  have last := agrees _ start final .white .black _ init run (by simp)
    ⟨vtermSetColor .red .black written, .writeChar 8, final⟩ (by simp)
  cases displayed.mp last.1

end KdbOS.Vterm
