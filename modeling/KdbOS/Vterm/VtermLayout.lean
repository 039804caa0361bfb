import Mathlib.Data.List.Induction
import KdbOS.Library.TextRows
import KdbOS.Vterm.VtermBounds

/-! The terminal lays a text out in rows of 80 columns and shows the last 25 of them,
except that `'\n'` does not scroll on the bottom row. -/

set_option autoImplicit false

namespace KdbOS.Vterm

open Library Arch

variable {fg bg : VTermColor} {text : TextRows UInt8} {term after : VTerm}

/-- The rows of a text, 80 columns wide. -/
def rowsOf (string : List UInt8) : TextRows UInt8 := TextRows.layout 10 80 string

/-- The screen shows the last 25 rows, and the cursor is on the last of them. -/
structure ShowsText (fg bg : VTermColor) (text : TextRows UInt8) (term : VTerm) : Prop where
  screen : ∀ row col, OnScreen row col →
    term.screenBuffer row col = ⟨text.shown 25 32 row col, fg.value, bg.value⟩
  row : term.cursorRow = text.lastRow 25

/-- The terminal shows the text and goes on where it ends. -/
structure Follows (fg bg : VTermColor) (text : TextRows UInt8) (term : VTerm) : Prop
    extends ShowsText fg bg text term where
  col : term.cursorCol = text.last.length
  short : text.last.length ≤ 80
  fg : term.currentFg = fg
  bg : term.currentBg = bg

/-- Nothing but blanks is visible. -/
def Blank (text : TextRows UInt8) : Prop := ∀ row col, OnScreen row col → text.shown 25 32 row col = 32

theorem Follows.bounded (follows : Follows fg bg text term) : term.Bounded := by
  refine ⟨?_, follows.col ▸ follows.short, fun row col inside => ?_⟩
  · rw [follows.row, TextRows.lastRow]
    omega
  · rw [follows.screen row col inside]
    exact ⟨fg.value_lt, bg.value_lt⟩

theorem Cleared.follows (cleared : Cleared fg bg term) : Follows fg bg TextRows.empty term where
  screen row col inside := by rw [cleared.screen row col inside, TextRows.shown_empty]
  row := cleared.row
  col := cleared.col
  short := Nat.zero_le 80
  fg := cleared.fg
  bg := cleared.bg

/-! ## One character -/

/-- The rows below the text are blank, so that a new row may begin there. -/
theorem Follows.newline_upper (follows : Follows fg bg text term) (room : text.rows.length < 25) :
    ∃ after, vtermWriteChar 10 term = some after ∧ Follows fg bg (text.push []) after := by
  have row : term.cursorRow + 1 = text.rows.length := by
    rw [follows.row, TextRows.lastRow]
    have := text.rows_length
    omega
  refine ⟨_, vtermWriteChar_newline follows.bounded.row, ⟨fun r c inside => ?_, ?_⟩, ?_, ?_, ?_, ?_⟩
  · rw [vtermMoveCursor_screenBuffer, follows.screen r c inside, text.shown_push_of_lt [] room]
    by_cases new : r = text.rows.length
    · have beyond : text.rows.length ≤ text.rows.length - 25 + r := by omega
      rw [if_pos new, TextRows.shown, List.getElem?_eq_none beyond]
      rfl
    · rw [if_neg new]
  · rw [vtermMoveCursor_cursorRow, row, if_pos room, text.lastRow_push, if_pos room]
  · simp
  · simp
  · simpa using follows.fg
  · simpa using follows.bg

/-- On the bottom row the code only returns to the first column. -/
theorem Follows.newline_bottom (follows : Follows fg bg text term) (full : 25 ≤ text.rows.length) :
    ∃ after, vtermWriteChar 10 term = some after ∧
      (ShowsText fg bg (text.push []) after → Blank text) ∧
      (Blank text → Follows fg bg (text.push []) after) := by
  have bottom : term.cursorRow = 24 := by
    rw [follows.row, TextRows.lastRow]
    have := text.rows_length
    omega
  refine ⟨_, vtermWriteChar_newline follows.bounded.row, ?_, ?_⟩
  · intro shows row col inside
    -- The screen did not move, so each row looks like the one below it, and the last is blank.
    have moved : ∀ r, r < 25 → text.shown 25 32 r col = (text.push []).shown 25 32 r col := by
      intro r rowInside
      have cell := shows.screen r col ⟨rowInside, inside.2⟩
      rw [vtermMoveCursor_screenBuffer, follows.screen r col ⟨rowInside, inside.2⟩] at cell
      exact (VTermCell.mk.inj cell).1
    have upwards : ∀ distance, distance ≤ 24 → text.shown 25 32 (24 - distance) col = 32 := by
      intro distance
      induction distance with
      | zero =>
          intro _
          rw [moved 24 (by decide), text.shown_push_of_le [] full (by decide), if_pos rfl]
          rfl
      | succ distance ih =>
          intro near
          have next : 24 - (distance + 1) + 1 = 24 - distance := by omega
          rw [moved _ (by omega), text.shown_push_of_le [] full (by omega), if_neg (by omega), next]
          exact ih (by omega)
    have position : row = 24 - (24 - row) := by
      have := inside.1
      omega
    rw [position]
    exact upwards (24 - row) (by omega)
  · intro blank
    refine ⟨⟨fun row col inside => ?_, ?_⟩, ?_, ?_, ?_, ?_⟩
    · rw [vtermMoveCursor_screenBuffer, follows.screen row col inside, blank row col inside,
        text.shown_push_of_le [] full inside.1]
      split
      case isTrue => rfl
      case isFalse notLast =>
        rw [blank (row + 1) col ⟨by have := inside.1; omega, inside.2⟩]
    · rw [vtermMoveCursor_cursorRow, bottom, text.lastRow_push, if_neg (by decide),
        if_neg (by omega)]
    · simp
    · simp
    · simpa using follows.fg
    · simpa using follows.bg

theorem Wrote.cell {c : UInt8} (wrote : Wrote c term after) (row col : Nat) :
    after.screenBuffer row col =
      if row = wrapRow term ∧ col = wrapCol term then term.inked c else wrapScreen term row col :=
  congrFun (congrFun wrote.screen row) col

theorem Follows.inked (follows : Follows fg bg text term) (c : UInt8) :
    term.inked c = ⟨c, fg.value, bg.value⟩ := by
  rw [VTerm.inked, follows.fg, follows.bg]

theorem Follows.scrolled_cell (follows : Follows fg bg text term) {row col : Nat}
    (inside : OnScreen row col) :
    scrolled term row col =
      if row = 24 then ⟨32, fg.value, bg.value⟩
      else ⟨text.shown 25 32 (row + 1) col, fg.value, bg.value⟩ := by
  obtain ⟨rowInside, colInside⟩ := inside
  unfold scrolled
  by_cases last : row = 24
  · rw [if_neg (by omega), if_pos ⟨last, colInside⟩, if_pos last, follows.fg, follows.bg]
  · have upper : row + 1 < 25 := by omega
    rw [if_pos ⟨by omega, colInside⟩, if_neg last, follows.screen _ _ ⟨upper, colInside⟩]

/-- A full row is left first; at the bottom that scrolls. -/
theorem Follows.wrapped (follows : Follows fg bg text term) (full : text.last.length = 80)
    {c : UInt8} (wrote : Wrote c term after) : Follows fg bg (text.push [c]) after := by
  have notRoom : ¬ term.cursorCol < 80 := by
    rw [follows.col]
    omega
  have atStart : wrapCol term = 0 := if_neg notRoom
  have length := text.rows_length
  have row := follows.row
  unfold TextRows.lastRow at row
  by_cases room : text.rows.length < 25
  · have below : term.cursorRow + 1 < 25 := by omega
    have next : wrapRow term = text.rows.length := by
      rw [wrapRow, if_neg notRoom, if_pos below]
      omega
    have screen : wrapScreen term = term.screenBuffer := if_pos (.inr below)
    refine ⟨⟨fun r col inside => ?_, ?_⟩, ?_, ?_, ?_, ?_⟩
    · rw [wrote.cell, next, atStart, text.shown_push_of_lt [c] room, follows.inked, screen,
        follows.screen r col inside]
      by_cases new : r = text.rows.length
      · have beyond : text.rows.length ≤ text.rows.length - 25 + r := by omega
        cases col with
        | zero => simp [new]
        | succ col =>
            rw [if_neg (by omega), if_pos new, TextRows.shown, List.getElem?_eq_none beyond]
            rfl
      · rw [if_neg (by omega), if_neg new]
    · rw [wrote.row, next, text.lastRow_push, if_pos room]
    · rw [wrote.col, atStart]
      rfl
    · simp
    · exact wrote.fg.trans follows.fg
    · exact wrote.bg.trans follows.bg
  · have atBottom : ¬ term.cursorRow + 1 < 25 := by omega
    have next : wrapRow term = 24 := by rw [wrapRow, if_neg notRoom, if_neg atBottom]
    have screen : wrapScreen term = scrolled term := if_neg (not_or.mpr ⟨notRoom, atBottom⟩)
    refine ⟨⟨fun r col inside => ?_, ?_⟩, ?_, ?_, ?_, ?_⟩
    · rw [wrote.cell, next, atStart, text.shown_push_of_le [c] (by omega) inside.1, follows.inked,
        screen, follows.scrolled_cell inside]
      by_cases new : r = 24
      · cases col with
        | zero => simp [new]
        | succ col => simp [new]
      · rw [if_neg (by omega), if_neg new, if_neg new]
    · rw [wrote.row, next, text.lastRow_push, if_neg room]
    · rw [wrote.col, atStart]
      rfl
    · simp
    · exact wrote.fg.trans follows.fg
    · exact wrote.bg.trans follows.bg

/-- Otherwise the row grows. -/
theorem Follows.extended (follows : Follows fg bg text term) (room : text.last.length < 80)
    {c : UInt8} (wrote : Wrote c term after) : Follows fg bg (text.extend c) after := by
  have inRow : term.cursorCol < 80 := by rwa [follows.col]
  have row : wrapRow term = text.lastRow 25 := by rw [wrapRow, if_pos inRow, follows.row]
  have col : wrapCol term = text.last.length := by rw [wrapCol, if_pos inRow, follows.col]
  have screen : wrapScreen term = term.screenBuffer := if_pos (.inl inRow)
  refine ⟨⟨fun r c inside => ?_, ?_⟩, ?_, ?_, ?_, ?_⟩
  · rw [wrote.cell, row, col, text.shown_extend _ inside.1, follows.inked, screen,
      follows.screen r c inside]
    split
    case isTrue => rfl
    case isFalse => rfl
  · rw [wrote.row, row, text.lastRow_extend]
  · rw [wrote.col, col]
    simp
  · rw [TextRows.extend_last, List.length_append]
    exact room
  · exact wrote.fg.trans follows.fg
  · exact wrote.bg.trans follows.bg

theorem Follows.character (follows : Follows fg bg text term) {c : UInt8} (notNewline : c ≠ 10)
    (notBackspace : c ≠ 8) :
    ∃ after, vtermWriteChar c term = some after ∧ Follows fg bg (text.write 10 80 c) after := by
  obtain ⟨after, write, wrote⟩ := vtermWriteChar_other follows.bounded notNewline notBackspace
  refine ⟨after, write, ?_⟩
  rw [TextRows.write, if_neg notNewline]
  have short := follows.short
  by_cases room : text.last.length < 80
  · rw [if_pos room]
    exact follows.extended room wrote
  · rw [if_neg room]
    exact follows.wrapped (by omega) wrote

/-! ## Whole texts -/

/-- Every character of the string but NUL and `'\b'` is laid out. -/
def Text (string : List UInt8) : Prop := ∀ c ∈ string, c ≠ 0 ∧ c ≠ 8

/-- Written into a cleared screen, the string is shown as it is laid out. -/
def WritesLayout (fg bg : VTermColor) (term : VTerm) (string : List UInt8) : Prop :=
  ∃ start after, vtermClear fg bg term = some start ∧ vtermWrite string start = some after ∧
    ShowsText fg bg (rowsOf string) after

/-- Every `'\n'` that finds 25 rows or more finds them blank. -/
def NewlinesScroll (string : List UInt8) : Prop :=
  ∀ front back, string = front ++ 10 :: back → 25 ≤ (rowsOf front).rows.length →
    Blank (rowsOf front)

theorem vtermWrite_cons {c : UInt8} (rest : List UInt8) (notNul : c ≠ 0) :
    vtermWrite (c :: rest) term = (vtermWriteChar c term).bind (vtermWrite rest) :=
  if_neg notNul

theorem vtermWrite_concat {front : List UInt8} {c : UInt8} (isText : Text (front ++ [c])) :
    vtermWrite (front ++ [c]) term = (vtermWrite front term).bind (vtermWriteChar c) := by
  induction front generalizing term with
  | nil =>
      have done : vtermWrite [] = some := funext fun _ => rfl
      rw [List.nil_append, vtermWrite_cons [] (isText c (by simp)).1, done, Option.bind_fun_some]
      rfl
  | cons first front ih =>
      have notNul : first ≠ 0 := (isText first (by simp)).1
      have rest : Text (front ++ [c]) := fun other member =>
        isText other (List.mem_cons_of_mem _ member)
      rw [List.cons_append, vtermWrite_cons _ notNul, vtermWrite_cons _ notNul, Option.bind_assoc]
      exact Option.bind_congr fun next _ => ih rest

theorem NewlinesScroll.front {front back : List UInt8} (scroll : NewlinesScroll (front ++ back)) :
    NewlinesScroll front := by
  intro first second split
  subst split
  exact scroll first (second ++ back) (by simp)

/-- By induction on the string: what the code shows after every character. -/
theorem follows_of_newlinesScroll (string : List UInt8) (isText : Text string)
    (scroll : NewlinesScroll string) (start : Follows fg bg TextRows.empty term) :
    ∃ after, vtermWrite string term = some after ∧ Follows fg bg (rowsOf string) after := by
  induction string using List.reverseRecOn with
  | nil => exact ⟨term, rfl, start⟩
  | append_singleton front c ih =>
      obtain ⟨middle, written, follows⟩ :=
        ih (fun other member => isText other (List.mem_append_left _ member)) scroll.front
      rw [vtermWrite_concat isText, written, Option.bind_some, rowsOf, TextRows.layout_concat]
      by_cases newline : c = 10
      · subst newline
        rw [TextRows.write, if_pos rfl]
        by_cases room : (rowsOf front).rows.length < 25
        · exact follows.newline_upper room
        · have full := Nat.not_lt.mp room
          obtain ⟨after, wrote, _, continues⟩ := follows.newline_bottom full
          exact ⟨after, wrote, continues (scroll front [] rfl full)⟩
      · exact follows.character newline (isText c (by simp)).2

/-- After a `'\n'` on the bottom row the screen is right only where it is blank. -/
theorem blank_of_writesLayout {front : List UInt8} (isText : Text (front ++ [10]))
    (scroll : NewlinesScroll front) (full : 25 ≤ (rowsOf front).rows.length)
    (writes : WritesLayout fg bg term (front ++ [10])) : Blank (rowsOf front) := by
  obtain ⟨start, after, clear, written, shows⟩ := writes
  obtain ⟨blank, cleared, isCleared, _⟩ := vtermClear_spec term fg bg
  obtain rfl := Option.some.inj (cleared.symm.trans clear)
  obtain ⟨middle, before, follows⟩ := follows_of_newlinesScroll front
    (fun c member => isText c (List.mem_append_left _ member)) scroll isCleared.follows
  obtain ⟨next, newline, blankOf, _⟩ := follows.newline_bottom full
  rw [vtermWrite_concat isText, before, Option.bind_some, newline] at written
  obtain rfl := Option.some.inj written
  rw [rowsOf, TextRows.layout_concat, TextRows.write, if_pos rfl] at shows
  exact blankOf shows

/-- The text is shown as it is laid out after each of its characters if and only if no
`'\n'` finds anything but blanks on a screen whose bottom row is reached. -/
theorem writesLayout_iff (term : VTerm) (fg bg : VTermColor) (string : List UInt8)
    (isText : Text string) :
    (∀ front back, string = front ++ back → WritesLayout fg bg term front) ↔
      NewlinesScroll string := by
  constructor
  · intro writes
    induction string using List.reverseRecOn with
    | nil =>
        intro front back split
        simp at split
    | append_singleton string c ih =>
        have earlier : NewlinesScroll string :=
          ih (fun other member => isText other (List.mem_append_left _ member))
            fun front back split => writes front (back ++ [c]) (by rw [split, List.append_assoc])
        intro front back split full
        rcases List.eq_nil_or_concat back with rfl | ⟨back, other, rfl⟩
        · obtain ⟨rfl, same⟩ := List.append_inj' split rfl
          obtain rfl := List.singleton_inj.mp same
          exact blank_of_writesLayout isText earlier full
            (writes _ [] (List.append_nil _).symm)
        · have inner : string ++ [c] = (front ++ 10 :: back) ++ [other] := by
            rw [split, List.concat_eq_append, List.append_assoc, List.cons_append]
          exact earlier front back (List.append_inj' inner rfl).1 full
  · rintro scroll front back rfl
    obtain ⟨start, clear, cleared, _⟩ := vtermClear_spec term fg bg
    obtain ⟨after, written, follows⟩ := follows_of_newlinesScroll front
      (fun c member => isText c (List.mem_append_left _ member)) scroll.front cleared.follows
    exact ⟨start, after, clear, written, follows.toShowsText⟩

theorem writesLayout_iff_sample :
    (∀ front back, ([97, 10, 98] : List UInt8) = front ++ back →
      WritesLayout .white .black (VTerm.static fun _ => 0) front) ∧
      NewlinesScroll [97, 10, 98] := by
  have scroll : NewlinesScroll [97, 10, 98] := by
    intro front back split full
    have few := TextRows.layout_rows_length_le 10 80 front
    have length := congrArg List.length split
    rw [List.length_append] at length
    exact absurd (Nat.le_trans full few) (by simp at length; omega)
  exact ⟨(writesLayout_iff _ .white .black [97, 10, 98] (by simp [Text])).mpr scroll, scroll⟩

/-- On the bottom row, the `'a'` of `"a\n"` does not move up. -/
theorem writesLayout_fails :
    ¬ ∀ (term : VTerm) (fg bg : VTermColor) (string : List UInt8), Text string →
      WritesLayout fg bg term string := by
  intro writes
  have isText : Text ((List.replicate 24 10 ++ [97]) ++ [10]) := by
    intro c member
    have shape : c = 10 ∨ c = 97 := by
      simp at member
      tauto
    rcases shape with rfl | rfl <;> decide
  have scroll : NewlinesScroll (List.replicate 24 10 ++ [97]) := by
    intro front back split full
    have few := TextRows.layout_rows_length_le 10 80 front
    have length := congrArg List.length split
    rcases List.eq_nil_or_concat back with rfl | ⟨back, other, rfl⟩
    · cases List.singleton_inj.mp (List.append_inj' split rfl).2
    · exact absurd (Nat.le_trans full few) (by simp at length; omega)
  have blank := blank_of_writesLayout isText scroll (by decide)
    (writes (VTerm.static fun _ => 0) .white .black _ isText)
  exact absurd (blank 24 0 (by decide)) (by decide)

end KdbOS.Vterm
