import KdbOS.Drivers.Keyboard
import KdbOS.Vterm.VtermBounds

/-! Keyboard interrupts between the calls on the terminal: no access leaves its array. -/

set_option autoImplicit false

namespace KdbOS.Drivers

open Library Arch Vterm

variable {term : VTerm} {console : Console}

/-- The interrupt or call stays inside the arrays and leaves the cursor on the screen. -/
def ConsoleSucceeds (result : Option Console) : Prop :=
  ∃ after, result = some after ∧ after.vterm.Bounded

theorem arrowKey_bounded (bounded : term.Bounded) (scancode : UInt8) :
    (arrowKey scancode term).Bounded := by
  unfold arrowKey
  split
  case isTrue => exact bounded.moveCursor _ _
  case isFalse =>
    split
    case isTrue => exact bounded.moveCursor _ _
    case isFalse =>
      split
      case isTrue => exact bounded.moveCursor _ _
      case isFalse =>
        split
        case isTrue => exact bounded.moveCursor _ _
        case isFalse => exact bounded

theorem typeKey_succeeds (bounded : console.vterm.Bounded) (scancode : UInt8) :
    ConsoleSucceeds (typeKey scancode console) := by
  unfold typeKey
  by_cases high : scancode ≥ 128
  · rw [if_pos high]
    exact ⟨console, rfl, bounded⟩
  · have index : scancode.toNat < 128 := UInt8.lt_iff_toNat_lt.mp (UInt8.not_le.mp high)
    have plain : kbdUsMap[scancode.toNat]? = some kbdUsMap[scancode.toNat] :=
      List.getElem?_eq_getElem index
    have shifted : kbdUsShiftedMap[scancode.toNat]? = some kbdUsShiftedMap[scancode.toNat] :=
      List.getElem?_eq_getElem index
    rw [if_neg high, plain, Option.bind_eq_bind, Option.bind_some]
    generalize useUppercase kbdUsMap[scancode.toNat] console = upper
    obtain ⟨ascii, found⟩ : ∃ ascii,
        (if upper then kbdUsShiftedMap else kbdUsMap)[scancode.toNat]? = some ascii := by
      cases upper with
      | false => exact ⟨_, plain⟩
      | true => exact ⟨_, shifted⟩
    simp only [found, Option.bind_eq_bind, Option.bind_some]
    split
    case isTrue =>
      obtain ⟨after, wrote, afterBounded⟩ := bounded.writeChar ascii
      rw [wrote]
      exact ⟨console.setVterm after, rfl, afterBounded⟩
    case isFalse => exact ⟨console, rfl, bounded⟩

theorem decodeScancode_succeeds (bounded : console.vterm.Bounded) (scancode : UInt8) :
    ConsoleSucceeds (decodeScancode scancode console) := by
  unfold decodeScancode
  by_cases extendedCode : scancode = 0xE0
  · rw [if_pos extendedCode]
    exact ⟨_, rfl, bounded⟩
  · rw [if_neg extendedCode]
    by_cases extended : console.isExtended = true
    · rw [if_pos extended]
      split
      case isTrue => exact ⟨_, rfl, bounded⟩
      case isFalse => exact ⟨_, rfl, arrowKey_bounded bounded scancode⟩
    · rw [if_neg extended]
      split
      case isTrue =>
        dsimp only
        split
        case isTrue => exact ⟨_, rfl, bounded⟩
        case isFalse => exact ⟨_, rfl, bounded⟩
      case isFalse =>
        split
        case isTrue => exact ⟨_, rfl, bounded⟩
        case isFalse =>
          split
          case isTrue => exact ⟨_, rfl, bounded⟩
          case isFalse => exact typeKey_succeeds bounded scancode

theorem ConsoleOp.perform_succeeds (bounded : console.vterm.Bounded) (op : ConsoleOp) :
    ConsoleSucceeds (op.perform console) := by
  cases op with
  | vterm op =>
      obtain ⟨after, performed, afterBounded⟩ := op.perform_succeeds bounded
      refine ⟨console.setVterm after, ?_, afterBounded⟩
      rw [ConsoleOp.perform, performed]
      rfl
  | keyboardHandler status scancode =>
      show ConsoleSucceeds (Drivers.keyboardHandler status scancode console)
      unfold Drivers.keyboardHandler
      split
      case isTrue =>
        refine decodeScancode_succeeds ?_ scancode
        exact bounded.of_fields rfl rfl rfl
      case isFalse => exact ⟨console, rfl, bounded⟩

theorem Console.static_bounded (framebuffer : Framebuffer) :
    (Console.static framebuffer).vterm.Bounded :=
  ⟨Nat.zero_lt_succ _, Nat.zero_le _, fun _ _ _ => ⟨Nat.zero_lt_succ _, Nat.zero_lt_succ _⟩⟩

/-- Whatever the calls and the interrupts, all array accesses are in bounds and the cursor
stays on the screen. -/
theorem console_in_bounds (framebuffer : Framebuffer) (ops : List ConsoleOp) :
    ∃ console, ops.foldlM ConsoleOp.perform (Console.static framebuffer) = some console ∧
      console.vterm.cursorRow < 25 ∧ console.vterm.cursorCol ≤ 80 := by
  have start := Console.static_bounded framebuffer
  generalize Console.static framebuffer = console at start
  induction ops generalizing console with
  | nil => exact ⟨console, rfl, start.row, start.col⟩
  | cons op rest ih =>
      obtain ⟨after, performed, afterBounded⟩ := op.perform_succeeds start
      rw [List.foldlM_cons, performed]
      exact ih after afterBounded

end KdbOS.Drivers
