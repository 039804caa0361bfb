import KdbOS.Drivers.KeyboardBounds
import Mathlib.Data.List.Induction

/-! The shift keys behind `shift_pressed`: what the flag says of the two keys, and the case of
the letters that are typed. -/

set_option autoImplicit false

namespace KdbOS.Drivers

open Library Arch Vterm

/-- The scancodes that the handler reads, in order. -/
def handled (ops : List ConsoleOp) : List UInt8 :=
  ops.filterMap fun op => match op with
    | .keyboardHandler status scancode => if status &&& 0x01 ≠ 0 then some scancode else none
    | .vterm _ => none

/-- Whether the latest make or break code of a key is a make code, in a stream that is given with
its newest scancode first. What follows a `0xE0` is part of a prefixed sequence. -/
def keyHeld (makeCode : UInt8) : List UInt8 → Bool
  | [] => false
  | scancode :: earlier =>
      if scancode = 0xE0 ∨ earlier.head? = some 0xE0 then keyHeld makeCode earlier
      else if scancode = makeCode then true
      else if scancode = makeCode ||| 0x80 then false
      else keyHeld makeCode earlier

/-- One of the two shift keys is held after the stream. -/
def shiftHeld (stream : List UInt8) : Bool :=
  keyHeld 0x2A stream.reverse || keyHeld 0x36 stream.reverse

/-- The character that a scancode types. -/
def typedChar (scancode : UInt8) (console : Console) : Option UInt8 :=
  if scancode = 0xE0 ∨ console.isExtended ∨ scancode &&& 0x80 ≠ 0 ∨
      scancode = 0x2A ∨ scancode = 0x36 ∨ scancode = 0x3A then none
  else do
    let baseChar ← kbdUsMap[scancode.toNat]?
    let map := if useUppercase baseChar console then kbdUsShiftedMap else kbdUsMap
    let ascii ← map[scancode.toNat]?
    if ascii ≠ 0 then some ascii else none

def isUpper (ascii : UInt8) : Prop := 65 ≤ ascii ∧ ascii ≤ 90

def isLetter (ascii : UInt8) : Prop := isUpper ascii ∨ 97 ≤ ascii ∧ ascii ≤ 122

instance (ascii : UInt8) : Decidable (isUpper ascii) := inferInstanceAs (Decidable (_ ∧ _))

instance (ascii : UInt8) : Decidable (isLetter ascii) := inferInstanceAs (Decidable (_ ∨ _))

variable {scancode ascii : UInt8} {start console after : Console} {op : ConsoleOp}
variable {ops : List ConsoleOp} {stream : List UInt8}

/-! ## One scancode -/

theorem forall_byte {Holds : UInt8 → Prop}
    (all : ∀ value : Fin 256, Holds (UInt8.ofFin value)) (byte : UInt8) : Holds byte :=
  all byte.toFin

theorem high_iff : ∀ scancode : UInt8, scancode &&& 0x80 ≠ 0 ↔ scancode ≥ 128 :=
  forall_byte (by decide +kernel)

theorem released_iff : ∀ scancode : UInt8, scancode &&& 0x80 ≠ 0 →
    ((scancode &&& 0x7F = 0x2A ∨ scancode &&& 0x7F = 0x36) ↔
      (scancode = 0xAA ∨ scancode = 0xB6)) :=
  forall_byte (by decide +kernel)

/-- What a scancode does to the two flags. -/
structure Decoded (scancode : UInt8) (console after : Console) : Prop where
  extended : after.isExtended = decide (scancode = 0xE0)
  shift : after.shiftPressed =
    if scancode = 0xE0 ∨ console.isExtended then console.shiftPressed
    else if scancode = 0x2A ∨ scancode = 0x36 then true
    else if scancode = 0xAA ∨ scancode = 0xB6 then false
    else console.shiftPressed

private theorem typeKey_flags (typed : typeKey scancode console = some after) :
    after.isExtended = console.isExtended ∧ after.shiftPressed = console.shiftPressed := by
  unfold typeKey at typed
  split at typed
  case isTrue =>
    cases typed
    exact ⟨rfl, rfl⟩
  case isFalse =>
    obtain ⟨baseChar, _, typed⟩ := Option.bind_eq_some_iff.mp typed
    obtain ⟨ascii, _, typed⟩ := Option.bind_eq_some_iff.mp typed
    split at typed
    case isTrue =>
      obtain ⟨vterm, _, equal⟩ := Option.bind_eq_some_iff.mp typed
      cases equal
      exact ⟨rfl, rfl⟩
    case isFalse =>
      cases typed
      exact ⟨rfl, rfl⟩

theorem decodeScancode_flags (decoded : decodeScancode scancode console = some after) :
    Decoded scancode console after := by
  unfold decodeScancode at decoded
  by_cases extendedCode : scancode = 0xE0
  · rw [if_pos extendedCode] at decoded
    cases decoded
    exact ⟨by rw [decide_eq_true extendedCode]; rfl, by rw [if_pos (.inl extendedCode)]; rfl⟩
  · rw [if_neg extendedCode] at decoded
    have notExtended : decide (scancode = 0xE0) = false := decide_eq_false extendedCode
    by_cases extended : console.isExtended = true
    · rw [if_pos extended] at decoded
      dsimp only at decoded
      split at decoded <;> cases decoded
      · exact ⟨notExtended.symm, by rw [if_pos (.inr extended)]; rfl⟩
      · exact ⟨notExtended.symm, by rw [if_pos (.inr extended)]; rfl⟩
    · rw [if_neg extended] at decoded
      have plain : ¬ (scancode = 0xE0 ∨ console.isExtended = true) := not_or.mpr
        ⟨extendedCode, extended⟩
      have unset : console.isExtended = false := Bool.eq_false_iff.mpr extended
      by_cases high : scancode &&& 0x80 ≠ 0
      · rw [if_pos high] at decoded
        dsimp only at decoded
        have notMake : ¬ (scancode = 0x2A ∨ scancode = 0x36) := by
          rintro (rfl | rfl) <;> exact high (by decide)
        simp only [released_iff scancode high] at decoded
        split at decoded
        case isTrue released =>
          cases decoded
          refine ⟨unset.trans notExtended.symm, ?_⟩
          rw [if_neg plain, if_neg notMake, if_pos released]
          rfl
        case isFalse released =>
          cases decoded
          refine ⟨unset.trans notExtended.symm, ?_⟩
          rw [if_neg plain, if_neg notMake, if_neg released]
      · rw [if_neg high] at decoded
        have notBreak : ¬ (scancode = 0xAA ∨ scancode = 0xB6) := by
          rintro (rfl | rfl) <;> exact high (by decide)
        split at decoded
        case isTrue make =>
          cases decoded
          refine ⟨unset.trans notExtended.symm, ?_⟩
          rw [if_neg plain, if_pos make]
          rfl
        case isFalse notMake =>
          have kept : after.isExtended = console.isExtended ∧
              after.shiftPressed = console.shiftPressed := by
            split at decoded
            case isTrue =>
              cases decoded
              exact ⟨rfl, rfl⟩
            case isFalse => exact typeKey_flags decoded
          refine ⟨kept.1.trans (unset.trans notExtended.symm), ?_⟩
          rw [if_neg plain, if_neg notMake, if_neg notBreak, kept.2]

/-- `typedChar` is what the decoder writes to the terminal. -/
theorem decodeScancode_typed (typed : typedChar scancode console = some ascii) :
    decodeScancode scancode console =
      (vtermWriteChar ascii console.vterm).map fun vterm => console.setVterm vterm := by
  unfold typedChar at typed
  split at typed
  case isTrue => cases typed
  case isFalse plain =>
    simp only [not_or] at plain
    obtain ⟨notPrefix, notExtended, low, notLeft, notRight, notCaps⟩ := plain
    obtain ⟨baseChar, base, typed⟩ := Option.bind_eq_some_iff.mp typed
    obtain ⟨found, mapped, typed⟩ := Option.bind_eq_some_iff.mp typed
    split at typed
    case isFalse => cases typed
    case isTrue nonzero =>
      cases typed
      rw [decodeScancode, if_neg notPrefix, if_neg notExtended, if_neg low,
        if_neg (not_or.mpr ⟨notLeft, notRight⟩), if_neg notCaps, typeKey,
        if_neg (fun high => low ((high_iff scancode).mpr high)), base, Option.bind_eq_bind,
        Option.bind_some]
      simp only [mapped, Option.bind_eq_bind, Option.bind_some]
      rw [if_pos nonzero]
      cases vtermWriteChar ascii console.vterm with
      | none => rfl
      | some vterm => rfl

/-- Without a character the terminal is left alone, but for the arrow keys. -/
theorem decodeScancode_untyped (untyped : typedChar scancode console = none)
    (decoded : decodeScancode scancode console = some after) :
    after.vterm = console.vterm ∨
      console.isExtended = true ∧ after.vterm = arrowKey scancode console.vterm := by
  unfold decodeScancode at decoded
  split at decoded
  case isTrue =>
    cases decoded
    exact .inl rfl
  case isFalse notPrefix =>
    split at decoded
    case isTrue extended =>
      dsimp only at decoded
      split at decoded <;> cases decoded
      · exact .inl rfl
      · exact .inr ⟨extended, rfl⟩
    case isFalse notExtended =>
      split at decoded
      case isTrue =>
        dsimp only at decoded
        split at decoded <;> cases decoded <;> exact .inl rfl
      case isFalse low =>
        split at decoded
        case isTrue =>
          cases decoded
          exact .inl rfl
        case isFalse notShift =>
          split at decoded
          case isTrue =>
            cases decoded
            exact .inl rfl
          case isFalse notCaps =>
            obtain ⟨notLeft, notRight⟩ := not_or.mp notShift
            rw [typedChar, if_neg (by
              simp only [not_or]
              exact ⟨notPrefix, notExtended, low, notLeft, notRight, notCaps⟩)] at untyped
            rw [typeKey, if_neg (fun high => low ((high_iff scancode).mpr high))] at decoded
            obtain ⟨baseChar, base, decoded⟩ := Option.bind_eq_some_iff.mp decoded
            obtain ⟨found, mapped, decoded⟩ := Option.bind_eq_some_iff.mp decoded
            rw [base, Option.bind_eq_bind, Option.bind_some] at untyped
            simp only [mapped, Option.bind_some] at untyped
            split at decoded
            case isTrue nonzero =>
              rw [if_pos nonzero] at untyped
              cases untyped
            case isFalse =>
              cases decoded
              exact .inl rfl

/-- Only the letter keys type letters, in upper case on the shifted map. -/
private theorem maps_case : ∀ index ∈ List.range 128, ∀ upper : Bool, ∀ base ∈ kbdUsMap[index]?.toList,
    ∀ ascii ∈ (if upper then kbdUsShiftedMap else kbdUsMap)[index]?.toList, isLetter ascii →
      (base ≥ 97 ∧ base ≤ 122) ∧ (isUpper ascii ↔ upper = true) := by
  decide +kernel

theorem typedChar_case (typed : typedChar scancode console = some ascii)
    (letter : isLetter ascii) :
    isUpper ascii ↔ console.shiftPressed ≠ console.capsLockActive := by
  unfold typedChar at typed
  split at typed
  case isTrue => cases typed
  case isFalse plain =>
    simp only [not_or] at plain
    obtain ⟨baseChar, base, typed⟩ := Option.bind_eq_some_iff.mp typed
    obtain ⟨found, mapped, typed⟩ := Option.bind_eq_some_iff.mp typed
    split at typed
    case isFalse => cases typed
    case isTrue =>
      cases typed
      have index : scancode.toNat < 128 := UInt8.lt_iff_toNat_lt.mp
        (UInt8.not_le.mp fun high => plain.2.2.1 ((high_iff scancode).mpr high))
      obtain ⟨isBase, upper⟩ := maps_case scancode.toNat (List.mem_range.mpr index) (useUppercase baseChar console)
        baseChar (Option.mem_toList.mpr base) ascii (Option.mem_toList.mpr mapped) letter
      rw [upper, useUppercase]
      cases shift : console.shiftPressed <;> cases caps : console.capsLockActive <;>
        simp [isBase]

/-! ## Streams -/

private theorem handled_append (front back : List ConsoleOp) :
    handled (front ++ back) = handled front ++ handled back :=
  List.filterMap_append

/-- An operation handles no scancode and leaves the flags, or decodes the one it handles. -/
private theorem perform_flags (performed : op.perform console = some after) :
    handled [op] = [] ∧ after.isExtended = console.isExtended ∧
        after.shiftPressed = console.shiftPressed ∨
      ∃ scancode, handled [op] = [scancode] ∧ Decoded scancode console after := by
  cases op with
  | vterm op =>
      obtain ⟨vterm, _, equal⟩ := Option.bind_eq_some_iff.mp performed
      cases equal
      exact .inl ⟨rfl, rfl, rfl⟩
  | keyboardHandler status scancode =>
      change Drivers.keyboardHandler status scancode console = some after at performed
      unfold Drivers.keyboardHandler at performed
      split at performed
      case isTrue full =>
        obtain ⟨extended, shift⟩ := decodeScancode_flags performed
        exact .inr ⟨scancode, by simp [handled, full], extended, shift⟩
      case isFalse empty =>
        cases performed
        exact .inl ⟨by simpa [handled] using empty, rfl, rfl⟩

/-- The state that a decoder starts in. -/
structure Console.Reset (console : Console) : Prop where
  shift : console.shiftPressed = false
  caps : console.capsLockActive = false
  extended : console.isExtended = false
  bounded : console.vterm.Bounded

/-- The `0xE0` flag after a stream. -/
def Prefixed (stream : List UInt8) : Bool := stream.getLast? = some 0xE0

/-- After every operation `shift_pressed` says whether a shift key is held. -/
def ShiftTracked (start : Console) (ops : List ConsoleOp) : Prop :=
  ∀ front back, ops = front ++ back → ∃ console,
    front.foldlM ConsoleOp.perform start = some console ∧
    console.shiftPressed = shiftHeld (handled front)

/-- Every letter typed is in upper case exactly when shift is held and caps lock is off, or the
other way round. -/
def LettersCased (start : Console) (ops : List ConsoleOp) : Prop :=
  ∀ front status scancode back, ops = front ++ .keyboardHandler status scancode :: back →
    status &&& 0x01 ≠ 0 → ∃ console,
      front.foldlM ConsoleOp.perform start = some console ∧
      ∀ ascii, typedChar scancode console = some ascii → isLetter ascii →
        (isUpper ascii ↔ shiftHeld (handled front) ≠ console.capsLockActive)

/-- No shift key is released while the other one is held. -/
def ReleasedAlone (ops : List ConsoleOp) : Prop :=
  ∀ front status scancode back, ops = front ++ .keyboardHandler status scancode :: back →
    status &&& 0x01 ≠ 0 → Prefixed (handled front) = false →
    (scancode = 0xAA → keyHeld 0x36 (handled front).reverse = false) ∧
    (scancode = 0xB6 → keyHeld 0x2A (handled front).reverse = false)

private theorem shiftHeld_concat (stream : List UInt8) (scancode : UInt8) :
    shiftHeld (stream ++ [scancode]) =
      if scancode = 0xE0 ∨ Prefixed stream = true then shiftHeld stream
      else if scancode = 0x2A ∨ scancode = 0x36 then true
      else if scancode = 0xAA then keyHeld 0x36 stream.reverse
      else if scancode = 0xB6 then keyHeld 0x2A stream.reverse
      else shiftHeld stream := by
  have newest : stream.reverse.head? = some 0xE0 ↔ Prefixed stream = true := by
    rw [List.head?_reverse, Prefixed, decide_eq_true_iff]
  have breakCodes : (0x2A ||| 0x80 : UInt8) = 0xAA ∧ (0x36 ||| 0x80 : UInt8) = 0xB6 := ⟨rfl, rfl⟩
  simp only [shiftHeld, List.reverse_append, List.reverse_singleton, List.singleton_append,
    keyHeld, newest, breakCodes]
  by_cases skipped : scancode = 0xE0 ∨ Prefixed stream = true
  · simp only [if_pos skipped]
  · simp only [if_neg skipped]
    by_cases left : scancode = 0x2A
    · subst left
      simp
    · by_cases right : scancode = 0x36
      · subst right
        simp
      · by_cases leftBreak : scancode = 0xAA
        · subst leftBreak
          simp
        · by_cases rightBreak : scancode = 0xB6
          · subst rightBreak
            simp
          · simp [left, right, leftBreak, rightBreak]

/-- The decoder's state after a stream, the flag of the shift keys apart. -/
private theorem run_extended (reset : start.Reset) (front : List ConsoleOp) :
    ∃ console, front.foldlM ConsoleOp.perform start = some console ∧
      console.isExtended = Prefixed (handled front) ∧ console.vterm.Bounded := by
  induction front using List.reverseRecOn with
  | nil => exact ⟨start, rfl, reset.extended, reset.bounded⟩
  | append_singleton front op ih =>
      obtain ⟨console, reached, extended, bounded⟩ := ih
      obtain ⟨after, performed, afterBounded⟩ := op.perform_succeeds bounded
      refine ⟨after, ?_, ?_, afterBounded⟩
      · rw [List.foldlM_append, reached]
        simpa using performed
      · rw [handled_append]
        rcases perform_flags performed with ⟨none, same, _⟩ | ⟨scancode, one, decoded⟩
        · rw [none, List.append_nil, same, extended]
        · rw [one, decoded.extended, Prefixed, List.getLast?_concat]
          simp

/-- The flag follows the keys over the last operation, unless that releases one of two. -/
private theorem shift_step {front : List ConsoleOp} (performed : op.perform console = some after)
    (extended : console.isExtended = Prefixed (handled front))
    (tracked : console.shiftPressed = shiftHeld (handled front)) (alone : ReleasedAlone ops)
    {back : List ConsoleOp} (split : ops = front ++ op :: back) :
    after.shiftPressed = shiftHeld (handled (front ++ [op])) := by
  rw [handled_append]
  rcases perform_flags performed with ⟨none, _, same⟩ | ⟨scancode, one, decoded⟩
  · rw [none, List.append_nil, same, tracked]
  · rw [one, shiftHeld_concat, decoded.shift, extended, tracked]
    by_cases skipped : scancode = 0xE0 ∨ Prefixed (handled front) = true
    · rw [if_pos skipped, if_pos skipped]
    · have single : (scancode = 0xAA → keyHeld 0x36 (handled front).reverse = false) ∧
          (scancode = 0xB6 → keyHeld 0x2A (handled front).reverse = false) := by
        cases op with
        | vterm op => cases one
        | keyboardHandler status code =>
            by_cases full : status &&& 0x01 ≠ 0
            · have same : code = scancode := by simpa [handled, full] using one
              obtain rfl := same
              exact alone front status code back split full
                (Bool.eq_false_iff.mpr (not_or.mp skipped).2)
            · simp [handled, full] at one
      rw [if_neg skipped, if_neg skipped]
      by_cases make : scancode = 0x2A ∨ scancode = 0x36
      · rw [if_pos make, if_pos make]
      · rw [if_neg make, if_neg make]
        by_cases left : scancode = 0xAA
        · rw [if_pos (.inl left), if_pos left, single.1 left]
        · by_cases right : scancode = 0xB6
          · rw [if_pos (.inr right), if_neg left, if_pos right, single.2 right]
          · rw [if_neg (not_or.mpr ⟨left, right⟩), if_neg left, if_neg right]

private theorem tracked_of_releasedAlone (reset : start.Reset) (alone : ReleasedAlone ops) :
    ShiftTracked start ops := by
  intro front
  induction front using List.reverseRecOn with
  | nil => exact fun _ _ => ⟨start, rfl, reset.shift⟩
  | append_singleton front op ih =>
      intro back split
      have inner : ops = front ++ op :: back := by simpa using split
      obtain ⟨console, reached, tracked⟩ := ih _ inner
      obtain ⟨known, knownReached, extended, bounded⟩ := run_extended reset front
      obtain rfl := Option.some.inj (reached.symm.trans knownReached)
      obtain ⟨after, performed, _⟩ := op.perform_succeeds bounded
      refine ⟨after, ?_, shift_step performed extended tracked alone inner⟩
      rw [List.foldlM_append, reached]
      simpa using performed

private theorem releasedAlone_of_tracked (reset : start.Reset) (tracked : ShiftTracked start ops) :
    ReleasedAlone ops := by
  intro front status scancode back split full plain
  obtain ⟨after, reached, agrees⟩ := tracked (front ++ [.keyboardHandler status scancode]) back
    (by simpa using split)
  obtain ⟨console, before, extended, _⟩ := run_extended reset front
  rw [List.foldlM_append, before] at reached
  have performed : (ConsoleOp.keyboardHandler status scancode).perform console = some after := by
    simpa using reached
  have one : handled [.keyboardHandler status scancode] = [scancode] := by simp [handled, full]
  rw [handled_append, one, shiftHeld_concat] at agrees
  rcases perform_flags performed with ⟨none, _⟩ | ⟨code, same, decoded⟩
  · rw [one] at none
    cases none
  · obtain rfl := (List.cons.inj (one.symm.trans same)).1
    rw [decoded.shift, extended, plain] at agrees
    constructor
    · rintro rfl
      simpa using agrees.symm
    · rintro rfl
      simpa using agrees.symm

private theorem lettersCased_of_tracked (tracked : ShiftTracked start ops) :
    LettersCased start ops := by
  intro front status scancode back split _
  obtain ⟨console, reached, agrees⟩ := tracked front _ split
  refine ⟨console, reached, fun ascii typed letter => ?_⟩
  rw [← agrees]
  exact typedChar_case typed letter

/-- The flag is right after every byte, and the letters are, exactly when no shift key is
released while the other one is held. -/
theorem shift_tracked_iff (reset : start.Reset) (ops : List ConsoleOp) :
    ShiftTracked start ops ∧ LettersCased start ops ↔ ReleasedAlone ops := by
  constructor
  · exact fun both => releasedAlone_of_tracked reset both.1
  · intro alone
    have tracked := tracked_of_releasedAlone reset alone
    exact ⟨tracked, lettersCased_of_tracked tracked⟩

theorem Console.static_reset (framebuffer : Framebuffer) : (Console.static framebuffer).Reset :=
  ⟨rfl, rfl, rfl, Console.static_bounded framebuffer⟩

/-- Both shift keys are pressed, and the left one is released. -/
def bothThenOne : List ConsoleOp :=
  [.keyboardHandler 1 0x2A, .keyboardHandler 1 0x36, .keyboardHandler 1 0xAA]

/-- One key after the other is released alone. -/
theorem shift_tracked_iff_sample :
    ShiftTracked (Console.static fun _ => 0)
      [.keyboardHandler 1 0x2A, .keyboardHandler 1 0xAA] := by
  refine ((shift_tracked_iff (Console.static_reset _) _).mpr ?_).1
  intro front status scancode back split _ _
  rcases front with _ | ⟨first, _ | ⟨second, _ | ⟨third, rest⟩⟩⟩ <;> cases split
  · exact ⟨nofun, nofun⟩
  · exact ⟨fun _ => rfl, nofun⟩

/-- The right shift key is still held, but the flag says that none is. -/
theorem shift_tracked_fails : ¬ ∀ start ops, start.Reset →
    ShiftTracked start ops ∧ LettersCased start ops := by
  intro claimed
  have reset := Console.static_reset fun _ => 0
  obtain ⟨console, reached, agrees⟩ := (claimed _ bothThenOne reset).1 bothThenOne [] rfl
  have released : (bothThenOne.foldlM ConsoleOp.perform (Console.static fun _ => 0)).map
      Console.shiftPressed = some false := rfl
  rw [reached, Option.map_some, agrees] at released
  exact absurd released (by decide)

end KdbOS.Drivers
