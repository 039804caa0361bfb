import KdbOS.Drivers.KeyboardShift
import KdbOS.Vterm.VtermNumbers
import KdbOS.Vterm.VtermPorts

/-! The keyboard driver as a decoder in front of the terminal: it turns scancodes into
characters and cursor movements, and every text of its maps can be typed. -/

set_option autoImplicit false

namespace KdbOS.Drivers

open Library Arch Vterm

/-! ## The decoder -/

structure Decoder where
  shift : Bool
  caps : Bool
  extended : Bool
  deriving DecidableEq, Repr

/-- What a scancode asks of the terminal. -/
inductive KeyAction where
  | type (character : UInt8)
  | arrow (scancode : UInt8)
  deriving DecidableEq, Repr

namespace Decoder

/-- The character of a key, upper case or shifted where shift and caps lock say so. -/
def keyChar (decoder : Decoder) (scancode : UInt8) : Option UInt8 := do
  let plain ← kbdUsMap[scancode.toNat]?
  let letter := 97 ≤ plain ∧ plain ≤ 122
  let upper := if letter then decoder.shift != decoder.caps else decoder.shift
  let character ← (if upper then kbdUsShiftedMap else kbdUsMap)[scancode.toNat]?
  if character ≠ 0 then some character else none

def step (decoder : Decoder) (scancode : UInt8) : Decoder × Option KeyAction :=
  if scancode = 0xE0 then ({ decoder with extended := true }, none)
  else if decoder.extended then
    ({ decoder with extended := false },
      if scancode &&& 0x80 ≠ 0 then none else some (.arrow scancode))
  else if scancode = 0xAA ∨ scancode = 0xB6 then ({ decoder with shift := false }, none)
  else if scancode = 0x2A ∨ scancode = 0x36 then ({ decoder with shift := true }, none)
  else if scancode = 0x3A then ({ decoder with caps := !decoder.caps }, none)
  else (decoder, (decoder.keyChar scancode).map .type)

/-- The decoder after a stream of scancodes, and what they ask for. -/
def run : Decoder → List UInt8 → Decoder × List KeyAction
  | decoder, [] => (decoder, [])
  | decoder, scancode :: rest =>
      let next := decoder.step scancode
      let later := next.1.run rest
      (later.1, next.2.toList ++ later.2)

theorem run_append (decoder : Decoder) (front back : List UInt8) :
    decoder.run (front ++ back) =
      ((decoder.run front).1.run back |>.1,
        (decoder.run front).2 ++ ((decoder.run front).1.run back).2) := by
  induction front generalizing decoder with
  | nil => rfl
  | cons scancode rest ih =>
      rw [List.cons_append, run, run, ih]
      simp only [List.append_assoc]

end Decoder

def KeyAction.perform (term : VTerm) : KeyAction → Option VTerm
  | type character => vtermWriteChar character term
  | arrow scancode => some (arrowKey scancode term)

def performAll (actions : List KeyAction) (term : VTerm) : Option VTerm :=
  actions.foldlM KeyAction.perform term

/-- The flags of a console. -/
def Console.decoder (console : Console) : Decoder :=
  ⟨console.shiftPressed, console.capsLockActive, console.isExtended⟩

/-- Interrupts for one scancode after the other, each with a status that says so. -/
def handleScancodes (interrupts : List (UInt8 × UInt8)) (console : Console) : Option Console :=
  interrupts.foldlM (fun console interrupt => keyboardHandler interrupt.1 interrupt.2 console)
    console

variable {console : Console} {term other : VTerm} {scancode character : UInt8}
  {decoder : Decoder} {text : List UInt8}

/-! ## Up to the port writes -/

/-- All of a terminal but what it has written to its ports. -/
def bare (term : VTerm) : VTerm := { term with outb := [] }

theorem logged_bare (term : VTerm) : (bare term).logged term.outb = term := by
  unfold bare VTerm.logged
  simp

theorem arrowKey_logged (ports : PortWrites) (scancode : UInt8) (term : VTerm) :
    arrowKey scancode (term.logged ports) = (arrowKey scancode term).logged ports := by
  unfold arrowKey
  have row : (term.logged ports).cursorRow = term.cursorRow := rfl
  have col : (term.logged ports).cursorCol = term.cursorCol := rfl
  rw [row, col]
  simp only [vtermMoveCursor_logged]
  split
  case isTrue => rfl
  case isFalse =>
    split
    case isTrue => rfl
    case isFalse =>
      split
      case isTrue => rfl
      case isFalse => split <;> rfl

theorem KeyAction.perform_logged (ports : PortWrites) (action : KeyAction) (term : VTerm) :
    action.perform (term.logged ports) = (action.perform term).map (VTerm.logged ports) := by
  cases action with
  | type character => exact vtermWriteChar_logged character
  | arrow scancode => exact congrArg some (arrowKey_logged ports scancode term)

theorem performAll_logged (ports : PortWrites) (actions : List KeyAction) (term : VTerm) :
    performAll actions (term.logged ports) = (performAll actions term).map (VTerm.logged ports) := by
  unfold performAll
  induction actions generalizing term with
  | nil => rfl
  | cons action rest ih =>
      rw [List.foldlM_cons, List.foldlM_cons, KeyAction.perform_logged]
      cases action.perform term with
      | none => rfl
      | some next => exact ih next

/-- What was written to the ports before makes no difference. -/
theorem performAll_bare (same : bare term = bare other) (actions : List KeyAction) :
    (performAll actions term).map bare = (performAll actions other).map bare := by
  rw [← logged_bare term, ← logged_bare other, performAll_logged, performAll_logged, same,
    Option.map_map, Option.map_map]
  rfl

/-! ## The driver -/

/-- What the driver knows of the keys, and the terminal up to its port writes. -/
def Console.view (console : Console) : Decoder × VTerm := (console.decoder, bare console.vterm)

theorem useUppercase_eq (plain : UInt8) :
    useUppercase plain console =
      if 97 ≤ plain ∧ plain ≤ 122 then console.shiftPressed != console.capsLockActive
      else console.shiftPressed := by
  unfold useUppercase
  by_cases letter : 97 ≤ plain ∧ plain ≤ 122
  · cases caps : console.capsLockActive <;> simp [letter]
  · rw [if_neg letter, if_neg fun both => letter ⟨both.1, both.2.1⟩]

theorem typeKey_view (low : ¬ scancode ≥ 128) :
    (typeKey scancode console).map Console.view =
      (performAll ((console.decoder.keyChar scancode).map KeyAction.type).toList console.vterm).map
        fun term => (console.decoder, bare term) := by
  have index : scancode.toNat < 128 := UInt8.lt_iff_toNat_lt.mp (UInt8.not_le.mp low)
  obtain ⟨base, plain⟩ : ∃ base, kbdUsMap[scancode.toNat]? = some base :=
    ⟨_, List.getElem?_eq_getElem index⟩
  have shifted : kbdUsShiftedMap[scancode.toNat]? = some kbdUsShiftedMap[scancode.toNat] :=
    List.getElem?_eq_getElem index
  unfold typeKey Decoder.keyChar
  rw [if_neg low, plain]
  simp only [Option.bind_eq_bind, Option.bind_some, ← useUppercase_eq, Console.decoder]
  generalize useUppercase base console = upper
  obtain ⟨character, found⟩ : ∃ character,
      (if upper = true then kbdUsShiftedMap else kbdUsMap)[scancode.toNat]? = some character := by
    cases upper with
    | false => exact ⟨_, plain⟩
    | true => exact ⟨_, shifted⟩
  rw [found, Option.bind_some, Option.bind_some]
  by_cases silent : character ≠ 0
  · rw [if_pos silent, if_pos silent]
    show ((vtermWriteChar character console.vterm).bind _).map _ =
      ((vtermWriteChar character console.vterm).bind some).map _
    cases vtermWriteChar character console.vterm with
    | none => rfl
    | some term => rfl
  · rw [if_neg silent, if_neg silent]
    rfl

/-- One scancode does to the terminal what the decoder makes of it. -/
theorem decodeScancode_view (scancode : UInt8) (console : Console) :
    (decodeScancode scancode console).map Console.view =
      (performAll (console.decoder.step scancode).2.toList console.vterm).map
        fun term => ((console.decoder.step scancode).1, bare term) := by
  unfold decodeScancode Decoder.step
  have extended : console.decoder.extended = console.isExtended := rfl
  rw [extended]
  by_cases isPrefix : scancode = 0xE0
  · rw [if_pos isPrefix, if_pos isPrefix]
    rfl
  rw [if_neg isPrefix, if_neg isPrefix]
  by_cases inPrefixed : console.isExtended = true
  · rw [if_pos inPrefixed, if_pos inPrefixed]
    by_cases high : scancode &&& 0x80 ≠ 0
    · simp only [if_pos high]
      rfl
    · simp only [if_neg high]
      rfl
  rw [if_neg inPrefixed, if_neg inPrefixed]
  by_cases high : scancode &&& 0x80 ≠ 0
  · rw [if_pos high]
    have released := released_iff scancode high
    by_cases isShift : scancode = 0xAA ∨ scancode = 0xB6
    · rw [if_pos isShift]
      simp only [if_pos (released.mpr isShift)]
      rfl
    · have notMake : ¬ (scancode = 0x2A ∨ scancode = 0x36) := by
        rintro (rfl | rfl) <;> exact high (by decide)
      have notCaps : scancode ≠ 0x3A := by
        rintro rfl
        exact high (by decide)
      have beyond : kbdUsMap[scancode.toNat]? = none := List.getElem?_eq_none
        (UInt8.le_iff_toNat_le.mp ((high_iff scancode).mp high))
      have silent : console.decoder.keyChar scancode = none := by
        rw [Decoder.keyChar, beyond]
        rfl
      simp only [if_neg (mt released.mp isShift)]
      rw [if_neg isShift, if_neg notMake, if_neg notCaps, silent]
      rfl
  · rw [if_neg high]
    have notBreak : ¬ (scancode = 0xAA ∨ scancode = 0xB6) := by
      rintro (rfl | rfl) <;> exact high (by decide)
    rw [if_neg notBreak]
    by_cases isShift : scancode = 0x2A ∨ scancode = 0x36
    · rw [if_pos isShift, if_pos isShift]
      rfl
    rw [if_neg isShift, if_neg isShift]
    by_cases isCaps : scancode = 0x3A
    · rw [if_pos isCaps, if_pos isCaps]
      rfl
    · rw [if_neg isCaps, if_neg isCaps]
      exact typeKey_view fun isHigh => high ((high_iff scancode).mpr isHigh)

/-- The scancodes that are there to be read. -/
def scancodesRead (interrupts : List (UInt8 × UInt8)) : List UInt8 :=
  (interrupts.filter fun interrupt => interrupt.1 &&& 0x01 ≠ 0).map Prod.snd

theorem performAll_append (front back : List KeyAction) (term : VTerm) :
    performAll (front ++ back) term = (performAll front term).bind (performAll back) :=
  List.foldlM_append ..

/-- The end of interrupt that is sent first does not matter. -/
theorem keyboardHandler_view {status : UInt8} (ready : status &&& 0x01 ≠ 0) (scancode : UInt8)
    (console : Console) :
    (keyboardHandler status scancode console).map Console.view =
      ((performAll (console.decoder.step scancode).2.toList console.vterm).map bare).map
        (Prod.mk (console.decoder.step scancode).1) := by
  have same : bare (console.vterm.write (picSendEoi 1)) = bare console.vterm := rfl
  rw [keyboardHandler, if_pos ready, decodeScancode_view, ← performAll_bare same, Option.map_map]
  rfl

/-- By induction on the interrupts: the terminal follows the decoder. -/
theorem handleScancodes_view (interrupts : List (UInt8 × UInt8)) (console : Console) :
    (handleScancodes interrupts console).map Console.view =
      ((performAll (console.decoder.run (scancodesRead interrupts)).2 console.vterm).map bare).map
        (Prod.mk (console.decoder.run (scancodesRead interrupts)).1) := by
  unfold handleScancodes
  induction interrupts generalizing console with
  | nil => rfl
  | cons interrupt rest ih =>
      rw [List.foldlM_cons, scancodesRead, List.filter_cons]
      by_cases ready : interrupt.1 &&& 0x01 ≠ 0
      · rw [if_pos (decide_eq_true ready), List.map_cons, Decoder.run, ← scancodesRead,
          performAll_append]
        have first := keyboardHandler_view ready interrupt.2 console
        cases handled : keyboardHandler interrupt.1 interrupt.2 console with
        | none =>
            rw [handled] at first
            have failed : performAll (console.decoder.step interrupt.2).2.toList console.vterm =
                none := by
              simpa using first.symm
            rw [failed]
            rfl
        | some next =>
            rw [handled] at first
            obtain ⟨term, performed, view⟩ : ∃ term,
                performAll (console.decoder.step interrupt.2).2.toList console.vterm = some term ∧
                  ((console.decoder.step interrupt.2).1, bare term) = next.view := by
              simpa using first.symm
            have decoder : (console.decoder.step interrupt.2).1 = next.decoder :=
              congrArg Prod.fst view
            have same : bare next.vterm = bare term := (congrArg Prod.snd view).symm
            rw [performed, Option.bind_some, decoder, ← performAll_bare same]
            exact ih next
      · have idle : keyboardHandler interrupt.1 interrupt.2 console = some console := if_neg ready
        rw [if_neg (by simpa using ready), idle, ← scancodesRead]
        exact ih console

/-! ## Typing a text -/

/-- A character that some key types. -/
def Typeable (character : UInt8) : Prop :=
  character ≠ 0 ∧ (character ∈ kbdUsMap ∨ character ∈ kbdUsShiftedMap)

instance (character : UInt8) : Decidable (Typeable character) :=
  inferInstanceAs (Decidable (_ ∧ _))

/-- The key of a character. -/
def keyOf (character : UInt8) : UInt8 :=
  UInt8.ofNat (if character ∈ kbdUsMap then kbdUsMap.idxOf character
    else kbdUsShiftedMap.idxOf character)

/-- Caps lock has to be undone for the letters. -/
def needsShift (caps : Bool) (character : UInt8) : Bool :=
  !decide (character ∈ kbdUsMap) != (caps && decide (isLetter character))

/-- The key is pressed and released, with the left shift key around it where it is needed. -/
def keystroke (caps : Bool) (character : UInt8) : List UInt8 :=
  let key := keyOf character
  if needsShift caps character then [0x2A, key, key ||| 0x80, 0xAA] else [key, key ||| 0x80]

def keystrokes (caps : Bool) (text : List UInt8) : List UInt8 := text.flatMap (keystroke caps)

theorem run_keystroke (caps : Bool) (typeable : Typeable character) :
    Decoder.run ⟨false, caps, false⟩ (keystroke caps character) =
      (⟨false, caps, false⟩, [.type character]) := by
  have every : ∀ byte : UInt8, ∀ caps : Bool, Typeable byte →
      Decoder.run ⟨false, caps, false⟩ (keystroke caps byte) =
        (⟨false, caps, false⟩, [.type byte]) :=
    forall_byte (by decide +kernel)
  exact every character caps typeable

theorem run_keystrokes (caps : Bool) (typeable : ∀ character ∈ text, Typeable character) :
    Decoder.run ⟨false, caps, false⟩ (keystrokes caps text) =
      (⟨false, caps, false⟩, text.map .type) := by
  unfold keystrokes
  induction text with
  | nil => rfl
  | cons character rest ih =>
      rw [List.flatMap_cons, Decoder.run_append, run_keystroke caps (typeable character (by simp)),
        ih fun other member => typeable other (List.mem_cons_of_mem _ member)]
      rfl

theorem performAll_type (text : List UInt8) (term : VTerm) :
    performAll (text.map .type) term = writeChars text term := by
  rw [performAll, List.foldlM_map]
  rfl

theorem VTerm.textAt_of_bare (same : bare term = bare other) (start count : Nat) :
    term.textAt start count = other.textAt start count := by
  have bareScreen : (bare term).screenBuffer = (bare other).screenBuffer := by rw [same]
  have screen : term.screenBuffer = other.screenBuffer := bareScreen
  unfold VTerm.textAt VTerm.cellAt
  rw [screen]

/-- Whatever scancodes arrive, the terminal follows the decoder. A text is typed with its
keystrokes whether caps lock is on or off, which leave the keys as they were, and it can be
read off the screen. -/
theorem keyboard_types (console : Console) (interrupts : List (UInt8 × UInt8)) :
    ((handleScancodes interrupts console).map Console.view =
      (performAll (console.decoder.run (scancodesRead interrupts)).2 console.vterm).map
        fun term => ((console.decoder.run (scancodesRead interrupts)).1, bare term)) ∧
    ∀ caps text, console.decoder = ⟨false, caps, false⟩ → (∀ c ∈ text, Typeable c) →
      scancodesRead interrupts = keystrokes caps text →
      ((handleScancodes interrupts console).map Console.view =
        (writeChars text console.vterm).map fun term => (console.decoder, bare term)) ∧
      (console.vterm.OnGrid → (∀ c ∈ text, Printable c) →
        console.vterm.linear + text.length ≤ 2000 →
        ∃ after, handleScancodes interrupts console = some after ∧
          after.decoder = console.decoder ∧
          after.vterm.textAt console.vterm.linear text.length = text) := by
  have follows := handleScancodes_view interrupts console
  rw [Option.map_map] at follows
  refine ⟨follows, fun caps text released typeable sent => ?_⟩
  rw [sent, released, run_keystrokes caps typeable, performAll_type, ← released] at follows
  refine ⟨follows, fun grid printable room => ?_⟩
  obtain ⟨term, wrote, _, printed, _⟩ := writeChars_printed grid printable room
  rw [wrote] at follows
  obtain ⟨after, handled, view⟩ := Option.map_eq_some_iff.mp follows
  refine ⟨after, handled, congrArg Prod.fst view, ?_⟩
  rw [VTerm.textAt_of_bare (congrArg Prod.snd view), printed.textAt]

/-- `"aB"` with caps lock on. -/
theorem keyboard_types_sample :
    ∃ after, handleScancodes
        ([0x2A, 0x1E, 0x9E, 0xAA, 0x30, 0xB0].map fun scancode => (1, scancode))
        { Console.static (fun _ => 0) with capsLockActive := true } = some after ∧
      after.decoder = ⟨false, true, false⟩ ∧ after.vterm.textAt 0 2 = [97, 66] :=
  ((keyboard_types { Console.static (fun _ => 0) with capsLockActive := true }
    ([0x2A, 0x1E, 0x9E, 0xAA, 0x30, 0xB0].map fun scancode => (1, scancode))).2 true [97, 66] rfl
      (by decide +kernel) (by decide +kernel)).2 ⟨Nat.zero_lt_succ _, Nat.zero_le _⟩ (by simp [Printable])
        (by decide)

end KdbOS.Drivers
