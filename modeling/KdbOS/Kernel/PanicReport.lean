import KdbOS.Kernel.Panic

/-! What stands on the display when `kernel_panic` halts the processor: one centred line for
each part of the report, and blanks everywhere else. -/

set_option autoImplicit false

namespace KdbOS.Kernel

open Library Klibc Ds Vterm Arch

/-! ## The report -/

/-- The lines of a report, each with its row. -/
abbrev Report := List (Nat × List UInt8)

/-- The character in a column of a row, with each line in the middle of its row. -/
def Report.charAt (report : Report) (row col : Nat) : UInt8 :=
  (report.lookup row).elim 32 fun text =>
    let start := (80 - text.length) / 2
    if start ≤ col then text.getD (col - start) 32 else 32

def whoText (user : Bool) : String :=
  if user then "Context: A user-mode program tried to " else "Context: The kernel tried to "

def accessText (execute write : Bool) : String :=
  if execute then "EXECUTE code at this address."
  else if write then "WRITE data to this address."
  else "READ data from this address."

def causeText (present : Bool) : String :=
  if present then "Cause: Access denied! Page is protected (e.g., writing to Read-Only)."
  else "Cause: This virtual address is NOT mapped in the page tables."

/-- Who did what at which address, and why it is an error. The error code says with bit 0
that the page is present, with bit 1 that it was written, with bit 2 that user mode did
it and with bit 4 that it was executed. -/
def pageFaultReport (errorCode faultAddress : UInt32) : Report :=
  let bit := errorCode.toNat.testBit
  [(6, bytesOf "Fault Address: " ++ hexText faultAddress.toNat),
    (8, bytesOf (whoText (bit 2)) ++ bytesOf (accessText (bit 4) (bit 1))),
    (9, bytesOf (causeText (bit 0)))]

def faultReport (cause : PanicCause) : Report :=
  if cause.interruptNumber = 14 then pageFaultReport cause.errorCode cause.cr2 else []

def openingReport (message : String) : Report :=
  [(2, bytesOf ":( A problem has been detected and kdbOS has been shut down."),
    (4, bytesOf "Reason: " ++ bytesOf message)]

def adviceReport (row : Nat) : Report :=
  [(row, bytesOf "If this is the first time you've seen this, restart your computer."),
    (row + 1, bytesOf "If errors persist, check your build.")]

def panicReport (cause : PanicCause) (message : String) : Report :=
  openingReport message ++ faultReport cause ++
    adviceReport (if cause.interruptNumber = 14 then 12 else 7)

/-- Every line is above the row. -/
def Report.Below (report : Report) (row : Nat) : Prop := ∀ line ∈ report, line.1 < row

/-- The rows of the report are in order and on the screen, and every line fits. -/
structure Report.Fits (report : Report) : Prop where
  ordered : (report.map Prod.fst).Pairwise (· < ·)
  inside : ∀ line ∈ report, line.1 < 25 ∧ line.2.length < 80
  printable : ∀ line ∈ report, ∀ c ∈ line.2, Printable c

/-- The screen shows the report in white on blue. -/
structure ShowsReport (report : Report) (term : VTerm) : Prop where
  screen : ∀ row col, OnScreen row col →
    term.screenBuffer row col =
      ⟨report.charAt row col, VTermColor.white.value, VTermColor.blue.value⟩
  fg : term.currentFg = .white
  bg : term.currentBg = .blue

/-! ## The strings -/

def panicLiterals : List String :=
  exceptionMessages ++
    [":( A problem has been detected and kdbOS has been shut down.", "Reason: ",
      "Fault Address: ", "Context: A user-mode program tried to ",
      "Context: The kernel tried to ", "EXECUTE code at this address.",
      "WRITE data to this address.", "READ data from this address.",
      "Cause: This virtual address is NOT mapped in the page tables.",
      "Cause: Access denied! Page is protected (e.g., writing to Read-Only).",
      "If this is the first time you've seen this, restart your computer.",
      "If errors persist, check your build."]

/-- Outside the `size` bytes at `start`. -/
def Outside (start size address : Nat) : Prop := address < start ∨ start + size ≤ address

/-- The string constants are in memory, and the buffers lie apart from them and from each
other. -/
structure PanicStrings.Placed (strings : PanicStrings) (memory : Memory) : Prop where
  literals : ∀ text ∈ panicLiterals, IsText memory (strings.literal text) (bytesOf text)
  apartBuffer : ∀ text ∈ panicLiterals,
    strings.literal text + (bytesOf text).length < strings.panicBuffer ∨
      strings.panicBuffer + 80 ≤ strings.literal text
  apartAddress : ∀ text ∈ panicLiterals,
    strings.literal text + (bytesOf text).length < strings.addrStr ∨
      strings.addrStr + 12 ≤ strings.literal text
  buffers : strings.addrStr + 12 ≤ strings.panicBuffer ∨
    strings.panicBuffer + 80 ≤ strings.addrStr

theorem printable_of_all {text : List UInt8}
    (all : text.all (fun c => c != 0 && c != 8 && c != 10) = true) : ∀ c ∈ text, Printable c := by
  intro c member
  have checked := List.all_eq_true.mp all c member
  simp only [Bool.and_eq_true, bne_iff_ne] at checked
  exact ⟨checked.1.1, checked.1.2, checked.2⟩

/-- Every constant can be printed, and fits in the buffer. -/
theorem panicLiterals_checked : ∀ text ∈ panicLiterals,
    (∀ c ∈ bytesOf text, Printable c) ∧ (bytesOf text).length < 80 := by
  have checked : panicLiterals.all (fun text =>
      (bytesOf text).all (fun c => c != 0 && c != 8 && c != 10) &&
        decide ((bytesOf text).length < 80)) = true := by decide +kernel
  intro text member
  have both := List.all_eq_true.mp checked text member
  rw [Bool.and_eq_true, decide_eq_true_eq] at both
  exact ⟨printable_of_all both.1, both.2⟩

theorem exceptionMessages_short : ∀ message ∈ exceptionMessages,
    (bytesOf message).length ≤ 30 := by decide +kernel

theorem copyContext_eq (strings : PanicStrings) (user : Bool) (state : PanicState) :
    state.copyContext strings user = state.copy strings (whoText user) := by
  cases user <;> rfl

theorem appendAccess_eq (strings : PanicStrings) (fuel : Nat) (execute write : Bool)
    (state : PanicState) : state.appendAccess strings fuel execute write =
      state.append strings fuel (strings.literal (accessText execute write)) := by
  cases execute <;> cases write <;> rfl

theorem copyCause_eq (strings : PanicStrings) (present : Bool) (state : PanicState) :
    state.copyCause strings present = state.copy strings (causeText present) := by
  cases present <;> rfl

theorem whoText_mem (user : Bool) : whoText user ∈ panicLiterals := by
  cases user <;> decide

theorem accessText_mem (execute write : Bool) : accessText execute write ∈ panicLiterals := by
  cases execute <;> cases write <;> decide

theorem causeText_mem (present : Bool) : causeText present ∈ panicLiterals := by
  cases present <;> decide

theorem context_short (user execute write : Bool) :
    (bytesOf (whoText user)).length + (bytesOf (accessText execute write)).length < 80 := by
  cases user <;> cases execute <;> cases write <;> decide

theorem message_mem_literals {message : String} (member : message ∈ exceptionMessages) :
    message ∈ panicLiterals := List.mem_append_left _ member

/-! ## One line -/

variable {strings : PanicStrings} {start memory : Memory} {report : Report} {row fuel : Nat}
  {text other : List UInt8} {state : PanicState} {term : VTerm} {cause : PanicCause}

/-- The call returns, in a state with the property. -/
def Returns {State : Type} (result : Option State) (holds : State → Prop) : Prop :=
  ∃ state, result = some state ∧ holds state

theorem Returns.bind {State Next : Type} {result : Option State} {next : State → Option Next}
    {holds : State → Prop} {later : Next → Prop} (returns : Returns result holds)
    (continues : ∀ state, holds state → Returns (next state) later) :
    Returns (result.bind next) later := by
  obtain ⟨state, rfl, held⟩ := returns
  exact continues state held

theorem Returns.bind_bind {State Middle Next : Type} {result : Option State}
    {first : State → Option Middle} {next : Middle → Option Next} {holds : Middle → Prop}
    {later : Next → Prop} (returns : Returns (result.bind first) holds)
    (continues : ∀ state, holds state → Returns (next state) later) :
    Returns (result.bind fun state => (first state).bind next) later := by
  rw [← Option.bind_assoc]
  exact returns.bind continues

theorem readString_text (isText : IsText memory row text) (nonzero : ∀ byte ∈ text, byte ≠ 0)
    (enough : text.length < fuel) : readString fuel row memory = some text := by
  induction text generalizing row fuel with
  | nil =>
      obtain ⟨fuel, rfl⟩ := Nat.exists_eq_succ_of_ne_zero (Nat.ne_of_gt enough)
      have ends : memory row = 0 := isText.ends
      rw [readString, if_pos ends]
  | cons byte rest ih =>
      obtain ⟨fuel, rfl⟩ := Nat.exists_eq_succ_of_ne_zero (Nat.ne_of_gt (Nat.zero_lt_of_lt enough))
      have first : memory row = byte := isText.bytes 0 (Nat.zero_lt_succ _)
      have tail : IsText memory (row + 1) rest := by
        refine ⟨fun i inside => ?_, ?_⟩
        · rw [Nat.add_assoc, Nat.add_comm 1 i]
          exact isText.bytes (i + 1) (Nat.succ_lt_succ inside)
        · rw [Nat.add_assoc, Nat.add_comm 1]
          exact isText.ends
      have later := ih tail (fun c member => nonzero c (List.mem_cons_of_mem _ member))
        (Nat.lt_of_succ_lt_succ enough)
      rw [readString, first, if_neg (nonzero byte List.mem_cons_self), later]
      rfl

/-- The report so far is on the screen, and only the buffers have been written. -/
structure Reporting (strings : PanicStrings) (start : Memory) (report : Report) (row : Nat)
    (state : PanicState) : Prop where
  currentRow : state.currentRow = row
  fits : report.Fits
  shows : ShowsReport report state.term
  unwritten : ∀ address, Outside strings.panicBuffer 80 address →
    Outside strings.addrStr 12 address → state.memory address = start address

/-- And `panic_buffer` holds a string. -/
structure Holding (strings : PanicStrings) (start : Memory) (report : Report) (row : Nat)
    (text : List UInt8) (state : PanicState) : Prop
    extends Reporting strings start report row state where
  held : IsText state.memory strings.panicBuffer text
  nonzero : ∀ byte ∈ text, byte ≠ 0

theorem Reporting.advance (reporting : Reporting strings start report row state) (rows : Nat) :
    Reporting strings start report (row + rows) (state.advance rows) :=
  ⟨congrArg (· + rows) reporting.currentRow, reporting.fits, reporting.shows, reporting.unwritten⟩

/-- The constants are never overwritten. -/
theorem Reporting.source (reporting : Reporting strings start report row state)
    (placed : strings.Placed start) {literal : String} (member : literal ∈ panicLiterals) :
    Source state.memory strings.panicBuffer 80 (strings.literal literal) (bytesOf literal) where
  isText := (placed.literals literal member).congr fun i inside => by
    have buffer := placed.apartBuffer literal member
    have address := placed.apartAddress literal member
    exact reporting.unwritten _ (by unfold Outside; omega) (by unfold Outside; omega)
  nonzero := fun byte inside => ((panicLiterals_checked literal member).1 byte inside).1
  apart := placed.apartBuffer literal member

theorem Reporting.of_memory (reporting : Reporting strings start report row state)
    {written : Memory}
    (same : ∀ address, Outside strings.panicBuffer 80 address → Outside strings.addrStr 12 address →
      written address = state.memory address) :
    Reporting strings start report row { state with memory := written } :=
  ⟨reporting.currentRow, reporting.fits, reporting.shows, fun address buffer string =>
    (same address buffer string).trans (reporting.unwritten address buffer string)⟩

theorem Reporting.copy (reporting : Reporting strings start report row state)
    (placed : strings.Placed start) {literal : String} (member : literal ∈ panicLiterals) :
    Holding strings start report row (bytesOf literal) (state.copy strings literal) := by
  have checked := panicLiterals_checked literal member
  obtain ⟨copied, outside⟩ := kstrncpy_take (reporting.source placed member) (by decide)
  rw [List.take_of_length_le (Nat.le_of_lt_succ checked.2)] at copied
  exact ⟨reporting.of_memory fun address buffer _ => outside address buffer, copied,
    fun byte inside => (checked.1 byte inside).1⟩

theorem Holding.append (holding : Holding strings start report row text state) {src : Nat}
    (source : Source state.memory strings.panicBuffer 80 src other) (enough : 80 ≤ fuel)
    (room : text.length + other.length < 80) :
    Returns (state.append strings fuel src) (Holding strings start report row (text ++ other)) := by
  obtain ⟨result, call, appended, outside⟩ := kstrncat_take (by decide) enough holding.held
    holding.nonzero (by omega : text.length < 80) source
  have whole : (text ++ other).length ≤ 80 - 1 := by
    rw [List.length_append]
    omega
  rw [List.take_of_length_le whole] at appended
  refine ⟨{ state with memory := result }, ?_, ?_, appended, fun byte inside => ?_⟩
  · rw [PanicState.append, screenCols, call]
    rfl
  · exact holding.toReporting.of_memory fun address buffer _ => outside address buffer
  · rcases List.mem_append.mp inside with front | back
    · exact holding.nonzero byte front
    · exact source.nonzero byte back

/-- The digits are stored from the last one to the first. -/
theorem hexToStringLoop_digits (buffer count : Nat) (value : UInt32) (memory : Memory) :
    Returns (hexToStringLoop buffer count value memory) fun result =>
      (∀ i (inside : i < (numeral hexSymbol 16 count value.toNat).length),
        result (buffer + (2 + i)) = (numeral hexSymbol 16 count value.toNat)[i]) ∧
      ∀ address, Outside (buffer + 2) count address → result address = memory address := by
  induction count generalizing value memory with
  | zero => exact ⟨memory, rfl, fun i inside => absurd inside (Nat.not_lt_zero i), fun _ _ => rfl⟩
  | succ count ih =>
      have low : (value &&& 0xF).toNat = value.toNat % 16 := by
        rw [UInt32.toNat_and]
        exact Nat.and_two_pow_sub_one_eq_mod value.toNat 4
      have high : (value >>> 4).toNat = value.toNat / 16 := by
        rw [UInt32.toNat_shiftRight, Nat.shiftRight_eq_div_pow]
        rfl
      have bound : value.toNat % 16 < hexDigits.length :=
        Nat.lt_trans (Nat.mod_lt _ (by decide)) (by decide)
      have digit : hexDigits[(value &&& 0xF).toNat]? = some (hexSymbol (value.toNat % 16)) := by
        have entry : hexChars[value.toNat % 16]? = some hexDigits[value.toNat % 16] :=
          List.getElem?_eq_getElem bound
        rw [low, hexSymbol, List.getD_eq_getElem?_getD, entry, Option.getD_some]
        exact List.getElem?_eq_getElem bound
      obtain ⟨result, loop, digits, outside⟩ := ih (value >>> 4)
        (memory.store8 (buffer + (2 + count)) (hexSymbol (value.toNat % 16)))
      rw [high] at digits
      refine ⟨result, ?_, fun i inside => ?_, fun address away => ?_⟩
      · rw [hexToStringLoop, digit]
        exact loop
      · rw [numeral_length] at inside
        simp only [numeral]
        by_cases last : i = count
        · subst last
          rw [outside _ (.inr (by omega)), Memory.store8_self, List.getElem_append_right (by simp)]
          simp
        · have front : i < (numeral hexSymbol 16 count (value.toNat / 16)).length := by
            rw [numeral_length]
            omega
          rw [digits i front, List.getElem_append_left front]
      · unfold Outside at away
        rw [outside address (by unfold Outside; omega), Memory.store8_of_ne (by omega)]

/-- `hex_to_string` writes the eleven bytes of its numeral, and none besides. -/
theorem hexToString_text (value : UInt32) (buffer : Nat) (memory : Memory) :
    Returns (hexToString value buffer memory) fun result =>
      IsText result buffer (hexText value.toNat) ∧
      ∀ address, Outside buffer 11 address → result address = memory address := by
  obtain ⟨stored, loop, digits, outside⟩ := hexToStringLoop_digits buffer 8 value
    ((memory.store8 (buffer + 0) 48).store8 (buffer + 1) 120)
  refine ⟨stored.store8 (buffer + 10) 0, ?_, ⟨fun i inside => ?_, ?_⟩, fun address away => ?_⟩
  · rw [hexToString, loop]
    rfl
  · rw [hexText_length] at inside
    rw [Memory.store8_of_ne (by omega)]
    cases i with
    | zero => rw [outside _ (.inl (by omega)), Memory.store8_of_ne (by omega), Memory.store8_self]; rfl
    | succ i =>
        cases i with
        | zero => rw [outside _ (.inl (by omega)), Memory.store8_self]; rfl
        | succ i =>
            have place : buffer + (i + 1 + 1) = buffer + (2 + i) := by omega
            rw [place, digits i (by rw [numeral_length]; omega)]
            rfl
  · rw [hexText_length, Memory.store8_self]
  · unfold Outside at away
    rw [Memory.store8_of_ne (by omega), outside address (by unfold Outside; omega),
      Memory.store8_of_ne (by omega), Memory.store8_of_ne (by omega)]

theorem Report.charAt_append_of_ne {lineRow col : Nat} (different : row ≠ lineRow) :
    Report.charAt (report ++ [(lineRow, text)]) row col = report.charAt row col := by
  have single : [(lineRow, text)].lookup row = none := by
    rw [List.lookup_cons, beq_eq_false_iff_ne.mpr different]
    rfl
  rw [Report.charAt, List.lookup_append, single, Option.or_none, Report.charAt]

/-- A line that is printed on a row without one joins the report. -/
theorem ShowsReport.printed {after : VTerm} (shows : ShowsReport report term)
    (fresh : report.lookup row = none) (short : text.length < 80)
    (printed : Printed (80 * row + (80 - text.length) / 2) text term after) :
    ShowsReport (report ++ [(row, text)]) after := by
  refine ⟨fun r c inside => ?_, printed.fg.trans shows.fg, printed.bg.trans shows.bg⟩
  have column := inside.2
  have division : (80 * r + c) / 80 = r ∧ (80 * r + c) % 80 = c := by omega
  have cell : ∀ current : VTerm, current.cellAt (80 * r + c) = current.screenBuffer r c := by
    intro current
    rw [VTerm.cellAt, division.1, division.2]
  have before := shows.screen r c inside
  rw [← cell] at before ⊢
  by_cases here : r = row
  · subst here
    have line : Report.charAt (report ++ [(r, text)]) r c =
        if (80 - text.length) / 2 ≤ c then text.getD (c - (80 - text.length) / 2) 32 else 32 := by
      rw [Report.charAt, List.lookup_append, fresh, Option.none_or, List.lookup_cons_self]
      rfl
    have blank : report.charAt r c = 32 := by
      rw [Report.charAt, fresh]
      rfl
    rw [line]
    by_cases written : (80 - text.length) / 2 ≤ c ∧ c - (80 - text.length) / 2 < text.length
    · obtain ⟨i, place⟩ := Nat.exists_eq_add_of_le written.1
      have index : i < text.length := by omega
      have position : 80 * r + c = 80 * r + (80 - text.length) / 2 + i := by omega
      have offset : c - (80 - text.length) / 2 = i := by omega
      rw [position, printed.cells i index, if_pos written.1, offset, VTerm.inked, shows.fg, shows.bg,
        List.getD_eq_getElem?_getD, List.getElem?_eq_getElem index, Option.getD_some]
    · rw [printed.others _ (by omega), before, blank]
      by_cases right : (80 - text.length) / 2 ≤ c
      · have beyond : text.length ≤ c - (80 - text.length) / 2 := by omega
        rw [if_pos right, List.getD_eq_getElem?_getD, List.getElem?_eq_none beyond, Option.getD_none]
      · rw [if_neg right]
  · rw [printed.others _ (by omega), before, Report.charAt_append_of_ne here]

theorem Report.Below.concat {next : Nat} (above : report.Below row) (less : row < next) :
    Report.Below (report ++ [(row, text)]) next := by
  intro line member
  rcases List.mem_append.mp member with listed | last
  · exact Nat.lt_trans (above line listed) less
  · obtain rfl := List.mem_singleton.mp last
    exact less

theorem Report.Fits.concat (fits : report.Fits) (above : report.Below row)
    (inside : row < 25) (short : text.length < 80) (printable : ∀ c ∈ text, Printable c) :
    Report.Fits (report ++ [(row, text)]) where
  ordered := by
    rw [List.map_append, List.pairwise_append]
    refine ⟨fits.ordered, by simp, fun earlier member later last => ?_⟩
    obtain ⟨line, listed, rfl⟩ := List.mem_map.mp member
    obtain rfl := List.mem_singleton.mp last
    exact above line listed
  inside line member := by
    rcases List.mem_append.mp member with listed | last
    · exact fits.inside line listed
    · obtain rfl := List.mem_singleton.mp last
      exact ⟨inside, short⟩
  printable line member := by
    rcases List.mem_append.mp member with listed | last
    · exact fits.printable line listed
    · obtain rfl := List.mem_singleton.mp last
      exact printable

theorem Report.lookup_above (above : report.Below row) : report.lookup row = none := by
  rw [List.lookup_eq_none_iff]
  exact fun line member => bne_iff_ne.mpr (Nat.ne_of_gt (above line member))

theorem ShowsReport.coloured (shows : ShowsReport report term) : term.Coloured := by
  intro row col inside
  rw [shows.screen row col inside]
  exact ⟨VTermColor.value_lt .white, VTermColor.value_lt .blue⟩

theorem Holding.print (holding : Holding strings start report row text state)
    (enough : 80 ≤ fuel) (printable : ∀ c ∈ text, Printable c) (short : text.length < 80)
    (inside : row < 25) (above : report.Below row) :
    Returns (state.print strings fuel) (Reporting strings start (report ++ [(row, text)]) row) := by
  have column : alignedCol text.length .center = (80 - text.length) / 2 := if_pos short
  obtain ⟨term, print, printed⟩ := vtermPrintAt_printed holding.shows.coloured inside
    (by omega : (80 - text.length) / 2 ≤ 80) printable (by omega)
  have read := readString_text holding.held holding.nonzero (Nat.lt_of_lt_of_le short enough)
  refine ⟨{ state with term := term }, ?_, holding.currentRow,
    holding.fits.concat above inside short printable, ?_, holding.unwritten⟩
  · rw [PanicState.print, read, holding.currentRow, u16_of_lt (by omega : row < 65536)]
    simp only [Option.bind_eq_bind, Option.bind_some, vtermPrintAligned,
      textLength_eq printable (by omega : text.length ≤ 2000), column, print]
  · exact holding.shows.printed (Report.lookup_above above) short printed.printed

/-- A line that is one constant. -/
theorem Reporting.line (reporting : Reporting strings start report row state)
    (placed : strings.Placed start) (enough : 80 ≤ fuel) {literal : String}
    (member : literal ∈ panicLiterals) (inside : row < 25)
    (above : report.Below row) :
    Returns ((state.copy strings literal).print strings fuel)
      (Reporting strings start (report ++ [(row, bytesOf literal)]) row) := by
  have checked := panicLiterals_checked literal member
  exact (reporting.copy placed member).print enough checked.1 checked.2 inside above

/-- A line that is a constant and another string behind it. -/
theorem Reporting.joined (reporting : Reporting strings start report row state)
    (placed : strings.Placed start) (enough : 80 ≤ fuel) {literal : String}
    (member : literal ∈ panicLiterals) {src : Nat}
    (source : Source (state.copy strings literal).memory strings.panicBuffer 80 src other)
    (printable : ∀ c ∈ other, Printable c)
    (room : (bytesOf literal).length + other.length < 80) (inside : row < 25)
    (above : report.Below row) :
    Returns (((state.copy strings literal).append strings fuel src).bind
        fun joined => joined.print strings fuel)
      (Reporting strings start (report ++ [(row, bytesOf literal ++ other)]) row) := by
  have checked := panicLiterals_checked literal member
  refine ((reporting.copy placed member).append source enough room).bind fun joined holding => ?_
  refine holding.print enough (fun c listed => ?_) ?_ inside above
  · rcases List.mem_append.mp listed with front | back
    · exact checked.1 c front
    · exact printable c back
  · rwa [List.length_append]

/-- A line of two constants. -/
theorem Reporting.joinedLiteral (reporting : Reporting strings start report row state)
    (placed : strings.Placed start) (enough : 80 ≤ fuel) {literal second : String}
    (member : literal ∈ panicLiterals) (secondMember : second ∈ panicLiterals)
    (room : (bytesOf literal).length + (bytesOf second).length < 80) (inside : row < 25)
    (above : report.Below row) :
    Returns (((state.copy strings literal).append strings fuel (strings.literal second)).bind
        fun joined => joined.print strings fuel)
      (Reporting strings start (report ++ [(row, bytesOf literal ++ bytesOf second)]) row) :=
  reporting.joined placed enough member
    ((reporting.copy placed member).toReporting.source placed secondMember)
    (panicLiterals_checked second secondMember).1 room inside above

/-! ## The whole report -/

/-- A masked bit of the error code. -/
theorem masked_eq_testBit (errorCode : UInt32) {bit : Nat} (inside : bit < 32) :
    decide (errorCode &&& UInt32.ofNat (2 ^ bit) ≠ 0) = errorCode.toNat.testBit bit := by
  have power : (UInt32.ofNat (2 ^ bit)).toNat = 2 ^ bit :=
    UInt32.toNat_ofNat_of_lt' (Nat.pow_lt_pow_right (by decide) inside)
  have positive := Nat.two_pow_pos bit
  have number : (errorCode &&& UInt32.ofNat (2 ^ bit)).toNat =
      (errorCode.toNat.testBit bit).toNat * 2 ^ bit := by
    rw [UInt32.toNat_and, power, Nat.and_two_pow]
  rw [Bool.eq_iff_iff, decide_eq_true_iff, Ne, ← UInt32.toNat_inj, number]
  cases errorCode.toNat.testBit bit with
  | false => simp
  | true => simp

/-- The address, the context and the cause of a page fault. -/
theorem Reporting.pageFault (reporting : Reporting strings start report 4 state)
    (placed : strings.Placed start) (enough : 80 ≤ fuel)
    (above : report.Below 6) :
    Returns (reportPageFault strings fuel cause state)
      (Reporting strings start (report ++ pageFaultReport cause.errorCode cause.cr2) 9) := by
  have user : decide (cause.errorCode &&& ((1 : UInt32) <<< 2) ≠ 0) = _ :=
    masked_eq_testBit cause.errorCode (by decide : 2 < 32)
  have execute : decide (cause.errorCode &&& ((1 : UInt32) <<< 4) ≠ 0) = _ :=
    masked_eq_testBit cause.errorCode (by decide : 4 < 32)
  have write : decide (cause.errorCode &&& ((1 : UInt32) <<< 1) ≠ 0) = _ :=
    masked_eq_testBit cause.errorCode (by decide : 1 < 32)
  have present : decide (cause.errorCode &&& ((1 : UInt32) <<< 0) ≠ 0) = _ :=
    masked_eq_testBit cause.errorCode (by decide : 0 < 32)
  unfold reportPageFault
  simp only [Option.bind_eq_bind, user, execute, write, present]
  refine (hexToString_text cause.cr2 strings.addrStr (state.advance 2).memory).bind
    fun stored converted => ?_
  obtain ⟨isText, outside⟩ := converted
  have apart := placed.buffers
  have advanced := reporting.advance 2
  have stores : Reporting strings start report 6 { state.advance 2 with memory := stored } :=
    advanced.of_memory fun address _ away => outside address (by unfold Outside at *; omega)
  have source : Source stored strings.panicBuffer 80 strings.addrStr (hexText cause.cr2.toNat) :=
    ⟨isText, fun byte inside => (hexText_printable _ byte inside).1, by rw [hexText_length]; omega⟩
  have short : (bytesOf "Fault Address: ").length + (hexText cause.cr2.toNat).length < 80 := by
    rw [hexText_length]
    decide
  refine (stores.joined placed enough (by decide) (source.congr fun address away =>
    kstrncpy_outside (by decide) away) (hexText_printable _) short (by decide) above).bind_bind
    fun located addressed => ?_
  rw [copyContext_eq]
  simp only [appendAccess_eq, copyCause_eq]
  refine ((addressed.advance 2).joinedLiteral placed enough (whoText_mem _) (accessText_mem _ _)
    (context_short _ _ _) (by decide) (above.concat (by decide))).bind_bind
    fun described context => ?_
  obtain ⟨result, printed, reported⟩ := (context.advance 1).line placed enough (causeText_mem _)
    (by decide) ((above.concat (by decide)).concat (by decide))
  refine ⟨result, printed, ?_⟩
  rw [List.append_assoc, List.append_assoc] at reported
  exact reported

/-- The advice follows below whatever was reported. -/
theorem adviceRow_below (cause : PanicCause) (message : String) :
    (if cause.interruptNumber = 14 then 9 else 4) + 3 =
        (if cause.interruptNumber = 14 then 12 else 7) ∧
      (if cause.interruptNumber = 14 then 12 else 7) < 24 ∧
      (openingReport message ++ faultReport cause).Below
        (if cause.interruptNumber = 14 then 12 else 7) := by
  unfold faultReport openingReport Report.Below
  by_cases isPageFault : cause.interruptNumber = 14
  · simp [isPageFault, pageFaultReport]
  · simp [isPageFault]

theorem Reporting.fault {message : String}
    (reporting : Reporting strings start (openingReport message) 4 state)
    (placed : strings.Placed start) (enough : 80 ≤ fuel) :
    Returns (reportFault strings fuel cause state) (Reporting strings start
      (openingReport message ++ faultReport cause) (if cause.interruptNumber = 14 then 9 else 4)) := by
  have above : (openingReport message).Below 6 := by simp [openingReport, Report.Below]
  unfold reportFault faultReport
  by_cases isPageFault : cause.interruptNumber = 14
  · rw [if_pos isPageFault, if_pos isPageFault, if_pos isPageFault]
    exact reporting.pageFault placed enough above
  · rw [if_neg isPageFault, if_neg isPageFault, if_neg isPageFault, List.append_nil]
    exact ⟨state, rfl, reporting⟩

/-- The report is on the display, and only the buffers have been written. -/
structure PanicShown (strings : PanicStrings) (start : Memory) (report : Report)
    (final : PanicState) : Prop where
  fits : report.Fits
  shows : ShowsReport report final.term
  display : ∀ row col, OnScreen row col → final.term.framebuffer (col + row * 80) =
    framebufferWord (report.charAt row col) VTermColor.white.value VTermColor.blue.value
  unwritten : ∀ address, Outside strings.panicBuffer 80 address →
    Outside strings.addrStr 12 address → final.memory address = start address

/-- What the clearing at the start leaves. -/
theorem panic_cleared (term : VTerm) (cursorStyle : UInt8) :
    Returns (vtermClear .white .blue (vtermSetBufferingMode .block term)) fun cleared =>
      ShowsReport [] (vtermSetCursorVisible false cursorStyle
        (vtermSetColor .white .blue cleared)) := by
  obtain ⟨after, clear, cleared, _⟩ :=
    vtermClear_spec (vtermSetBufferingMode .block term) .white .blue
  have same := vtermSetCursorVisible_same false cursorStyle (vtermSetColor .white .blue after)
  refine ⟨after, clear, fun row col inside => ?_, same.fg, same.bg⟩
  rw [same.screen]
  exact cleared.screen row col inside

theorem Reporting.flush (reporting : Reporting strings start report row state) :
    Returns ((vtermFlush state.term).bind fun term => some { state with term := term })
      (PanicShown strings start report) := by
  obtain ⟨after, flush, same, displayed⟩ := vtermFlush_spec reporting.shows.coloured
  have shows : ShowsReport report after := by
    refine ⟨fun row col inside => ?_, same.fg.trans reporting.shows.fg,
      same.bg.trans reporting.shows.bg⟩
    rw [same.screen]
    exact reporting.shows.screen row col inside
  refine ⟨{ state with term := after }, by rw [flush]; rfl, reporting.fits, shows,
    fun row col inside => ?_, reporting.unwritten⟩
  rw [displayed row col inside, shows.screen row col inside, VTermCell.rendering]

/-- For each of the 32 exceptions and whatever was on the terminal, `kernel_panic` gets to its
last loop with the whole report on the display, and keeps to its buffers. -/
theorem kernelPanic_shown (placed : strings.Placed memory) (enough : 80 ≤ fuel)
    (exception : cause.interruptNumber < 32) :
    ∃ message final, exceptionMessages[cause.interruptNumber.toNat]? = some message ∧
      kernelPanic strings fuel cause memory term = some final ∧
      PanicShown strings memory (panicReport cause message) final := by
  have listed : cause.interruptNumber.toNat < exceptionMessages.length := exception
  have member : exceptionMessages[cause.interruptNumber.toNat] ∈ exceptionMessages :=
    List.getElem_mem listed
  have found := List.getElem?_eq_getElem listed
  generalize exceptionMessages[cause.interruptNumber.toNat] = message at member found
  suffices returns : Returns (kernelPanic strings fuel cause memory term)
      (PanicShown strings memory (panicReport cause message)) by
    obtain ⟨final, call, shown⟩ := returns
    exact ⟨message, final, found, call, shown⟩
  unfold kernelPanic panicReport
  simp only [found, Option.bind_eq_bind, Option.bind_some]
  refine (panic_cleared term cause.cursorStyle).bind fun cleared blank => ?_
  have begun : Reporting strings memory [] 2 ⟨2, memory, vtermSetCursorVisible false
      cause.cursorStyle (vtermSetColor .white .blue cleared)⟩ :=
    ⟨rfl, ⟨.nil, by simp, by simp⟩, blank, fun _ _ _ => rfl⟩
  refine (begun.line placed enough (by decide) (by decide) (by simp [Report.Below])).bind
    fun headed headline => ?_
  have room : (bytesOf "Reason: ").length + (bytesOf message).length < 80 := by
    have short := exceptionMessages_short message member
    have constant : (bytesOf "Reason: ").length = 8 := by decide
    omega
  refine ((headline.advance 2).joinedLiteral placed enough (by decide)
    (message_mem_literals member) room (by decide) (by simp [Report.Below])).bind_bind
    fun reasoned reason => ?_
  refine (reason.fault placed enough).bind fun detailed details => ?_
  have advice := details.advance 3
  obtain ⟨adviceRow, inside, above⟩ := adviceRow_below cause message
  rw [adviceRow] at advice
  generalize (if cause.interruptNumber = 14 then 12 else 7) = row at advice inside above ⊢
  refine (advice.line placed enough (by decide) (by omega) above).bind fun advised first => ?_
  refine ((first.advance 1).line placed enough (by decide) (by omega)
    (above.concat (Nat.lt_succ_self row))).bind fun closed last => ?_
  rw [List.append_assoc] at last
  exact last.flush

/-- The constants one after the other from 4096 on, 128 bytes apart. -/
def stringsFrom4096 : PanicStrings :=
  ⟨0, 128, fun text => 4096 + 128 * panicLiterals.idxOf text⟩

def constantsFrom4096 : Memory := fun address =>
  (bytesOf (panicLiterals.getD ((address - 4096) / 128) "")).getD ((address - 4096) % 128) 0

theorem constantsFrom4096_placed : stringsFrom4096.Placed constantsFrom4096 where
  literals text member := by
    have short := (panicLiterals_checked text member).2
    have byte : ∀ i < 128, constantsFrom4096 (stringsFrom4096.literal text + i) =
        (bytesOf text).getD i 0 := by
      intro i inside
      have offset : 4096 + 128 * panicLiterals.idxOf text + i - 4096 =
          128 * panicLiterals.idxOf text + i := by omega
      have division : (128 * panicLiterals.idxOf text + i) / 128 = panicLiterals.idxOf text ∧
          (128 * panicLiterals.idxOf text + i) % 128 = i := by omega
      have entry : panicLiterals.getD (panicLiterals.idxOf text) "" = text := by
        have index := List.idxOf_lt_length_of_mem member
        rw [List.getD_eq_getElem?_getD, List.getElem?_eq_getElem index, Option.getD_some,
          List.getElem_idxOf]
      rw [constantsFrom4096, stringsFrom4096, offset, division.1, division.2, entry]
    refine ⟨fun i inside => ?_, ?_⟩
    · rw [byte i (by omega), List.getD_eq_getElem?_getD, List.getElem?_eq_getElem inside,
        Option.getD_some]
    · rw [byte _ (by omega), List.getD_eq_getElem?_getD, List.getElem?_eq_none (Nat.le_refl _),
        Option.getD_none]
  apartBuffer text _ := .inr (by unfold stringsFrom4096; dsimp only; omega)
  apartAddress text _ := .inr (by unfold stringsFrom4096; dsimp only; omega)
  buffers := .inr (by decide)

/-- A write of the kernel to an address that is not mapped. -/
def unmappedWrite : PanicCause := ⟨14, 2, 0xDEADBEEF, 0⟩

theorem kernelPanic_shown_sample :
    ∃ message final,
      exceptionMessages[unmappedWrite.interruptNumber.toNat]? = some message ∧
      kernelPanic stringsFrom4096 80 unmappedWrite constantsFrom4096 (VTerm.static fun _ => 0) =
        some final ∧
      PanicShown stringsFrom4096 constantsFrom4096 (panicReport unmappedWrite message) final :=
  kernelPanic_shown constantsFrom4096_placed (Nat.le_refl 80) (by decide)

end KdbOS.Kernel
