import KdbOS.Ds.ListErrors
import KdbOS.Klibc.Kstring
import KdbOS.Vterm.VtermNumbers

/-! `panic.c`: the report of an exception. The string constants and the two buffers on the
stack of `kernel_panic` are byte runs in memory; the calls on the terminal take the
characters of a string. -/

set_option autoImplicit false

namespace KdbOS.Kernel

open Library Klibc Ds Vterm Arch

def exceptionMessages : List String :=
  ["Division By Zero",
    "Debug Exception",
    "Non-Maskable Interrupt",
    "Breakpoint",
    "Into Detected Overflow",
    "Out of Bounds",
    "Invalid Opcode",
    "No Coprocessor",
    "Double Fault",
    "Coprocessor Segment Overrun",
    "Bad TSS",
    "Segment Not Present",
    "Stack Fault",
    "General Protection Fault",
    "Page Fault",
    "Unknown Exception",
    "x87 FPU Floating-Point Error",
    "Alignment Check",
    "Machine Check",
    "SIMD Floating-Point Exception",
    "Virtualization Exception",
    "Control Protection Exception",
    "Reserved", "Reserved", "Reserved",
    "Reserved", "Reserved", "Reserved",
    "Hypervisor Injection Exception",
    "VMM Communication Exception",
    "Security Exception",
    "Reserved"]

/-- `"0123456789ABCDEF"`, with its NUL. -/
def hexDigits : List UInt8 :=
  [48, 49, 50, 51, 52, 53, 54, 55, 56, 57, 65, 66, 67, 68, 69, 70, 0]

/-- The loop of `hex_to_string`, for the indices below `count`, the last one first. -/
def hexToStringLoop (buffer : Nat) : Nat → UInt32 → Memory → Option Memory
  | 0, _, memory => some memory
  | i + 1, value, memory => do
      let digit ← hexDigits[(value &&& 0xF).toNat]?
      hexToStringLoop buffer i (value >>> 4) (memory.store8 (buffer + (2 + i)) digit)

def hexToString (value : UInt32) (buffer : Nat) (memory : Memory) : Option Memory := do
  let memory := memory.store8 (buffer + 0) 48
  let memory := memory.store8 (buffer + 1) 120
  let memory ← hexToStringLoop buffer 8 value memory
  some (memory.store8 (buffer + 10) 0)

/-- The characters up to the first NUL, or `none` when no NUL is found within `fuel`. -/
def readString : Nat → Nat → Memory → Option (List UInt8)
  | 0, _, _ => none
  | fuel + 1, address, memory =>
      if memory address = 0 then some []
      else do
        let rest ← readString fuel (address + 1) memory
        some (memory address :: rest)

/-- What `kernel_panic` finds: the fields of `CpuRegisters` that it reads, CR2, and what
`inb(CRTC_DATA_PORT)` returns to `vterm_set_cursor_visible`. -/
structure PanicCause where
  interruptNumber : UInt32
  errorCode : UInt32
  cr2 : UInt32
  cursorStyle : UInt8

/-- Where its strings lie: `panic_buffer`, `addr_str`, and each string constant. -/
structure PanicStrings where
  panicBuffer : Nat
  addrStr : Nat
  literal : String → Nat

/-- `current_row`, with the memory and the terminal. -/
structure PanicState where
  currentRow : Nat
  memory : Memory
  term : VTerm

section

variable (strings : PanicStrings) (fuel : Nat)

/-- `current_row += rows`. -/
def PanicState.advance (rows : Nat) (state : PanicState) : PanicState :=
  { state with currentRow := state.currentRow + rows }

/-- `kstrncpy(text, panic_buffer, SCREEN_COLS)`. -/
def PanicState.copy (text : String) (state : PanicState) : PanicState :=
  { state with
    memory := kstrncpy (strings.literal text) strings.panicBuffer screenCols state.memory }

/-- `kstrncat(panic_buffer, src, SCREEN_COLS)`. -/
def PanicState.append (src : Nat) (state : PanicState) : Option PanicState := do
  let memory ← kstrncat fuel strings.panicBuffer src screenCols state.memory
  some { state with memory := memory }

/-- `vterm_print_aligned(current_row, panic_buffer, VTERM_ALIGN_CENTER)`. -/
def PanicState.print (state : PanicState) : Option PanicState := do
  let text ← readString fuel strings.panicBuffer state.memory
  let term ← vtermPrintAligned (u16 state.currentRow) text .center state.term
  some { state with term := term }

/-- `"Context: …"`, for `user`. -/
def PanicState.copyContext (user : Bool) (state : PanicState) : PanicState :=
  if user then state.copy strings "Context: A user-mode program tried to "
  else state.copy strings "Context: The kernel tried to "

/-- And what was tried, for `inst_exec` and `write`. -/
def PanicState.appendAccess (instExec write : Bool) (state : PanicState) : Option PanicState :=
  if instExec then state.append strings fuel (strings.literal "EXECUTE code at this address.")
  else if write then state.append strings fuel (strings.literal "WRITE data to this address.")
  else state.append strings fuel (strings.literal "READ data from this address.")

/-- `"Cause: …"`, for `present`. -/
def PanicState.copyCause (present : Bool) (state : PanicState) : PanicState :=
  if !present then
    state.copy strings "Cause: This virtual address is NOT mapped in the page tables."
  else state.copy strings "Cause: Access denied! Page is protected (e.g., writing to Read-Only)."

/-- The branch `interrupt == 14`. -/
def reportPageFault (cause : PanicCause) (state : PanicState) : Option PanicState := do
  let faultingAddress := cause.cr2
  let state := state.advance 2
  let memory ← hexToString faultingAddress strings.addrStr state.memory
  let state := { state with memory := memory }
  let state := state.copy strings "Fault Address: "
  let state ← state.append strings fuel strings.addrStr
  let state ← state.print strings fuel
  let errCode := cause.errorCode
  let present : Bool := errCode &&& ((1 : UInt32) <<< 0) ≠ 0
  let write : Bool := errCode &&& ((1 : UInt32) <<< 1) ≠ 0
  let user : Bool := errCode &&& ((1 : UInt32) <<< 2) ≠ 0
  let instExec : Bool := errCode &&& ((1 : UInt32) <<< 4) ≠ 0
  let state := (state.advance 2).copyContext strings user
  let state ← state.appendAccess strings fuel instExec write
  let state ← state.print strings fuel
  ((state.advance 1).copyCause strings present).print strings fuel

/-- `if (interrupt == 14)`. -/
def reportFault (cause : PanicCause) (state : PanicState) : Option PanicState :=
  if cause.interruptNumber = 14 then reportPageFault strings fuel cause state else some state

/-- `kernel_panic(regs)`, up to the loop in which the processor is halted. -/
def kernelPanic (cause : PanicCause) (memory : Memory) (term : VTerm) : Option PanicState := do
  let message ← exceptionMessages[cause.interruptNumber.toNat]?
  let term := vtermSetBufferingMode .block term
  let term ← vtermClear .white .blue term
  let term := vtermSetColor .white .blue term
  let term := vtermSetCursorVisible false cause.cursorStyle term
  let state : PanicState := ⟨2, memory, term⟩
  let state := state.copy strings ":( A problem has been detected and kdbOS has been shut down."
  let state ← state.print strings fuel
  let state := state.advance 2
  let state := state.copy strings "Reason: "
  let state ← state.append strings fuel (strings.literal message)
  let state ← state.print strings fuel
  let state ← reportFault strings fuel cause state
  let state := state.advance 3
  let state :=
    state.copy strings "If this is the first time you've seen this, restart your computer."
  let state ← state.print strings fuel
  let state := state.advance 1
  let state := state.copy strings "If errors persist, check your build."
  let state ← state.print strings fuel
  let term ← vtermFlush state.term
  some { state with term := term }

end

end KdbOS.Kernel
