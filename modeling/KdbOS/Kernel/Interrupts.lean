import KdbOS.Drivers.KeyboardBounds
import KdbOS.Library.Runs
import KdbOS.Proc.SchedTimer

/-! The timer and keyboard interrupts that `master_exception_handler` delivers, and the ends of
interrupt that reach the master PIC. -/

set_option autoImplicit false

namespace KdbOS.Kernel

open Library Arch Vterm Drivers Proc

/-- `PIC_EOI` at `PIC1_COMMAND`. -/
def endOfInterrupt : Nat × Nat := (0x20, 0x20)

def countEoi (outb : PortWrites) : Nat := outb.count endOfInterrupt

/-! ## The terminal

No call of the terminal that a key makes commands the PIC. -/

section

variable {term after : VTerm}

/-- The port writes made on the way hold no end of interrupt. -/
def Silent (before after : VTerm) : Prop := countEoi after.outb = countEoi before.outb

theorem Silent.trans {first second third : VTerm} (left : Silent first second)
    (right : Silent second third) : Silent first third :=
  Eq.trans right left

theorem Silent.refl (term : VTerm) : Silent term term := rfl

private theorem vtermMoveCursor_outb (row col : Nat) (term : VTerm) :
    (vtermMoveCursor row col term).outb = term.outb ∨
      ∃ position, (vtermMoveCursor row col term).outb = term.outb ++
        [(crtcCmdPort, cursorPosHighByteCmd), (crtcDataPort, position / 256 % 256),
          (crtcCmdPort, cursorPosLowByteCmd), (crtcDataPort, position % 256)] := by
  unfold vtermMoveCursor VTerm.write
  grind

private theorem vtermMoveCursor_silent (row col : Nat) (term : VTerm) :
    Silent term (vtermMoveCursor row col term) := by
  unfold Silent
  rcases vtermMoveCursor_outb row col term with same | ⟨position, moved⟩
  · rw [same]
  · have none : endOfInterrupt ∉ [(crtcCmdPort, cursorPosHighByteCmd),
        (crtcDataPort, position / 256 % 256), (crtcCmdPort, cursorPosLowByteCmd),
        (crtcDataPort, position % 256)] := by
      simp [endOfInterrupt, crtcCmdPort, crtcDataPort]
    rw [moved, countEoi, List.count_append, List.count_eq_zero.mpr none, Nat.add_zero, countEoi]

private theorem updateCell_silent {row col : Nat} {change : VTermCell → VTermCell}
    (updated : term.updateCell row col change = some after) : Silent term after := by
  unfold VTerm.updateCell at updated
  split at updated <;> cases updated
  rfl

private theorem showCell_silent {character fg bg : UInt8} {row col : Nat}
    (shown : term.showCell character row col fg bg = some after) : Silent term after := by
  obtain ⟨_, _, shown⟩ := Option.bind_eq_some_iff.mp shown
  obtain ⟨_, _, shown⟩ := Option.bind_eq_some_iff.mp shown
  obtain ⟨_, _, shown⟩ := Option.bind_eq_some_iff.mp shown
  cases shown
  rfl

private theorem vtermFlush_silent (flushed : vtermFlush term = some after) :
    Silent term after := by
  obtain ⟨drawn, loop, last⟩ := Option.bind_eq_some_iff.mp flushed
  have drawnSilent : Silent term drawn := by
    refine forLoop_keeps (Silent term) loop (.refl term) ?_
    intro current row next known inner
    refine forLoop_keeps (Silent term) inner known fun cell col nextCell knownCell step => ?_
    obtain ⟨_, _, shown⟩ := Option.bind_eq_some_iff.mp step
    exact knownCell.trans (showCell_silent shown)
  cases last
  exact drawnSilent.trans (vtermMoveCursor_silent ..)

private theorem flushStream_silent (flushed : flushStream term = some after) :
    Silent term after := by
  unfold flushStream at flushed
  split at flushed
  case isTrue => exact vtermFlush_silent flushed
  case isFalse =>
    cases flushed
    rfl

private theorem vtermScroll_silent (moves : vtermScroll term = some after) : Silent term after := by
  rw [vtermScroll_eq] at moves
  exact (vtermMoveCursor_silent 24 0 { term with screenBuffer := scrolled term }).trans
    (flushStream_silent moves)

private theorem wrapCursor_silent (wrapped : wrapCursor term = some after) :
    Silent term after := by
  unfold wrapCursor at wrapped
  generalize turned : (if term.cursorCol ≥ screenCols then
    { term with cursorCol := 0, cursorRow := u16 (term.cursorRow + 1) } else term) = next at wrapped
  have same : Silent term next := by
    rw [← turned]
    split
    case isTrue => rfl
    case isFalse => rfl
  dsimp only at wrapped
  split at wrapped
  case isTrue => exact same.trans (vtermScroll_silent wrapped)
  case isFalse =>
    cases wrapped
    exact same

private theorem storeChar_silent {change : VTermCell → VTermCell} {character : UInt8}
    (stored : storeChar change character term = some after) : Silent term after := by
  obtain ⟨updated, update, stored⟩ := Option.bind_eq_some_iff.mp stored
  have first := updateCell_silent update
  split at stored
  case isTrue => exact first.trans (showCell_silent stored)
  case isFalse =>
    cases stored
    exact first

theorem vtermWriteChar_silent {c : UInt8} (wrote : vtermWriteChar c term = some after) :
    Silent term after := by
  unfold vtermWriteChar at wrote
  split at wrote
  case isTrue =>
    dsimp only at wrote
    have moved := vtermMoveCursor_silent (u16 (term.cursorRow + 1)) 0 term
    split at wrote
    case isTrue => exact moved.trans (vtermScroll_silent wrote)
    case isFalse =>
      cases wrote
      exact moved
  case isFalse =>
    split at wrote
    case isTrue =>
      split at wrote
      · cases wrote
        rfl
      · exact (vtermMoveCursor_silent ..).trans (storeChar_silent wrote)
    case isFalse =>
      obtain ⟨wrapped, wrap, wrote⟩ := Option.bind_eq_some_iff.mp wrote
      obtain ⟨stored, store, wrote⟩ := Option.bind_eq_some_iff.mp wrote
      cases wrote
      exact (wrapCursor_silent wrap).trans ((storeChar_silent store).trans
        (vtermMoveCursor_silent _ _ { stored with cursorCol := u16 (stored.cursorCol + 1) }))

end

/-! ## The keyboard handler -/

section

variable {console after : Console} {status scancode : UInt8}

private theorem arrowKey_silent (scancode : UInt8) (term : VTerm) :
    Silent term (arrowKey scancode term) := by
  unfold arrowKey
  split
  case isTrue => exact vtermMoveCursor_silent ..
  case isFalse =>
    split
    case isTrue => exact vtermMoveCursor_silent ..
    case isFalse =>
      split
      case isTrue => exact vtermMoveCursor_silent ..
      case isFalse =>
        split
        case isTrue => exact vtermMoveCursor_silent ..
        case isFalse => rfl

private theorem typeKey_silent (typed : typeKey scancode console = some after) :
    Silent console.vterm after.vterm := by
  unfold typeKey at typed
  split at typed
  case isTrue =>
    cases typed
    rfl
  case isFalse =>
    obtain ⟨_, _, typed⟩ := Option.bind_eq_some_iff.mp typed
    obtain ⟨_, _, typed⟩ := Option.bind_eq_some_iff.mp typed
    split at typed
    case isTrue =>
      obtain ⟨vterm, wrote, equal⟩ := Option.bind_eq_some_iff.mp typed
      cases equal
      exact vtermWriteChar_silent wrote
    case isFalse =>
      cases typed
      rfl

private theorem decodeScancode_silent (decoded : decodeScancode scancode console = some after) :
    Silent console.vterm after.vterm := by
  unfold decodeScancode at decoded
  split at decoded
  case isTrue =>
    cases decoded
    rfl
  case isFalse =>
    split at decoded
    case isTrue =>
      dsimp only at decoded
      split at decoded <;> cases decoded
      · rfl
      · exact arrowKey_silent scancode _
    case isFalse =>
      split at decoded
      case isTrue =>
        dsimp only at decoded
        split at decoded <;> cases decoded <;> rfl
      case isFalse =>
        split at decoded
        case isTrue =>
          cases decoded
          rfl
        case isFalse =>
          split at decoded
          case isTrue =>
            cases decoded
            rfl
          case isFalse => exact typeKey_silent decoded

/-- Nothing is acknowledged when the controller's output buffer is empty. -/
theorem keyboardHandler_eoi (handled : keyboardHandler status scancode console = some after) :
    countEoi after.vterm.outb =
      countEoi console.vterm.outb + if status &&& 0x01 ≠ 0 then 1 else 0 := by
  unfold keyboardHandler at handled
  split at handled
  case isTrue full =>
    rw [decodeScancode_silent handled, if_pos full]
    exact List.count_append
  case isFalse empty =>
    cases handled
    rw [if_neg empty]
    rfl

end

/-! ## The timer handler -/

section

variable {scheduler after : Scheduler}

private theorem schedEnqueue_outb {pcb : Option Nat}
    (enqueued : schedEnqueue scheduler pcb = some after) : after.outb = scheduler.outb := by
  unfold schedEnqueue at enqueued
  split at enqueued
  · cases enqueued
    rfl
  · split at enqueued
    · simp only [Option.bind_eq_bind, Option.bind_eq_some_iff, Option.some.injEq] at enqueued
      obtain ⟨_, _, _, _, rfl⟩ := enqueued
      rfl
    · simp only [Option.bind_eq_bind, Option.bind_eq_some_iff, Option.some.injEq] at enqueued
      obtain ⟨_, _, rfl⟩ := enqueued
      rfl
    · cases enqueued
      rfl

private theorem ageWalk_outb (level : Fin 4) (fuel : Nat) :
    ∀ {scheduler after : Scheduler} {currentNode : Option (Ds.ListNode SchedList Nat)},
      ageWalk level fuel currentNode scheduler = some after → after.outb = scheduler.outb := by
  induction fuel with
  | zero =>
      intro scheduler after currentNode walked
      cases walked
  | succ fuel ih =>
      intro scheduler after currentNode walked
      simp only [ageWalk] at walked
      split at walked
      · cases walked
        rfl
      · obtain ⟨_, _, walked⟩ := Option.bind_eq_some_iff.mp walked
        obtain ⟨_, _, walked⟩ := Option.bind_eq_some_iff.mp walked
        split at walked
        · obtain ⟨_, _, walked⟩ := Option.bind_eq_some_iff.mp walked
          obtain ⟨_, _, walked⟩ := Option.bind_eq_some_iff.mp walked
          obtain ⟨_, _, walked⟩ := Option.bind_eq_some_iff.mp walked
          obtain ⟨_, _, walked⟩ := Option.bind_eq_some_iff.mp walked
          have same := ih walked
          exact same
        · have same := ih walked
          exact same

private theorem ageLevels_outb (fuel : Nat) (levels : List (Fin 4)) :
    ∀ {scheduler after : Scheduler}, ageLevels fuel scheduler levels = some after →
      after.outb = scheduler.outb := by
  induction levels with
  | nil =>
      intro scheduler after aged
      cases aged
      rfl
  | cons level rest ih =>
      intro scheduler after aged
      obtain ⟨middle, walked, aged⟩ := Option.bind_eq_some_iff.mp aged
      exact (ih aged).trans (ageWalk_outb level fuel walked)

theorem schedTick_outb {fuel : Nat} (ticked : schedTick fuel scheduler = some after) :
    after.outb = scheduler.outb := by
  unfold schedTick at ticked
  split at ticked
  · cases ticked
    rfl
  · split at ticked
    · cases ticked
      rfl
    · dsimp only at ticked
      split at ticked
      · obtain ⟨_, _, ticked⟩ := Option.bind_eq_some_iff.mp ticked
        obtain ⟨queued, enqueued, ticked⟩ := Option.bind_eq_some_iff.mp ticked
        cases ticked
        have same := schedEnqueue_outb enqueued
        exact same
      · have same := ageLevels_outb fuel _ ticked
        exact same

private theorem pickFrom_outb (levels : List (Fin 4)) {found : Option Nat}
    (picked : pickFrom scheduler levels = some (found, after)) : after.outb = scheduler.outb := by
  induction levels with
  | nil =>
      cases picked
      rfl
  | cons level rest ih =>
      unfold pickFrom at picked
      split at picked
      · obtain ⟨⟨_, _⟩, _, picked⟩ := Option.bind_eq_some_iff.mp picked
        obtain ⟨_, _, picked⟩ := Option.bind_eq_some_iff.mp picked
        obtain ⟨_, _, picked⟩ := Option.bind_eq_some_iff.mp picked
        cases picked
        rfl
      · exact ih picked

private theorem schedPickNextProcess_outb (picked : schedPickNextProcess scheduler = some after) :
    after.outb = scheduler.outb := by
  obtain ⟨⟨found, searched⟩, search, picked⟩ := Option.bind_eq_some_iff.mp picked
  have same := pickFrom_outb _ search
  cases found with
  | some address =>
      cases picked
      exact same
  | none =>
      obtain ⟨next, _, picked⟩ := Option.bind_eq_some_iff.mp picked
      cases picked
      exact same

private theorem dispatchNext_outb {oldPcb : Option Nat} {dispatch : Dispatch}
    (dispatched : dispatchNext oldPcb scheduler = some (dispatch, after)) :
    after.outb = scheduler.outb := by
  unfold dispatchNext at dispatched
  split at dispatched
  · obtain ⟨picked, pick, dispatched⟩ := Option.bind_eq_some_iff.mp dispatched
    obtain ⟨_, _, equal⟩ := Option.map_eq_some_iff.mp dispatched
    cases equal
    exact schedPickNextProcess_outb pick
  · cases dispatched
    rfl

/-- The tick writes nothing, and neither does what comes after the end of interrupt. -/
theorem schedTimerHandler_eoi {fuel : Nat} {dispatch : Dispatch}
    (handled : schedTimerHandler fuel scheduler = some (dispatch, after)) :
    countEoi after.outb = countEoi scheduler.outb + 1 := by
  rw [schedTimerHandler_eq] at handled
  obtain ⟨ticked, tick, dispatched⟩ := Option.bind_eq_some_iff.mp handled
  rw [dispatchNext_outb dispatched, ← schedTick_outb tick]
  simp [countEoi, Proc.picSendEoi, endOfInterrupt]

end

/-! ## Deliveries -/

/-- The handlers that boot registers in `irq_handlers`. -/
inductive IrqHandler where
  | schedTimerHandler
  | keyboardHandler
  deriving DecidableEq, Repr

inductive IrqLine where
  | timer
  | keyboard
  deriving DecidableEq, Repr

def IrqLine.vector : IrqLine → Nat
  | timer => 32
  | keyboard => 33

/-- An interrupt, with what the two port reads of the keyboard handler return during it. -/
structure Delivery where
  line : IrqLine
  status : UInt8
  scancode : UInt8

structure Machine where
  scheduler : Scheduler
  console : Console

/-- The ends of interrupt sent so far. -/
def Machine.acknowledged (machine : Machine) : Nat :=
  countEoi machine.scheduler.outb + countEoi machine.console.vterm.outb

/-- `master_exception_handler` on the vector of a line, up to where it returns or leaves the
stack. `irqHandlers vector` is what the load of `irq_handlers[vector]` gives. -/
def deliver (irqHandlers : Nat → Option IrqHandler) (fuel : Nat) (delivery : Delivery)
    (machine : Machine) : Option (Dispatch × Machine) :=
  match irqHandlers delivery.line.vector with
  | none => some (.none, machine)
  | some .schedTimerHandler => do
      let (dispatch, scheduler) ← schedTimerHandler fuel machine.scheduler
      some (dispatch, { machine with scheduler := scheduler })
  | some .keyboardHandler => do
      let console ← keyboardHandler delivery.status delivery.scancode machine.console
      some (.none, { machine with console := console })

/-- What `isr_register_sched_timer` and `init_keyboard` register is what the loads give. -/
structure Registered (irqHandlers : Nat → Option IrqHandler) : Prop where
  timer : irqHandlers 32 = some .schedTimerHandler
  keyboard : irqHandlers 33 = some .keyboardHandler

/-- A keyboard interrupt comes with its scancode in the output buffer. -/
def Delivery.Ready (delivery : Delivery) : Prop :=
  delivery.line = .keyboard → delivery.status &&& 0x01 ≠ 0

instance (delivery : Delivery) : Decidable delivery.Ready :=
  inferInstanceAs (Decidable (_ → _))

variable {irqHandlers : Nat → Option IrqHandler} {fuel : Nat} {delivery : Delivery}
variable {machine after : Machine} {dispatch : Dispatch}

theorem deliver_acknowledged (registered : Registered irqHandlers)
    (delivered : deliver irqHandlers fuel delivery machine = some (dispatch, after)) :
    after.acknowledged = machine.acknowledged + if delivery.Ready then 1 else 0 := by
  obtain ⟨line, status, scancode⟩ := delivery
  cases line with
  | timer =>
      have ready : (Delivery.mk .timer status scancode).Ready := nofun
      rw [if_pos ready]
      simp only [deliver, IrqLine.vector, registered.timer] at delivered
      obtain ⟨⟨exit, scheduler⟩, handled, equal⟩ := Option.bind_eq_some_iff.mp delivered
      cases equal
      have sent := schedTimerHandler_eoi handled
      simp only [Machine.acknowledged, sent]
      omega
  | keyboard =>
      have ready : (Delivery.mk .keyboard status scancode).Ready ↔ status &&& 0x01 ≠ 0 :=
        ⟨fun is => is rfl, fun full _ => full⟩
      simp only [ready]
      simp only [deliver, IrqLine.vector, registered.keyboard] at delivered
      obtain ⟨console, handled, equal⟩ := Option.bind_eq_some_iff.mp delivered
      cases equal
      have sent := keyboardHandler_eoi handled
      simp only [Machine.acknowledged, sent]
      omega

/-! ## Reaching the end of interrupt -/

/-- What the scheduler and the terminal keep while the kernel uses them as intended. -/
structure Machine.Sane (machine : Machine) : Prop where
  lists : ∃ created queue, SchedInv machine.scheduler created queue
  awake : CurrentAwake machine.scheduler
  bounded : machine.console.vterm.Bounded

/-- The timer handler comes to its end of interrupt, whatever it dispatches then; the keyboard
handler returns. -/
def Reaches (machine : Machine) : Prop :=
  (∃ bound, ∀ fuel, bound ≤ fuel → ∃ ticked, schedTick fuel machine.scheduler = some ticked ∧
    schedTimerHandler fuel machine.scheduler =
      dispatchNext machine.scheduler.currentPcb (Proc.picSendEoi 0 ticked)) ∧
  ∀ status scancode, (keyboardHandler status scancode machine.console).isSome

theorem Machine.Sane.reaches (sane : machine.Sane) : Reaches machine := by
  obtain ⟨⟨created, queue, inv⟩, awake, bounded⟩ := sane
  constructor
  · obtain ⟨bound, ticked, _, ticks, _⟩ := inv.tick awake
    refine ⟨bound, fun fuel enough => ⟨ticked, ?_, ?_⟩⟩
    · rw [ticks, if_pos enough]
    · rw [schedTimerHandler_eq, ticks, if_pos enough, Option.bind_some]
  · intro status scancode
    obtain ⟨console, handled, _⟩ :=
      ConsoleOp.perform_succeeds bounded (.keyboardHandler status scancode)
    have returns : keyboardHandler status scancode machine.console = some console := handled
    rw [returns]
    rfl

/-! ## Runs -/

/-- The in-service bits of the two lines. -/
structure MasterPic where
  timer : Bool
  keyboard : Bool
  deriving DecidableEq, Repr

namespace MasterPic

def idle : MasterPic := ⟨false, false⟩

def raise (pic : MasterPic) : IrqLine → MasterPic
  | .timer => { pic with timer := true }
  | .keyboard => { pic with keyboard := true }

/-- An end of interrupt clears the bit of the highest priority among those set. -/
def endService (pic : MasterPic) : MasterPic :=
  if pic.timer then { pic with timer := false } else { pic with keyboard := false }

end MasterPic

structure IrqState where
  machine : Machine
  pic : MasterPic

/-- Interrupts are delivered one at a time. In between, processes and other kernel code run. -/
inductive IrqStep (irqHandlers : Nat → Option IrqHandler) :
    IrqState → Option Delivery → IrqState → Prop where
  | delivered {fuel : Nat} {delivery : Delivery} {machine after : Machine} {pic : MasterPic}
      {dispatch : Dispatch} :
      deliver irqHandlers fuel delivery machine = some (dispatch, after) →
      IrqStep irqHandlers ⟨machine, pic⟩ (some delivery)
        ⟨after, MasterPic.endService^[after.acknowledged - machine.acknowledged]
          (pic.raise delivery.line)⟩
  | between {machine after : Machine} {pic : MasterPic} :
      IrqStep irqHandlers ⟨machine, pic⟩ none ⟨after, pic⟩

abbrev IrqRun (irqHandlers : Nat → Option IrqHandler) := Run (IrqStep irqHandlers)

/-- A delivery sends one end of interrupt, and leaves nothing in service. -/
def AcknowledgedOnce (transition : Transition IrqState (Option Delivery)) : Prop :=
  (transition.label ≠ none →
    transition.after.machine.acknowledged = transition.before.machine.acknowledged + 1) ∧
  transition.after.pic = .idle

variable {start final : IrqState} {trace : List (Transition IrqState (Option Delivery))}

private theorem endService_raise (line : IrqLine) :
    (MasterPic.idle.raise line).endService = .idle := by
  cases line <;> rfl

private theorem IrqStep.acknowledged {before after : IrqState} {label : Option Delivery}
    (registered : Registered irqHandlers) (step : IrqStep irqHandlers before label after)
    (ready : ∀ delivery, label = some delivery → delivery.Ready) (idle : before.pic = .idle) :
    AcknowledgedOnce ⟨before, label, after⟩ := by
  cases step with
  | delivered handled =>
      have sent := deliver_acknowledged registered handled
      rw [if_pos (ready _ rfl)] at sent
      refine ⟨fun _ => sent, ?_⟩
      simp only at idle ⊢
      rw [sent, Nat.add_sub_cancel_left, idle]
      exact endService_raise _
  | between => exact ⟨fun is => absurd rfl is, idle⟩

/-- The loads after `init_keyboard` and `isr_register_sched_timer`. -/
def bootHandlers (vector : Nat) : Option IrqHandler :=
  if vector = 32 then some .schedTimerHandler
  else if vector = 33 then some .keyboardHandler
  else none

def sampleState : IrqState :=
  ⟨⟨sampleStart.scheduler, Console.static fun _ => 0⟩, .idle⟩

end KdbOS.Kernel
