import KdbOS.Memory.VmmRuns
import KdbOS.Proc.ProcessStack

/-! Runs of all calls that work on page tables: those of the virtual memory manager, on any
directory and with or without an explicit page, and those by which processes are created. -/

set_option autoImplicit false

namespace KdbOS.Proc

open Library Pmm Arch Vmm Kernel

variable {start s t : Machine} {directories : Set Frame} {directory frame : Frame}
variable {pointer virtual count : Nat} {isRw isUser : Bool}
variable {safe : Bool} {stops : Machine → Prop}

/-! ## Calls -/

inductive ProcessCall where
  | vmm (call : VmmCall)
  | newPageAt (space : Nat) (isRw isUser : Bool) (explicitVirtual : Nat)
  | mapKernelFrame (targetDir virtualAddr physicalFrame : Nat)
      (isWriteable isUserProcess cached : Bool)
  | createProcessStack (entryPoint : UInt32)

namespace ProcessCall

def perform : ProcessCall → VmmM Nat
  | vmm call => call.perform
  | newPageAt space isRw isUser explicitVirtual => vmmGetNewPage space isRw isUser explicitVirtual
  | mapKernelFrame targetDir virtualAddr physicalFrame isWriteable isUserProcess cached => do
      let mapped ← vmmMapFrame targetDir virtualAddr physicalFrame isWriteable isUserProcess cached
      return mapped.toNat
  | createProcessStack entryPoint => do
      let (processEsp, _) ← Proc.createProcessStack entryPoint
      return processEsp

def Valid (state : VmmState) : ProcessCall → Prop
  | vmm call => call.Valid state
  | newPageAt space _ _ _ =>
      ∃ directory ∈ state.directories, Addresses state.machine space directory
  | mapKernelFrame targetDir _ _ _ _ _ =>
      Addresses state.machine targetDir state.machine.kernelDirectory
  | createProcessStack _ => True

def made (result : Nat) (after : Machine) : ProcessCall → Set Frame
  | vmm call => call.made result after
  | newPageAt _ _ _ _ | mapKernelFrame _ _ _ _ _ _ | createProcessStack _ => ∅

/-- The pages lie outside the first 8 MiB. A page that the caller chooses is not that of the
directory itself. -/
def High : ProcessCall → Prop
  | vmm call => call.High
  | newPageAt space _ _ explicitVirtual =>
      ¬ KernelSlot (directoryIndex explicitVirtual) ∧ ¬ SamePage space explicitVirtual
  | mapKernelFrame _ virtualAddr _ _ _ _ => ¬ KernelSlot (directoryIndex virtualAddr)
  | createProcessStack _ => True

/-- The most frames that a call takes. -/
def frames : ProcessCall → Nat
  | vmm call => call.frames
  | newPageAt _ _ _ _ | mapKernelFrame _ _ _ _ _ _ | createProcessStack _ => 2

theorem grows (call : ProcessCall) : Grows call.perform := by
  cases call with
  | vmm call => exact call.grows
  | newPageAt => exact .vmmGetNewPage _ _ _ _
  | mapKernelFrame => exact .bind (.vmmMapFrame _ _ _ _ _ _) fun _ => .pure _
  | createProcessStack => exact .bind (grows_createProcessStack _) fun _ => .pure _

end ProcessCall

inductive ProcessStep : VmmState → ProcessCall → VmmState → Prop where
  | returns {state : VmmState} {call : ProcessCall} {result : Nat} {after : Machine} :
      call.Valid state → call.perform state.machine = .ok result after →
      ProcessStep state call ⟨after, state.directories ∪ call.made result after⟩

abbrev ProcessRun (start : Machine) := Run ProcessStep ⟨start, {start.kernelDirectory}⟩

/-! ## One call -/

theorem vmmGetNewPage_at_leads (sound : Sound start s directories)
    (member : directory ∈ directories) (space : Addresses s pointer directory)
    (faithful : Faithful s) (high : ¬ KernelSlot (directoryIndex virtual))
    (apart : ¬ SamePage pointer virtual) (isRw isUser : Bool) :
    Leads safe stops (vmmGetNewPage pointer isRw isUser virtual) s fun _ t =>
      NewPageResult s directories directory isRw isUser 0 t ∨
        ∃ frame table, NewPage s t directories directory virtual isRw isUser frame table := by
  have notNull : virtual ≠ 0 := by
    rintro rfl
    exact high (by unfold KernelSlot; decide)
  have start_ : vmmGetNewPage pointer isRw isUser virtual s =
      mapNewPage pointer isRw isUser virtual s := by
    rw [vmmGetNewPage, if_pos notNull]
  have undisturbed : Undisturbed s directory pointer virtual :=
    ⟨sound.beside_kernelDirectory high, sound.beside_secondTable high, .inl apart,
      not_windowPage_of_high high⟩
  cases mapNewPage_cases sound.structures member space undisturbed isRw isUser with
  | inl none =>
      obtain ⟨t, run, noFrame⟩ := none
      exact Leads.of_ok (start_.trans run) (fun _ => noFrame.reached.faithful faithful)
        fun _ => .inl (.exhausted noFrame)
  | inr some =>
      obtain ⟨t, frame, table, run, newPage⟩ := some
      exact Leads.of_ok (start_.trans run) (fun _ => newPage.reached.faithful faithful)
        fun _ => .inr ⟨frame, table, newPage⟩

/-- A call outside the first 8 MiB keeps the structures in order. -/
theorem ProcessCall.leads {state : VmmState} {call : ProcessCall} (valid : call.Valid state)
    (high : call.High) (sound : Sound start state.machine state.directories)
    (faithful : Faithful state.machine) (stopsFaithful : ∀ t, Faithful t → stops t) (count : Nat)
    (low : safe = true →
      TablesLow start state.machine state.directories (count + call.frames)) :
    Leads safe stops call.perform state.machine fun result t =>
      Sound start t (state.directories ∪ call.made result t) ∧
        (safe = true → TablesLow start t (state.directories ∪ call.made result t) count) := by
  cases call with
  | vmm call => exact VmmCall.leads valid high sound faithful stopsFaithful count low
  | newPageAt space isRw isUser explicitVirtual =>
      obtain ⟨directory, member, addresses⟩ := valid
      refine (vmmGetNewPage_at_leads sound member addresses faithful high.1 high.2 isRw isUser).mono
        fun result t _ outcome => ?_
      rw [made, Set.union_empty]
      rcases outcome with noPage | ⟨frame, table, newPage⟩
      · exact ⟨sound.newPage noPage, fun isSafe => (low isSafe).newPage noPage⟩
      · exact ⟨sound.chosenPage newPage high.1, fun isSafe => (low isSafe).chosenPage newPage⟩
  | mapKernelFrame target virtual physical isWriteable isUser cached =>
      have reachable : safe = true → ∀ slots,
          TablesReachable state.machine state.machine.kernelDirectory slots :=
        fun isSafe slots => (low isSafe).reachable sound sound.kernel slots
      refine Leads.bind (vmmMapFrame_leads sound.structures sound.kernel valid faithful
        (fun isSafe => reachable isSafe _) (fun isSafe => reachable isSafe _)
        fun _ => stopsFaithful) (fun _ => .pure _)
          fun answer t _ ends result => Leads.of_ok rfl (fun _ => ends) fun _ => ?_
      rw [made, Set.union_empty]
      exact ⟨sound.mapFrame result high, fun isSafe => (low isSafe).mapFrame result⟩
  | createProcessStack entryPoint =>
      refine Leads.bind (createProcessStack_leads sound faithful low) (fun _ => .pure _)
        fun returned t _ ends result => Leads.of_ok rfl (fun _ => ends) fun _ => ?_
      rw [made, Set.union_empty]
      exact ⟨result.sound sound, fun isSafe => result.tablesLow sound (low isSafe)⟩

/-! ## Runs -/

theorem ProcessStep.faithful {before after : VmmState} {call : ProcessCall}
    (step : ProcessStep before call after) (ends : Faithful after.machine) :
    Faithful before.machine := by
  obtain ⟨valid, performed⟩ := step
  have grown := call.grows before.machine
  rw [performed] at grown
  exact fun access member => ends access (grown.subset member)

/-- The structures are in order as long as every table that is dereferenced by its physical
address is reached. -/
theorem ProcessRun.sound {trace : List (Transition VmmState ProcessCall)} {final : VmmState}
    (run : ProcessRun start trace final) (initial : Sound start start {start.kernelDirectory})
    (high : ∀ transition ∈ trace, transition.label.High) (faithful : Faithful final.machine) :
    Sound start final.machine final.directories := by
  refine run.invariant_of_mark ProcessCall.High
    (fun state => Sound start state.machine state.directories)
    (fun state => Faithful state.machine) initial (fun step ends => step.faithful ends)
    (fun sound before ends isHigh step => ?_) high faithful
  obtain ⟨valid, performed⟩ := step
  have leads : Leads false (fun _ => True) _ _ _ :=
    ProcessCall.leads valid isHigh sound before (fun _ _ => trivial) 0 nofun
  exact ((leads.returns _ _ performed).2 ends).1

end KdbOS.Proc
