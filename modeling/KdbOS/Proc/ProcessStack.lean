import KdbOS.Memory.AddressSpaces
import KdbOS.Memory.VmmCreate
import KdbOS.Proc.ContextSwitch

/-! `create_process_stack`: the first stack page of a process is filled through a page of
the kernel, with a context from which the process starts. -/

set_option autoImplicit false

namespace KdbOS.Proc

open Library Klibc Pmm Arch Vmm

/-- A word within a page, stored through a pointer of the kernel. -/
def storeWord (pointer : Nat) (word : UInt32) : VmmM Unit := do
  let frame ← reach pointer
  modify fun machine =>
    { machine with memory := machine.memory.store32 (physical frame pointer) word.toNat }

/-- `context->field = value`. -/
def assignField (context : Nat) (field : ContextField) (value : UInt32) : VmmM Unit :=
  storeWord (context + field.offset) value

/-- The assignments of `create_process_stack`, in order. -/
def startFields (entryPoint : UInt32) : List (ContextField × UInt32) :=
  [(.eflags, 0x0202), (.eax, 0), (.ecx, 0), (.edx, 0), (.ebx, 0), (.espDummy, 0), (.ebp, 0),
    (.esi, 0), (.edi, 0), (.eip, entryPoint)]

def processStackPage : Nat := 0xC0001000

/-- `create_process_stack` once it has its page. -/
def fillStack (entryPoint : UInt32) (localStackWindow : Nat) : VmmM (Nat × Option Nat) := do
  if localStackWindow = 0 then return (0, none)
  else
    let _ ← clearPage localStackWindow
    let context := localStackWindow + pageSize - contextSize
    (startFields entryPoint).forM fun (field, value) => assignField context field value
    let stackEntry ← readDirectory (← kernelDirectory) (directoryIndex localStackWindow)
    let stackPt ← reachTable stackEntry.frameAddr
    let page ← readEntry stackPt (pageIndex localStackWindow)
    let stackPhysFrame := frameAddress page.frameAddr
    let targetProcessEsp := processStackPage + context % pageSize
    vmmFreePage (← kernelDirectory) localStackWindow
    return (targetProcessEsp, some stackPhysFrame)

/-- The stack pointer for the process, which is NULL without a page, and what is stored
behind `out_physical_frame`. -/
def createProcessStack (entryPoint : UInt32) : VmmM (Nat × Option Nat) := do
  let localStackWindow ← vmmGetNewPage (← kernelDirectory) true false 0
  fillStack entryPoint localStackWindow

/-- The context from which a process starts. -/
def startContext (entryPoint : UInt32) : CpuContext
  | .eflags => 0x0202
  | .eip => entryPoint
  | _ => 0

/-- The context lies at the end of the frame. -/
def ContextIn (memory : Memory) (frame : Frame) (context : CpuContext) : Prop :=
  ∀ field : ContextField,
    memory.load32 (frameAddress frame + 4056 + field.offset) = (context field).toNat

variable {memory other : Memory} {context : CpuContext}
variable {start s t u : Machine} {directories : Set Frame} {directory frame : Frame}
variable {pointer window count : Nat} {entryPoint : UInt32}
variable {safe : Bool} {stops : Machine → Prop}

/-! ## The assignments -/

theorem contextSize_eq : contextSize = 40 := rfl

theorem offset_le (field : ContextField) : field.offset ≤ 36 := by
  cases field <;> decide

theorem ContextIn.congr (inFrame : ContextIn memory frame context)
    (same : tablesOf other frame = tablesOf memory frame) : ContextIn other frame context := by
  intro field
  rw [← inFrame field]
  have small := offset_le field
  exact Memory.load32_congr fun address lower upper => byte_of_tables same (by omega) (by omega)

theorem storeWord_written (sees : Sees s pointer frame) (fits : pointer % pageSize + 4 ≤ 4096)
    (word : UInt32) :
    ∃ t, storeWord pointer word s = .ok () t ∧ FrameWritten s t frame ∧
      t.memory = s.memory.store32 (physical frame pointer) word.toNat := by
  refine ⟨{ s with memory := s.memory.store32 (physical frame pointer) word.toNat }, ?_,
    ⟨fun other different => ?_, rfl, rfl, rfl⟩, rfl⟩
  · rw [storeWord, bind_ok (reach_ok sees), modify_ok]
  have lower := (physical_bounds frame pointer).1
  have upper : physical frame pointer + 4 ≤ frameAddress frame + 4096 := by
    unfold physical
    omega
  exact tablesOf_of_outside (fun address outside => Memory.store32_of_outside (by omega)) different

theorem offset_injective {first second : ContextField} (different : first ≠ second) :
    first.offset + 4 ≤ second.offset ∨ second.offset + 4 ≤ first.offset := by
  cases first <;> cases second <;> first | exact absurd rfl different | decide

theorem forM_cons_ok {α : Type} {action : α → VmmM Unit} {item : α} {items : List α}
    (first : action item s = .ok () t) : (item :: items).forM action s = items.forM action t := by
  show (action item >>= fun _ => items.forM action) s = _
  rw [bind_ok first]

/-- Every field that is assigned has its value, and the others have theirs. -/
theorem assignFields_written (structures : PageStructures s directories)
    (unlinked : ¬ (tablesOf s.memory).Linked directories frame)
    (addresses : Addresses s window frame) (range : window ∈ NewPageRange)
    (fields : List (ContextField × UInt32)) (distinct : (fields.map Prod.fst).Nodup) :
    ∃ t, (fields.forM fun (field, value) =>
        assignField (window + pageSize - contextSize) field value : VmmM Unit) s = .ok () t ∧
      FrameWritten s t frame ∧
      (∀ field value, (field, value) ∈ fields →
        t.memory.load32 (frameAddress frame + 4056 + field.offset) = value.toNat) ∧
      ∀ field, field ∉ fields.map Prod.fst →
        t.memory.load32 (frameAddress frame + 4056 + field.offset) =
          s.memory.load32 (frameAddress frame + 4056 + field.offset) := by
  induction fields generalizing s with
  | nil => exact ⟨s, rfl, .refl s frame, nofun, fun _ _ => rfl⟩
  | cons assignment rest ih =>
      obtain ⟨field, value⟩ := assignment
      rw [List.map_cons, List.nodup_cons] at distinct
      have small := offset_le field
      have place : window + pageSize - contextSize + field.offset = window + (4056 + field.offset) := by
        rw [contextSize_eq, pageSize]
        omega
      have noWrap : u32 (window + (4056 + field.offset)) = window + (4056 + field.offset) :=
        u32_of_lt (by have := range.1; have := range.2.2.1; omega)
      have sees := (addresses.within range (by omega : 4056 + field.offset < 4096)).sees
      rw [noWrap, ← place] at sees
      have inPage : (window + pageSize - contextSize + field.offset) % pageSize =
          4056 + field.offset := by
        rw [place, pageSize]
        have := range.1
        omega
      obtain ⟨next, stored, written, memory⟩ := storeWord_written sees (by
        rw [inPage]
        omega) value
      have assign : assignField (window + pageSize - contextSize) field value s = .ok () next :=
        stored
      have target : physical frame (window + pageSize - contextSize + field.offset) =
          frameAddress frame + 4056 + field.offset := by
        rw [physical, inPage, Nat.add_assoc]
      rw [target] at memory
      obtain ⟨t, run, later, assigned, kept⟩ := ih (written.pageStructures structures unlinked)
        (fun linked => unlinked ((written.linked unlinked).mp linked))
        (written.addresses structures unlinked addresses) distinct.2
      have first : ∀ other, other ∉ rest.map Prod.fst → other ≠ field →
          t.memory.load32 (frameAddress frame + 4056 + other.offset) =
            s.memory.load32 (frameAddress frame + 4056 + other.offset) := by
        intro other notRest different
        rw [kept other notRest, memory]
        have apart := offset_injective different
        exact Memory.load32_store32_of_disjoint (by omega)
      refine ⟨t, ?_, written.trans later, ?_, ?_⟩
      · refine Eq.trans (forM_cons_ok ?_) run
        exact assign
      · intro other otherValue member
        rcases List.mem_cons.mp member with same | inRest
        · obtain ⟨rfl, rfl⟩ := Prod.mk.inj same
          rw [kept other distinct.1, memory, Memory.load32_store32_self]
          exact u32_of_lt otherValue.toNat_lt
        · exact assigned other otherValue inRest
      · intro other notMember
        rw [List.map_cons, List.mem_cons, not_or] at notMember
        exact first other notMember.2 notMember.1

theorem startFields_nodup (entryPoint : UInt32) :
    ((startFields entryPoint).map Prod.fst).Nodup := by
  have fields : (startFields entryPoint).map Prod.fst =
      [.eflags, .eax, .ecx, .edx, .ebx, .espDummy, .ebp, .esi, .edi, .eip] := rfl
  rw [fields]
  decide

theorem mem_startFields (entryPoint : UInt32) (field : ContextField) :
    (field, startContext entryPoint field) ∈ startFields entryPoint := by
  unfold startFields
  cases field <;> simp [startContext]

/-! ## The call -/

theorem grows_storeWord (pointer : Nat) (word : UInt32) : Grows (storeWord pointer word) :=
  .bind (.reach _) fun _ => .of_modify fun s => List.prefix_refl s.direct

theorem grows_fillStack (entryPoint : UInt32) (window : Nat) : Grows (fillStack entryPoint window) :=
  .ite (.pure _) <| .bind (.clearPage _) fun _ =>
    .bind (.forM (fun _ => grows_storeWord _ _) _) fun _ => .bind .kernelDirectory fun _ =>
      .bind (.readDirectory _ _) fun _ => .bind (.reachTable _) fun _ =>
        .bind (.readEntry _ _) fun _ => .bind .kernelDirectory fun _ =>
          .bind (.vmmFreePage _ _) fun _ => .pure _

theorem grows_createProcessStack (entryPoint : UInt32) : Grows (createProcessStack entryPoint) :=
  .bind .kernelDirectory fun _ => .bind (.vmmGetNewPage _ _ _ _) (grows_fillStack entryPoint)

/-- What `create_process_stack` returns and leaves: a frame that is mapped nowhere for the
kernel any more, with a context at its end. -/
inductive StackResult (s : Machine) (directories : Set Frame) (entryPoint : UInt32) :
    Nat × Option Nat → Machine → Prop where
  | failed {t : Machine} :
      Starved s → NewPageResult s directories s.kernelDirectory true false 0 t →
      StackResult s directories entryPoint (0, none) t
  | filled {made filled t : Machine} {window : Nat} {stack : Frame} {table : Option Frame} :
      IsLeast {address | address ∈ NewPageRange ∧
        walk s.memory s.kernelDirectory address = none} window →
      NewPage s made directories s.kernelDirectory window true false stack table →
      FrameWritten made filled stack →
      ContextIn filled.memory stack (startContext entryPoint) →
      PageChanged filled t directories s.kernelDirectory window none →
      StackResult s directories entryPoint (0xC0001FD8, some (frameAddress stack)) t

theorem targetProcessEsp_eq (range : window ∈ NewPageRange) :
    processStackPage + (window + pageSize - contextSize) % pageSize = 0xC0001FD8 := by
  have aligned := range.1
  rw [processStackPage, contextSize_eq, pageSize]
  omega

/-- Filling the page that was found. -/
theorem fillStack_leads {made : Machine} {stack : Frame} {table : Option Frame}
    (structures : PageStructures s directories) (madeStructures : PageStructures made directories)
    (madeFaithful : Faithful made) (lowest : IsLeast {address | address ∈ NewPageRange ∧
      walk s.memory s.kernelDirectory address = none} window)
    (newPage : NewPage s made directories s.kernelDirectory window true false stack table)
    (reachable : safe = true →
      TablesReachable made s.kernelDirectory [directoryIndex window]) :
    Leads safe stops (fillStack entryPoint window) made fun returned t =>
      StackResult s directories entryPoint returned t ∧ returned.1 = 0xC0001FD8 := by
  have kernel := structures.laid.kernel
  have notNull : window ≠ 0 := by
    have lower := lowest.1.1.2.1
    omega
  rw [fillStack, if_neg notNull]
  have unlinked := newPage.not_linked structures
  have windowMade : Addresses made window stack := ⟨newPage.sees, not_windowPage lowest.1.1⟩
  -- The page is filled.
  obtain ⟨cleared, clear, writtenClear, _⟩ := clearPage_written windowMade.sees
  obtain ⟨filled, assign, writtenFields, assigned, _⟩ := assignFields_written
    (writtenClear.pageStructures madeStructures unlinked)
    (fun linked => unlinked ((writtenClear.linked unlinked).mp linked))
    (writtenClear.addresses madeStructures unlinked windowMade) lowest.1.1
    (startFields entryPoint) (startFields_nodup entryPoint)
  have written := writtenClear.trans writtenFields
  have context : ContextIn filled.memory stack (startContext entryPoint) := fun field =>
    assigned field _ (mem_startFields entryPoint field)
  refine Leads.bind_of_ok clear (Leads.bind_of_ok assign ?_)
  have filledStructures := written.pageStructures madeStructures unlinked
  have filledFaithful := written.faithful madeFaithful
  have filledDirectory : filled.kernelDirectory = s.kernelDirectory :=
    written.kernelDirectory.trans newPage.kernelDirectory
  have filledReachable : safe = true →
      TablesReachable filled filled.kernelDirectory [directoryIndex window] := fun isSafe => by
    rw [filledDirectory]
    exact written.tablesReachable madeStructures unlinked kernel (reachable isSafe)
  -- Its frame is read from the table.
  obtain ⟨pageEntry, mapped⟩ := newPage.mapped
  have windowWalk : walk filled.memory filled.kernelDirectory window =
      some (pointEntry true false (frameAddress stack) pageEntry) := by
    rw [filledDirectory, ← mapped]
    exact written.walks unlinked kernel
  obtain ⟨level, lower, _⟩ := Tables.walk_eq_some_iff.mp windowWalk
  refine Leads.bind_of_ok (kernelDirectory_ok filled) (Leads.bind_of_ok
    (readDirectory_ok filledStructures.kernelDirectory.sees) ?_)
  refine Leads.bind (reachTable_leads filledFaithful fun isSafe =>
    filledReachable isSafe _ (List.mem_singleton.mpr rfl) level)
    (fun _ => .bind (.readEntry _ _) fun _ => .bind .kernelDirectory fun _ =>
      .bind (.vmmFreePage _ _) fun _ => .pure _) ?_
  rintro reachedTable noted _ notedFaithful ⟨rfl, sees, rfl⟩
  let table := (tablesOf filled.memory filled.kernelDirectory (directoryIndex window)).frameAddr
  have number : (tablesOf filled.memory table (pageIndex window)).frameAddr = stack := by
    rw [tableEntry_target] at lower
    rw [lower]
    exact frameOf_frameAddress stack
  refine Leads.bind_of_ok (readEntry_ok _ _ _) (Leads.bind_of_ok (kernelDirectory_ok _) ?_)
  -- The kernel's page is given back.
  refine Leads.bind (vmmFreePage_leads (filledStructures.notes [(table, some table)])
    filledStructures.laid.kernel (filledStructures.kernelDirectory.notes [(table, some table)])
    notedFaithful fun isSafe => ?_) (fun _ => .pure _) fun _ t _ ends freed => ?_
  · exact filledReachable isSafe
  rw [targetProcessEsp_eq lowest.1.1]
  refine Leads.of_ok rfl (fun _ => ends) fun _ => ?_
  rcases freed with ⟨absent, _⟩ | ⟨_, changed⟩
  · exact Bool.noConfusion (absent.symm.trans level)
  · have last := changed.of_note
    rw [filledDirectory] at last
    have result := StackResult.filled lowest newPage written context last
    rw [← number] at result
    exact ⟨result, rfl⟩

theorem createProcessStack_leads (sound : Sound start s directories) (faithful : Faithful s)
    (low : safe = true → TablesLow start s directories (count + 2)) :
    Leads safe stops (createProcessStack entryPoint) s
      (StackResult s directories entryPoint) := by
  refine Leads.bind_of_ok (kernelDirectory_ok s) ?_
  refine Leads.bind (vmmGetNewPage_leads sound.structures sound.kernel
    sound.structures.kernelDirectory faithful
    (fun isSafe => (low isSafe).reachable sound sound.kernel _) true false)
    (grows_fillStack entryPoint)
    fun window made run madeFaithful result => ?_
  have madeSound := sound.newPage result
  have starved := fun isNull : window = 0 => starved_of_null sound.structures.kernelDirectory.sees
    (isNull ▸ run) madeFaithful
  cases result with
  | full mapped reached =>
      exact Leads.of_ok rfl (fun _ => madeFaithful) fun _ => .failed (starved rfl) (.full mapped reached)
  | exhausted noFrame =>
      exact Leads.of_ok rfl (fun _ => madeFaithful) fun _ => .failed (starved rfl) (.exhausted noFrame)
  | mapped least newPage =>
      refine (fillStack_leads sound.structures madeSound.structures madeFaithful least newPage
        fun isSafe => ?_).mono fun _ _ _ filled => filled.1
      have madeLow : TablesLow start made directories count := (low isSafe).newPage (.mapped least newPage)
      exact madeLow.reachable madeSound sound.kernel _

namespace StackResult

variable {returned : Nat × Option Nat}

theorem sound (result : StackResult s directories entryPoint returned t)
    (sound : Sound start s directories) : Sound start t directories := by
  cases result with
  | failed _ newPage => exact sound.newPage newPage
  | filled least newPage written _ changed =>
      exact ((sound.newPage (.mapped least newPage)).written written
        (newPage.not_linked sound.structures)).pageChanged changed (not_kernelSlot least.1.1)

theorem tablesLow (result : StackResult s directories entryPoint returned t)
    (sound : Sound start s directories) (low : TablesLow start s directories (count + 2)) :
    TablesLow start t directories count := by
  cases result with
  | failed _ newPage => exact low.newPage newPage
  | filled least newPage written _ changed =>
      exact ((low.newPage (.mapped least newPage)).written written
        (newPage.not_linked sound.structures)).pageChanged changed

theorem extended (result : StackResult s directories entryPoint returned t)
    (sound : Sound start s directories) (directory : Frame) :
    Extends s t directories directory := by
  cases result with
  | failed _ newPage => exact newPage.extended sound.structures directory
  | filled least newPage written _ changed =>
      have kernel := sound.structures.laid.kernel
      have filled := (NewPageResult.extended (.mapped least newPage) sound.structures
        directory).written written newPage.least.1 (newPage.not_linked sound.structures) kernel
      refine filled.freed ?_ kernel least.1.2 (not_kernelSlot least.1.1)
      rw [filled.kernelDirectory]
      exact changed

/-- The frame belongs to the caller. -/
theorem of_frame {esp physical : Nat}
    (result : StackResult s directories entryPoint (esp, some physical) t)
    (sound : Sound start s directories) :
    ∃ stack, esp = 0xC0001FD8 ∧ physical = frameAddress stack ∧ ¬ t.frames.Free stack ∧
      ¬ (tablesOf t.memory).Linked directories stack ∧
      ContextIn t.memory stack (startContext entryPoint) := by
  cases result with
  | @filled made filled _ _ stack table least newPage written inFrame changed =>
      have fresh := newPage.not_linked sound.structures
      have unlinked : ¬ (tablesOf filled.memory).Linked directories stack :=
        fun linked => fresh ((written.linked fresh).mp linked)
      refine ⟨stack, rfl, rfl, ?_, fun linked => unlinked ((changed.tables.linked stack).mp linked),
        inFrame.congr (changed.tables.unlinked stack unlinked)⟩
      rw [changed.frames, written.frames]
      exact fun free => ((newPage.free stack).mp free).2.1 rfl

end StackResult

end KdbOS.Proc
