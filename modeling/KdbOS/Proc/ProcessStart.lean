import KdbOS.Proc.ProcessRuns

/-! The first dispatch of a process: what `popf`, `popa` and `ret` find on the stack that
`create_process_stack` has filled, in the address space in which `create_pcb` has mapped it. -/

set_option autoImplicit false

namespace KdbOS.Proc

open Library Pmm Arch Vmm Kernel

variable {start s t : Machine} {directories : Set Frame} {directory frame : Frame}
variable {memory : Memory} {context : CpuContext} {pages : UInt32 → Paging} {paging : Paging}
variable {entryPoint returnAddress : UInt32} {pointer esp : Nat}

/-! ## The stack page as the processor sees it -/

/-- The pages of an address space. -/
def spacePages (memory : Memory) (directory : Frame) : Paging :=
  fun page => (Arch.translate memory directory (page * 4096)).map Fin.val

theorem offset_getElem {i : Nat} (small : i < ContextField.all.length) :
    ContextField.all[i].offset = 4 * i := by
  rw [ContextField.offset, List.Nodup.idxOf_getElem (by decide)]

/-- A context at the end of the frame behind 0xC0001000. -/
theorem ContextIn.wordsAt (inFrame : ContextIn memory frame context)
    (mapped : paging 0xC0001 = some frame.val) :
    paging.WordsAt memory 0xC0001FD8 context.words := by
  have page : (0xC0001FD8 : UInt32).toNat / 4096 = 0xC0001 := by decide
  have offset : (0xC0001FD8 : UInt32).toNat % 4096 = 4056 := by decide
  refine Paging.wordsAt_of_page (page ▸ mapped) ?_ fun i small => ?_
  · rw [offset, CpuContext.words, List.length_map]
    decide
  · have inAll : i < ContextField.all.length := by
      rw [CpuContext.words, List.length_map] at small
      exact small
    have word := inFrame ContextField.all[i]
    rw [offset_getElem inAll] at word
    rw [offset]
    simp only [CpuContext.words, List.getElem_map]
    exact word

/-- Whatever else the address space holds, a processor whose stack pointer is `esp` starts
the process at its entry point when it takes the context from there. -/
def StartsAt (memory : Memory) (directory : Frame) (esp : Nat) (entryPoint : UInt32) : Prop :=
  ∀ (pages : UInt32 → Paging) (cpu : Cpu), cpu.memory = memory →
    cpu.registers .esp = UInt32.ofNat esp →
    pages cpu.cr3 0xC0001 = spacePages memory directory 0xC0001 →
    ∃ after, cpu.run pages restoreContext = some after ∧ after.eip = entryPoint ∧
      (∀ register ≠ .esp, after.registers register = 0) ∧
      after.registers .esp = UInt32.ofNat esp + 40 ∧
      after.eflags.interrupts = true ∧ after.memory = memory

theorem ContextIn.startsAt (inFrame : ContextIn memory frame (startContext entryPoint))
    (mapped : Arch.translate memory directory processStackPage = some frame) :
    StartsAt memory directory 0xC0001FD8 entryPoint := by
  rintro pages cpu rfl isEsp samePage
  have page : spacePages cpu.memory directory 0xC0001 = some frame.val :=
    congrArg (Option.map Fin.val) mapped
  have onStack : Cpu.OnStack pages cpu (startContext entryPoint).words := by
    unfold Cpu.OnStack
    rw [isEsp]
    exact inFrame.wordsAt (samePage.trans page)
  obtain ⟨after, run, registers, top, eflags, eip, _, same⟩ := restoreContext_run onStack
  refine ⟨after, run, eip, fun register notEsp => ?_, ?_, ?_, same⟩
  · rw [registers register notEsp]
    cases register <;> rfl
  · rw [top, isEsp]
  · rw [eflags]
    show (Eflags.ofWord 0x0202).interrupts = true
    decide

/-! ## Saving and restoring -/

/-- The words that `context_switch` has pushed are a context, and popping them restores it
wherever the same bytes are seen below the same stack pointer. -/
def ContextKept (pages : UInt32 → Paging) (cpu saved : Cpu) (returnAddress : UInt32) : Prop :=
  (pages cpu.cr3).WordsAt saved.memory (saved.registers .esp)
      (savedContext cpu returnAddress).words ∧
    ∀ (otherPages : UInt32 → Paging) (next : Cpu),
      next.registers .esp = saved.registers .esp →
      (∀ offset : UInt32, offset.toNat < contextSize →
        (otherPages next.cr3).byte next.memory (next.registers .esp + offset) =
          (pages cpu.cr3).byte saved.memory (saved.registers .esp + offset)) →
      ∃ restored, next.run otherPages restoreContext = some restored ∧
        (∀ register ≠ .esp, restored.registers register = cpu.registers register) ∧
        restored.registers .esp = cpu.registers .esp + 4 ∧
        restored.eflags = cpu.eflags ∧ restored.eip = returnAddress

theorem saveContext_kept {cpu saved : Cpu}
    (called : (pages cpu.cr3).load cpu.memory (cpu.registers .esp) = some returnAddress)
    (run : cpu.run pages saveContext = some saved) :
    ContextKept pages cpu saved returnAddress := by
  have onStack : Cpu.OnStack pages cpu [returnAddress] := ⟨called, trivial⟩
  obtain ⟨image, esp, cr3⟩ := saveContext_words onStack (Nat.zero_lt_succ _) run
  rw [List.append_nil, Cpu.OnStack, cr3] at image
  refine ⟨image, fun otherPages next sameEsp sameBytes => ?_⟩
  rw [sameEsp] at sameBytes
  have nextStack : Cpu.OnStack otherPages next (savedContext cpu returnAddress).words := by
    unfold Cpu.OnStack
    rw [sameEsp]
    refine image.congr sameBytes ?_ (by decide)
    rw [CpuContext.words, List.length_map]
    exact Nat.le_refl _
  obtain ⟨restored, restore, registers, top, eflags, eip, _⟩ := restoreContext_run nextStack
  refine ⟨restored, restore, fun register notEsp => ?_, ?_, ?_, eip⟩
  · rw [registers register notEsp, savedContext_registerField]
  · rw [top, sameEsp, ← esp, UInt32.add_assoc]
    rfl
  · rw [eflags]
    exact Eflags.ofWord_value cpu.eflags

/-! ## The stack of a new process -/

/-- What `create_pcb` does about the stack: the page is filled and mapped, and the process
starts from it. NULL says that there is no page or no frame. -/
def StackStarts (s : Machine) (pointer : Nat) (directory : Frame) (entryPoint : UInt32)
    (isUserProcess cached : Bool) : Prop :=
  ∃ esp out t mapped u, createProcessStack entryPoint s = .ok (esp, out) t ∧
    vmmMapFrame pointer processStackPage (out.getD 0) true isUserProcess cached t = .ok mapped u ∧
    (esp = 0 → (∀ address ∈ NewPageRange, walk s.memory s.kernelDirectory address ≠ none) ∨
      ∀ frame, ¬ t.frames.Free frame) ∧
    (esp ≠ 0 → mapped = true → StartsAt u.memory directory esp entryPoint)

theorem not_kernelSlot_processStackPage : ¬ KernelSlot (directoryIndex processStackPage) := by
  unfold KernelSlot
  decide

theorem createProcessStack_starts (sound : Sound start s directories) (faithful : Faithful s)
    (low : TablesLow start s directories 4) (member : directory ∈ directories)
    (notKernel : directory ≠ s.kernelDirectory) (space : Addresses s pointer directory)
    (entryPoint : UInt32) (isUserProcess cached : Bool) :
    StackStarts s pointer directory entryPoint isUserProcess cached := by
  have stackLeads : Leads true (fun _ => False) (createProcessStack entryPoint) s _ :=
    createProcessStack_leads sound faithful fun _ => low
  obtain ⟨⟨esp, out⟩, t, run, ends, result⟩ := stackLeads.total
  have stackSound := result.sound sound
  have stackLow := result.tablesLow sound low
  have extended := result.extended sound directory
  have stillProcess : directory ≠ t.kernelDirectory := by
    rw [extended.kernelDirectory]
    exact notKernel
  have mapLeads : Leads true (fun _ => False)
      (vmmMapFrame pointer processStackPage (out.getD 0) true isUserProcess cached) t _ :=
    vmmMapFrame_leads stackSound.structures member (extended.addresses space) ends
      (fun _ => stackLow.reachable stackSound stackSound.kernel _)
      (fun _ => stackLow.reachable stackSound member _)
      fun same => absurd same.symm stillProcess
  obtain ⟨mapped, u, mapRun, _, mapResult⟩ := mapLeads.total
  refine ⟨esp, out, t, mapped, u, run, mapRun, ?_, ?_⟩
  · rintro rfl
    cases result with
    | failed _ newPage =>
        cases newPage with
        | full mapped => exact .inl mapped
        | exhausted noFrame => exact .inr noFrame.exhausted
        | mapped least => exact absurd least.1.1.2.1 (by decide)
  · rintro notNull rfl
    cases out with
    | none =>
        cases result with
        | failed => exact absurd rfl notNull
    | some physical =>
        obtain ⟨stack, rfl, rfl, notFree, unlinked, inFrame⟩ := result.of_frame sound
        have kept := (mapResult.extended stackSound.structures stillProcess
          not_kernelSlot_processStackPage).unlinked stack notFree unlinked
        obtain ⟨entry, found⟩ := (mapResult.pageMapped member stillProcess).mapped
        refine (inFrame.congr kept).startsAt ?_
        rw [Arch.translate, found]
        exact congrArg some (frameOf_frameAddress stack)

end KdbOS.Proc
