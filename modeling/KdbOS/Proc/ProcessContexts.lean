import KdbOS.Proc.DirectAccesses
import KdbOS.Proc.ProcessStart

/-! The contexts of processes: they are restored as they were saved, and a new process starts
from the one that was made for it, as long as the table of its stack page is reached. -/

set_option autoImplicit false

namespace KdbOS.Proc

open Library Pmm Arch Vmm Kernel

variable {start s : Machine} {directory process table other : Frame} {memory : Memory}
variable {entryPoint : UInt32} {esp first total count tables : Nat} {final : VmmState}
variable {trace : List (Transition VmmState ProcessCall)}

/-- Contexts are restored as they were saved. In the states that are `Ready` after a run of
allowed calls, every process starts from the stack that is made for it. -/
structure ContextsAgree (start : Machine) (Allowed : VmmState → ProcessCall → Prop)
    (Ready : VmmState → Prop) : Prop where
  pushed : saveContext <+: contextSwitch
  popped : restoreContext <:+ contextSwitch ∧ restoreContext <:+ bootstrapFirstProcess
  kept : ∀ (pages : UInt32 → Paging) (cpu saved : Cpu) (returnAddress : UInt32),
    (pages cpu.cr3).load cpu.memory (cpu.registers .esp) = some returnAddress →
      cpu.run pages saveContext = some saved → ContextKept pages cpu saved returnAddress
  starts : ∀ trace final, ProcessRun start trace final →
    (∀ transition ∈ trace, Allowed transition.before transition.label) → Ready final →
      ∀ directory ∈ final.directories, directory ≠ final.machine.kernelDirectory →
        ∀ pointer, Addresses final.machine pointer directory →
          ∀ entryPoint isUserProcess cached,
            StackStarts final.machine pointer directory entryPoint isUserProcess cached

/-! ## While there is room -/

/-- The low frames suffice for the stack page and for its mapping. -/
def RoomForStack (state : VmmState) : Prop := HasRoom state.machine 4

theorem contextsAgree_of_inOrder (initial : InOrder start 0 ⟨start, {start.kernelDirectory}⟩) :
    ContextsAgree start Roomy RoomForStack where
  pushed := saveContext_prefix
  popped := restoreContext_suffix
  kept _ _ _ _ := saveContext_kept
  starts trace final run roomy room directory member notKernel pointer space entryPoint isUserProcess
      cached := by
    have ends := run.inOrder initial roomy
    have low : TablesLow start final.machine final.directories 4 :=
      ⟨ends.low.identity, ends.low.linked, room⟩
    exact createProcessStack_starts ends.sound ends.faithful low member notKernel space entryPoint
      isUserProcess cached

/-! ## A table that is missed -/

/-- A process that starts has its stack page mapped. -/
theorem StartsAt.mapped (starts : StartsAt memory directory 0xC0001FD8 entryPoint) :
    walk memory directory processStackPage ≠ none := by
  intro unmapped
  let cpu : Cpu := ⟨fun _ => UInt32.ofNat 0xC0001FD8, .ofWord 0, 0, 0, memory⟩
  obtain ⟨after, run, _⟩ := starts (fun _ => spacePages memory directory) cpu rfl rfl rfl
  have page : (UInt32.ofNat 0xC0001FD8).toNat / 4096 = 0xC0001 := by decide
  have absent : spacePages memory directory 0xC0001 = none := by
    show (Arch.translate memory directory processStackPage).map Fin.val = none
    rw [Arch.translate, unmapped]
    rfl
  have noWord : (spacePages memory directory).load memory (cpu.registers .esp) = none := by
    rw [Paging.load, Paging.byte, Paging.locate]
    show (Option.map _ (Option.map _ (spacePages memory directory
      ((UInt32.ofNat 0xC0001FD8).toNat / 4096)))).bind _ = none
    rw [page, absent]
    rfl
  have stopped : cpu.run (fun _ => spacePages memory directory) restoreContext = none := by
    rw [Cpu.run, restoreContext, List.foldlM_cons, Cpu.exec, Cpu.pop, noWord]
    rfl
  rw [stopped] at run
  cases run

/-- The process has a table for its stack page, and at its physical address the kernel has
mapped another frame. -/
structure Misled (final : VmmState) (process table other : Frame) : Prop where
  isPresent : (tablesOf final.machine.memory process (directoryIndex processStackPage)).present = true
  number : (tablesOf final.machine.memory process (directoryIndex processStackPage)).frameAddr = table
  unmapped : walk final.machine.memory process processStackPage = none
  misled : Addresses final.machine (frameAddress table) other
  notProcess : process ≠ other
  notTable : table ≠ other

/-- The stack page is made, and then not mapped for the process. -/
theorem PageChain.not_stackStarts (chain : PageChain start first total count tables process final)
    (initial : Sound start start {start.kernelDirectory}) (identity : IdentityMapped start)
    (lowTable : first + 1 < 2047) (inside : count < 1024) (left : first + 1 + count < total)
    (misled : Misled final process table other) (entryPoint : UInt32)
    (isUserProcess cached : Bool) :
    ¬ StackStarts final.machine 0x00800000 process entryPoint isUserProcess cached := by
  rintro ⟨esp, out, t, mapped, u, run, mapRun, _, starts⟩
  have sound := chain.sound initial
  obtain ⟨made, stack, newPageRun, _, newPage⟩ :=
    chain.newPage initial identity lowTable inside left true false
  have lowest := chain.pages.lowest inside
  have kernelEntry : directoryIndex (pageAddress 2 ⟨count, inside⟩) = 2 :=
    directoryIndex_pageAddress _ _
  have reachable : TablesReachable made final.machine.kernelDirectory
      [directoryIndex (pageAddress 2 ⟨count, inside⟩)] := by
    intro slot isSlot isPresent
    obtain rfl := List.mem_singleton.mp isSlot
    rw [newPage.entries _ sound.kernel _ (.inl rfl), kernelEntry] at isPresent ⊢
    have lowNumber : (tablesOf final.machine.memory final.machine.kernelDirectory 2).frameAddr.val <
        2047 := chain.pages.table ▸ lowTable
    have address : Addresses final.machine _ _ :=
      ⟨chain.reachable initial identity lowTable 2 two_mem_searchSlots isPresent,
        not_windowPage_of_lt lowNumber⟩
    exact ((NewPageResult.mapped lowest newPage).addresses sound.structures address).sees
  have fills : Leads true (fun _ => False) (fillStack entryPoint (pageAddress 2 ⟨count, inside⟩)) made _ :=
    fillStack_leads sound.structures (sound.newPage (.mapped lowest newPage)).structures
      (newPage.reached.faithful chain.faithful) lowest newPage fun _ => reachable
  obtain ⟨returned, filled, fillRun, _, result, isEsp⟩ := fills.total
  have same : createProcessStack entryPoint final.machine = .ok returned filled := by
    rw [createProcessStack, bind_ok (kernelDirectory_ok _), bind_ok newPageRun]
    exact fillRun
  rw [same] at run
  cases run
  -- The address space of the process is as it was.
  have extended := result.extended sound final.machine.kernelDirectory
  have entries := extended.entries process chain.member chain.notKernel chain.notKernel
  obtain ⟨v, misledRun, kept⟩ := vmmMapFrame_of_misled (extended.addresses chain.space).sees
    (by rw [entries]; exact misled.isPresent) (by rw [entries]; exact misled.number)
    (extended.addresses misled.misled).sees misled.notProcess misled.notTable (out.getD 0) true
    isUserProcess cached
  rw [misledRun] at mapRun
  cases mapRun
  obtain rfl : esp = 0xC0001FD8 := isEsp
  refine (starts (by decide) rfl).mapped ?_
  rw [kept, ← misled.unmapped]
  exact extended.walks process chain.member chain.notKernel chain.notKernel _ _
    not_kernelSlot_processStackPage

theorem PageChain.reaches (initial : Sound start start {start.kernelDirectory})
    (identity : IdentityMapped start) (lowTable : first + 1 < 2047)
    (begins : ∃ final, PageChain start first total 1 tables process final) (steps : Nat)
    (inside : steps < 1024) (left : first + 1 + steps < total) :
    ∃ final, PageChain start first total (steps + 1) tables process final := by
  induction steps with
  | zero => exact begins
  | succ steps ih =>
      obtain ⟨final, chain⟩ := ih (by omega) (by omega)
      exact chain.next initial identity lowTable inside left

/-- The table of the stack page comes from the frame 2049, whose physical address is that of
the second page that was taken for the kernel. -/
theorem exists_misled {sections : KernelSections} {kernelPageTable secondPageTable : Frame}
    (booted : Booted s sections kernelPageTable secondPageTable)
    (large : 2050 < s.frames.frameBitmap.totalBits) :
    ∃ process table other final,
      PageChain s (s.kernelDirectory.val + 3) s.frames.frameBitmap.totalBits
        (2046 - s.kernelDirectory.val) 768 process final ∧ Misled final process table other := by
  have lower := booted.lower
  have upper := booted.upper
  have initial := sound_of_booted booted
  have identity := identityMapped_of_booted booted
  obtain ⟨process, first, begins, _⟩ := PageChain.begins booted (by omega)
  obtain ⟨before, chain⟩ := PageChain.reaches initial identity (by omega) ⟨first, begins⟩
    (2044 - s.kernelDirectory.val) (by omega) (by omega)
  have highSlot : ¬ KernelSlot (768 : EntryIndex) := by
    unfold KernelSlot
    decide
  obtain ⟨final, last, isPresent, number, unmapped⟩ := chain.nextTable initial identity (by omega)
    (by omega) (by omega) 768 (by decide) highSlot
  obtain ⟨other, sees, isOther⟩ := last.pages.mapped 1 (by
    show 1 < _
    omega)
  have slot : directoryIndex processStackPage = 768 := by decide
  have index : pageIndex processStackPage = 1 := by decide
  have isOther := isOther (by decide)
  have isTable : (tablesOf final.machine.memory process
      (directoryIndex processStackPage)).frameAddr.val = 2049 := by
    rw [slot, number]
    omega
  have isProcess := last.number
  have one : (1 : EntryIndex).val = 1 := rfl
  have address : frameAddress (tablesOf final.machine.memory process
      (directoryIndex processStackPage)).frameAddr = pageAddress 2 1 := by
    rw [frameAddress, isTable]
    decide
  refine ⟨process, _, other, final, ?_, ⟨slot ▸ isPresent, rfl, ?_, ?_, ?_, ?_⟩⟩
  · have count : 2044 - s.kernelDirectory.val + 1 + 1 = 2046 - s.kernelDirectory.val := by omega
    rw [count] at last
    exact last
  · rw [walk, slot, index]
    exact unmapped 1 (by decide)
  · rw [address]
    exact ⟨sees, not_windowPage (pageAddress_mem two_mem_searchSlots)⟩
  · rintro rfl
    omega
  · intro same
    rw [same] at isTable
    omega

/-! ## The result -/

end KdbOS.Proc
