import KdbOS.Proc.ProcessContexts

/-! `vmm_map_frame` in the address spaces of processes: what is mapped, and what is mapped
with it for the kernel. -/

set_option autoImplicit false

namespace KdbOS.Proc

open Library Pmm Arch Vmm Kernel

variable {s t : Machine} {directory process frame : Frame} {pointer virtual : Nat}

/-- A page has been mapped to the frame, with its flags. If a table was made for it, a page
`window` has been mapped for the kernel. The other pages are found as before, and so are those
of the kernel, unless the page is `Shared` with it. -/
def MapsFrame (s t : Machine) (directory frame : Frame) (virtual : Nat) (isWriteable isUser : Bool)
    (Shared : Prop) : Prop :=
  (∃ entry, walk t.memory directory virtual =
    some (pointEntry isWriteable isUser (frameAddress frame) entry)) ∧
  ∃ window : Option Nat,
    (∀ chosen ∈ window,
      (tablesOf s.memory directory (directoryIndex virtual)).present = false ∧
      IsLeast {address | address ∈ NewPageRange ∧
        walk s.memory s.kernelDirectory address = none} chosen) ∧
    ∀ address, ¬ SamePage address vmmTempWindowVirtual →
      (¬ SamePage address virtual →
        (directory = s.kernelDirectory → ∀ chosen ∈ window, ¬ SamePage address chosen) →
        walk t.memory directory address = walk s.memory directory address) ∧
      ((∀ chosen ∈ window, ¬ SamePage address chosen) →
        walk t.memory s.kernelDirectory address = walk s.memory s.kernelDirectory address ∨
          SamePage address virtual ∧ Shared ∧
            walk t.memory s.kernelDirectory address = walk t.memory directory virtual)

/-! ## A page of the first 8 MiB -/

/-- The first page of a process is mapped, and it was not mapped for the kernel. -/
theorem exists_mapFirstPage {sections : KernelSections} {kernelPageTable secondPageTable : Frame}
    (booted : Booted s sections kernelPageTable secondPageTable)
    (enough : s.kernelDirectory.val + 4 < s.frames.frameBitmap.totalBits) (frame : Frame) :
    ∃ process final t,
      PageChain s (s.kernelDirectory.val + 3) s.frames.frameBitmap.totalBits 1 1 process final ∧
      TablesReachable final.machine process [0] ∧
      vmmMapFrame 0x00800000 0 (frameAddress frame) true true true final.machine = .ok true t ∧
      (tablesOf final.machine.memory process 0).present = true ∧
      walk final.machine.memory final.machine.kernelDirectory 0 = none ∧
      walk t.memory final.machine.kernelDirectory 0 ≠ none := by
  have lower := booted.lower
  have upper := booted.upper
  have initial := sound_of_booted booted
  obtain ⟨process, final, chain, shares⟩ := PageChain.begins booted enough
  have sound := chain.sound initial
  have zero : KernelSlot (0 : EntryIndex) := Nat.zero_lt_two
  have entry : tablesOf final.machine.memory process 0 =
      tablesOf final.machine.memory final.machine.kernelDirectory 0 := by
    rw [shares 0, if_pos zero]
  have kept : tablesOf final.machine.memory final.machine.kernelDirectory 0 =
      kernelEntry kernelPageTable secondPageTable 0 := by
    rw [sound.low.kernelDirectory, sound.low.entries 0 zero]
    exact booted.tables.directory 0
  have isPresent : (tablesOf final.machine.memory process 0).present = true := by
    rw [entry, kept]
    rfl
  have number : (tablesOf final.machine.memory process 0).frameAddr = kernelPageTable := by
    rw [entry, kept]
    rfl
  have firstTable := booted.first
  have sees : Sees final.machine (frameAddress kernelPageTable) kernelPageTable := by
    refine sound.identityMapped (identityMapped_of_booted booted) kernelPageTable ⟨?_, by omega⟩
    rintro rfl
    have isZero : (0 : Frame).val = 0 := rfl
    omega
  have first : directoryIndex 0 = 0 := rfl
  obtain ⟨t, page, run, changed⟩ : ∃ t page,
      vmmMapFrame 0x00800000 0 (frameAddress frame) true true true final.machine = .ok true t ∧
        PageChanged final.machine t final.directories process 0
          (some (pointEntry true true (frameAddress frame) page)) :=
    vmmMapFrame_of_present sound.structures chain.member chain.space isPresent number sees
  refine ⟨process, final, t, chain, ?_, run, isPresent, ?_, fun unmapped => ?_⟩
  · intro slot isSlot _
    rw [List.mem_singleton.mp isSlot, number]
    exact sees
  · have outside : ¬ WindowPage (0 : EntryIndex) 0 := fun window => absurd window.1 (by decide)
    have walks := sound.low.walks 0 0 zero outside
    rw [sound.low.kernelDirectory]
    exact walks.trans booted.tables.walk_zero
  · have same : tablesOf t.memory final.machine.kernelDirectory 0 = tablesOf t.memory process 0 := by
      rw [changed.tables.entries _ sound.kernel, changed.tables.entries _ chain.member, entry]
    have mapped := changed.tables.mapped
    rw [walk, first, Tables.walk, same] at unmapped
    rw [first, Tables.walk, unmapped] at mapped
    cases mapped

/-- In the runs of calls from `start`, a page that satisfies `Page` is mapped for
its directory only. -/
def MapsInRuns (start : Machine) (Page : Nat → Prop) : Prop :=
  ∀ trace final, ProcessRun start trace final →
    (∀ transition ∈ trace, transition.label.High) →
    ∀ directory ∈ final.directories, ∀ pointer, Addresses final.machine pointer directory →
      ∀ virtual, virtual % 4096 = 0 → Page virtual →
        ∀ frame isWriteable isUser cached t,
          vmmMapFrame pointer virtual (frameAddress frame) isWriteable isUser cached final.machine =
            .ok true t →
          MapsFrame final.machine t directory frame virtual isWriteable isUser
            (directory = final.machine.kernelDirectory)

/-! ## The result -/

/-- A page that has been mapped leads to its frame with its flags. Only the tables of the
first 8 MiB are shared with the kernel. -/
theorem vmmMapFrame_maps {isWriteable isUser cached : Bool}
    (structures : PageStructures s {s.kernelDirectory, directory})
    (space : Addresses s pointer directory)
    (reachableKernel : TablesReachable s s.kernelDirectory searchSlots)
    (reachable : TablesReachable s directory [directoryIndex virtual])
    (run : vmmMapFrame pointer virtual (frameAddress frame) isWriteable isUser cached s =
      .ok true t) :
    MapsFrame s t directory frame virtual isWriteable isUser
      (directory = s.kernelDirectory ∨ KernelSlot (directoryIndex virtual)) := by
  have member : directory ∈ ({s.kernelDirectory, directory} : Set Frame) := .inr rfl
  have kernel : s.kernelDirectory ∈ ({s.kernelDirectory, directory} : Set Frame) := .inl rfl
  have result : MapFrameResult s {s.kernelDirectory, directory} directory virtual
      (frameAddress frame) isWriteable isUser true t := by
    rcases vmmMapFrame_cases structures member space reachableKernel reachable (frameAddress frame)
      isWriteable isUser cached with ⟨answer, u, other, result⟩ | ⟨_, _, _, _, _, _, _, stopped, _⟩
    · rw [run] at other
      cases other
      exact result
    · rw [run] at stopped
      cases stopped
  cases result with
  | @entered _ entry level changed =>
      refine ⟨⟨entry, changed.tables.mapped⟩, none, nofun, fun address outside => ⟨?_, ?_⟩⟩
      · exact fun apart _ => changed.tables.walks _ member _ _ (.inl apart)
      · exact fun _ => changed.walk_kernel kernel address
  | @created linked _ window newTable table absent made changed =>
      refine ⟨⟨_, changed.tables.mapped⟩, some window, ?_, fun address outside =>
        ⟨fun apart apartWindow => ?_, fun apartWindow => ?_⟩⟩
      · rintro _ ⟨rfl⟩
        exact ⟨absent, made.leastWindow⟩
      · exact (changed.tables.walks _ member _ _ (.inl apart)).trans
          (made.walk_of_ne absent member outside fun same => apartWindow same.1 window rfl same.2)
      · have before : walk linked.memory s.kernelDirectory address =
            walk s.memory s.kernelDirectory address :=
          made.walk_of_ne absent kernel outside fun same => apartWindow window rfl same.2
        have after := changed.walk_kernel (made.kernelDirectory ▸ kernel) address
        rw [made.kernelDirectory] at after
        rw [← before]
        exact after

/-- The first page of a process, with 128 MiB of RAM. -/
theorem vmmMapFrame_maps_sample : ∃ (s t : Machine) (process : Frame),
    vmmMapFrame 0x00800000 0 (frameAddress 5) true true true s = .ok true t ∧
      MapsFrame s t process 5 0 true true
        (process = s.kernelDirectory ∨ KernelSlot (directoryIndex 0)) := by
  obtain ⟨isDirectory, isTotal, _, _, _, booted⟩ := sampleMachine_booted
  obtain ⟨process, final, t, chain, reachable, run, _⟩ := exists_mapFirstPage booted (by
    rw [isDirectory, isTotal]
    decide) 5
  have initial := sound_of_booted booted
  have sound := chain.sound initial
  have both : ({final.machine.kernelDirectory, process} : Set Frame) ⊆ final.directories := by
    rintro frame (rfl | rfl)
    · exact sound.kernel
    · exact chain.member
  have lowTable : sampleMachine.kernelDirectory.val + 3 + 1 < 2047 := by
    rw [isDirectory]
    decide
  exact ⟨final.machine, t, process, run, vmmMapFrame_maps (sound.of_subset both (.inl rfl)).structures
    chain.space (chain.reachable initial (identityMapped_of_booted booted) lowTable) reachable run⟩

/-- A page of the first 8 MiB of a process is mapped for the kernel as well. Outside them a
page need not be mapped at all, where its table is not reached. -/
theorem vmmMapFrame_maps_fails :
    ¬ MapsInRuns sampleMachine (fun virtual => KernelSlot (directoryIndex virtual)) ∧
      ¬ MapsInRuns sampleMachine fun virtual => ¬ KernelSlot (directoryIndex virtual) := by
  obtain ⟨isDirectory, isTotal, _, _, _, booted⟩ := sampleMachine_booted
  constructor
  · intro maps
    obtain ⟨process, final, t, chain, _, run, isPresent, unmapped, mapped⟩ :=
      exists_mapFirstPage booted (by
        rw [isDirectory, isTotal]
        decide) 5
    obtain ⟨trace, calls, high⟩ := chain.run
    obtain ⟨_, window, isWindow, pages⟩ := maps trace final calls high process chain.member _ chain.space 0
      rfl Nat.zero_lt_two 5 true true true t run
    have noWindow : ∀ chosen ∈ window, ¬ SamePage 0 chosen := by
      intro chosen isChosen
      exact Bool.noConfusion ((isWindow chosen isChosen).1.symm.trans isPresent)
    have outside : ¬ SamePage 0 vmmTempWindowVirtual := fun same => absurd same.1 (by decide)
    rcases (pages 0 outside).2 noWindow with same | ⟨_, isKernel, _⟩
    · exact mapped (same.trans unmapped)
    · exact chain.notKernel isKernel
  · intro maps
    obtain ⟨process, table, other, final, chain, misled⟩ := exists_misled booted (by
      rw [isTotal]
      decide)
    obtain ⟨trace, calls, high⟩ := chain.run
    obtain ⟨t, run, kept⟩ := vmmMapFrame_of_misled chain.space.sees misled.isPresent misled.number
      misled.misled.sees misled.notProcess misled.notTable (frameAddress 5) true true true
    obtain ⟨⟨entry, mapped⟩, _⟩ := maps trace final calls high process chain.member _ chain.space
      processStackPage (by decide) not_kernelSlot_processStackPage 5 true true true t run
    rw [kept, misled.unmapped] at mapped
    cases mapped

end KdbOS.Proc
