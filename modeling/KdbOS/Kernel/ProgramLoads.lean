import KdbOS.Kernel.BootImage
import KdbOS.Kernel.Programs
import KdbOS.Proc.Isolation
import KdbOS.Proc.ProgramImage

/-! The programs of processes that `create_pcb` makes one after another: each of them stays in
the frame into which it has been copied, and finds the display where it is. -/

set_option autoImplicit false

namespace KdbOS.Kernel

open Library Pmm Arch Vmm Proc

variable {start s t shared created : Machine} {directories : Set Frame} {directory frame : Frame}
variable {before after kernel final : KernelState} {creation : Creation}
variable {trace : List (Transition KernelState Creation)} {entryPoint size : Nat} {isUser : Bool}

/-! ## The first 8 MiB of a new process -/

theorem lowEntries (stages : Stages start s directories entryPoint size isUser directory shared
      created t) (bounded : size ≤ 0x40000000) (notEmpty : 0 < size) {slot : EntryIndex}
    (isLow : KernelSlot slot) :
    tablesOf t.memory directory slot = tablesOf start.memory start.kernelDirectory slot := by
  have atFirst : tablesOf shared.memory directory slot =
      tablesOf start.memory start.kernelDirectory slot := by
    rw [stages.shares slot, if_pos isLow, stages.sharedSound.low.kernelDirectory,
      stages.sharedSound.low.entries slot isLow]
  have placedEntry : ∀ {x y : Machine} {more : Set Frame} {virtual : Nat} {other : Frame},
      FramePlaced x y more directory virtual isUser other →
      tablesOf y.memory directory slot = tablesOf x.memory directory slot := by
    intro x y more virtual other placed
    rcases placed.entries slot with same | ⟨rfl, _⟩
    · exact same
    · exact absurd isLow placed.high
  have coded := stages.pages.keeps rfl
    (fun _ x => tablesOf x.memory directory slot = tablesOf start.memory start.kernelDirectory slot)
    (fun _ _ _ _ _ _ _ earlier placed _ => (placedEntry placed).trans earlier) stages.sharedSound
    (.inl rfl) stages.notKernel (highRounds bounded)
    (by rw [List.length_range]; exact stages.room) stages.left [] atFirst
  rcases stages.stack with ⟨stack, placed, _⟩ | ⟨isEmpty, _⟩
  · exact (placedEntry placed).trans coded
  · exact absurd isEmpty notEmpty.ne'

/-! ## The invariant -/

/-- The bytes of a program, where they lay at first. -/
def imageBytes (start : Machine) (creation : Creation) (offset : Nat) : UInt8 :=
  start.memory (creation.entryPoint + offset)

/-- The program lies below the frames that are handed out, and in one page. -/
structure LowImage (creation : Creation) : Prop where
  lower : 0x1000 ≤ creation.entryPoint
  upper : creation.entryPoint + creation.size ≤ bitmapAddr
  notEmpty : 0 < creation.size

/-- The stack of a new process lies in a frame of its own, and its first dispatch finds there what
leads to the code. -/
def StackReady (s : Machine) (directories : Set Frame) (directory : Frame) : Prop :=
  ∃ stack, Arch.translate s.memory directory processStackPage = some stack ∧
    Settled s directories stack ∧ ContextIn s.memory stack (startContext 0xC0000000)

/-- What the calls have left of the memory below 4 MiB, and of the processes. -/
structure Loaded (start : Machine) (trace : List (Transition KernelState Creation))
    (kernel : KernelState) (directories : Set Frame) : Prop where
  free : ∀ frame, kernel.machine.frames.Free frame → start.frames.Free frame
  settled : ∀ frame : Frame, frame.val < 1024 → Settled kernel.machine directories frame
  bytes : ∀ place < bitmapAddr, kernel.machine.memory place = start.memory place
  images : ∀ transition ∈ trace, PageHolds kernel.machine directories (spaceOf transition)
    (codePage 0) (codeBytes (imageBytes start transition.label) transition.label.size 0)
  ready : ∀ transition ∈ trace, StackReady kernel.machine directories (spaceOf transition) ∧
    (transition.after.pcb transition.label.pcb).kernelStackPtr = 0xC0001FD8
  fresh : ∀ transition ∈ trace, ∀ frame,
    PageFrame kernel.machine (spaceOf transition) frame → start.frames.Free frame
  entries : ∀ transition ∈ trace, ∀ slot, KernelSlot slot →
    tablesOf kernel.machine.memory (spaceOf transition) slot =
      tablesOf start.memory start.kernelDirectory slot

theorem loaded_of_booted {sections : KernelSections} {kernelPageTable secondPageTable : Frame}
    (booted : Booted kernel.machine sections kernelPageTable secondPageTable) :
    Loaded kernel.machine [] kernel {kernel.machine.kernelDirectory} where
  free _ isFree := isFree
  settled frame small := by
    have lower := booted.lower
    have first := booted.first
    have second := booted.second
    refine ⟨fun isFree => ?_, ?_⟩
    · have above := ((booted.free frame).mp isFree).1
      omega
    · rintro (isKernel | ⟨directory, isKernel, slot, isPresent, isFrame⟩)
      · rw [Set.mem_singleton_iff.mp isKernel] at small
        omega
      · rw [Set.mem_singleton_iff.mp isKernel, tableEntry_target] at isFrame
        rw [Set.mem_singleton_iff.mp isKernel] at isPresent
        rcases booted.tables.kernelSlot_of_present isPresent with ⟨_, target⟩ | ⟨_, target⟩
        · rw [← isFrame, target] at small
          omega
        · rw [← isFrame, target] at small
          omega
  bytes _ _ := rfl
  images := nofun
  ready := nofun
  fresh := nofun
  entries := nofun

/-- The kernel reads the program where it lies. -/
theorem Loaded.imageAt {sections : KernelSections} {kernelPageTable secondPageTable : Frame}
    (loaded : Loaded start trace kernel directories)
    (booted : Booted start sections kernelPageTable secondPageTable)
    (sound : Sound start kernel.machine directories) (low : LowImage creation) :
    ImageAt kernel.machine directories creation.entryPoint creation.size
      (imageBytes start creation) := by
  have lower := low.lower
  have upper := low.upper
  unfold bitmapAddr at upper
  intro i inside
  have small : creation.entryPoint + i < 4294967296 := by omega
  obtain ⟨frame, value, addresses⟩ := image_of_booted booted
    (by omega : creation.entryPoint + i - 0x1000 < 4096 * 2046)
  rw [Nat.add_sub_cancel' (by omega : 0x1000 ≤ creation.entryPoint + i)] at addresses
  have isLow : KernelSlot (directoryIndex (u32 (creation.entryPoint + i))) := by
    rw [u32_of_lt small]
    unfold KernelSlot directoryIndex
    rw [Fin.val_ofNat]
    omega
  refine ⟨frame, sound.low.addresses addresses isLow, loaded.settled frame (by omega), ?_⟩
  have place : physical frame (u32 (creation.entryPoint + i)) = creation.entryPoint + i := by
    rw [u32_of_lt small]
    unfold physical frameAddress pageSize
    omega
  rw [place]
  refine loaded.bytes _ ?_
  unfold bitmapAddr
  omega

theorem Loaded.step {sections : KernelSections} {kernelPageTable secondPageTable : Frame}
    (loaded : Loaded start trace before directories)
    (booted : Booted start sections kernelPageTable secondPageTable)
    (separated : Separated start trace before directories)
    (step : CreateStep before creation after) (low : LowImage creation)
    (ends : Faithful after.machine) :
    Loaded start (trace ++ [⟨before, creation, after⟩]) after
      (insert (spaceOf ⟨before, creation, after⟩) directories) := by
  have notEmpty := low.notEmpty
  have upper := low.upper
  unfold bitmapAddr at upper
  have bounded : creation.size ≤ 0x40000000 := by omega
  have enough : creation.size = 0 → ¬ LastTwoPages before.machine :=
    fun isEmpty => absurd isEmpty notEmpty.ne'
  have boot := bootSpace_of_booted booted
  obtain ⟨⟨shared, created, stages⟩, isEsp⟩ := step.stages boot separated bounded ends
  have sharedKernel := stages.sharedSound.low
  have others := fun transition isEarlier => stages.others bounded enough separated.sound
    (separated.member transition isEarlier).1 (separated.member transition isEarlier).2
  have begins := stages.begins (spaceOf ⟨before, creation, after⟩)
  have extended := stages.extended bounded enough
  have settles : ∀ frame, Settled before.machine directories frame →
      Settled shared (insert (spaceOf ⟨before, creation, after⟩) directories) frame :=
    fun frame settled => settled.adopted begins stages.fresh stages.shares
      (begins.kernelDirectory ▸ separated.sound.kernel)
  have byte : ∀ {frame offset}, Settled before.machine directories frame → offset < 4096 →
      after.machine.memory (frameAddress frame + offset) =
        before.machine.memory (frameAddress frame + offset) :=
    fun settled inside => (extended.byte (settles _ settled) inside).trans (begins.byte settled inside)
  obtain ⟨_, fresh⟩ := stages.owns bounded enough fun slot isLow => by
    rw [sharedKernel.kernelDirectory, sharedKernel.entries slot isLow]
    exact boot.low slot isLow
  refine ⟨fun frame isFree => ?_, fun frame small => ?_, fun place below => ?_,
    fun transition isMade => ?_, fun transition isMade => ?_,
    fun transition isMade frame isPage => ?_, fun transition isMade slot isLow => ?_⟩
  · exact loaded.free frame (begins.free frame (extended.free frame isFree))
  · exact extended.settled (settles frame (loaded.settled frame small))
  · unfold bitmapAddr at below
    let frame : Frame := ⟨place / 4096, by omega⟩
    have isPlace : frameAddress frame + place % 4096 = place := by
      show place / 4096 * 4096 + place % 4096 = place
      omega
    have same := byte (loaded.settled frame (by show place / 4096 < 1024; omega))
      (Nat.mod_lt place (by decide : 0 < 4096))
    rw [isPlace] at same
    exact same.trans (loaded.bytes place below)
  · rcases List.mem_append.mp isMade with isEarlier | isLast
    · obtain ⟨own, found, settled, content⟩ := loaded.images transition isEarlier
      refine ⟨own, ?_, extended.settled (settles own settled), fun offset inside => ?_⟩
      · rw [← found]
        exact congrArg (Option.map Page.frameAddr)
          ((others transition isEarlier).1.walks _ _ (by unfold KernelSlot; decide))
      · exact (byte settled inside).trans (content offset inside)
    · rw [List.mem_singleton.mp isLast]
      exact stages.codePages_of_stack bounded
        (stages.image separated.sound (loaded.imageAt booted separated.sound low))
        (by rwa [Nat.zero_mul]) (by decide)
  · rcases List.mem_append.mp isMade with isEarlier | isLast
    · obtain ⟨⟨stack, found, settled, context⟩, esp⟩ := loaded.ready transition isEarlier
      refine ⟨⟨stack, ?_, extended.settled (settles stack settled), context.congr
        (tablesOf_of_bytes fun offset inside => byte settled inside)⟩, esp⟩
      rw [← found]
      exact congrArg (Option.map Page.frameAddr)
        ((others transition isEarlier).1.walks _ _ (by unfold KernelSlot; decide))
    · rw [List.mem_singleton.mp isLast]
      rcases stages.stack with ⟨stack, placed, context⟩ | ⟨isEmpty, _⟩
      · exact ⟨⟨stack, translate_placed placed, placed.settled, context⟩, isEsp⟩
      · exact absurd isEmpty notEmpty.ne'
  · rcases List.mem_append.mp isMade with isEarlier | isLast
    · exact loaded.fresh transition isEarlier frame
        ((pageFrame_kept (others transition isEarlier).1).mp isPage)
    · rw [List.mem_singleton.mp isLast] at isPage
      exact loaded.free frame (fresh frame isPage)
  · rcases List.mem_append.mp isMade with isEarlier | isLast
    · rw [(others transition isEarlier).1.entries]
      exact loaded.entries transition isEarlier slot isLow
    · rw [List.mem_singleton.mp isLast]
      exact lowEntries stages bounded notEmpty isLow

/-- After any number of calls. -/
theorem loaded_of_run {sections : KernelSections} {kernelPageTable secondPageTable : Frame}
    (run : CreateRun kernel trace final)
    (booted : Booted kernel.machine sections kernelPageTable secondPageTable)
    (low : ∀ transition ∈ trace, LowImage transition.label) (ends : Faithful final.machine) :
    ∃ directories, Separated kernel.machine trace final directories ∧
      Loaded kernel.machine trace final directories := by
  induction run with
  | start =>
      exact ⟨_, ⟨sound_of_booted booted, charge_of_booted booted, nofun, nofun, .nil⟩,
        loaded_of_booted booted⟩
  | @step trace before creation after run step ih =>
      obtain ⟨directories, separated, loaded⟩ := ih (fun transition member =>
        low transition (List.mem_append_left _ member)) (step.faithful ends)
      have lowImage : LowImage creation := low ⟨before, creation, after⟩
        (List.mem_append_right _ (List.mem_singleton.mpr rfl))
      have upper := lowImage.upper
      unfold bitmapAddr at upper
      exact ⟨_, separated.step (bootSpace_of_booted booted) step (by omega)
        (fun isEmpty => absurd isEmpty lowImage.notEmpty.ne') ends,
        loaded.step booted separated step lowImage ends⟩

end KdbOS.Kernel
