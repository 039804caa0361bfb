import KdbOS.Kernel.ProgramLoads

/-! The programs of `kernel.c` as processes that take turns: each of them writes its text on the
display as if it were alone, in every order of their instructions. -/

set_option autoImplicit false

namespace KdbOS.Kernel

open Library Pmm Arch Vmm Proc

variable {start s : Machine} {directories : Set Frame} {directory frame : Frame}
variable {kernel final : KernelState} {creation : Creation} {memory base : Memory}
variable {trace : List (Transition KernelState Creation)} {loop : StoreLoop}

/-! ## Taking turns -/

/-- An instruction of a process, in its address space. -/
def executeIn (trace : List (Transition KernelState Creation)) (process : Fin trace.length)
    (memory : Memory) (eip : UInt32) : Option (Memory × UInt32) :=
  execute (spacePages memory (spaceOf (trace.get process))) memory eip

/-- What an instruction of the processes is fetched through: their page structures, and the
first pages of their code. -/
def ProgramFrame (memory : Memory) (trace : List (Transition KernelState Creation))
    (frame : Frame) : Prop :=
  ∃ transition ∈ trace, (tablesOf memory).Linked {spaceOf transition} frame ∨
    Arch.translate memory (spaceOf transition) 0xC0000000 = some frame

/-- Between the instructions the kernel may write anywhere else. -/
def KeepsPrograms (base : Memory) (trace : List (Transition KernelState Creation))
    (before after : Memory) : Prop :=
  ∀ frame, ProgramFrame base trace frame → ∀ offset < 4096,
    after (frameAddress frame + offset) = before (frameAddress frame + offset)

abbrev ProgramRun (base : Memory) (trace : List (Transition KernelState Creation)) :=
  Run (Interleaved (executeIn trace) (KeepsPrograms base trace))

/-- The process executes the instruction of its program that comes after `taken` others. A round
without interruption writes its bytes of the display, and no others. -/
structure RunsProgram (trace : List (Transition KernelState Creation)) (loop : StoreLoop)
    (process : Fin trace.length) (taken : Nat) (memory : Memory) (eip : UInt32) : Prop where
  position : eip = loop.address 0xC0000000 taken
  next : executeIn trace process memory eip =
    some (loop.effect taken memory, loop.address 0xC0000000 (taken + 1))
  round : taken % (loop.stores.length + 1) = 0 → ∃ shown after,
    performTimes (executeIn trace) process loop.stores.length (memory, eip) = some (shown, after) ∧
      (∀ store ∈ loop.stores, shown store.1.toNat = store.2) ∧
      ∀ place, (∀ store ∈ loop.stores, store.1.toNat ≠ place) → shown place = memory place

/-! ## The address space of one process -/

/-- The frame of the display. -/
def displayFrame : Frame := 0xB8

/-- The program is in a frame of its own, and the display is at its physical address. -/
structure ProgramSpace (memory : Memory) (directory : Frame) (loop : StoreLoop) : Prop where
  code : ∃ frame ≠ displayFrame, Arch.translate memory directory 0xC0000000 = some frame ∧
    ∀ (i : Nat) (inside : i < loop.code.length),
      memory (frameAddress frame + i) = loop.code[i]
  display : Arch.translate memory directory 0xB8000 = some displayFrame
  unlinked : ¬ (tablesOf memory).Linked {directory} displayFrame

theorem StoreLoop.length_code (loop : StoreLoop) :
    loop.code.length = 7 * loop.stores.length + 2 := by
  rw [code, List.length_append, length_movByteCodes]
  rfl

namespace ProgramSpace

variable (space : ProgramSpace base directory loop)
  (agree : ∀ frame, (tablesOf base).Linked {directory} frame ∨
    Arch.translate base directory 0xC0000000 = some frame →
      ∀ offset < 4096, memory (frameAddress frame + offset) = base (frameAddress frame + offset))

include space agree

omit space in
theorem translate_eq (virtual : Nat) :
    Arch.translate memory directory virtual = Arch.translate base directory virtual :=
  congrArg (Option.map Page.frameAddr) (Tables.walk_of_agree
    (fun frame linked => tablesOf_of_bytes (agree frame (.inl linked))) rfl)

theorem bytesAt :
    (spacePages memory directory).BytesAt memory 0xC0000000 loop.code := by
  obtain ⟨frame, _, found, content⟩ := space.code
  refine Paging.bytesAt_of_getElem fun i inside => ?_
  have short := loop.short
  have length := loop.length_code
  have first : (0xC0000000 : UInt32).toNat = 0xC0000000 := rfl
  have number : (0xC0000000 + UInt32.ofNat i).toNat = 0xC0000000 + i := by
    rw [UInt32.toNat_add, UInt32.toNat_ofNat', first]
    omega
  have page : (0xC0000000 + i) / 4096 = 0xC0000 := by omega
  have offset : (0xC0000000 + i) % 4096 = i := by omega
  have isPage : spacePages memory directory 0xC0000 = some frame.val := by
    rw [spacePages, translate_eq agree, found]
    rfl
  rw [Paging.byte, Paging.locate, number, page, offset, isPage, ← content i inside]
  exact congrArg some (agree frame (.inr found) i (by omega))

theorem locate_display {store : UInt32 × UInt8} (member : store ∈ loop.stores) :
    (spacePages memory directory).locate store.1 = some store.1.toNat := by
  obtain ⟨lower, upper⟩ := loop.display store member
  have page : store.1.toNat / 4096 = 0xB8 := by omega
  have isPage : spacePages memory directory 0xB8 = some 0xB8 := by
    rw [spacePages, translate_eq agree, space.display]
    rfl
  rw [Paging.locate, page, isPage, Option.map_some]
  congr 1
  omega

end ProgramSpace

/-! ## All of them -/

theorem StoreLoop.effect_of_apart (loop : StoreLoop) (count : Nat) (memory : Memory) {place : Nat}
    (apart : place / 4096 ≠ 0xB8) : loop.effect count memory place = memory place := by
  cases found : loop.stores[count % (loop.stores.length + 1)]? with
  | none => rw [effect, found]
  | some store =>
      obtain ⟨lower, upper⟩ := loop.display store (List.mem_of_getElem? found)
      rw [effect, found]
      exact Memory.store8_of_ne (by omega)

section Processes

variable {programs : Fin trace.length → StoreLoop}
  (spaces : ∀ process, ProgramSpace base (spaceOf (trace.get process)) (programs process))

include spaces

theorem ProgramFrame.apart (isProgram : ProgramFrame base trace frame) : frame ≠ displayFrame := by
  obtain ⟨transition, member, reached⟩ := isProgram
  obtain ⟨process, rfl⟩ := List.mem_iff_get.mp member
  rintro rfl
  rcases reached with linked | found
  · exact (spaces process).unlinked linked
  · obtain ⟨frame, different, isFrame, _⟩ := (spaces process).code
    exact different (Option.some.inj (isFrame.symm.trans found))

/-- The processes leave each other alone. -/
theorem programs_undisturbed :
    Undisturbed (executeIn trace) (KeepsPrograms base trace) (KeepsPrograms base trace base)
      (fun process => (programs process).address 0xC0000000)
      (fun process => (programs process).effect) where
  advances process count memory ready := by
    have agree : ∀ frame, (tablesOf base).Linked {spaceOf (trace.get process)} frame ∨
        Arch.translate base (spaceOf (trace.get process)) 0xC0000000 = some frame →
          ∀ offset < 4096, memory (frameAddress frame + offset) = base (frameAddress frame + offset) :=
      fun frame reached => ready frame ⟨_, List.get_mem trace process, reached⟩
    exact (programs process).execute count ((spaces process).bytesAt agree)
      fun store member => (spaces process).locate_display agree member
  guarantees process count memory ready := by
    intro frame isProgram offset inside
    have different : frame.val ≠ 0xB8 := fun same => isProgram.apart spaces (Fin.ext same)
    rw [(programs process).effect_of_apart]
    · exact ready frame isProgram offset inside
    · unfold frameAddress pageSize
      omega
  relies before after changed ready := fun frame isProgram offset inside =>
    (changed frame isProgram offset inside).trans (ready frame isProgram offset inside)

theorem runsProgram {state : Joint (Fin trace.length) Memory UInt32}
    {history : List (Transition (Joint (Fin trace.length) Memory UInt32)
      (Option (Fin trace.length)))}
    (execution : ProgramRun base trace ⟨base, fun _ => 0xC0000000⟩ history state)
    (process : Fin trace.length) :
    RunsProgram trace (programs process) process (stepsOf process history) state.shared
      (state.locals process) := by
  have undisturbed := programs_undisturbed spaces
  have begins : ∀ process, (0xC0000000 : UInt32) = (programs process).address 0xC0000000 0 :=
    fun process => by
      rw [StoreLoop.address, Nat.zero_mod]
      rfl
  obtain ⟨ready, positions⟩ := undisturbed.positions execution (fun _ _ _ _ => rfl) begins
  refine ⟨positions process, ?_, fun atStart => ?_⟩
  · rw [positions process]
    exact undisturbed.advances process _ _ ready
  · have performed := undisturbed.performs process (stepsOf process history)
      (programs process).stores.length ready
    rw [(programs process).effects_round atStart, ← positions process] at performed
    exact ⟨_, _, performed, fun store member => writeStores_of_mem (programs process).distinct member _,
      fun place apart => writeStores_of_apart apart _⟩

end Processes

/-! ## From boot on -/

/-- The image from which a process is made is this program, below the bitmap of the frames. -/
structure HasImage (memory : Memory) (creation : Creation) (loop : StoreLoop) : Prop where
  lower : 0x1000 ≤ creation.entryPoint
  upper : creation.entryPoint + creation.size ≤ bitmapAddr
  size : creation.size = loop.code.length
  bytes : ∀ (i : Nat) (inside : i < loop.code.length),
    memory (creation.entryPoint + i) = loop.code[i]

theorem HasImage.low (image : HasImage memory creation loop) : LowImage creation where
  lower := image.lower
  upper := image.upper
  notEmpty := by
    rw [image.size, loop.length_code]
    exact Nat.succ_pos _

theorem Loaded.programSpace {sections : KernelSections} {kernelPageTable secondPageTable : Frame}
    {transition : Transition KernelState Creation}
    (loaded : Loaded start trace kernel directories)
    (booted : Booted start sections kernelPageTable secondPageTable)
    (separated : Separated start trace kernel directories) (member : transition ∈ trace)
    (image : HasImage start.memory transition.label loop) :
    ProgramSpace kernel.machine.memory (spaceOf transition) loop := by
  have low := separated.sound.low
  have isLow : KernelSlot (directoryIndex 0xB8000) := by
    unfold KernelSlot
    decide
  constructor
  · obtain ⟨frame, found, settled, content⟩ := loaded.images transition member
    have isFirst : codePage 0 = 0xC0000000 := by decide
    rw [isFirst] at found
    obtain ⟨page, walked, isFrame⟩ := Option.map_eq_some_iff.mp found
    have isFree := loaded.fresh transition member frame ⟨_, _, page, by unfold KernelSlot; decide,
      walked, isFrame⟩
    have above := ((booted.free frame).mp isFree).1
    have lower := booted.lower
    refine ⟨frame, fun isDisplay => ?_, found, fun i inside => ?_⟩
    · rw [isDisplay] at above
      have value : displayFrame.val = 0xB8 := rfl
      omega
    · have short := loop.short
      have length := loop.length_code
      rw [content i (by omega), codeBytes, Nat.zero_mul, Nat.zero_add, image.size, if_pos inside]
      exact image.bytes i inside
  · have atBoot := (booted.addresses_low (by decide : displayFrame ≠ 0) (by decide)).sees
    have sameTable : (tablesOf kernel.machine.memory).walk (spaceOf transition)
          (directoryIndex 0xB8000) (pageIndex 0xB8000) =
        (tablesOf kernel.machine.memory).walk start.kernelDirectory
          (directoryIndex 0xB8000) (pageIndex 0xB8000) := by
      unfold Tables.walk
      rw [loaded.entries transition member _ isLow, low.entries _ isLow]
    have kept := low.walks (directoryIndex 0xB8000) (pageIndex 0xB8000) isLow (by
      unfold WindowPage
      decide)
    rw [← atBoot]
    exact congrArg (Option.map Page.frameAddr) (sameTable.trans kept)
  · intro linked
    refine (loaded.settled displayFrame (by decide)).unlinked ?_
    rcases linked with isDirectory | ⟨directory, isDirectory, slot, isPresent, isFrame⟩
    · rw [Set.mem_singleton_iff.mp isDirectory]
      exact .of_directory (separated.member transition member).1
    · rw [Set.mem_singleton_iff.mp isDirectory] at isPresent isFrame
      exact .inr ⟨_, (separated.member transition member).1, slot, isPresent, isFrame⟩

/-- Both programs, one behind the other. -/
def programMemory : Memory :=
  fun place => (processOneCode ++ processTwoCode)[place - 0x1000]?.getD 0

theorem programRam : 134217728 < 4294967296 := by decide

/-- The machine after boot with 128 MiB of RAM. -/
def programMachine : Machine :=
  bootMachine ⟨1048576, 1052672, 1056768⟩ programRam programMemory

theorem programMachine_booted :
    programMachine.kernelDirectory.val = 1025 ∧
      programMachine.frames.frameBitmap.totalBits = 32768 ∧
      ∃ sections kernelPageTable secondPageTable,
        Booted programMachine sections kernelPageTable secondPageTable := by
  have leaves : LeavesTables 134217728 := by
    unfold LeavesTables
    decide
  obtain ⟨first, total, kernelPageTable, secondPageTable, booted⟩ :=
    bootMachine_booted ⟨1048576, 1052672, 1056768⟩ programRam programMemory leaves
  exact ⟨first, total, _, _, _, booted⟩

def processOne : Creation := ⟨3, 0x1000, 30, true, 0x0040100C⟩

def processTwo : Creation := ⟨3, 0x101E, 30, true, 0x00401040⟩

theorem processOne_image : HasImage programMemory processOne processOneLoop where
  lower := by decide
  upper := by decide
  size := by decide
  bytes := by decide

theorem processTwo_image : HasImage programMemory processTwo processTwoLoop where
  lower := by decide
  upper := by decide
  size := by decide
  bytes := by decide

theorem exists_programs : ∃ middle final, CreateStep (bootKernel programMachine) processOne middle ∧
    CreateStep middle processTwo final ∧ Faithful final.machine := by
  obtain ⟨isDirectory, isTotal, _, _, _, booted⟩ := programMachine_booted
  have onePage : numCodePages 30 = 1 := by decide
  obtain ⟨firstHeap, secondHeap, firstBlock, secondBlock⟩ := bootKernel_kmalloc programMachine
  have sound : Sound programMachine (bootKernel programMachine).machine _ := sound_of_booted booted
  have readable := readable_of_booted booted (by decide : 60 ≤ 4096 * 1000)
  have stocked : Stocked programMachine programMachine {programMachine.kernelDirectory}
      (10 + 4 * numCodePages 30 + 6) := by
    rw [onePage]
    exact stocked_of_booted booted (by omega) (by omega)
  obtain ⟨middle, _, firstRun, firstEnds, middleSound, middleStock, isHeap, isStart⟩ :=
    createPcb_of_stocked sound (faithful_of_booted booted) stocked
      (fun i inside => readable i (by omega)) (by decide) firstBlock (by decide) true true
  have stillReadable : Readable middle.machine 0x101E 30 := by
    intro i inside
    obtain ⟨frame, addresses⟩ := readable (30 + i) (by omega)
    rw [← Nat.add_assoc] at addresses
    refine ⟨frame, middleSound.low.addresses addresses ?_⟩
    rw [u32_of_lt (by omega)]
    unfold KernelSlot directoryIndex
    rw [Fin.val_ofNat]
    omega
  rw [← isHeap, ← isStart] at secondBlock
  have left : Stocked programMachine middle.machine _ (0 + 4 * numCodePages 30 + 6) := middleStock
  obtain ⟨final, _, secondRun, secondEnds, _⟩ := createPcb_of_stocked middleSound firstEnds left
    stillReadable (by decide) secondBlock (by decide) true true
  exact ⟨middle, final, .returns firstRun (by decide), .returns secondRun (by decide), secondEnds⟩

end KdbOS.Kernel
