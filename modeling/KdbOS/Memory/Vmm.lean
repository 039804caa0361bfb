import KdbOS.Memory.FrameAllocator

/-! `vmm.c`. The kernel's pointers are virtual addresses, which the hardware translates
through `kernel_directory`; an access to an absent page raises a page fault, and the
kernel panics. Addresses are 32-bit, directories and tables are page-aligned.

A change of an entry that the hardware may have cached is followed by `invlpg`, with the
one exception noted at `mapNewTable`. The assignments to the fields of one entry, and to
the bytes of one page, go to the frame that the first of them found. -/

set_option autoImplicit false

namespace KdbOS.Vmm

open Library Ds Klibc Pmm Arch

structure PageFault where
  virtualAddress : Nat
  deriving DecidableEq, Repr

/-- The physical memory, the frame allocator, and `kernel_directory`, which stays in CR3. -/
structure Machine where
  memory : Memory
  frames : FrameAllocator
  kernelDirectory : Frame
  /-- History, read by no operation: the tables that were dereferenced by their physical
  addresses, with the frames that these accesses reached. -/
  direct : List (Frame × Option Frame)

abbrev VmmM := EStateM PageFault Machine

/-- The frame behind a pointer. -/
def reach (pointer : Nat) : VmmM Frame := do
  let machine ← get
  match Arch.translate machine.memory machine.kernelDirectory pointer with
  | some frame => return frame
  | none => throw ⟨pointer⟩

/-- `(PageTable*)(table << 12)`: the physical address is used as a pointer. -/
def reachTable (table : Frame) : VmmM Frame := do
  modify fun machine =>
    { machine with
      direct := machine.direct ++
        [(table, Arch.translate machine.memory machine.kernelDirectory (frameAddress table))] }
  reach (frameAddress table)

/-- The pointer `kernel_directory`. -/
def kernelDirectory : VmmM Nat := return frameAddress (← get).kernelDirectory

def readEntry (frame : Frame) (index : EntryIndex) : VmmM Page :=
  return tablesOf (← get).memory frame index

def assignEntry (frame : Frame) (index : EntryIndex) (change : Page → Page) : VmmM Unit :=
  modify fun machine =>
    { machine with memory := changeEntry frame index change machine.memory }

/-- `space->directory_entries[slot]`. -/
def readDirectory (space : Nat) (slot : EntryIndex) : VmmM Page := do
  let directory ← reach space
  readEntry directory slot

def assignDirectory (space : Nat) (slot : EntryIndex) (change : Page → Page) : VmmM Unit := do
  let directory ← reach space
  assignEntry directory slot change

/-- `kmemset(pointer, 0, 4096)` for a page-aligned pointer; returns the frame it cleared. -/
def clearPage (pointer : Nat) : VmmM Frame := do
  let frame ← reach pointer
  modify fun machine => { machine with memory := clearFrame frame machine.memory }
  return frame

/-- `pmm_allocate_frame()`. -/
def allocateFrame : VmmM Nat := do
  let machine ← get
  let (frame, frames) := machine.frames.allocate
  set { machine with frames := frames }
  return frame

def vmmTempWindowVirtual : Nat := 0x007FF000

def vmmTempWindowPageIdx : EntryIndex := 1023

def kernelPt1DirIdx : EntryIndex := 1

/-- The assignments to the kernel's page entry for the temporary window. -/
def assignWindow (change : Page → Page) : VmmM Unit := do
  let kernelEntry ← readDirectory (← kernelDirectory) kernelPt1DirIdx
  let kernelPt1 ← reachTable kernelEntry.frameAddr
  assignEntry kernelPt1 vmmTempWindowPageIdx change

def vmmMapToTempWindow (tablePhysicalAddr : Nat) : VmmM Nat := do
  assignWindow fun page =>
    { page with present := true, rw := true, frameAddr := Page.frameOf tablePhysicalAddr }
  return vmmTempWindowVirtual

def vmmUnmapTempWindow : VmmM Unit :=
  assignWindow fun page => { page with present := false }

/-- The directory slots that the search of `vmm_get_new_page` looks at, in order. -/
def searchSlots : List EntryIndex :=
  (List.finRange 1024).filter fun slot => 2 ≤ slot.val ∧ ¬ (slot.val = 768 ∨ slot.val = 769)

/-- The first page entry of the table that is not present. -/
def firstAbsent (memory : Memory) (table : Frame) : Option EntryIndex :=
  (List.finRange 1024).find? fun index => !(tablesOf memory table index).present

/-- The inner loop of the search of `vmm_get_new_page`. -/
def findPage (table : Frame) : VmmM (Option EntryIndex) :=
  return firstAbsent (← get).memory table

/-- The search of `vmm_get_new_page` over the remaining slots. -/
def findSlot (space : Nat) : List EntryIndex → VmmM (Option Nat)
  | [] => return none
  | slot :: rest => do
      let entry ← readDirectory space slot
      if !entry.present then return some (pageAddress slot 0)
      else
        let table ← reachTable entry.frameAddr
        match ← findPage table with
        | some index => return some (pageAddress slot index)
        | none => findSlot space rest

/-- The assignments that make an entry name a frame, given by its physical address. -/
def pointEntry (isRw isUser : Bool) (physicalAddr : Nat) (entry : Page) : Page :=
  { entry with
    present := true, rw := isRw, user := isUser, frameAddr := Page.frameOf physicalAddr }

/-- A table for the slot is allocated and cleared where there is none. -/
def ensureTable (space : Nat) (slot : EntryIndex) (isRw isUser : Bool) : VmmM Bool := do
  let entry ← readDirectory space slot
  if entry.present then return true
  else
    let newTableFrame ← allocateFrame
    if newTableFrame = 0 then return false
    else
      assignDirectory space slot (pointEntry isRw isUser newTableFrame)
      let tempTable ← vmmMapToTempWindow newTableFrame
      let _ ← clearPage tempTable
      vmmUnmapTempWindow
      return true

/-- The frame is entered into the table of the slot. -/
def installPage (space : Nat) (slot index : EntryIndex) (isRw isUser : Bool) (physicalFrame : Nat) :
    VmmM Unit := do
  let entry ← readDirectory space slot
  let window ← vmmMapToTempWindow (frameAddress entry.frameAddr)
  let table ← reach window
  assignEntry table index (pointEntry isRw isUser physicalFrame)
  vmmUnmapTempWindow

/-- `vmm_get_new_page` once the page is chosen. -/
def mapNewPage (space : Nat) (isRw isUser : Bool) (targetVirtual : Nat) : VmmM Nat := do
  let physicalFrame ← allocateFrame
  if physicalFrame = 0 then return 0
  else
    let hasTable ← ensureTable space (directoryIndex targetVirtual) isRw isUser
    if !hasTable then return 0
    else
      installPage space (directoryIndex targetVirtual) (pageIndex targetVirtual) isRw isUser
        physicalFrame
      return targetVirtual

/-- NULL is 0, as an argument and as a result. -/
def vmmGetNewPage (space : Nat) (isRw isUser : Bool) (explicitVirtual : Nat) : VmmM Nat := do
  if explicitVirtual ≠ 0 then mapNewPage space isRw isUser explicitVirtual
  else
    match ← findSlot space searchSlots with
    | none => return 0
    | some targetVirtual => mapNewPage space isRw isUser targetVirtual

def vmmFreePage (space virtualAddress : Nat) : VmmM Unit := do
  let entry ← readDirectory space (directoryIndex virtualAddress)
  if !entry.present then return ()
  else
    let table ← reachTable entry.frameAddr
    assignEntry table (pageIndex virtualAddress) fun page =>
      { page with present := false, frameAddr := 0 }

def vmmGetPhysicalAddress (space virtualAddress : Nat) : VmmM Nat := do
  let entry ← readDirectory space (directoryIndex virtualAddress)
  if !entry.present then return 0
  else
    assignWindow fun page =>
      { page with present := true, rw := false, frameAddr := entry.frameAddr }
    let table ← reach vmmTempWindowVirtual
    let page ← readEntry table (pageIndex virtualAddress)
    assignWindow fun page => { page with present := false }
    return frameAddress page.frameAddr

/-- The part of `vmm_map_frame` that makes a table for the slot. `cached` tells whether the
hardware still holds the translation of the new page that clearing it has used; it matters
where `targetDir` is `kernel_directory` and the new page lies in the slot of `virtualAddr`,
whose directory entry is then replaced. -/
def mapNewTable (targetDir virtualAddr : Nat) (isUserProcess cached : Bool) :
    VmmM (Option Frame) := do
  let localPtWindow ← vmmGetNewPage (← kernelDirectory) true false 0
  if localPtWindow = 0 then return none
  else
    let cleared ← clearPage localPtWindow
    let ptPhys ← vmmGetPhysicalAddress (← kernelDirectory) localPtWindow
    assignDirectory targetDir (directoryIndex virtualAddr) (pointEntry true isUserProcess ptPhys)
    let ptVirt ← if cached then pure cleared else reach localPtWindow
    return some ptVirt

def vmmMapFrame (targetDir virtualAddr physicalFrame : Nat) (isWriteable isUserProcess : Bool)
    (cached : Bool) : VmmM Bool := do
  let entry ← readDirectory targetDir (directoryIndex virtualAddr)
  let table? ←
    if entry.present then some <$> reachTable entry.frameAddr
    else mapNewTable targetDir virtualAddr isUserProcess cached
  match table? with
  | none => return false
  | some table =>
      assignEntry table (pageIndex virtualAddr)
        (pointEntry isWriteable isUserProcess physicalFrame)
      return true

/-- Where a byte behind a pointer lies in the physical memory. -/
def physical (frame : Frame) (pointer : Nat) : Nat := frameAddress frame + pointer % pageSize

def loadByte (pointer : Nat) : VmmM UInt8 := do
  let frame ← reach pointer
  return (← get).memory (physical frame pointer)

def storeByte (pointer : Nat) (byte : UInt8) : VmmM Unit := do
  let frame ← reach pointer
  modify fun machine => { machine with memory := machine.memory.store8 (physical frame pointer) byte }

/-- `kmemcpy(src, dest, count)` for pointers of the kernel. -/
def copyBytes (src dest count : Nat) : VmmM Unit :=
  (List.range count).forM fun i => do
    let byte ← loadByte (u32 (src + i))
    storeByte (u32 (dest + i)) byte

def userCodeStart : Nat := 0xC0000000

/-- The bytes of a code page; what the last chunk does not fill is zero. -/
def fillCodePage (localUserCode entryPoint size numPages p : Nat) : VmmM Unit :=
  if p = numPages - 1 then do
    let _ ← clearPage localUserCode
    copyBytes (u32 (entryPoint + p * pageSize)) localUserCode (u32Sub size (p * pageSize))
  else copyBytes (u32 (entryPoint + p * pageSize)) localUserCode pageSize

/-- One round of the loop of `vmm_create_virtual_address_space`; says whether it goes on. -/
def mapCodePage (newAddressSpace entryPoint size numPages : Nat) (isUserProcess cached : Bool)
    (p : Nat) : VmmM Bool := do
  let localUserCode ← vmmGetNewPage (← kernelDirectory) true false 0
  if localUserCode = 0 then return false
  else
    fillCodePage localUserCode entryPoint size numPages p
    let userCodePhysicalFrame ← vmmGetPhysicalAddress (← kernelDirectory) localUserCode
    let _ ← vmmMapFrame newAddressSpace (u32 (userCodeStart + p * pageSize)) userCodePhysicalFrame
      true isUserProcess cached
    vmmFreePage (← kernelDirectory) localUserCode
    return true

def mapCode (newAddressSpace entryPoint size numPages : Nat) (isUserProcess cached : Bool) :
    List Nat → VmmM Bool
  | [] => return true
  | p :: rest => do
      let mapped ← mapCodePage newAddressSpace entryPoint size numPages isUserProcess cached p
      if !mapped then return false
      else mapCode newAddressSpace entryPoint size numPages isUserProcess cached rest

/-- The entries 0 and 1 are those of `kernel_directory`. -/
def shareKernelEntry (newAddressSpace : Nat) (slot : EntryIndex) : VmmM Unit := do
  let entry ← readDirectory (← kernelDirectory) slot
  assignDirectory newAddressSpace slot fun _ => entry

def numCodePages (size : Nat) : Nat := u32 (size + pageSize - 1) / pageSize

def vmmCreateVirtualAddressSpace (entryPoint size : Nat) (isUserProcess cached : Bool) :
    VmmM Nat := do
  let newAddressSpace ← vmmGetNewPage (← kernelDirectory) true false 0
  if newAddressSpace = 0 then return 0
  else
    let _ ← clearPage newAddressSpace
    shareKernelEntry newAddressSpace 0
    shareKernelEntry newAddressSpace 1
    let mapped ← mapCode newAddressSpace entryPoint size (numCodePages size) isUserProcess cached
      (List.range (numCodePages size))
    if !mapped then return 0 else return newAddressSpace

end KdbOS.Vmm
