import KdbOS.Klibc.Kmemory
import KdbOS.Memory.Pmm

/-! `paging.c` and the entries of two-level page tables. A table is its address; its
entries are the words stored from there on. -/

set_option autoImplicit false

namespace KdbOS.Arch

open Library Ds Klibc Pmm

def pageSize : Nat := 4096

def totalEntries : Nat := 1024

/-! The bounds of the bit-fields of an entry and of the indices of a table. -/

instance neZero_frames : NeZero 1048576 := ⟨by decide⟩

instance neZero_entries : NeZero 1024 := ⟨by decide⟩

instance neZero_reserved : NeZero 512 := ⟨by decide⟩

/-- `Page` and `PageTableDirectoryEntry`, which have the same layout. `frameAddr` is
the `frame_addr` of the one and the `page_table_addr` of the other. -/
structure Page where
  present : Bool
  rw : Bool
  user : Bool
  reserved : Fin 512
  frameAddr : Fin 1048576
  deriving DecidableEq, Repr

namespace Page

def encode (page : Page) : Nat :=
  page.present.toNat + 2 * page.rw.toNat + 4 * page.user.toNat + 8 * page.reserved.val +
    4096 * page.frameAddr.val

def decode (word : Nat) : Page where
  present := decide (word % 2 = 1)
  rw := decide (word / 2 % 2 = 1)
  user := decide (word / 4 % 2 = 1)
  reserved := Fin.ofNat 512 (word / 8)
  frameAddr := Fin.ofNat 1048576 (word / 4096)

theorem encode_lt (page : Page) : page.encode < 4294967296 := by
  have reserved := page.reserved.isLt
  have frame := page.frameAddr.isLt
  have present := page.present.toNat_le
  have rw := page.rw.toNat_le
  have user := page.user.toNat_le
  unfold encode
  omega

private theorem lowBit (bit : Bool) (rest : Nat) :
    decide ((bit.toNat + 2 * rest) % 2 = 1) = bit ∧ (bit.toNat + 2 * rest) / 2 = rest := by
  cases bit with
  | false => exact ⟨decide_eq_false (by simp), by simp⟩
  | true => exact ⟨decide_eq_true (by simp only [Bool.toNat_true]; omega), by
      simp only [Bool.toNat_true]; omega⟩

@[simp] theorem decode_encode (page : Page) : decode page.encode = page := by
  obtain ⟨present, rw, user, ⟨reserved, reservedLt⟩, ⟨frame, frameLt⟩⟩ := page
  have nested : encode ⟨present, rw, user, ⟨reserved, reservedLt⟩, ⟨frame, frameLt⟩⟩ =
      present.toNat + 2 * (rw.toNat + 2 * (user.toNat + 2 * (reserved + 512 * frame))) := by
    simp only [encode]
    omega
  obtain ⟨presentEq, afterPresent⟩ := lowBit present (rw.toNat + 2 * (user.toNat + 2 * (reserved + 512 * frame)))
  obtain ⟨rwEq, afterRw⟩ := lowBit rw (user.toNat + 2 * (reserved + 512 * frame))
  obtain ⟨userEq, afterUser⟩ := lowBit user (reserved + 512 * frame)
  rw [nested]
  have fourth : ∀ word, word / 4 = word / 2 / 2 := fun word => by omega
  have eighth : ∀ word, word / 8 = word / 2 / 2 / 2 := fun word => by omega
  have upper : ∀ word, word / 4096 = word / 2 / 2 / 2 / 512 := fun word => by omega
  simp only [decode, fourth, eighth, upper, presentEq, afterPresent, rwEq, afterRw, userEq,
    afterUser, Page.mk.injEq, true_and, Fin.ofNat, Fin.mk.injEq]
  omega

/-- A word is known from its bit-fields. -/
theorem encode_decode {word : Nat} (bounded : word < 4294967296) : (decode word).encode = word := by
  have bit : ∀ value, (decide (value % 2 = 1)).toNat = value % 2 := by
    intro value
    rcases Nat.mod_two_eq_zero_or_one value with zero | one
    · rw [zero]
      rfl
    · rw [one]
      rfl
  simp only [encode, decode, bit, Fin.val_ofNat]
  omega

/-- The low 20 bits of `address >> 12`, as a bit-field takes them. -/
def frameOf (address : Nat) : Fin 1048576 := Fin.ofNat 1048576 (address / 4096)

end Page

/-- The address of entry `index` of the table or directory at `table`. -/
def entryAddress (table index : Nat) : Nat := table + 4 * index

def readEntry (table index : Nat) (memory : Memory) : Page :=
  .decode (memory.load32 (entryAddress table index))

/-- Assignments to bit-fields of one entry: the word is read, changed and stored. -/
def updateEntry (table index : Nat) (change : Page → Page) (memory : Memory) : Memory :=
  memory.store32 (entryAddress table index) (change (readEntry table index memory)).encode

/-- The section boundaries that the linker script provides. -/
structure KernelSections where
  textStart : Nat
  rodataStart : Nat
  dataStart : Nat

def isWriteable (sections : KernelSections) (physicalAddress : Nat) : Bool :=
  !((sections.textStart ≤ physicalAddress && physicalAddress < sections.rodataStart) ||
    (sections.rodataStart ≤ physicalAddress && physicalAddress < sections.dataStart))

/-- What `paging_init` leaves: the three frames it took, with the directory first, and
the memory. The address space it switches to is that of the directory. -/
structure PagingInit where
  kernelDirectory : Nat
  kernelPageTable : Nat
  secondPageTable : Nat
  memory : Memory

def pagingInit (sections : KernelSections) (frameBitmap : Bitmap) (memory : Memory) : PagingInit :=
  let (kernelDirectory, memory) := pmmAllocateFrame frameBitmap memory
  let (kernelPageTable, memory) := pmmAllocateFrame frameBitmap memory
  let (secondPageTable, memory) := pmmAllocateFrame frameBitmap memory
  let memory := kmemset kernelDirectory 0 pageSize memory
  let memory := kmemset kernelPageTable 0 pageSize memory
  let memory := kmemset secondPageTable 0 pageSize memory
  let memory := (List.range totalEntries).foldl (fun memory i =>
    updateEntry kernelPageTable i (fun page =>
      { page with
        present := true
        user := false
        rw := isWriteable sections (i * pageSize)
        frameAddr := Page.frameOf (i * pageSize) }) memory) memory
  let memory := updateEntry kernelPageTable 0 (fun page => { page with present := false }) memory
  let memory := (List.range totalEntries).foldl (fun memory i =>
    updateEntry secondPageTable i (fun page =>
      { page with
        present := true
        rw := true
        user := false
        frameAddr := Page.frameOf (4 * 1024 * 1024 + i * pageSize) }) memory) memory
  let memory := updateEntry kernelDirectory 0 (fun entry =>
    { entry with
      present := true, rw := true, user := false, frameAddr := Page.frameOf kernelPageTable }) memory
  let memory := updateEntry kernelDirectory 1 (fun entry =>
    { entry with
      present := true, rw := true, user := false, frameAddr := Page.frameOf secondPageTable }) memory
  ⟨kernelDirectory, kernelPageTable, secondPageTable, memory⟩

end KdbOS.Arch
