import KdbOS.Arch.Paging
import KdbOS.Library.PageTables

/-! The two-level walk of the hardware over the physical memory, in supervisor mode. Boot
leaves the write-protect bit of CR0 alone, so that `rw` does not bind the kernel. -/

set_option autoImplicit false

namespace KdbOS.Arch

open Library Ds Klibc Pmm

/-- The number of a physical frame. -/
abbrev Frame := Fin 1048576

/-- An index into a page directory or a page table. -/
abbrev EntryIndex := Fin 1024

def frameAddress (frame : Frame) : Nat := frame.val * pageSize

def directoryIndex (virtualAddress : Nat) : EntryIndex := Fin.ofNat 1024 (virtualAddress / 4194304)

def pageIndex (virtualAddress : Nat) : EntryIndex := Fin.ofNat 1024 (virtualAddress / 4096)

/-- The first address of a page: `(slot << 22) | (index << 12)`. -/
def pageAddress (slot index : EntryIndex) : Nat := slot.val * 4194304 + index.val * 4096

instance : TableEntry Page Frame := ⟨Page.present, Page.frameAddr⟩

@[simp] theorem tableEntry_present (page : Page) : TableEntry.present page = page.present := rfl

@[simp] theorem tableEntry_target (page : Page) : TableEntry.target page = page.frameAddr := rfl

/-- Every frame of the memory, read as a table. -/
def tablesOf (memory : Memory) : Tables Frame EntryIndex Page :=
  fun frame index => readEntry (frameAddress frame) index memory

def walk (memory : Memory) (directory : Frame) (virtualAddress : Nat) : Option Page :=
  (tablesOf memory).walk directory (directoryIndex virtualAddress) (pageIndex virtualAddress)

def translate (memory : Memory) (directory : Frame) (virtualAddress : Nat) : Option Frame :=
  (walk memory directory virtualAddress).map Page.frameAddr

/-- The physical address that the hardware forms for a virtual one. -/
def physicalAddress (memory : Memory) (directory : Frame) (virtualAddress : Nat) : Option Nat :=
  (translate memory directory virtualAddress).map fun frame =>
    frameAddress frame + virtualAddress % pageSize

/-- Whether both levels of the walk grant a right, which is `rw` or `user`. -/
def grants (right : Page → Bool) (memory : Memory) (directory : Frame) (virtualAddress : Nat) :
    Bool :=
  right (tablesOf memory directory (directoryIndex virtualAddress)) &&
    (walk memory directory virtualAddress).any right

/-- Assignments to the bit-fields of one entry of a frame. -/
def changeEntry (frame : Frame) (index : EntryIndex) (change : Page → Page) (memory : Memory) :
    Memory :=
  updateEntry (frameAddress frame) index change memory

/-- A whole frame set to zero. -/
def clearFrame (frame : Frame) (memory : Memory) : Memory :=
  kmemset (frameAddress frame) 0 pageSize memory

variable {memory other : Memory} {frame directory : Frame} {index : EntryIndex}

theorem frameAddress_lt (frame : Frame) : frameAddress frame + 4096 ≤ 4294967296 := by
  have := frame.isLt
  unfold frameAddress pageSize
  omega

/-- Entries at different places do not overlap. -/
theorem entryAddress_apart {first second : Frame} {i j : EntryIndex}
    (different : ¬ (first = second ∧ i = j)) :
    entryAddress (frameAddress first) i + 4 ≤ entryAddress (frameAddress second) j ∨
      entryAddress (frameAddress second) j + 4 ≤ entryAddress (frameAddress first) i := by
  have apart : first.val ≠ second.val ∨ i.val ≠ j.val := by
    by_contra same
    push Not at same
    exact different ⟨Fin.ext same.1, Fin.ext same.2⟩
  have iLt := i.isLt
  have jLt := j.isLt
  unfold entryAddress frameAddress pageSize
  omega

theorem tablesOf_changeEntry (change : Page → Page) :
    tablesOf (changeEntry frame index change memory) =
      (tablesOf memory).set frame index (change (tablesOf memory frame index)) := by
  funext at_ position
  unfold Tables.set tablesOf changeEntry updateEntry readEntry
  by_cases here : at_ = frame ∧ position = index
  · obtain ⟨rfl, rfl⟩ := here
    rw [if_pos ⟨rfl, rfl⟩, Memory.load32_store32_self, u32_of_lt (Page.encode_lt _),
      Page.decode_encode]
  · rw [if_neg here, Memory.load32_store32_of_disjoint]
    exact entryAddress_apart fun same => here ⟨same.1.symm, same.2.symm⟩

theorem tablesOf_updateEntry {count : Nat} (inside : count < 1024) (change : Page → Page) :
    tablesOf (updateEntry (frameAddress frame) count change memory) =
      (tablesOf memory).set frame ⟨count, inside⟩ (change (tablesOf memory frame ⟨count, inside⟩)) := by
  show tablesOf (changeEntry frame ⟨count, inside⟩ change memory) = _
  exact tablesOf_changeEntry change

private theorem tablesOf_foldl_updateEntry (frame : Frame) (change : Nat → Page → Page)
    (memory : Memory) {count : Nat} (inside : count ≤ 1024) :
    tablesOf ((List.range count).foldl
        (fun memory i => updateEntry (frameAddress frame) i (change i) memory) memory) =
      fun at_ position =>
        if at_ = frame ∧ position.val < count then change position.val (tablesOf memory frame position)
        else tablesOf memory at_ position := by
  induction count with
  | zero => simp
  | succ count ih =>
      have last : count < 1024 := inside
      rw [List.range_succ, List.foldl_append, List.foldl_cons, List.foldl_nil]
      rw [tablesOf_updateEntry last, ih (Nat.le_of_lt last)]
      funext at_ position
      unfold Tables.set
      by_cases here : at_ = frame ∧ position = ⟨count, last⟩
      · obtain ⟨rfl, rfl⟩ := here
        simp
      · rw [if_neg here]
        have same : (at_ = frame ∧ position.val < count) ↔ (at_ = frame ∧ position.val < count + 1) := by
          refine and_congr_right fun isFrame => ?_
          have apart : position.val ≠ count := fun equal => here ⟨isFrame, Fin.ext equal⟩
          omega
        exact if_congr same rfl rfl

/-- A loop that assigns to all entries of a frame. -/
theorem tablesOf_fillEntries_self (frame : Frame) (change : Nat → Page → Page) (memory : Memory)
    (index : EntryIndex) :
    tablesOf ((List.range totalEntries).foldl
        (fun memory i => updateEntry (frameAddress frame) i (change i) memory) memory) frame index =
      change index.val (tablesOf memory frame index) := by
  rw [totalEntries, tablesOf_foldl_updateEntry frame change memory (Nat.le_refl 1024)]
  exact if_pos ⟨rfl, index.isLt⟩

theorem tablesOf_fillEntries_of_ne (change : Nat → Page → Page) (memory : Memory) {at_ : Frame}
    (different : at_ ≠ frame) :
    tablesOf ((List.range totalEntries).foldl
        (fun memory i => updateEntry (frameAddress frame) i (change i) memory) memory) at_ =
      tablesOf memory at_ := by
  funext position
  rw [totalEntries, tablesOf_foldl_updateEntry frame change memory (Nat.le_refl 1024)]
  exact if_neg fun both => different both.1

/-- Frames other than the one written are read as before. -/
theorem tablesOf_of_outside
    (same : ∀ address, address < frameAddress frame ∨ frameAddress frame + 4096 ≤ address →
      other address = memory address) {at_ : Frame} (different : at_ ≠ frame) :
    tablesOf other at_ = tablesOf memory at_ := by
  funext position
  unfold tablesOf readEntry
  refine congrArg Page.decode (Memory.load32_congr fun address lower upper => same address ?_)
  have apart : at_.val ≠ frame.val := fun equal => different (Fin.ext equal)
  have inside := position.isLt
  unfold entryAddress frameAddress pageSize at *
  omega

theorem tablesOf_of_bytes
    (same : ∀ offset < 4096,
      other (frameAddress frame + offset) = memory (frameAddress frame + offset)) :
    tablesOf other frame = tablesOf memory frame := by
  funext position
  unfold tablesOf readEntry
  refine congrArg Page.decode (Memory.load32_congr fun address lower upper => ?_)
  have inside := position.isLt
  unfold entryAddress at lower upper
  have byte := same (address - frameAddress frame) (by omega)
  rwa [Nat.add_sub_cancel' (by omega)] at byte

theorem kmemset_apply {dest count : Nat} {val : UInt8} (bounded : dest + count ≤ 4294967296)
    (address : Nat) :
    kmemset dest val count memory address =
      if dest ≤ address ∧ address < dest + count then val else memory address := by
  unfold kmemset
  induction count with
  | zero => simp
  | succ count ih =>
      rw [List.range_succ, List.foldl_append, List.foldl_cons, List.foldl_nil,
        u32_of_lt (by omega)]
      by_cases last : address = dest + count
      · subst last
        rw [Memory.store8_self, if_pos (by omega)]
      · rw [Memory.store8_of_ne last, ih (by omega)]
        exact if_congr (by omega) rfl rfl

theorem clearFrame_apply (address : Nat) :
    clearFrame frame memory address =
      if frameAddress frame ≤ address ∧ address < frameAddress frame + 4096 then 0
      else memory address :=
  kmemset_apply (frameAddress_lt frame) address

theorem tablesOf_clearFrame_of_ne {at_ : Frame} (different : at_ ≠ frame) :
    tablesOf (clearFrame frame memory) at_ = tablesOf memory at_ := by
  refine tablesOf_of_outside (fun address outside => ?_) different
  rw [clearFrame_apply, if_neg (by omega)]

/-- A zeroed table has no present entry. -/
theorem tablesOf_clearFrame_self (index : EntryIndex) :
    tablesOf (clearFrame frame memory) frame index = Page.decode 0 := by
  have inside := index.isLt
  have zero : ∀ offset < 4, clearFrame frame memory
      (entryAddress (frameAddress frame) index + offset) = 0 := by
    intro offset small
    rw [clearFrame_apply, if_pos]
    unfold entryAddress
    omega
  unfold tablesOf readEntry Memory.load32
  have first := zero 0 (by decide)
  rw [Nat.add_zero] at first
  rw [first, zero 1 (by decide), zero 2 (by decide), zero 3 (by decide)]
  rfl

theorem tablesOf_clearFrame (frame : Frame) (memory : Memory) :
    tablesOf (clearFrame frame memory) = (tablesOf memory).fill frame (Page.decode 0) := by
  funext at_ position
  unfold Tables.fill
  by_cases here : at_ = frame
  · subst here
    rw [if_pos rfl, tablesOf_clearFrame_self]
  · rw [if_neg here, tablesOf_clearFrame_of_ne here]

theorem frameOf_frameAddress (frame : Frame) : Page.frameOf (frameAddress frame) = frame := by
  unfold Page.frameOf frameAddress pageSize
  rw [Nat.mul_div_cancel _ (by decide)]
  exact Fin.ofNat_val_eq_self frame

@[simp] theorem decode_zero_present : (Page.decode 0).present = false := rfl

/-- A frame is known byte by byte from its entries. -/
theorem byte_of_tables (same : tablesOf other frame = tablesOf memory frame) {address : Nat}
    (lower : frameAddress frame ≤ address) (upper : address < frameAddress frame + 4096) :
    other address = memory address := by
  obtain ⟨index, offset, small, rfl⟩ : ∃ (index : EntryIndex) (offset : Nat), offset < 4 ∧
      address = entryAddress (frameAddress frame) index + offset := by
    refine ⟨⟨(address - frameAddress frame) / 4, by omega⟩, (address - frameAddress frame) % 4,
      Nat.mod_lt _ (by decide), ?_⟩
    unfold entryAddress
    dsimp only
    omega
  have words := congrArg Page.encode (congrFun same index)
  unfold tablesOf readEntry at words
  rw [Page.encode_decode (Memory.load32_lt _ _), Page.encode_decode (Memory.load32_lt _ _)] at words
  generalize entryAddress (frameAddress frame) index = start at words
  unfold Memory.load32 at words
  have bounds := fun (bytes : Memory) (at_ : Nat) => (bytes at_).toNat_lt
  have first := bounds other start
  have second := bounds other (start + 1)
  have third := bounds other (start + 2)
  have fourth := bounds other (start + 3)
  have first' := bounds memory start
  have second' := bounds memory (start + 1)
  have third' := bounds memory (start + 2)
  have fourth' := bounds memory (start + 3)
  refine UInt8.toNat_inj.mp ?_
  obtain rfl | rfl | rfl | rfl : offset = 0 ∨ offset = 1 ∨ offset = 2 ∨ offset = 3 := by omega
  · rw [Nat.add_zero]
    omega
  · omega
  · omega
  · omega

end KdbOS.Arch
