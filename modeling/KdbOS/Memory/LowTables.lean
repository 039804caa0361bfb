import KdbOS.Memory.VmmInvariant
import Mathlib.Data.Set.Card

/-! Where the kernel's direct accesses to page tables reach them: while all page structures
lie in frames whose physical addresses are virtual addresses too. The allocator hands out
the lowest frames first, so that this goes on as long as it has such frames. -/

set_option autoImplicit false

namespace KdbOS.Vmm

open Library Pmm Arch

variable {start s t u : Machine} {directories : Set Frame} {directory frame : Frame}
variable {pointer virtual count : Nat} {isRw isUser : Bool}

/-- A frame of the first 8 MiB that is addressed by its physical address, whatever the
temporary window is used for. -/
def LowFrame (frame : Frame) : Prop := frame ≠ 0 ∧ frame.val < 2047

/-- The machine's first 8 MiB are mapped to themselves. -/
def IdentityMapped (s : Machine) : Prop :=
  ∀ frame, LowFrame frame → Sees s (frameAddress frame) frame

/-- Free frames below that of the window. -/
def lowFrames (s : Machine) : Set Frame := {frame | s.frames.Free frame ∧ frame.val < 2047}

/-- There are `count` free frames below that of the window, or there are no others. -/
def HasRoom (s : Machine) (count : Nat) : Prop :=
  count ≤ (lowFrames s).ncard ∨ ∀ frame, s.frames.Free frame → frame.val < 2047

/-- All page structures lie in low frames, and there is room for `count` further ones. -/
structure TablesLow (start s : Machine) (directories : Set Frame) (count : Nat) : Prop where
  identity : IdentityMapped start
  linked : ∀ frame, (tablesOf s.memory).Linked directories frame → LowFrame frame
  room : HasRoom s count

theorem kernelSlot_of_lowFrame (low : LowFrame frame) :
    KernelSlot (directoryIndex (frameAddress frame)) := by
  have below := low.2
  unfold KernelSlot directoryIndex frameAddress pageSize
  rw [Fin.val_ofNat]
  omega

theorem LowKept.sees (kept : LowKept start s) (identity : IdentityMapped start)
    (low : LowFrame frame) : Sees s (frameAddress frame) frame := by
  have sees := identity frame low
  unfold Sees Arch.translate at *
  rw [← sees]
  unfold walk
  rw [kept.kernelDirectory, kept.walks _ _ (kernelSlot_of_lowFrame low) (not_windowPage_of_lt low.2)]

theorem Sound.identityMapped (sound : Sound start s directories) (identity : IdentityMapped start) :
    IdentityMapped s :=
  fun _ low => sound.low.sees identity low

namespace TablesLow

theorem reachable (low : TablesLow start s directories count) (sound : Sound start s directories)
    (member : directory ∈ directories) (slots : List EntryIndex) :
    TablesReachable s directory slots :=
  fun _ _ isPresent =>
    sound.identityMapped low.identity _ (low.linked _ (.of_table member isPresent))

theorem mono {fewer : Nat} (low : TablesLow start s directories count) (less : fewer ≤ count) :
    TablesLow start s directories fewer :=
  ⟨low.identity, low.linked, Or.imp_left less.trans low.room⟩

theorem of_subset {fewer : Set Frame} (low : TablesLow start s directories count)
    (subset : fewer ⊆ directories) : TablesLow start s fewer count :=
  ⟨low.identity, fun frame linked => low.linked frame (linked.of_subset subset), low.room⟩

/-- The first frame that is handed out is a low one. -/
theorem lowFrame_of_least (low : TablesLow start s directories (count + 1))
    (least : IsLeast {other | s.frames.Free other} frame) : LowFrame frame := by
  refine ⟨least.1.ne_zero, ?_⟩
  rcases low.room with room | every
  · obtain ⟨other, free, below⟩ : (lowFrames s).Nonempty :=
      (Set.ncard_pos (Set.toFinite _)).mp (by omega)
    exact Nat.lt_of_le_of_lt (least.2 free) below
  · exact every frame least.1

/-- So is the second one, if there are two. -/
theorem lowFrame_of_second {other : Frame} (low : TablesLow start s directories (count + 2))
    (second : IsLeast {other | s.frames.Free other ∧ other ≠ frame} other) : LowFrame other := by
  refine ⟨second.1.1.ne_zero, ?_⟩
  rcases low.room with room | every
  · have removed := Set.ncard_le_ncard_sdiff_add_ncard (lowFrames s) {frame} (Set.toFinite _)
    rw [Set.ncard_singleton] at removed
    obtain ⟨third, ⟨free, below⟩, different⟩ : (lowFrames s \ {frame}).Nonempty :=
      (Set.ncard_pos (Set.toFinite _)).mp (by omega)
    exact Nat.lt_of_le_of_lt (second.2 ⟨free, different⟩) below
  · exact every other second.1.1

/-- At most two frames are handed out. -/
theorem room_of_two {first : Frame} {second : Option Frame}
    (low : TablesLow start s directories (count + 2))
    (free : ∀ other, t.frames.Free other ↔
      s.frames.Free other ∧ other ≠ first ∧ second ≠ some other) : HasRoom t count := by
  rcases low.room with room | every
  · left
    have inside : lowFrames s \ ({first} ∪ {other | second = some other}) ⊆ lowFrames t := by
      rintro other ⟨⟨wasFree, below⟩, apart⟩
      exact ⟨(free other).mpr ⟨wasFree, fun same => apart (.inl same), fun same => apart (.inr same)⟩,
        below⟩
    have few : ({first} ∪ {other | second = some other} : Set Frame).ncard ≤ 2 := by
      refine (Set.ncard_union_le _ _).trans ?_
      rw [Set.ncard_singleton]
      cases second with
      | none => simp
      | some table =>
          have single : {other | some table = some other} = ({table} : Set Frame) := by
            ext other
            simp [eq_comm]
          rw [single, Set.ncard_singleton]
    have smaller := Set.ncard_le_ncard inside (Set.toFinite _)
    have removed := Set.ncard_le_ncard_sdiff_add_ncard (lowFrames s)
      ({first} ∪ {other | second = some other}) (Set.toFinite _)
    omega
  · exact .inr fun other isFree => every other ((free other).mp isFree).1

theorem chosenPage {table : Option Frame} (low : TablesLow start s directories (count + 2))
    (newPage : NewPage s t directories directory virtual isRw isUser frame table) :
    TablesLow start t directories count := by
  refine ⟨low.identity, fun other linked => ?_, low.room_of_two newPage.free⟩
  rcases (newPage.linked other).mp linked with old | isTable
  · exact low.linked other old
  · exact low.lowFrame_of_second (newPage.leastTable other isTable)

theorem newPage {result : Nat} (low : TablesLow start s directories (count + 2))
    (newPageResult : NewPageResult s directories directory isRw isUser result t) :
    TablesLow start t directories count := by
  cases newPageResult with
  | full =>
      have fewer := low.mono (Nat.le_add_right count 2)
      exact ⟨fewer.identity, fewer.linked, fewer.room⟩
  | exhausted noFrame =>
      refine ⟨low.identity, ?_, .inr fun frame free => absurd free (noFrame.exhausted frame)⟩
      rw [noFrame.memory]
      exact low.linked
  | mapped _ newPage => exact low.chosenPage newPage

theorem windowUsed (low : TablesLow start s directories count)
    (structures : PageStructures s directories) (used : WindowUsed s t) :
    TablesLow start t directories count where
  identity := low.identity
  linked other linked := low.linked other ((used.linked structures).mp linked)
  room := by
    unfold HasRoom lowFrames
    rw [used.frames]
    exact low.room

theorem written (low : TablesLow start s directories count) (written : FrameWritten s t frame)
    (unlinked : ¬ (tablesOf s.memory).Linked directories frame) :
    TablesLow start t directories count where
  identity := low.identity
  linked other linked := low.linked other ((written.linked unlinked).mp linked)
  room := by
    unfold HasRoom lowFrames
    rw [written.frames]
    exact low.room

theorem pageChanged {page : Option Page} (low : TablesLow start s directories count)
    (changed : PageChanged s t directories directory virtual page) :
    TablesLow start t directories count where
  identity := low.identity
  linked other linked := low.linked other ((changed.tables.linked other).mp linked)
  room := by
    unfold HasRoom lowFrames
    rw [changed.frames]
    exact low.room

theorem newTable {slot : EntryIndex} {window : Nat} {newTable : Frame} {table : Option Frame}
    (low : TablesLow start s directories (count + 2))
    (made : NewTable s t directories directory slot isUser window newTable table) :
    TablesLow start t directories count where
  identity := low.identity
  linked other linked := by
    rcases made.linked other linked with old | rfl | isTable
    · exact low.linked other old
    · exact lowFrame_of_least (low.mono (Nat.le_succ (count + 1))) made.least
    · exact low.lowFrame_of_second (made.leastTable other isTable)
  room := low.room_of_two made.free

theorem mapFrame {physicalFrame : Nat} {isWriteable answer : Bool}
    (low : TablesLow start s directories (count + 2))
    (result : MapFrameResult s directories directory virtual physicalFrame isWriteable isUser answer
      t) : TablesLow start t directories count := by
  cases result with
  | failed _ newPage => exact low.newPage newPage
  | entered _ changed => exact (low.mono (Nat.le_add_right _ _)).pageChanged changed
  | created _ made changed => exact (low.newTable made).pageChanged changed

theorem adopt (low : TablesLow start s directories count) (sound : Sound start s directories)
    (copied : ∀ slot, (tablesOf s.memory frame slot).present = true →
      KernelSlot slot ∧ tablesOf s.memory frame slot = tablesOf s.memory s.kernelDirectory slot)
    (isLow : LowFrame frame) : TablesLow start s (insert frame directories) count where
  identity := low.identity
  linked other linked := by
    rcases (Tables.linked_adopt copied sound.kernel).mp linked with rfl | old
    · exact isLow
    · exact low.linked other old
  room := low.room

end TablesLow

end KdbOS.Vmm
