import Mathlib.Data.Set.Insert
import Mathlib.Tactic.Common

/-! Two-level page tables. A memory of tables gives every frame its entries; a directory
is a frame whose entries point to the tables of its slots, and a walk goes through one
entry of each level. -/

set_option autoImplicit false

namespace KdbOS.Library

/-- What the hardware reads of an entry. -/
class TableEntry (Entry : Type) (Frame : outParam Type) where
  present : Entry → Bool
  target : Entry → Frame

/-- Every frame, read as a table. -/
abbrev Tables (Frame Index Entry : Type) := Frame → Index → Entry

namespace Tables

open TableEntry

section Set

variable {Frame Index Entry : Type} [DecidableEq Frame] [DecidableEq Index]
variable {tables : Tables Frame Index Entry} {frame other : Frame} {index otherIndex : Index}
variable {entry : Entry}

/-- One entry of one frame is replaced. -/
def set (tables : Tables Frame Index Entry) (frame : Frame) (index : Index) (entry : Entry) :
    Tables Frame Index Entry :=
  fun at_ position => if at_ = frame ∧ position = index then entry else tables at_ position

@[simp] theorem set_self : tables.set frame index entry frame index = entry := by simp [set]

theorem set_of_frame_ne (different : other ≠ frame) :
    tables.set frame index entry other otherIndex = tables other otherIndex :=
  if_neg fun same => different same.1

theorem set_of_index_ne (different : otherIndex ≠ index) :
    tables.set frame index entry other otherIndex = tables other otherIndex :=
  if_neg fun same => different same.2

theorem set_of_ne (different : ¬ (other = frame ∧ otherIndex = index)) :
    tables.set frame index entry other otherIndex = tables other otherIndex :=
  if_neg different

theorem set_set (tables : Tables Frame Index Entry) (frame : Frame) (index : Index)
    (first second : Entry) :
    (tables.set frame index first).set frame index second = tables.set frame index second := by
  funext at_ position
  by_cases here : at_ = frame ∧ position = index
  · obtain ⟨rfl, rfl⟩ := here
    simp
  · simp only [set_of_ne here]

theorem set_comm (tables : Tables Frame Index Entry) (first second : Entry)
    (different : ¬ (other = frame ∧ otherIndex = index)) :
    (tables.set frame index first).set other otherIndex second =
      (tables.set other otherIndex second).set frame index first := by
  funext at_ position
  by_cases here : at_ = frame ∧ position = index
  · obtain ⟨rfl, rfl⟩ := here
    rw [set_self, set_of_ne fun same => different ⟨same.1.symm, same.2.symm⟩, set_self]
  · by_cases there : at_ = other ∧ position = otherIndex
    · obtain ⟨rfl, rfl⟩ := there
      rw [set_self, set_of_ne here, set_self]
    · rw [set_of_ne there, set_of_ne here, set_of_ne here, set_of_ne there]

/-- All entries of one frame are replaced. -/
def fill (tables : Tables Frame Index Entry) (frame : Frame) (entry : Entry) :
    Tables Frame Index Entry :=
  fun at_ position => if at_ = frame then entry else tables at_ position

omit [DecidableEq Index] in
theorem fill_self : tables.fill frame entry frame index = entry := if_pos rfl

omit [DecidableEq Index] in
theorem fill_of_ne (different : other ≠ frame) :
    tables.fill frame entry other index = tables other index :=
  if_neg different

/-- Only the last of two assignments to an entry counts, also around a fill. -/
theorem set_fill_set (tables : Tables Frame Index Entry) (first zero second : Entry) :
    ((tables.set frame index first).fill other zero).set frame index second =
      (tables.fill other zero).set frame index second := by
  funext at_ position
  by_cases here : at_ = frame ∧ position = index
  · obtain ⟨rfl, rfl⟩ := here
    simp
  · rw [set_of_ne here, set_of_ne here]
    unfold fill
    rw [set_of_ne here]

end Set

variable {Frame Index Entry : Type} [TableEntry Entry Frame]

/-- The entry that the hardware finds for a page when both levels are present. -/
def walk (tables : Tables Frame Index Entry) (directory : Frame) (slot index : Index) :
    Option Entry :=
  if present (tables directory slot) then
    if present (tables (target (tables directory slot)) index) then
      some (tables (target (tables directory slot)) index)
    else none
  else none

/-- The frame is one of the directories, or a table of one of them. -/
def Linked (tables : Tables Frame Index Entry) (directories : Set Frame) (frame : Frame) : Prop :=
  frame ∈ directories ∨
    ∃ directory ∈ directories, ∃ slot,
      present (tables directory slot) = true ∧ target (tables directory slot) = frame

/-- No frame has two roles: a table is no directory, and it belongs to one slot of one
directory, except that directories may have the tables of `Shared` slots in common. -/
structure Separate (Shared : Index → Prop) (tables : Tables Frame Index Entry)
    (directories : Set Frame) : Prop where
  apart : ∀ directory ∈ directories, ∀ slot, present (tables directory slot) = true →
    target (tables directory slot) ∉ directories
  unique : ∀ directory ∈ directories, ∀ other ∈ directories, ∀ slot otherSlot,
    present (tables directory slot) = true → present (tables other otherSlot) = true →
    target (tables directory slot) = target (tables other otherSlot) →
    slot = otherSlot ∧ (directory = other ∨ Shared slot)

variable {tables after : Tables Frame Index Entry} {directories : Set Frame}
variable {directory other frame table : Frame} {slot index otherSlot otherIndex : Index}
variable {entry : Entry} {Shared : Index → Prop}

theorem Linked.of_directory (member : directory ∈ directories) :
    Linked tables directories directory :=
  .inl member

theorem Linked.of_table (member : directory ∈ directories)
    (isPresent : present (tables directory slot) = true) :
    Linked tables directories (target (tables directory slot)) :=
  .inr ⟨directory, member, slot, isPresent, rfl⟩

theorem walk_eq_some_iff :
    walk tables directory slot index = some entry ↔
      present (tables directory slot) = true ∧
        tables (target (tables directory slot)) index = entry ∧ present entry = true := by
  unfold walk
  constructor
  · intro found
    split at found
    case isTrue level =>
      split at found
      case isTrue found' =>
        obtain rfl := Option.some.inj found
        exact ⟨level, rfl, found'⟩
      case isFalse => cases found
    case isFalse => cases found
  · rintro ⟨level, rfl, found⟩
    rw [if_pos level, if_pos found]

theorem walk_of_absent (absent : present (tables directory slot) = false) :
    walk tables directory slot index = none := by
  rw [walk, if_neg (by rw [absent]; exact Bool.false_ne_true)]

/-- A walk reads two entries. -/
theorem walk_congr (upper : after directory slot = tables directory slot)
    (lower : present (tables directory slot) = true →
      after (target (tables directory slot)) index = tables (target (tables directory slot)) index) :
    walk after directory slot index = walk tables directory slot index := by
  unfold walk
  rw [upper]
  by_cases level : present (tables directory slot) = true
  · rw [if_pos level, if_pos level, lower level]
  · rw [if_neg level, if_neg level]

/-! ## Writing to frames without a role -/

section Unlinked

variable (agree : ∀ frame, Linked tables directories frame → after frame = tables frame)

include agree

theorem walk_of_agree (member : directory ∈ directories) :
    walk after directory slot index = walk tables directory slot index := by
  refine walk_congr (by rw [agree directory (.of_directory member)]) fun level => ?_
  rw [agree _ (.of_table member level)]

theorem linked_of_agree : Linked after directories frame ↔ Linked tables directories frame := by
  refine or_congr Iff.rfl (exists_congr fun directory => and_congr_right fun member => ?_)
  rw [agree directory (.of_directory member)]

theorem Separate.of_agree (separate : Separate Shared tables directories) :
    Separate Shared after directories where
  apart directory member slot level := by
    rw [agree directory (.of_directory member)] at level ⊢
    exact separate.apart directory member slot level
  unique directory member other otherMember slot otherSlot level otherLevel same := by
    rw [agree directory (.of_directory member)] at level same
    rw [agree other (.of_directory otherMember)] at otherLevel same
    exact separate.unique directory member other otherMember slot otherSlot level otherLevel same

end Unlinked

/-! ## Writing one entry of a table -/

variable [DecidableEq Frame] [DecidableEq Index]

section Table

variable (separate : Separate Shared tables directories) (member : directory ∈ directories)
  (level : present (tables directory slot) = true)

include separate member level

/-- The directories do not change when an entry of a table does. -/
theorem set_table_directory (otherMember : other ∈ directories) :
    tables.set (target (tables directory slot)) index entry other otherSlot =
      tables other otherSlot :=
  set_of_frame_ne fun same => separate.apart directory member slot level (same ▸ otherMember)

theorem linked_set_table :
    Linked (tables.set (target (tables directory slot)) index entry) directories frame ↔
      Linked tables directories frame := by
  refine or_congr Iff.rfl (exists_congr fun other => and_congr_right fun otherMember => ?_)
  refine exists_congr fun otherSlot => ?_
  rw [set_table_directory separate member level otherMember]

theorem Separate.set_table :
    Separate Shared (tables.set (target (tables directory slot)) index entry) directories where
  apart other otherMember otherSlot otherLevel := by
    rw [set_table_directory separate member level otherMember] at otherLevel ⊢
    exact separate.apart other otherMember otherSlot otherLevel
  unique first firstMember second secondMember firstSlot secondSlot firstLevel secondLevel same := by
    rw [set_table_directory separate member level firstMember] at firstLevel same
    rw [set_table_directory separate member level secondMember] at secondLevel same
    exact separate.unique first firstMember second secondMember firstSlot secondSlot firstLevel
      secondLevel same

/-- The page of the entry is found through it. -/
theorem walk_set_self :
    walk (tables.set (target (tables directory slot)) index entry) directory slot index =
      if present entry then some entry else none := by
  have upper : tables.set (target (tables directory slot)) index entry directory slot =
      tables directory slot := set_table_directory separate member level member
  rw [walk, upper, if_pos level, set_self]

/-- Every other page of every directory is found as before. -/
theorem walk_set_of_page_ne (otherMember : other ∈ directories)
    (different : otherSlot ≠ slot ∨ otherIndex ≠ index) :
    walk (tables.set (target (tables directory slot)) index entry) other otherSlot otherIndex =
      walk tables other otherSlot otherIndex := by
  refine walk_congr (set_table_directory separate member level otherMember) fun otherLevel => ?_
  rcases different with differentSlot | differentIndex
  · refine set_of_frame_ne fun same => differentSlot ?_
    exact (separate.unique other otherMember directory member otherSlot slot otherLevel level
      same).1
  · exact set_of_index_ne differentIndex

/-- So is every page of the directories that do not share the slot. -/
theorem walk_set_of_unshared (otherMember : other ∈ directories) (different : other ≠ directory)
    (unshared : ¬ Shared slot) :
    walk (tables.set (target (tables directory slot)) index entry) other otherSlot otherIndex =
      walk tables other otherSlot otherIndex := by
  refine walk_congr (set_table_directory separate member level otherMember) fun otherLevel => ?_
  refine set_of_frame_ne fun same => ?_
  obtain ⟨sameSlot, owner⟩ := separate.unique other otherMember directory member otherSlot slot
    otherLevel level same
  exact owner.elim different (sameSlot ▸ unshared)

end Table

/-! ## Linking a new table -/

section Link

variable (separate : Separate Shared tables directories) (member : directory ∈ directories)
  (absent : present (tables directory slot) = false) (isPresent : present entry = true)
  (fresh : ¬ Linked tables directories (target entry))

include member absent isPresent in
theorem linked_link :
    Linked (tables.set directory slot entry) directories frame ↔
      Linked tables directories frame ∨ frame = target entry := by
  constructor
  · rintro (isDirectory | ⟨other, otherMember, otherSlot, level, rfl⟩)
    · exact .inl (.inl isDirectory)
    · by_cases here : other = directory ∧ otherSlot = slot
      · obtain ⟨rfl, rfl⟩ := here
        rw [set_self]
        exact .inr rfl
      · have same : tables.set directory slot entry other otherSlot = tables other otherSlot :=
          if_neg here
        rw [same] at level ⊢
        exact .inl (.of_table otherMember level)
  · rintro ((isDirectory | ⟨other, otherMember, otherSlot, level, rfl⟩) | rfl)
    · exact .inl isDirectory
    · have apart : ¬ (other = directory ∧ otherSlot = slot) := by
        rintro ⟨rfl, rfl⟩
        rw [absent] at level
        cases level
      have same : tables.set directory slot entry other otherSlot = tables other otherSlot :=
        if_neg apart
      exact .inr ⟨other, otherMember, otherSlot, by rw [same]; exact level, by rw [same]⟩
    · exact .inr ⟨directory, member, slot, by rw [set_self]; exact isPresent, by rw [set_self]⟩

include separate fresh in
theorem Separate.link : Separate Shared (tables.set directory slot entry) directories := by
  -- An old table is not the new one.
  have old : ∀ other ∈ directories, ∀ otherSlot, present (tables other otherSlot) = true →
      target (tables other otherSlot) ≠ target entry := by
    intro other otherMember otherSlot level same
    exact fresh (same ▸ .of_table otherMember level)
  constructor
  · intro other otherMember otherSlot level
    by_cases here : other = directory ∧ otherSlot = slot
    · obtain ⟨rfl, rfl⟩ := here
      rw [set_self]
      exact fun isDirectory => fresh (.inl isDirectory)
    · have same : tables.set directory slot entry other otherSlot = tables other otherSlot :=
        if_neg here
      rw [same] at level ⊢
      exact separate.apart other otherMember otherSlot level
  · intro first firstMember second secondMember firstSlot secondSlot firstLevel secondLevel equal
    by_cases firstHere : first = directory ∧ firstSlot = slot
    · by_cases secondHere : second = directory ∧ secondSlot = slot
      · exact ⟨firstHere.2.trans secondHere.2.symm, .inl (firstHere.1.trans secondHere.1.symm)⟩
      · have same : tables.set directory slot entry second secondSlot = tables second secondSlot :=
          if_neg secondHere
        obtain ⟨rfl, rfl⟩ := firstHere
        rw [set_self, same] at equal
        rw [same] at secondLevel
        exact absurd equal.symm (old second secondMember secondSlot secondLevel)
    · have firstSame : tables.set directory slot entry first firstSlot = tables first firstSlot :=
        if_neg firstHere
      rw [firstSame] at firstLevel equal
      by_cases secondHere : second = directory ∧ secondSlot = slot
      · obtain ⟨rfl, rfl⟩ := secondHere
        rw [set_self] at equal
        exact absurd equal (old first firstMember firstSlot firstLevel)
      · have secondSame : tables.set directory slot entry second secondSlot =
            tables second secondSlot := if_neg secondHere
        rw [secondSame] at secondLevel equal
        exact separate.unique first firstMember second secondMember firstSlot secondSlot firstLevel
          secondLevel equal

include separate member absent isPresent fresh in
/-- A table without present entries maps nothing. -/
theorem walk_link (empty : ∀ index, present (tables (target entry) index) = false)
    (otherMember : other ∈ directories) :
    walk (tables.set directory slot entry) other otherSlot otherIndex =
      walk tables other otherSlot otherIndex := by
  by_cases here : other = directory ∧ otherSlot = slot
  · obtain ⟨rfl, rfl⟩ := here
    have notDirectory : target entry ≠ other := fun same => fresh (same ▸ .of_directory member)
    rw [walk_of_absent absent, walk, set_self, if_pos isPresent, set_of_frame_ne notDirectory,
      if_neg (by rw [empty]; exact Bool.false_ne_true)]
  · refine walk_congr (if_neg here) fun level => ?_
    refine set_of_frame_ne fun same => ?_
    exact separate.apart other otherMember otherSlot level (same ▸ member)

end Link

/-! ## Replacing an entry of a directory -/

section Relink

variable (separate : Separate Shared tables directories) (member : directory ∈ directories)

include separate member in
/-- The pages of a slot without a table are gone; the others are found as before. -/
theorem walk_unlink (absent : present entry = false) (otherMember : other ∈ directories) :
    walk (tables.set directory slot entry) other otherSlot otherIndex =
      if other = directory ∧ otherSlot = slot then none
      else walk tables other otherSlot otherIndex := by
  by_cases here : other = directory ∧ otherSlot = slot
  · rw [if_pos here]
    obtain ⟨rfl, rfl⟩ := here
    exact walk_of_absent (by rw [set_self]; exact absent)
  · rw [if_neg here]
    refine walk_congr (if_neg here) fun level => set_of_frame_ne fun same => ?_
    exact separate.apart other otherMember otherSlot level (same ▸ member)

theorem linked_of_unlink (absent : present entry = false)
    (linked : Linked (tables.set directory slot entry) directories frame) :
    Linked tables directories frame := by
  rcases linked with isDirectory | ⟨other, otherMember, otherSlot, level, rfl⟩
  · exact .inl isDirectory
  · by_cases here : other = directory ∧ otherSlot = slot
    · obtain ⟨rfl, rfl⟩ := here
      rw [set_self, absent] at level
      cases level
    · rw [set_of_ne here] at level ⊢
      exact .of_table otherMember level

include separate in
theorem Separate.unlink (absent : present entry = false) :
    Separate Shared (tables.set directory slot entry) directories := by
  have old : ∀ {other : Frame} {otherSlot : Index},
      present (tables.set directory slot entry other otherSlot) = true →
        tables.set directory slot entry other otherSlot = tables other otherSlot := by
    intro other otherSlot level
    refine set_of_ne ?_
    rintro ⟨rfl, rfl⟩
    rw [set_self, absent] at level
    cases level
  constructor
  · intro other otherMember otherSlot level
    have isOld := old level
    rw [isOld] at level ⊢
    exact separate.apart other otherMember otherSlot level
  · intro first firstMember second secondMember firstSlot secondSlot firstLevel secondLevel same
    have isFirst := old firstLevel
    have isSecond := old secondLevel
    rw [isFirst, isSecond] at same
    rw [isFirst] at firstLevel
    rw [isSecond] at secondLevel
    exact separate.unique first firstMember second secondMember firstSlot secondSlot firstLevel
      secondLevel same

end Relink

/-! ## A further directory -/

section Adopt

variable (copied : ∀ slot, present (tables frame slot) = true →
    Shared slot ∧ tables frame slot = tables directory slot) (member : directory ∈ directories)

include copied member

omit [DecidableEq Frame] [DecidableEq Index] in
theorem linked_adopt : Linked tables (insert frame directories) other ↔
    other = frame ∨ Linked tables directories other := by
  constructor
  · rintro ((rfl | isDirectory) | ⟨owner, rfl | ownerMember, slot, level, rfl⟩)
    · exact .inl rfl
    · exact .inr (.inl isDirectory)
    · have same := (copied slot level).2
      rw [same] at level ⊢
      exact .inr (.of_table member level)
    · exact .inr (.of_table ownerMember level)
  · rintro (rfl | isDirectory | ⟨owner, ownerMember, slot, level, rfl⟩)
    · exact .inl (.inl rfl)
    · exact .inl (.inr isDirectory)
    · exact .of_table (.inr ownerMember) level

omit [DecidableEq Frame] [DecidableEq Index] in
/-- A frame without a role becomes a directory that has only tables of shared slots. -/
theorem Separate.adopt (separate : Separate Shared tables directories)
    (unlinked : ¬ Linked tables directories frame) :
    Separate Shared tables (insert frame directories) := by
  -- Its tables are tables of a directory that is there already.
  have old : ∀ owner ∈ insert frame directories, ∀ slot, present (tables owner slot) = true →
      ∃ known ∈ directories, tables owner slot = tables known slot ∧ (owner = known ∨ Shared slot) := by
    rintro owner (rfl | ownerMember) slot level
    · exact ⟨directory, member, (copied slot level).2, .inr (copied slot level).1⟩
    · exact ⟨owner, ownerMember, rfl, .inl rfl⟩
  constructor
  · intro owner ownerMember slot level
    obtain ⟨known, knownMember, same, _⟩ := old owner ownerMember slot level
    rw [same] at level ⊢
    rintro (isFrame | isDirectory)
    · exact unlinked (isFrame ▸ .of_table knownMember level)
    · exact separate.apart known knownMember slot level isDirectory
  · intro first firstMember second secondMember firstSlot secondSlot firstLevel secondLevel same
    obtain ⟨firstKnown, firstIn, firstSame, firstOwner⟩ := old first firstMember _ firstLevel
    obtain ⟨secondKnown, secondIn, secondSame, secondOwner⟩ := old second secondMember _ secondLevel
    rw [firstSame] at firstLevel same
    rw [secondSame] at secondLevel same
    obtain ⟨slots, owner⟩ := separate.unique firstKnown firstIn secondKnown secondIn firstSlot
      secondSlot firstLevel secondLevel same
    refine ⟨slots, ?_⟩
    rcases firstOwner with rfl | shared
    · rcases secondOwner with rfl | shared
      · exact owner
      · exact .inr (slots ▸ shared)
    · exact .inr shared

end Adopt

/-! ## Fewer directories -/

section Subset

variable {fewer : Set Frame} (subset : fewer ⊆ directories)

include subset

omit [DecidableEq Frame] [DecidableEq Index] in
theorem Linked.of_subset (linked : Linked tables fewer frame) : Linked tables directories frame :=
  linked.imp (fun member => subset member) fun ⟨owner, member, found⟩ =>
    ⟨owner, subset member, found⟩

omit [DecidableEq Frame] [DecidableEq Index] in
theorem Separate.of_subset (separate : Separate Shared tables directories) :
    Separate Shared tables fewer where
  apart owner member slot level isDirectory :=
    separate.apart owner (subset member) slot level (subset isDirectory)
  unique first firstMember second secondMember :=
    separate.unique first (subset firstMember) second (subset secondMember)

end Subset

end Tables

end KdbOS.Library
