import KdbOS.Klibc.Kmemory
import KdbOS.Library.Blocks
import Mathlib.Data.List.Chain

/-! The heap as an abstract list of blocks: first fit, release and the merging pass
of `kfree`, and what they do to the layout. -/

set_option autoImplicit false

namespace KdbOS.Klibc

open Library

variable {lower upper size : Nat} {block : Block} {blocks front back : List Block}

/-- The block that `kmalloc` looks for. -/
def suits (size : Nat) (block : Block) : Bool := block.free && decide (size ≤ block.size)

/-- The blocks that a chosen block is replaced by. -/
def carve (size : Nat) (block : Block) : List Block :=
  if size + 16 ≤ block.size then
    [⟨block.address, size, false⟩,
      ⟨block.address + headerSize + size, block.size - size - headerSize, true⟩]
  else [{ block with free := false }]

/-- The merging pass of `kfree` from `block` on. The size of a merged block is what
the source computes: the one of its first part is dropped. -/
def coalesceFrom (block : Block) : List Block → List Block
  | [] => [block]
  | next :: rest =>
      if block.free && next.free then
        coalesceFrom { block with size := headerSize + next.size } rest
      else block :: coalesceFrom next rest

def coalesce : List Block → List Block
  | [] => []
  | block :: rest => coalesceFrom block rest

/-- Marks the block at `address` as free. -/
def release (address : Nat) (blocks : List Block) : List Block :=
  blocks.map fun block => if block.address = address then { block with free := true } else block

/-- The one block of a fresh heap. -/
def initialBlock (dynamicHeapStart : Nat) : Block :=
  ⟨dynamicHeapStart, identityMappedCieling - dynamicHeapStart - headerSize, true⟩

/-- No two consecutive blocks of the list are free. -/
def NoAdjacentFree (blocks : List Block) : Prop :=
  blocks.IsChain fun left right => (left.free && right.free) = false

/-! ## Layout -/

theorem initialBlock_tiles {dynamicHeapStart : Nat}
    (room : dynamicHeapStart + headerSize ≤ identityMappedCieling) :
    Block.Tiles headerSize dynamicHeapStart [initialBlock dynamicHeapStart]
      identityMappedCieling := by
  refine ⟨rfl, ?_⟩
  simp only [initialBlock, Block.Tiles, Block.finish]
  omega

theorem release_fits (address : Nat) :
    Block.Fits headerSize lower (release address blocks) upper ↔
      Block.Fits headerSize lower blocks upper := by
  induction blocks generalizing lower with
  | nil => exact Iff.rfl
  | cons block rest ih =>
      simp only [release, List.map_cons, Block.Fits]
      split
      · exact and_congr Iff.rfl ih
      · exact and_congr Iff.rfl ih

theorem carve_tiles (size : Nat) (block : Block) :
    Block.Tiles headerSize block.address (carve size block) (block.finish headerSize) := by
  unfold carve
  split
  · next split =>
      refine ⟨rfl, rfl, ?_⟩
      simp only [Block.finish, Block.Tiles]
      unfold headerSize
      omega
  · exact ⟨rfl, rfl⟩

theorem take_fits (fits : Block.Fits headerSize lower (front ++ block :: back) upper) :
    Block.Fits headerSize lower (front ++ carve size block ++ back) upper := by
  obtain ⟨middle, before, above, after⟩ := Block.fits_append.mp fits
  rw [List.append_assoc]
  refine Block.fits_append.mpr ⟨middle, before, Block.fits_append.mpr ⟨_, ?_, after⟩⟩
  exact (carve_tiles size block).fits.weaken above

theorem take_tiles (tiles : Block.Tiles headerSize lower (front ++ block :: back) upper) :
    Block.Tiles headerSize lower (front ++ carve size block ++ back) upper := by
  obtain ⟨middle, before, same, after⟩ := Block.tiles_append.mp tiles
  rw [List.append_assoc]
  refine Block.tiles_append.mpr ⟨middle, before, Block.tiles_append.mpr ⟨_, ?_, after⟩⟩
  exact same ▸ carve_tiles size block

theorem release_tiles (address : Nat) :
    Block.Tiles headerSize lower (release address blocks) upper ↔
      Block.Tiles headerSize lower blocks upper := by
  induction blocks generalizing lower with
  | nil => exact Iff.rfl
  | cons block rest ih =>
      simp only [release, List.map_cons, Block.Tiles]
      split
      · exact and_congr Iff.rfl ih
      · exact and_congr Iff.rfl ih

theorem coalesceFrom_fits (fits : Block.Fits headerSize lower (block :: blocks) upper) :
    Block.Fits headerSize lower (coalesceFrom block blocks) upper := by
  induction blocks generalizing lower block with
  | nil => exact fits
  | cons next rest ih =>
      unfold coalesceFrom
      split
      · refine ih ⟨fits.1, fits.2.2.weaken ?_⟩
        have ordered := fits.2.1
        unfold Block.finish at ordered ⊢
        dsimp only
        omega
      · exact ⟨fits.1, ih fits.2⟩

theorem coalesce_fits (fits : Block.Fits headerSize lower blocks upper) :
    Block.Fits headerSize lower (coalesce blocks) upper := by
  cases blocks with
  | nil => exact fits
  | cons block rest => exact coalesceFrom_fits fits

/-! ## Used blocks -/

/-- The merging pass keeps every used block as it is. -/
theorem mem_coalesceFrom_of_used {other : Block} (member : other ∈ block :: blocks)
    (used : other.free = false) : other ∈ coalesceFrom block blocks := by
  induction blocks generalizing block with
  | nil => exact member
  | cons next rest ih =>
      unfold coalesceFrom
      split
      · next both =>
          rw [Bool.and_eq_true] at both
          refine ih ?_
          rcases List.mem_cons.mp member with first | later
          · rw [← first, used] at both
            cases both.1
          · rcases List.mem_cons.mp later with second | later
            · rw [← second, used] at both
              cases both.2
            · exact List.mem_cons_of_mem _ later
      · cases List.mem_cons.mp member with
        | inl first => exact first ▸ List.mem_cons_self
        | inr later => exact List.mem_cons_of_mem _ (ih later)

theorem mem_coalesce_of_used {other : Block} (member : other ∈ blocks) (used : other.free = false) :
    other ∈ coalesce blocks := by
  cases blocks with
  | nil => cases member
  | cons block rest => exact mem_coalesceFrom_of_used member used

theorem mem_release_of_ne {other : Block} {address : Nat} (member : other ∈ blocks)
    (different : other.address ≠ address) : other ∈ release address blocks :=
  List.mem_map.mpr ⟨other, member, if_neg different⟩

/-- A used block left by the merging pass was there before. -/
theorem mem_of_mem_coalesceFrom {other : Block} (member : other ∈ coalesceFrom block blocks)
    (used : other.free = false) : other ∈ block :: blocks := by
  induction blocks generalizing block with
  | nil => exact member
  | cons next rest ih =>
      unfold coalesceFrom at member
      split at member
      · next both =>
          rw [Bool.and_eq_true] at both
          cases List.mem_cons.mp (ih member) with
          | inl merged =>
              rw [merged] at used
              exact absurd (both.1.symm.trans used) (by decide)
          | inr later => exact List.mem_cons_of_mem _ (List.mem_cons_of_mem _ later)
      · cases List.mem_cons.mp member with
        | inl first => exact first ▸ List.mem_cons_self
        | inr later => exact List.mem_cons_of_mem _ (ih later)

theorem mem_of_mem_coalesce {other : Block} (member : other ∈ coalesce blocks)
    (used : other.free = false) : other ∈ blocks := by
  cases blocks with
  | nil => cases member
  | cons block rest => exact mem_of_mem_coalesceFrom member used

theorem mem_of_mem_release {other : Block} {address : Nat} (member : other ∈ release address blocks)
    (used : other.free = false) : other ∈ blocks ∧ other.address ≠ address := by
  obtain ⟨original, originalMember, same⟩ := List.mem_map.mp member
  split at same
  · rw [← same] at used
    cases used
  · next different => exact same ▸ ⟨originalMember, different⟩

/-! ## Sizes and neighbours -/

theorem carve_positive (positive : 0 < size) (blockPositive : 0 < block.size) :
    ∀ other ∈ carve size block, 0 < other.size := by
  intro other member
  unfold carve at member
  split at member
  · next split =>
      cases List.mem_cons.mp member with
      | inl first => exact first ▸ positive
      | inr rest =>
          rw [List.mem_singleton.mp rest]
          simp only
          unfold headerSize
          omega
  · rw [List.mem_singleton.mp member]
    exact blockPositive

theorem coalesceFrom_positive (positive : ∀ other ∈ block :: blocks, 0 < other.size) :
    ∀ other ∈ coalesceFrom block blocks, 0 < other.size := by
  induction blocks generalizing block with
  | nil => exact positive
  | cons next rest ih =>
      intro other member
      unfold coalesceFrom at member
      split at member
      · refine ih ?_ other member
        intro inner innerMember
        cases List.mem_cons.mp innerMember with
        | inl merged =>
            rw [merged]
            simp only
            unfold headerSize
            omega
        | inr later =>
            exact positive inner (List.mem_cons_of_mem _ (List.mem_cons_of_mem _ later))
      · cases List.mem_cons.mp member with
        | inl first => exact positive other (first ▸ List.mem_cons_self)
        | inr later =>
            exact ih (fun inner inside => positive inner (List.mem_cons_of_mem _ inside)) other later

theorem coalesce_positive (positive : ∀ other ∈ blocks, 0 < other.size) :
    ∀ other ∈ coalesce blocks, 0 < other.size := by
  cases blocks with
  | nil => exact positive
  | cons block rest => exact coalesceFrom_positive positive

/-- Taking a free block leaves no two free neighbours. -/
theorem NoAdjacentFree.take (apart : NoAdjacentFree (front ++ block :: back))
    (free : block.free = true) : NoAdjacentFree (front ++ carve size block ++ back) := by
  rw [List.append_assoc]
  obtain ⟨before, self, joined⟩ := List.isChain_append.mp apart
  have carved : NoAdjacentFree (carve size block ++ back) := by
    unfold carve
    split
    · cases back with
      | nil => exact .cons_cons rfl (.singleton _)
      | cons next rest =>
          obtain ⟨notBoth, later⟩ := List.isChain_cons_cons.mp self
          rw [free] at notBoth
          exact .cons_cons rfl (.cons_cons notBoth later)
    · cases back with
      | nil => exact .singleton _
      | cons next rest => exact .cons_cons rfl (List.isChain_cons_cons.mp self).2
  refine List.isChain_append.mpr ⟨before, carved, fun left leftLast right rightHead => ?_⟩
  have used : right.free = false := by
    unfold carve at rightHead
    split at rightHead <;> simp at rightHead <;> rw [← rightHead]
  rw [used, Bool.and_false]

/-- Neighbours in a list of free blocks only are both free. -/
theorem NoAdjacentFree.single (apart : NoAdjacentFree (block :: blocks))
    (free : ∀ other ∈ block :: blocks, other.free = true) : blocks = [] := by
  cases blocks with
  | nil => rfl
  | cons next rest =>
      have both := (List.isChain_cons_cons.mp apart).1
      rw [free block (by simp), free next (by simp)] at both
      cases both

private theorem coalesceFrom_head (block : Block) (blocks : List Block) :
    ∃ size rest, coalesceFrom block blocks = { block with size := size } :: rest := by
  induction blocks generalizing block with
  | nil => exact ⟨block.size, [], rfl⟩
  | cons next rest ih =>
      unfold coalesceFrom
      split
      · exact ih { block with size := headerSize + next.size }
      · exact ⟨block.size, _, rfl⟩

/-- One pass is enough: a merged block is compared with the next one again. -/
theorem coalesceFrom_apart (block : Block) (blocks : List Block) :
    NoAdjacentFree (coalesceFrom block blocks) := by
  induction blocks generalizing block with
  | nil => exact .singleton _
  | cons next rest ih =>
      unfold coalesceFrom
      split
      · exact ih _
      · next notBoth =>
          have behind := ih next
          obtain ⟨size, tail, shape⟩ := coalesceFrom_head next rest
          rw [shape] at behind ⊢
          exact .cons_cons (Bool.eq_false_iff.mpr notBoth) behind

theorem coalesce_apart (blocks : List Block) : NoAdjacentFree (coalesce blocks) := by
  cases blocks with
  | nil => exact .nil
  | cons block rest => exact coalesceFrom_apart block rest

/-- Addresses and flags of the blocks that do not follow a free block while being free; `merging`
says whether the block before is free. -/
def leaders (merging : Bool) : List Block → List (Nat × Bool)
  | [] => []
  | block :: rest =>
      if merging && block.free then leaders true rest
      else (block.address, block.free) :: leaders block.free rest

theorem coalesceFrom_leaders (block : Block) (blocks : List Block) :
    (coalesceFrom block blocks).map (fun other => (other.address, other.free)) =
      (block.address, block.free) :: leaders block.free blocks := by
  induction blocks generalizing block with
  | nil => rfl
  | cons next rest ih =>
      unfold coalesceFrom leaders
      split
      · next both =>
          have free : block.free = true := (Bool.and_eq_true _ _ ▸ both).1
          rw [ih, free]
      · rw [List.map_cons, ih]

/-- Of every chain of free blocks the first is left, and every used block. -/
theorem coalesce_leaders (blocks : List Block) :
    (coalesce blocks).map (fun other => (other.address, other.free)) = leaders false blocks := by
  cases blocks with
  | nil => rfl
  | cons block rest => exact coalesceFrom_leaders block rest

/-! ## Lost bytes -/

theorem extent_release (address : Nat) (blocks : List Block) :
    Block.extent headerSize (release address blocks) = Block.extent headerSize blocks := by
  unfold Block.extent release
  rw [List.map_map]
  congr 1
  refine List.map_congr_left fun block _ => ?_
  simp only [Function.comp]
  split <;> rfl

theorem coalesceFrom_eq_self (apart : NoAdjacentFree (block :: blocks)) :
    coalesceFrom block blocks = block :: blocks := by
  induction blocks generalizing block with
  | nil => rfl
  | cons next rest ih =>
      obtain ⟨first, rest⟩ := List.isChain_cons_cons.mp apart
      rw [coalesceFrom, if_neg (by simp [first]), ih rest]

theorem coalesce_eq_self (apart : NoAdjacentFree blocks) : coalesce blocks = blocks := by
  cases blocks with
  | nil => rfl
  | cons block rest => exact coalesceFrom_eq_self apart

private theorem extent_coalesceFrom_le :
    Block.extent headerSize (coalesceFrom block blocks) ≤
      Block.extent headerSize (block :: blocks) := by
  induction blocks generalizing block with
  | nil => exact Nat.le_refl _
  | cons next rest ih =>
      unfold coalesceFrom
      split
      · refine Nat.le_trans ih ?_
        simp only [Block.extent, List.map_cons, List.sum_cons]
        omega
      · have tail := @ih next
        simp only [Block.extent, List.map_cons, List.sum_cons] at tail ⊢
        omega

/-- A merge loses the size of its first part. -/
private theorem extent_coalesceFrom_lt (positive : ∀ other ∈ block :: blocks, 0 < other.size)
    (adjacent : ¬ NoAdjacentFree (block :: blocks)) :
    Block.extent headerSize (coalesceFrom block blocks) <
      Block.extent headerSize (block :: blocks) := by
  induction blocks generalizing block with
  | nil => exact absurd (List.IsChain.singleton _) adjacent
  | cons next rest ih =>
      unfold coalesceFrom
      split
      · refine Nat.lt_of_le_of_lt extent_coalesceFrom_le ?_
        have lost := positive block List.mem_cons_self
        simp only [Block.extent, List.map_cons, List.sum_cons]
        omega
      · next notBoth =>
          have later : ¬ NoAdjacentFree (next :: rest) := fun chain =>
            adjacent (List.isChain_cons_cons.mpr ⟨Bool.eq_false_iff.mpr notBoth, chain⟩)
          have tail := ih (fun other member => positive other (List.mem_cons_of_mem _ member)) later
          simp only [Block.extent, List.map_cons, List.sum_cons] at tail ⊢
          omega

theorem extent_coalesce_lt (positive : ∀ other ∈ blocks, 0 < other.size)
    (adjacent : ¬ NoAdjacentFree blocks) :
    Block.extent headerSize (coalesce blocks) < Block.extent headerSize blocks := by
  cases blocks with
  | nil => exact absurd .nil adjacent
  | cons block rest => exact extent_coalesceFrom_lt positive adjacent

end KdbOS.Klibc
