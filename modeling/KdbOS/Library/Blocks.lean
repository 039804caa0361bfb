import Mathlib.Algebra.GroupWithZero.Nat
import Mathlib.Tactic.Common
import Mathlib.Data.List.Pairwise

/-! Blocks laid out in a region of addresses. Every block starts with a header of
fixed length, and its payload follows. -/

set_option autoImplicit false

namespace KdbOS.Library

structure Block where
  address : Nat
  size : Nat
  free : Bool
  deriving DecidableEq, Repr

namespace Block

variable (header : Nat)

/-- The first address behind the payload. -/
def finish (block : Block) : Nat :=
  block.address + header + block.size

/-- The blocks lie in order between `lower` and `upper`, possibly with gaps. -/
def Fits : Nat → List Block → Nat → Prop
  | lower, [], upper => lower ≤ upper
  | lower, block :: rest, upper =>
      lower ≤ block.address ∧ Fits (block.finish header) rest upper

/-- The blocks fill the region from `lower` to `upper` without a gap. -/
def Tiles : Nat → List Block → Nat → Prop
  | lower, [], upper => lower = upper
  | lower, block :: rest, upper =>
      lower = block.address ∧ Tiles (block.finish header) rest upper

/-- The bytes that the headers and payloads take together. -/
def extent (blocks : List Block) : Nat :=
  (blocks.map fun block => header + block.size).sum

variable {header} {lower upper : Nat} {blocks front back : List Block} {block : Block}

theorem Tiles.fits (tiles : Tiles header lower blocks upper) : Fits header lower blocks upper := by
  induction blocks generalizing lower with
  | nil => exact Nat.le_of_eq tiles
  | cons block rest ih => exact ⟨Nat.le_of_eq tiles.1, ih tiles.2⟩

theorem Tiles.extent_eq (tiles : Tiles header lower blocks upper) :
    lower + extent header blocks = upper := by
  induction blocks generalizing lower with
  | nil => exact tiles
  | cons block rest ih =>
      have rest := ih tiles.2
      have first := tiles.1
      simp only [extent, finish, List.map_cons, List.sum_cons] at rest ⊢
      omega

theorem Fits.le (fits : Fits header lower blocks upper) : lower ≤ upper := by
  induction blocks generalizing lower with
  | nil => exact fits
  | cons block rest ih =>
      have rest := ih fits.2
      have first := fits.1
      unfold finish at rest
      omega

theorem Fits.weaken (fits : Fits header lower blocks upper) {other : Nat} (below : other ≤ lower) :
    Fits header other blocks upper := by
  cases blocks with
  | nil => exact Nat.le_trans below fits
  | cons block rest => exact ⟨Nat.le_trans below fits.1, fits.2⟩

theorem fits_append :
    Fits header lower (front ++ back) upper ↔
      ∃ middle, Fits header lower front middle ∧ Fits header middle back upper := by
  induction front generalizing lower with
  | nil =>
      constructor
      · intro fits
        exact ⟨lower, Nat.le_refl _, fits⟩
      · intro parts
        obtain ⟨middle, below, fits⟩ := parts
        exact fits.weaken below
  | cons block rest ih =>
      simp only [List.cons_append, Fits, ih]
      constructor
      · intro parts
        obtain ⟨first, middle, fits, behind⟩ := parts
        exact ⟨middle, ⟨first, fits⟩, behind⟩
      · intro parts
        obtain ⟨middle, ⟨first, fits⟩, behind⟩ := parts
        exact ⟨first, middle, fits, behind⟩

theorem tiles_append :
    Tiles header lower (front ++ back) upper ↔
      ∃ middle, Tiles header lower front middle ∧ Tiles header middle back upper := by
  induction front generalizing lower with
  | nil => simp [Tiles]
  | cons block rest ih => simp [Tiles, ih, and_assoc]

theorem Fits.bounds (fits : Fits header lower blocks upper) (member : block ∈ blocks) :
    lower ≤ block.address ∧ block.finish header ≤ upper := by
  obtain ⟨front, back, rfl⟩ := List.append_of_mem member
  obtain ⟨middle, before, after⟩ := fits_append.mp fits
  exact ⟨Nat.le_trans before.le after.1, after.2.le⟩

/-- Every block ends before each later one starts. -/
theorem Fits.ordered (fits : Fits header lower blocks upper) :
    blocks.Pairwise fun left right => left.finish header ≤ right.address := by
  induction blocks generalizing lower with
  | nil => exact List.Pairwise.nil
  | cons block rest ih =>
      exact List.pairwise_cons.mpr ⟨fun later member => (fits.2.bounds member).1, ih fits.2⟩

/-- Two blocks of a layout are one or do not meet. -/
theorem Fits.apart (fits : Fits header lower blocks upper) {other : Block}
    (member : block ∈ blocks) (otherMember : other ∈ blocks) :
    block = other ∨ block.finish header ≤ other.address ∨ other.finish header ≤ block.address := by
  induction blocks generalizing lower with
  | nil => cases member
  | cons first rest ih =>
      cases List.mem_cons.mp member with
      | inl isFirst =>
          cases List.mem_cons.mp otherMember with
          | inl otherFirst => exact .inl (isFirst.trans otherFirst.symm)
          | inr otherLater => exact .inr (.inl (isFirst ▸ (fits.2.bounds otherLater).1))
      | inr later =>
          cases List.mem_cons.mp otherMember with
          | inl otherFirst => exact .inr (.inr (otherFirst ▸ (fits.2.bounds later).1))
          | inr otherLater => exact ih fits.2 later otherLater

/-- With a header that takes space, the address identifies a block of a layout. -/
theorem Fits.unique (fits : Fits header lower blocks upper) (positive : 0 < header) {other : Block}
    (member : block ∈ blocks) (otherMember : other ∈ blocks)
    (same : block.address = other.address) : block = other := by
  rcases fits.apart member otherMember with equal | before | after
  · exact equal
  · unfold finish at before
    omega
  · unfold finish at after
    omega

end Block

end KdbOS.Library
