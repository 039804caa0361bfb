import KdbOS.Memory.Pmm

/-! Which frames the allocator hands out. The reservation of `pmm_init` rounds the
end of the bitmap down, so the last page of the bitmap is safe only when it is
completely filled. -/

set_option autoImplicit false

namespace KdbOS.Pmm

open Library Ds

variable {b : Bitmap} {memory : Memory}

/-- The results of that many `pmm_allocate_frame` calls in a row. -/
def allocations (b : Bitmap) : Nat → Memory → List Nat
  | 0, _ => []
  | calls + 1, memory =>
      (pmmAllocateFrame b memory).1 :: allocations b calls (pmmAllocateFrame b memory).2

/-- The frames below `reserved` are in use. -/
def Reserved (b : Bitmap) (reserved : Nat) (memory : Memory) : Prop :=
  ∀ frame < reserved, frame < b.totalBits → bitmapTest b frame memory = true

/-- An allocation neither returns nor releases a reserved frame. -/
theorem Reserved.allocate {reserved : Nat} (inUse : Reserved b reserved memory) (fits : b.Fits)
    (addressable : b.totalBits * 4096 ≤ 4294967296) :
    ((pmmAllocateFrame b memory).1 = 0 ∨ reserved * 4096 ≤ (pmmAllocateFrame b memory).1) ∧
      Reserved b reserved (pmmAllocateFrame b memory).2 := by
  cases pmmAllocateFrame_cases b memory with
  | inl full =>
      rw [full.1]
      exact ⟨.inl rfl, inUse⟩
  | inr found =>
      obtain ⟨frame, inside, clear, _, result⟩ := found
      have above : reserved ≤ frame := by
        refine Nat.not_lt.mp fun below => ?_
        rw [inUse frame below inside] at clear
        cases clear
      have address : u32 (frame * pmmFrameSize) = frame * 4096 :=
        u32_of_lt (Nat.lt_of_lt_of_le (Nat.mul_lt_mul_of_pos_right inside (by decide)) addressable)
      rw [result, address]
      refine ⟨.inr (Nat.mul_le_mul_right _ above), fun other below otherInside => ?_⟩
      rw [bitmapTest_set fits inside, inUse other below otherInside, Bool.true_or]

theorem Reserved.allocations {reserved : Nat} (fits : b.Fits)
    (addressable : b.totalBits * 4096 ≤ 4294967296) (calls : Nat) :
    ∀ {memory : Memory}, Reserved b reserved memory →
      ∀ frame ∈ allocations b calls memory, frame = 0 ∨ reserved * 4096 ≤ frame := by
  induction calls with
  | zero =>
      intro memory _ frame member
      cases member
  | succ calls ih =>
      intro memory inUse frame member
      obtain ⟨result, after⟩ := inUse.allocate fits addressable
      cases List.mem_cons.mp member with
      | inl first => exact first ▸ result
      | inr later => exact ih after frame later

/-- The first allocation returns the lowest frame that is not reserved. -/
theorem Reserved.allocate_lowest {reserved : Nat} (inUse : Reserved b reserved memory)
    (inside : reserved < b.totalBits) (clear : bitmapTest b reserved memory = false) :
    pmmAllocateFrame b memory = (u32 (reserved * pmmFrameSize), bitmapSet b reserved memory) := by
  cases pmmAllocateFrame_cases b memory with
  | inl full =>
      rw [full.2 reserved inside] at clear
      cases clear
  | inr found =>
      obtain ⟨frame, frameInside, unused, lower, result⟩ := found
      have notAbove : frame ≤ reserved := by
        refine Nat.not_lt.mp fun above => ?_
        rw [lower reserved above] at clear
        cases clear
      have notBelow : reserved ≤ frame := by
        refine Nat.not_lt.mp fun below => ?_
        rw [inUse frame below frameInside] at unused
        cases unused
      rw [result, Nat.le_antisymm notAbove notBelow]

/-- With every frame reserved no call returns one. -/
theorem Reserved.allocations_none {reserved : Nat} (every : b.totalBits ≤ reserved) (calls : Nat) :
    Reserved b reserved memory → ∀ frame ∈ Pmm.allocations b calls memory, frame = 0 := by
  intro inUse
  induction calls with
  | zero =>
      intro frame member
      cases member
  | succ calls ih =>
      intro frame member
      cases pmmAllocateFrame_cases b memory with
      | inl none =>
          simp only [Pmm.allocations, none.1] at member
          exact (List.mem_cons.mp member).elim id (ih frame)
      | inr found =>
          obtain ⟨free, inside, clear, _⟩ := found
          rw [inUse free (Nat.lt_of_lt_of_le inside every) inside] at clear
          cases clear

/-- The bytes of a frame lie at or above `limit`. -/
def ClearOf (limit frame : Nat) : Prop :=
  ∀ address, frame ≤ address → address < frame + pmmFrameSize → limit ≤ address

/-- No frame that is ever handed out meets the bitmap or what lies below it, exactly
when the bitmap ends on a page boundary or no frame is left unreserved. -/
theorem allocations_clearOf_iff {totalRamBytes bitmapStartAddr : Nat} (memory : Memory)
    (ram : totalRamBytes < 4294967296) (low : 4096 ≤ bitmapStartAddr)
    (bounded : bitmapEnd totalRamBytes bitmapStartAddr < 4294967296) :
    (∀ calls, ∀ frame ∈ allocations (pmmInit totalRamBytes bitmapStartAddr memory).2.1 calls
        (pmmInit totalRamBytes bitmapStartAddr memory).2.2,
      frame ≠ 0 → ClearOf (pmmInit totalRamBytes bitmapStartAddr memory).1 frame) ↔
    bitmapEnd totalRamBytes bitmapStartAddr % 4096 = 0 ∨
      totalRamBytes / 4096 ≤ bitmapEnd totalRamBytes bitmapStartAddr / 4096 := by
  have fits := initBitmap_fits bounded
  have bits := pmmInit_bitmapTest ram bounded memory
  have storage : (pmmInit totalRamBytes bitmapStartAddr memory).2.1 =
      initBitmap totalRamBytes bitmapStartAddr := by rw [pmmInit_eq ram bounded]
  have limit : (pmmInit totalRamBytes bitmapStartAddr memory).1 =
      bitmapEnd totalRamBytes bitmapStartAddr := by rw [pmmInit_eq ram bounded]
  rw [storage, limit]
  set reserved := bitmapEnd totalRamBytes bitmapStartAddr / 4096 with reservedEq
  set start := (pmmInit totalRamBytes bitmapStartAddr memory).2.2
  have frames : (initBitmap totalRamBytes bitmapStartAddr).totalBits = totalRamBytes / 4096 := rfl
  have addressable : totalRamBytes / 4096 * 4096 ≤ 4294967296 := by omega
  have inUse : Reserved (initBitmap totalRamBytes bitmapStartAddr) reserved start := by
    intro frame below inside
    rw [bits]
    exact decide_eq_true ⟨below, inside⟩
  constructor
  · intro safe
    by_cases none : totalRamBytes / 4096 ≤ reserved
    · exact .inr none
    · -- The first call returns the frame that holds the end of the bitmap.
      refine .inl ?_
      have clear : bitmapTest (initBitmap totalRamBytes bitmapStartAddr) reserved start = false := by
        rw [bits]
        simp
      have first := inUse.allocate_lowest (Nat.not_le.mp none) clear
      have address : u32 (reserved * pmmFrameSize) = reserved * 4096 :=
        u32_of_lt (by unfold pmmFrameSize; omega)
      have notNull : reserved * 4096 ≠ 0 := by
        have positive : 4096 ≤ bitmapEnd totalRamBytes bitmapStartAddr :=
          Nat.le_trans low (Nat.le_add_right _ _)
        omega
      have above := safe 1 (reserved * 4096) (by simp [Pmm.allocations, first, address]) notNull
        (reserved * 4096) (Nat.le_refl _) (Nat.lt_add_of_pos_right (by decide))
      omega
  · intro condition calls frame member notNull address above _
    have atLeast := (Reserved.allocations fits addressable calls inUse frame member).resolve_left
      notNull
    cases condition with
    | inl whole => omega
    | inr full =>
        exact absurd (Reserved.allocations_none full calls inUse frame member) notNull

/-- With 128 MiB the bitmap at 4 MiB fills exactly one page. -/
theorem allocations_clearOf_iff_sample :
    bitmapEnd 134217728 4194304 % 4096 = 0 ∧
      ∀ calls, ∀ frame ∈ allocations (pmmInit 134217728 4194304 (fun _ => 0)).2.1 calls
          (pmmInit 134217728 4194304 (fun _ => 0)).2.2,
        frame ≠ 0 → ClearOf (pmmInit 134217728 4194304 (fun _ => 0)).1 frame :=
  ⟨by decide, (allocations_clearOf_iff (fun _ => 0) (by decide) (by decide) (by decide)).mpr
    (.inl (by decide))⟩

/-- With three frames and the bitmap in the second one, the first call returns the
frame that holds the bitmap. -/
theorem allocations_clearOf_fails :
    ¬ ∀ (totalRamBytes bitmapStartAddr : Nat) (memory : Memory), totalRamBytes < 4294967296 →
      bitmapStartAddr % 4 = 0 → 4096 ≤ bitmapStartAddr →
      bitmapEnd totalRamBytes bitmapStartAddr < 4294967296 →
      ∀ calls, ∀ frame ∈ allocations (pmmInit totalRamBytes bitmapStartAddr memory).2.1 calls
          (pmmInit totalRamBytes bitmapStartAddr memory).2.2,
        frame ≠ 0 → ClearOf (pmmInit totalRamBytes bitmapStartAddr memory).1 frame := by
  intro safe
  have first : allocations (pmmInit 12288 4096 (fun _ => 0)).2.1 1
      (pmmInit 12288 4096 (fun _ => 0)).2.2 = [4096] := by decide
  have above := safe 12288 4096 (fun _ => 0) (by decide) (by decide) (by decide) (by decide) 1 4096
    (by rw [first]; exact List.mem_singleton.mpr rfl) (by decide) 4096 (by decide) (by decide)
  exact absurd above (by decide)

end KdbOS.Pmm
