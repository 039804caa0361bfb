import KdbOS.Library.Runs
import KdbOS.Memory.Pmm
import Mathlib.Order.Bounds.Defs

/-! Histories of the frame allocator. Callers allocate frames, free frames that they
hold, and write to memory outside the bitmap; the bits are then the set of frames
that are reserved or outstanding. -/

set_option autoImplicit false

namespace KdbOS.Pmm

open Library Ds

/-- The memory, with the frames that were handed out and not freed since. -/
structure FrameUse where
  memory : Memory
  outstanding : List Nat

inductive PmmOp where
  | pmmAllocateFrame (returned : Nat)
  | pmmFreeFrame (framePhysicalAddr : Nat)
  | store (address : Nat) (byte : UInt8)

/-- The address lies outside the storage of the bitmap. -/
def Foreign (b : Bitmap) (address : Nat) : Prop :=
  address < b.storage ∨ b.storage + 4 * b.words ≤ address

inductive PmmStep (b : Bitmap) : FrameUse → PmmOp → FrameUse → Prop where
  | pmmAllocateFrame {use : FrameUse} {returned : Nat} {memory : Memory} :
      pmmAllocateFrame b use.memory = (returned, memory) →
      PmmStep b use (.pmmAllocateFrame returned)
        ⟨memory, if returned = 0 then use.outstanding else returned :: use.outstanding⟩
  | pmmFreeFrame {use : FrameUse} {framePhysicalAddr : Nat} :
      framePhysicalAddr ∈ use.outstanding →
      PmmStep b use (.pmmFreeFrame framePhysicalAddr)
        ⟨pmmFreeFrame b framePhysicalAddr use.memory, use.outstanding.erase framePhysicalAddr⟩
  | store {use : FrameUse} {address : Nat} {byte : UInt8} :
      Foreign b address →
      PmmStep b use (.store address byte) ⟨use.memory.store8 address byte, use.outstanding⟩

abbrev PmmRun (b : Bitmap) := Run (PmmStep b)

/-! ## The allocator as a set of frames -/

/-- A whole frame below the end of RAM. -/
def Managed (totalRamBytes frame : Nat) : Prop :=
  frame % pmmFrameSize = 0 ∧ frame / pmmFrameSize < totalRamBytes / pmmFrameSize

/-- `pmm_init` left the bit of the frame set. -/
def ReservedFrame (b : Bitmap) (initial : Memory) (frame : Nat) : Prop :=
  bitmapTest b (frame / pmmFrameSize) initial = true

/-- The frame is managed and its bit is clear. -/
def Available (totalRamBytes : Nat) (b : Bitmap) (memory : Memory) (frame : Nat) : Prop :=
  Managed totalRamBytes frame ∧ bitmapTest b (frame / pmmFrameSize) memory = false

/-- What an operation has to do to the set of frames. -/
def FrameSetSpec (totalRamBytes : Nat) (b : Bitmap) (initial : Memory)
    (before : FrameUse) (op : PmmOp) (after : FrameUse) : Prop :=
  match op with
  | .pmmAllocateFrame returned =>
      (returned ≠ 0 → IsLeast {frame | frame % pmmFrameSize = 0 ∧ frame < totalRamBytes ∧
        ¬ ReservedFrame b initial frame ∧ frame ∉ before.outstanding} returned) ∧
      (returned = 0 ↔ ∀ frame, Managed totalRamBytes frame →
        ReservedFrame b initial frame ∨ frame ∈ before.outstanding)
  | .pmmFreeFrame freed =>
      ¬ Available totalRamBytes b before.memory freed ∧
      ∀ frame, Available totalRamBytes b after.memory frame ↔
        Available totalRamBytes b before.memory frame ∨ frame = freed
  | .store _ _ => after.outstanding = before.outstanding

/-- The bits are the reserved and the outstanding frames, and these are apart. -/
structure FrameUseInv (totalRamBytes : Nat) (b : Bitmap) (initial : Memory) (use : FrameUse) :
    Prop where
  bits : ∀ frame, Managed totalRamBytes frame →
    (bitmapTest b (frame / pmmFrameSize) use.memory = true ↔
      ReservedFrame b initial frame ∨ frame ∈ use.outstanding)
  managed : ∀ frame ∈ use.outstanding, Managed totalRamBytes frame
  unreserved : ∀ frame ∈ use.outstanding, ¬ ReservedFrame b initial frame
  nodup : use.outstanding.Nodup

variable {b : Bitmap} {memory initial : Memory} {totalRamBytes bitmapStartAddr frame other : Nat}
variable {use before after final : FrameUse} {op : PmmOp}
variable {trace : List (Transition FrameUse PmmOp)}

theorem Managed.eq_mul (managed : Managed totalRamBytes frame) :
    frame = frame / pmmFrameSize * pmmFrameSize :=
  (Nat.div_mul_cancel (Nat.dvd_of_mod_eq_zero managed.1)).symm

/-- Managed frames are told apart by their indices. -/
theorem Managed.index_eq_iff (managed : Managed totalRamBytes frame)
    (otherManaged : Managed totalRamBytes other) :
    frame / pmmFrameSize = other / pmmFrameSize ↔ frame = other := by
  constructor
  · intro same
    rw [managed.eq_mul, same, ← otherManaged.eq_mul]
  · intro same
    rw [same]

theorem managed_mul {index : Nat} (inside : index < totalRamBytes / pmmFrameSize) :
    Managed totalRamBytes (index * pmmFrameSize) :=
  ⟨Nat.mul_mod_left _ _, by rwa [Nat.mul_div_cancel _ (by decide)]⟩

/-- The allocator for a RAM size: the bitmap has one bit for each managed frame. -/
structure Covers (b : Bitmap) (totalRamBytes : Nat) : Prop where
  ram : totalRamBytes < 4294967296
  bits : b.totalBits = totalRamBytes / pmmFrameSize
  fits : b.Fits

theorem Covers.inside (covers : Covers b totalRamBytes) (managed : Managed totalRamBytes frame) :
    frame / pmmFrameSize < b.totalBits :=
  covers.bits ▸ managed.2

/-- The address of a frame does not wrap around. -/
theorem Covers.address {index : Nat} (covers : Covers b totalRamBytes)
    (inside : index < b.totalBits) : u32 (index * pmmFrameSize) = index * pmmFrameSize := by
  have ram := covers.ram
  have bits := covers.bits
  unfold pmmFrameSize at *
  exact u32_of_lt (by omega)

/-- A store outside the storage changes no bit. -/
theorem bitmapTest_foreign {address bit : Nat} {byte : UInt8} (fits : b.Fits)
    (foreign : Foreign b address) :
    bitmapTest b bit (memory.store8 address byte) = bitmapTest b bit memory := by
  by_cases inside : bit < b.totalBits
  · have word := b.index_lt inside
    rw [bitmapTest_eq inside, bitmapTest_eq inside, fits.wordAddress word,
      Memory.load32_store8_of_outside]
    unfold Foreign at foreign
    omega
  · rw [bitmapTest_of_le (Nat.not_lt.mp inside), bitmapTest_of_le (Nat.not_lt.mp inside)]

/-! ## The steps -/

/-- An allocation returns a frame that was neither reserved nor outstanding, below which
there is none. -/
theorem FrameUseInv.allocate (inv : FrameUseInv totalRamBytes b initial use)
    (covers : Covers b totalRamBytes) (zero : 0 < b.totalBits → ReservedFrame b initial 0)
    {returned : Nat} (result : pmmAllocateFrame b use.memory = (returned, memory)) :
    FrameSetSpec totalRamBytes b initial use (.pmmAllocateFrame returned)
        ⟨memory, if returned = 0 then use.outstanding else returned :: use.outstanding⟩ ∧
      FrameUseInv totalRamBytes b initial
        ⟨memory, if returned = 0 then use.outstanding else returned :: use.outstanding⟩ := by
  cases pmmAllocateFrame_cases b use.memory with
  | inl full =>
      obtain ⟨rfl, rfl⟩ := Prod.mk.inj (full.1.symm.trans result)
      refine ⟨⟨fun notNull => absurd rfl notNull, ?_⟩, ?_⟩
      · refine iff_of_true rfl fun frame managed => ?_
        exact (inv.bits frame managed).mp (full.2 _ (covers.inside managed))
      · rw [if_pos rfl]
        exact inv
  | inr found =>
      obtain ⟨index, inside, clear, lower, allocated⟩ := found
      rw [allocated, covers.address inside] at result
      obtain ⟨rfl, rfl⟩ := Prod.mk.inj result
      have indexEq : index * pmmFrameSize / pmmFrameSize = index :=
        Nat.mul_div_cancel _ (by decide)
      have managed : Managed totalRamBytes (index * pmmFrameSize) :=
        managed_mul (covers.bits ▸ inside)
      have free : ¬ (ReservedFrame b initial (index * pmmFrameSize) ∨
          index * pmmFrameSize ∈ use.outstanding) := by
        rw [← inv.bits _ managed, indexEq, clear]
        exact Bool.false_ne_true
      have notNull : index * pmmFrameSize ≠ 0 := by
        intro null
        rw [null] at free
        exact free (.inl (zero (Nat.zero_lt_of_lt inside)))
      rw [if_neg notNull]
      refine ⟨⟨fun _ => ⟨⟨managed.1, ?_, fun reserved => free (.inl reserved),
        fun member => free (.inr member)⟩, ?_⟩, ?_⟩, ?_, ?_, ?_, ?_⟩
      · have below := managed.2
        rw [indexEq] at below
        exact Nat.lt_of_lt_of_le (Nat.mul_lt_mul_of_pos_right below (by decide))
          (Nat.div_mul_le_self _ _)
      · -- Every lower frame has its bit set.
        rintro frame ⟨aligned, _, unreserved, unheld⟩
        refine Nat.not_lt.mp fun below => ?_
        have frameEq : frame = frame / pmmFrameSize * pmmFrameSize :=
          (Nat.div_mul_cancel (Nat.dvd_of_mod_eq_zero aligned)).symm
        have lowerIndex : frame / pmmFrameSize < index := by
          rw [frameEq] at below
          exact Nat.lt_of_mul_lt_mul_right below
        have frameManaged : Managed totalRamBytes frame :=
          ⟨aligned, Nat.lt_trans lowerIndex (covers.bits ▸ inside)⟩
        cases (inv.bits frame frameManaged).mp (lower _ lowerIndex) with
        | inl reserved => exact unreserved reserved
        | inr held => exact unheld held
      · exact iff_of_false notNull fun every => free (every _ managed)
      · intro frame frameManaged
        rw [bitmapTest_set covers.fits inside, Bool.or_eq_true, inv.bits frame frameManaged,
          decide_eq_true_eq, List.mem_cons, or_assoc]
        have same := managed.index_eq_iff frameManaged
        rw [indexEq] at same
        rw [same, eq_comm, or_comm (a := frame = _)]
      · intro frame member
        cases List.mem_cons.mp member with
        | inl first => exact first ▸ managed
        | inr held => exact inv.managed frame held
      · intro frame member
        cases List.mem_cons.mp member with
        | inl first => exact first ▸ fun reserved => free (.inl reserved)
        | inr held => exact inv.unreserved frame held
      · exact List.nodup_cons.mpr ⟨fun held => free (.inr held), inv.nodup⟩

/-- Freeing an outstanding frame makes exactly this frame available. -/
theorem FrameUseInv.free (inv : FrameUseInv totalRamBytes b initial use)
    (covers : Covers b totalRamBytes) {freed : Nat} (held : freed ∈ use.outstanding) :
    FrameSetSpec totalRamBytes b initial use (.pmmFreeFrame freed)
        ⟨pmmFreeFrame b freed use.memory, use.outstanding.erase freed⟩ ∧
      FrameUseInv totalRamBytes b initial
        ⟨pmmFreeFrame b freed use.memory, use.outstanding.erase freed⟩ := by
  have managed := inv.managed freed held
  have unreserved := inv.unreserved freed held
  have set := (inv.bits freed managed).mpr (.inr held)
  have bits : ∀ frame, bitmapTest b (frame / pmmFrameSize) (pmmFreeFrame b freed use.memory) =
      (bitmapTest b (frame / pmmFrameSize) use.memory &&
        !decide (freed / pmmFrameSize = frame / pmmFrameSize)) :=
    fun frame => bitmapTest_clear covers.fits (covers.inside managed) _
  refine ⟨⟨fun available => ?_, fun frame => ?_⟩, ?_, ?_, ?_, ?_⟩
  · rw [available.2] at set
    cases set
  · constructor
    · rintro ⟨frameManaged, clear⟩
      rw [bits, Bool.and_eq_false_iff, Bool.not_eq_false', decide_eq_true_eq,
        managed.index_eq_iff frameManaged] at clear
      exact clear.imp (⟨frameManaged, ·⟩) Eq.symm
    · intro available
      cases available with
      | inl available => exact ⟨available.1, by rw [bits, available.2, Bool.false_and]⟩
      | inr same =>
          subst same
          exact ⟨managed, by simp [bits]⟩
  · intro frame frameManaged
    rw [bits, Bool.and_eq_true, inv.bits frame frameManaged, Bool.not_eq_true',
      decide_eq_false_iff_not, managed.index_eq_iff frameManaged,
      inv.nodup.mem_erase_iff]
    constructor
    · rintro ⟨reserved | member, different⟩
      · exact .inl reserved
      · exact .inr ⟨Ne.symm different, member⟩
    · rintro (reserved | ⟨different, member⟩)
      · exact ⟨.inl reserved, fun same => unreserved (same ▸ reserved)⟩
      · exact ⟨.inr member, Ne.symm different⟩
  · exact fun frame member => inv.managed frame (List.mem_of_mem_erase member)
  · exact fun frame member => inv.unreserved frame (List.mem_of_mem_erase member)
  · exact inv.nodup.erase freed

theorem FrameUseInv.store (inv : FrameUseInv totalRamBytes b initial use)
    (covers : Covers b totalRamBytes) {address : Nat} {byte : UInt8} (foreign : Foreign b address) :
    FrameUseInv totalRamBytes b initial ⟨use.memory.store8 address byte, use.outstanding⟩ := by
  refine ⟨fun frame managed => ?_, inv.managed, inv.unreserved, inv.nodup⟩
  rw [bitmapTest_foreign covers.fits foreign]
  exact inv.bits frame managed

theorem FrameUseInv.step (inv : FrameUseInv totalRamBytes b initial before)
    (covers : Covers b totalRamBytes) (zero : 0 < b.totalBits → ReservedFrame b initial 0)
    (step : PmmStep b before op after) :
    FrameSetSpec totalRamBytes b initial before op after ∧
      FrameUseInv totalRamBytes b initial after := by
  cases step with
  | pmmAllocateFrame result => exact inv.allocate covers zero result
  | pmmFreeFrame held => exact inv.free covers held
  | store foreign => exact ⟨rfl, inv.store covers foreign⟩

/-! ## Runs from `pmm_init` -/

theorem initBitmap_covers (ram : totalRamBytes < 4294967296)
    (bounded : bitmapEnd totalRamBytes bitmapStartAddr < 4294967296) :
    Covers (initBitmap totalRamBytes bitmapStartAddr) totalRamBytes :=
  ⟨ram, rfl, initBitmap_fits bounded⟩

/-- Frame 0 is reserved, so that no frame has the address that stands for failure. -/
theorem pmmInit_zero_reserved (memory : Memory) (ram : totalRamBytes < 4294967296) (low : 4096 ≤ bitmapStartAddr)
    (bounded : bitmapEnd totalRamBytes bitmapStartAddr < 4294967296)
    (some : 0 < (initBitmap totalRamBytes bitmapStartAddr).totalBits) :
    ReservedFrame (initBitmap totalRamBytes bitmapStartAddr)
      (pmmInit totalRamBytes bitmapStartAddr memory).2.2 0 := by
  have positive : 4096 ≤ bitmapEnd totalRamBytes bitmapStartAddr :=
    Nat.le_trans low (Nat.le_add_right _ _)
  rw [ReservedFrame, Nat.zero_div, pmmInit_bitmapTest ram bounded]
  exact decide_eq_true ⟨Nat.div_pos positive (by decide), some⟩

theorem pmmInit_inv :
    FrameUseInv totalRamBytes (initBitmap totalRamBytes bitmapStartAddr)
      (pmmInit totalRamBytes bitmapStartAddr memory).2.2
      ⟨(pmmInit totalRamBytes bitmapStartAddr memory).2.2, []⟩ where
  bits _ _ := by simp [ReservedFrame]
  managed := by simp
  unreserved := by simp
  nodup := List.nodup_nil

/-- Over every history the allocator is a set of frames: an allocation returns the lowest
one that is left, fails exactly when none is, and a frame is outstanding at most once. -/
theorem pmm_refines_frame_set (memory : Memory) (ram : totalRamBytes < 4294967296)
    (low : 4096 ≤ bitmapStartAddr)
    (bounded : bitmapEnd totalRamBytes bitmapStartAddr < 4294967296)
    (run : PmmRun (pmmInit totalRamBytes bitmapStartAddr memory).2.1
      ⟨(pmmInit totalRamBytes bitmapStartAddr memory).2.2, []⟩ trace final) :
    FrameUseInv totalRamBytes (pmmInit totalRamBytes bitmapStartAddr memory).2.1
        (pmmInit totalRamBytes bitmapStartAddr memory).2.2 final ∧
      ∀ transition ∈ trace,
        FrameUseInv totalRamBytes (pmmInit totalRamBytes bitmapStartAddr memory).2.1
          (pmmInit totalRamBytes bitmapStartAddr memory).2.2 transition.before ∧
        FrameSetSpec totalRamBytes (pmmInit totalRamBytes bitmapStartAddr memory).2.1
          (pmmInit totalRamBytes bitmapStartAddr memory).2.2
          transition.before transition.label transition.after := by
  have storage : (pmmInit totalRamBytes bitmapStartAddr memory).2.1 =
      initBitmap totalRamBytes bitmapStartAddr := by rw [pmmInit_eq ram bounded]
  rw [storage] at run ⊢
  have covers := initBitmap_covers ram bounded
  have zero := pmmInit_zero_reserved memory ram low bounded
  obtain ⟨last, every⟩ := run.invariant (fun _ _ => True)
    (FrameUseInv totalRamBytes (initBitmap totalRamBytes bitmapStartAddr)
      (pmmInit totalRamBytes bitmapStartAddr memory).2.2)
    pmmInit_inv (fun inv _ step => (inv.step covers zero step).2) fun _ _ => trivial
  refine ⟨last, fun transition member => ?_⟩
  obtain ⟨inv, _, step⟩ := every transition member
  exact ⟨inv, (inv.step covers zero step).1⟩

/-- Four frames, with a bitmap that ends where the third one starts: that one comes first. -/
theorem pmm_refines_frame_set_sample :
    FrameSetSpec 16384 (pmmInit 16384 8188 (fun _ => 0)).2.1 (pmmInit 16384 8188 (fun _ => 0)).2.2
      ⟨(pmmInit 16384 8188 (fun _ => 0)).2.2, []⟩ (.pmmAllocateFrame 8192)
      ⟨(pmmAllocateFrame (pmmInit 16384 8188 (fun _ => 0)).2.1
        (pmmInit 16384 8188 (fun _ => 0)).2.2).2, [8192]⟩ := by
  have allocated : (pmmAllocateFrame (pmmInit 16384 8188 (fun _ => 0)).2.1
      (pmmInit 16384 8188 (fun _ => 0)).2.2).1 = 8192 := by decide
  have run : PmmRun (pmmInit 16384 8188 (fun _ => 0)).2.1
      ⟨(pmmInit 16384 8188 (fun _ => 0)).2.2, []⟩ _ _ :=
    Run.step Run.start (PmmStep.pmmAllocateFrame (Prod.ext allocated rfl))
  exact ((pmm_refines_frame_set (fun _ => 0) (by decide) (by decide) (by decide) run).2 _
    (List.mem_singleton.mpr rfl)).2

end KdbOS.Pmm
