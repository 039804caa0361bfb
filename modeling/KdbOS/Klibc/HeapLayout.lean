import KdbOS.Klibc.HeapBlocks

/-! The heap as a list of blocks. The calls of `kmemory.c` on memory are related here
to first fit, release and the merging pass on that list. -/

set_option autoImplicit false

namespace KdbOS.Klibc

open Library

/-- The header of a block, apart from its link. -/
structure HeaderAt (memory : Memory) (block : Block) : Prop where
  size : blockSize memory block.address = block.size
  free : blockIsFree memory block.address = block.free

/-- The list from `pointer` consists of exactly these blocks and ends in NULL. -/
def Chain (memory : Memory) : Nat → List Block → Prop
  | pointer, [] => pointer = 0
  | pointer, block :: rest =>
      pointer = block.address ∧ pointer ≠ 0 ∧ HeaderAt memory block ∧
        Chain memory (blockNext memory block.address) rest

variable {memory other : Memory} {pointer lower upper size : Nat}
variable {block : Block} {blocks front back : List Block}

/-- The bytes of one header are the same in both memories. -/
def SameHeader (memory other : Memory) (address : Nat) : Prop :=
  Memory.SameOn memory other address (address + headerSize)

theorem SameHeader.blockSize (same : SameHeader memory other pointer) :
    blockSize other pointer = blockSize memory pointer :=
  Memory.load32_congr fun at_ above below =>
    (same at_ above (by unfold headerSize; omega)).symm

theorem SameHeader.blockNext (same : SameHeader memory other pointer) :
    blockNext other pointer = blockNext memory pointer :=
  Memory.load32_congr fun at_ above below =>
    (same at_ (by omega) (by unfold headerSize; omega)).symm

theorem SameHeader.blockIsFree (same : SameHeader memory other pointer) :
    blockIsFree other pointer = blockIsFree memory pointer := by
  unfold Klibc.blockIsFree
  rw [same (pointer + 4) (by omega) (by unfold headerSize; omega)]

theorem HeaderAt.congr (header : HeaderAt memory block)
    (same : SameHeader memory other block.address) : HeaderAt other block :=
  ⟨same.blockSize.trans header.size, same.blockIsFree.trans header.free⟩

/-- A chain depends on the headers of its own blocks only. -/
theorem Chain.congr (chain : Chain memory pointer blocks)
    (same : ∀ block ∈ blocks, SameHeader memory other block.address) :
    Chain other pointer blocks := by
  induction blocks generalizing pointer with
  | nil => exact chain
  | cons block rest ih =>
      obtain ⟨isBlock, notNull, header, behind⟩ := chain
      have sameFirst := same block List.mem_cons_self
      refine ⟨isBlock, notNull, header.congr sameFirst, ?_⟩
      rw [sameFirst.blockNext]
      exact ih behind fun later member => same later (List.mem_cons_of_mem _ member)

/-- The memory determines the blocks of a chain. -/
theorem Chain.unique {others : List Block} (chain : Chain memory pointer blocks)
    (otherChain : Chain memory pointer others) : blocks = others := by
  induction blocks generalizing pointer others with
  | nil =>
      cases others with
      | nil => rfl
      | cons _ _ => exact absurd chain otherChain.2.1
  | cons block rest ih =>
      cases others with
      | nil => exact absurd otherChain chain.2.1
      | cons first others =>
          obtain ⟨isBlock, _, header, behind⟩ := chain
          obtain ⟨isFirst, _, firstHeader, firstBehind⟩ := otherChain
          have address : block.address = first.address := isBlock.symm.trans isFirst
          have same : block = first := by
            have sizes := header.size.symm.trans (address ▸ firstHeader.size)
            have frees := header.free.symm.trans (address ▸ firstHeader.free)
            cases block
            cases first
            simp_all
          rw [same, ih behind (address ▸ firstBehind)]

/-- A layout in the region keeps its own headers when only bytes of another part of
the region change. -/
theorem SameHeader.of_outside {start finish : Nat}
    (same : Memory.SameOutside memory other start finish)
    (outside : pointer + headerSize ≤ start ∨ finish ≤ pointer) :
    SameHeader memory other pointer := by
  intro at_ above below
  exact same at_ (by omega)

/-! ## Header fields after a store to a field -/

section

variable {address target value : Nat} {isFree : Bool}

theorem blockSize_setSize_self : blockSize (setSize address value memory) address = u32 value :=
  Memory.load32_store32_self ..

theorem blockSize_setSize (apart : address + 4 ≤ target ∨ target + 4 ≤ address) :
    blockSize (setSize address value memory) target = blockSize memory target :=
  Memory.load32_store32_of_disjoint apart

theorem blockSize_setIsFree (apart : address + 4 < target ∨ target ≤ address) :
    blockSize (setIsFree address isFree memory) target = blockSize memory target :=
  Memory.load32_store8_of_outside (by omega)

theorem blockSize_setNext (apart : address + 12 ≤ target ∨ target ≤ address + 4) :
    blockSize (setNext address value memory) target = blockSize memory target :=
  Memory.load32_store32_of_disjoint (by omega)

theorem blockNext_setNext_self : blockNext (setNext address value memory) address = u32 value :=
  Memory.load32_store32_self ..

theorem blockNext_setNext (apart : address + 4 ≤ target ∨ target + 4 ≤ address) :
    blockNext (setNext address value memory) target = blockNext memory target :=
  Memory.load32_store32_of_disjoint (by omega)

theorem blockNext_setSize (apart : address ≤ target + 4 ∨ target + 12 ≤ address) :
    blockNext (setSize address value memory) target = blockNext memory target :=
  Memory.load32_store32_of_disjoint (by omega)

theorem blockNext_setIsFree (apart : address < target + 4 ∨ target + 8 ≤ address) :
    blockNext (setIsFree address isFree memory) target = blockNext memory target :=
  Memory.load32_store8_of_outside (by omega)

theorem blockIsFree_setIsFree_self :
    blockIsFree (setIsFree address isFree memory) address = isFree := by
  unfold blockIsFree setIsFree
  rw [Memory.store8_self]
  cases isFree <;> rfl

theorem blockIsFree_setIsFree (different : target ≠ address) :
    blockIsFree (setIsFree address isFree memory) target = blockIsFree memory target := by
  unfold blockIsFree setIsFree
  rw [Memory.store8_of_ne (by omega)]

theorem blockIsFree_setSize (apart : address ≤ target ∨ target + 5 ≤ address) :
    blockIsFree (setSize address value memory) target = blockIsFree memory target := by
  unfold blockIsFree setSize
  rw [Memory.store32_of_outside (by omega)]

theorem blockIsFree_setNext (apart : address + 8 ≤ target ∨ target ≤ address + 3) :
    blockIsFree (setNext address value memory) target = blockIsFree memory target := by
  unfold blockIsFree setNext
  rw [Memory.store32_of_outside (by omega)]

theorem setSize_outside (away : target < address ∨ address + 12 ≤ target) :
    setSize address value memory target = memory target :=
  Memory.store32_of_outside (by omega)

theorem setIsFree_outside (away : target < address ∨ address + 12 ≤ target) :
    setIsFree address isFree memory target = memory target :=
  Memory.store8_of_ne (by omega)

theorem setNext_outside (away : target < address ∨ address + 12 ≤ target) :
    setNext address value memory target = memory target :=
  Memory.store32_of_outside (by omega)

end

/-! ## Taking a block -/

/-- Taking a block writes its own bytes only and puts the carved blocks in its place. -/
theorem takeBlock_chain (chain : Chain memory pointer (block :: back))
    (fits : Block.Fits headerSize lower (block :: back) upper) (bounded : upper < 2147483648)
    (enough : size ≤ block.size) :
    ∃ after, takeBlock size pointer memory = (block.address + headerSize, after) ∧
      Memory.SameOutside memory after block.address (block.finish headerSize) ∧
      Chain after pointer (carve size block ++ back) := by
  obtain ⟨rfl, notNull, header, behind⟩ := chain
  have inside := (fits.bounds List.mem_cons_self).2
  have sizeEq := header.size
  unfold Block.finish at inside
  unfold headerSize at inside
  have result : u32 (block.address + headerSize) = block.address + headerSize :=
    u32_of_lt (by unfold headerSize; omega)
  have wide : u32 (size + headerSize + 4) = size + 16 := u32_of_lt (by unfold headerSize; omega)
  have keeps : ∀ next ∈ back, block.finish headerSize ≤ next.address :=
    fun next member => (fits.2.bounds member).1
  by_cases split : size + 16 ≤ block.size
  · have newAddress : u32 (block.address + headerSize + size) = block.address + 12 + size :=
      u32_of_lt (by unfold headerSize; omega)
    have remaining : u32Sub (u32Sub block.size size) headerSize = block.size - size - 12 := by
      rw [u32Sub_of_le enough]
      exact u32Sub_of_le (by unfold headerSize; omega)
    set new := block.address + 12 + size with newEq
    set linked := setNext new (blockNext memory block.address)
      (setIsFree new true (setSize new (block.size - size - 12) memory)) with linkedEq
    set after := setIsFree block.address false
      (setNext block.address new (setSize block.address size linked)) with afterEq
    have outside : Memory.SameOutside memory after block.address (block.finish headerSize) := by
      intro at_ away
      unfold Block.finish headerSize at away
      simp (disch := omega) only [afterEq, linkedEq, setSize_outside, setIsFree_outside,
        setNext_outside]
    have newHeader : HeaderAt after ⟨new, block.size - size - 12, true⟩ := by
      constructor
      · simp (disch := omega) only [afterEq, linkedEq, blockSize_setIsFree, blockSize_setNext,
          blockSize_setSize, blockSize_setSize_self, u32_of_lt]
      · simp (disch := omega) only [afterEq, linkedEq, blockIsFree_setIsFree, blockIsFree_setNext,
          blockIsFree_setSize, blockIsFree_setIsFree_self]
    have oldHeader : HeaderAt after ⟨block.address, size, false⟩ := by
      constructor
      · simp (disch := omega) only [afterEq, blockSize_setIsFree, blockSize_setNext,
          blockSize_setSize_self, u32_of_lt]
      · exact blockIsFree_setIsFree_self
    have newLink : blockNext after block.address = new := by
      simp (disch := omega) only [afterEq, blockNext_setIsFree, blockNext_setNext_self, u32_of_lt]
    have oldLink : blockNext after new = blockNext memory block.address := by
      simp (disch := omega) only [afterEq, linkedEq, blockNext_setIsFree, blockNext_setNext,
        blockNext_setSize, blockNext_setNext_self]
      exact u32_of_lt (Memory.load32_lt ..)
    have oldNext : blockNext (setIsFree new true (setSize new (block.size - size - 12) memory))
        block.address = blockNext memory block.address := by
      simp (disch := omega) only [blockNext_setIsFree, blockNext_setSize]
    refine ⟨after, ?_, outside, ?_⟩
    · simp only [takeBlock, sizeEq, wide, ge_iff_le, split, ↓reduceIte, newAddress, remaining,
        oldNext, result, afterEq, linkedEq]
    · rw [carve, if_pos split]
      refine ⟨rfl, notNull, oldHeader, newLink, by rw [newLink]; omega, ?_⟩
      have carved : block.address + headerSize + size = new := rfl
      rw [carved]
      refine ⟨newHeader, ?_⟩
      rw [oldLink]
      exact behind.congr fun next member => .of_outside outside (.inr (keeps next member))
  · set after := setIsFree block.address false memory with afterEq
    have outside : Memory.SameOutside memory after block.address (block.finish headerSize) := by
      intro at_ away
      unfold Block.finish headerSize at away
      exact (setIsFree_outside (by omega)).symm
    refine ⟨after, ?_, outside, ?_⟩
    · simp only [takeBlock, sizeEq, wide, ge_iff_le, split, ↓reduceIte, result, afterEq]
    · rw [carve, if_neg split]
      refine ⟨rfl, notNull, ⟨?_, blockIsFree_setIsFree_self⟩, ?_⟩
      · rw [blockSize_setIsFree (.inr (Nat.le_refl _))]
        exact sizeEq
      · rw [blockNext_setIsFree (.inl (by simp))]
        exact behind.congr fun next member => .of_outside outside (.inr (keeps next member))

/-! ## First fit -/

private theorem suits_iff (header : HeaderAt memory block) :
    (blockIsFree memory block.address = true ∧ blockSize memory block.address ≥ size) ↔
      suits size block = true := by
  simp [suits, header.free, header.size]

/-- The search ends at the first suitable block or at the end of the list. -/
theorem kmallocLoop_spec (size : Nat) (chain : Chain memory pointer blocks)
    (fits : Block.Fits headerSize lower blocks upper) (bounded : upper < 2147483648) :
    ((∀ block ∈ blocks, suits size block = false) ∧
      ∀ fuel, blocks.length < fuel → kmallocLoop fuel size pointer memory = some (0, memory)) ∨
    ∃ front block back after, blocks = front ++ block :: back ∧ suits size block = true ∧
      (∀ earlier ∈ front, suits size earlier = false) ∧
      (∀ fuel, blocks.length < fuel →
        kmallocLoop fuel size pointer memory = some (block.address + headerSize, after)) ∧
      Memory.SameOutside memory after block.address (block.finish headerSize) ∧
      Chain after pointer (front ++ carve size block ++ back) := by
  induction blocks generalizing pointer lower with
  | nil =>
      refine .inl ⟨by simp, fun fuel enough => ?_⟩
      cases fuel with
      | zero => cases enough
      | succ fuel =>
          simp only [kmallocLoop]
          exact if_pos chain
  | cons block rest ih =>
      have whole := chain
      obtain ⟨rfl, notNull, header, behind⟩ := chain
      by_cases suitable : suits size block = true
      · have enough : size ≤ block.size := by
          simp only [suits, Bool.and_eq_true, decide_eq_true_eq] at suitable
          exact suitable.2
        obtain ⟨after, taken, outside, after_chain⟩ := takeBlock_chain whole fits bounded enough
        refine .inr ⟨[], block, rest, after, rfl, suitable, by simp, ?_, outside, after_chain⟩
        intro fuel enoughFuel
        cases fuel with
        | zero => cases enoughFuel
        | succ fuel =>
            simp only [kmallocLoop, notNull, ↓reduceIte]
            rw [if_pos ((suits_iff header).mpr suitable), taken]
      · have onward : ∀ fuel, kmallocLoop (fuel + 1) size block.address memory =
            kmallocLoop fuel size (blockNext memory block.address) memory := by
          intro fuel
          simp only [kmallocLoop, notNull, ↓reduceIte]
          exact if_neg (fun found => suitable ((suits_iff header).mp found))
        have unsuitable : suits size block = false := Bool.eq_false_iff.mpr suitable
        cases ih behind fits.2 with
        | inl none =>
            refine .inl ⟨?_, ?_⟩
            · intro other member
              cases List.mem_cons.mp member with
              | inl first => exact first ▸ unsuitable
              | inr later => exact none.1 other later
            · intro fuel enough
              cases fuel with
              | zero => cases enough
              | succ fuel =>
                  rw [onward]
                  exact none.2 fuel (Nat.lt_of_succ_lt_succ enough)
        | inr found =>
            obtain ⟨front, chosen, back, after, rfl, suitable, earlier, result, outside, afterChain⟩ :=
              found
            have chosenAbove := (fits.2.bounds (List.mem_append_right front List.mem_cons_self)).1
            have kept : SameHeader memory after block.address :=
              .of_outside outside (.inl (Nat.le_trans (Nat.le_add_right _ _) chosenAbove))
            refine .inr ⟨block :: front, chosen, back, after, rfl, suitable, ?_, ?_, outside, rfl,
              notNull, header.congr kept, ?_⟩
            · intro other member
              cases List.mem_cons.mp member with
              | inl first => exact first ▸ unsuitable
              | inr later => exact earlier other later
            · intro fuel enough
              cases fuel with
              | zero => cases enough
              | succ fuel =>
                  rw [onward]
                  exact result fuel (Nat.lt_of_succ_lt_succ enough)
            · rw [kept.blockNext]
              exact afterChain

/-! ## Release and merging -/

/-- The two stores of one merge. -/
def absorb (current : Nat) (memory : Memory) : Memory :=
  let memory' := setSize current
    (u32 (headerSize + blockSize memory (blockNext memory current))) memory
  setNext current (blockNext memory' (blockNext memory' current)) memory'

private theorem absorb_chain {next : Block} (chain : Chain memory pointer (block :: next :: back))
    (fits : Block.Fits headerSize lower (block :: next :: back) upper)
    (bounded : upper < 2147483648) :
    Chain (absorb pointer memory) pointer
        ({ block with size := headerSize + next.size } :: back) ∧
      ∀ at_, (at_ < block.address ∨ block.address + headerSize ≤ at_) →
        memory at_ = absorb pointer memory at_ := by
  obtain ⟨rfl, notNull, header, nextEq, nextNotNull, nextHeader, behind⟩ := chain
  have inside := (fits.bounds (List.mem_cons_of_mem _ List.mem_cons_self)).2
  have ordered := fits.2.1
  unfold Block.finish headerSize at inside ordered
  have sum : u32 (headerSize + next.size) = headerSize + next.size :=
    u32_of_lt (by unfold headerSize; omega)
  have stored : absorb block.address memory =
      setNext block.address (blockNext memory next.address)
        (setSize block.address (headerSize + next.size) memory) := by
    simp (disch := omega) only [absorb, nextEq, nextHeader.size, sum, blockNext_setSize]
  rw [stored]
  have same : ∀ at_, (at_ < block.address ∨ block.address + headerSize ≤ at_) →
      memory at_ = setNext block.address (blockNext memory next.address)
        (setSize block.address (headerSize + next.size) memory) at_ := by
    intro at_ away
    unfold headerSize at away
    rw [setNext_outside away, setSize_outside away]
  refine ⟨⟨rfl, notNull, ⟨?_, ?_⟩, ?_⟩, same⟩
  · simp (disch := omega) only [blockSize_setNext, blockSize_setSize_self, sum]
  · simp (disch := omega) only [blockIsFree_setNext, blockIsFree_setSize, header.free]
  · rw [blockNext_setNext_self, u32_of_lt (show blockNext memory next.address < _ from
      Memory.load32_lt ..)]
    refine behind.congr fun later member at_ above below => same at_ (.inr ?_)
    have later := (fits.2.2.bounds member).1
    unfold Block.finish at later
    unfold headerSize at later ⊢
    omega

/-- The merging pass writes into headers of the list only. -/
theorem kfreeLoop_spec (chain : Chain memory pointer (block :: blocks))
    (fits : Block.Fits headerSize lower (block :: blocks) upper) (bounded : upper < 2147483648) :
    ∃ after, (∀ fuel, blocks.length + 1 < fuel → kfreeLoop fuel pointer memory = some after) ∧
      Chain after pointer (coalesceFrom block blocks) ∧
      ∀ at_, (∀ other ∈ block :: blocks,
          at_ < other.address ∨ other.address + headerSize ≤ at_) → memory at_ = after at_ := by
  induction blocks generalizing memory pointer lower block with
  | nil =>
      obtain ⟨rfl, notNull, header, behind⟩ := chain
      refine ⟨memory, fun fuel enough => ?_, ⟨rfl, notNull, header, behind⟩, fun _ _ => rfl⟩
      cases fuel with
      | zero => cases enough
      | succ fuel =>
          simp only [kfreeLoop]
          exact if_neg fun both => both.2 behind
  | cons next rest ih =>
      have whole := chain
      obtain ⟨rfl, notNull, header, nextEq, nextNotNull, nextHeader, behind⟩ := chain
      have inside := (fits.bounds (List.mem_cons_of_mem _ List.mem_cons_self)).2
      have ordered := fits.2.1
      unfold Block.finish headerSize at inside ordered
      have onward : ∀ fuel, kfreeLoop (fuel + 1) block.address memory =
          if blockIsFree memory block.address = true ∧
              blockIsFree memory (blockNext memory block.address) = true then
            kfreeLoop fuel block.address (absorb block.address memory)
          else kfreeLoop fuel (blockNext memory block.address) memory :=
        fun fuel => if_pos ⟨notNull, nextNotNull⟩
      simp only [nextEq, header.free, nextHeader.free, ← Bool.and_eq_true] at onward
      by_cases merges : (block.free && next.free) = true
      · obtain ⟨absorbed, same⟩ := absorb_chain whole fits bounded
        have fits' : Block.Fits headerSize lower
            ({ block with size := headerSize + next.size } :: rest) upper := by
          refine ⟨fits.1, fits.2.2.weaken ?_⟩
          change block.address + 12 + (12 + next.size) ≤ next.address + 12 + next.size
          omega
        obtain ⟨after, result, afterChain, frame⟩ := ih absorbed fits'
        refine ⟨after, ?_, ?_, ?_⟩
        · intro fuel enough
          cases fuel with
          | zero => cases enough
          | succ fuel =>
              rw [onward, if_pos merges]
              exact result fuel (Nat.lt_of_succ_lt_succ enough)
        · rw [coalesceFrom, if_pos merges]
          exact afterChain
        · intro at_ away
          rw [same at_ (away block List.mem_cons_self)]
          refine frame at_ fun other member => ?_
          cases List.mem_cons.mp member with
          | inl first => exact first ▸ away block List.mem_cons_self
          | inr later =>
              exact away other (List.mem_cons_of_mem _ (List.mem_cons_of_mem _ later))
      · have nextChain : Chain memory next.address (next :: rest) :=
          ⟨rfl, nextEq ▸ nextNotNull, nextHeader, behind⟩
        obtain ⟨after, result, afterChain, frame⟩ := ih nextChain fits.2
        have kept : SameHeader memory after block.address := by
          intro at_ above below
          refine frame at_ fun other member => .inl ?_
          have later := (fits.2.bounds member).1
          unfold Block.finish at later
          omega
        refine ⟨after, ?_, ?_, ?_⟩
        · intro fuel enough
          cases fuel with
          | zero => cases enough
          | succ fuel =>
              rw [onward, if_neg merges]
              exact result fuel (Nat.lt_of_succ_lt_succ enough)
        · rw [coalesceFrom, if_neg merges]
          refine ⟨rfl, notNull, header.congr kept, ?_⟩
          rw [kept.blockNext, nextEq]
          exact afterChain
        · intro at_ away
          exact frame at_ fun other member => away other (List.mem_cons_of_mem _ member)

/-- Setting one free flag releases the block with that address. -/
private theorem setIsFree_chain {address : Nat} (chain : Chain memory pointer blocks)
    (apart : ∀ block ∈ blocks, block.address = address ∨ block.address + headerSize ≤ address ∨
      address + headerSize ≤ block.address) :
    Chain (setIsFree address true memory) pointer (release address blocks) := by
  induction blocks generalizing pointer with
  | nil => exact chain
  | cons block rest ih =>
      obtain ⟨rfl, notNull, header, behind⟩ := chain
      have later := ih behind fun other member => apart other (List.mem_cons_of_mem _ member)
      have link : blockNext (setIsFree address true memory) block.address =
          blockNext memory block.address := by
        cases apart block List.mem_cons_self with
        | inl same => exact blockNext_setIsFree (by omega)
        | inr away => exact blockNext_setIsFree (by unfold headerSize at away; omega)
      by_cases same : block.address = address
      · simp only [release, List.map_cons, same, ↓reduceIte]
        subst same
        refine ⟨rfl, notNull, ⟨?_, blockIsFree_setIsFree_self⟩, ?_⟩
        · rw [blockSize_setIsFree (.inr (Nat.le_refl _))]
          exact header.size
        · rw [link]
          exact later
      · simp only [release, List.map_cons, same, ↓reduceIte]
        have away := (apart block List.mem_cons_self).resolve_left same
        refine ⟨rfl, notNull, header.congr fun at_ above below => ?_, link ▸ later⟩
        unfold headerSize at away below
        exact (Memory.store8_of_ne (by omega)).symm

/-- `kfree` of the payload of a block on the list. -/
theorem kfree_spec (chain : Chain memory pointer blocks)
    (fits : Block.Fits headerSize lower blocks upper) (bounded : upper < 2147483648)
    (member : block ∈ blocks) :
    ∃ after, (∀ fuel, blocks.length < fuel →
        kfree fuel pointer (block.address + headerSize) memory = some after) ∧
      Chain after pointer (coalesce (release block.address blocks)) ∧
      ∀ at_, (∀ other ∈ blocks, at_ < other.address ∨ other.address + headerSize ≤ at_) →
        memory at_ = after at_ := by
  have apart : ∀ other ∈ blocks, other.address = block.address ∨
      other.address + headerSize ≤ block.address ∨ block.address + headerSize ≤ other.address := by
    intro other otherMember
    rcases fits.apart otherMember member with same | before | after
    · exact .inl (congrArg Block.address same)
    · exact .inr (.inl (Nat.le_trans (Nat.le_add_right _ _) before))
    · exact .inr (.inr (Nat.le_trans (Nat.le_add_right _ _) after))
  have released := setIsFree_chain chain apart
  have releasedFits := (release_fits block.address).mpr fits
  have base : u32Sub (block.address + headerSize) headerSize = block.address := by
    rw [u32Sub_of_le (Nat.le_add_left _ _)]
    exact Nat.add_sub_cancel _ _
  have enters : ∀ fuel, kfree fuel pointer (block.address + headerSize) memory =
      kfreeLoop fuel pointer (setIsFree block.address true memory) := by
    intro fuel
    rw [kfree, if_neg (by unfold headerSize; omega), base]
  cases shape : release block.address blocks with
  | nil =>
      rw [release, List.map_eq_nil_iff] at shape
      rw [shape] at member
      cases member
  | cons first rest =>
      rw [shape] at released releasedFits
      obtain ⟨after, result, afterChain, frame⟩ := kfreeLoop_spec released releasedFits bounded
      have lengths : rest.length + 1 = blocks.length := by
        have same := congrArg List.length shape
        simpa [release] using same.symm
      refine ⟨after, fun fuel enough => ?_, afterChain, fun at_ away => ?_⟩
      · rw [enters, result fuel (lengths ▸ enough)]
      · have flag : memory at_ = setIsFree block.address true memory at_ :=
          (setIsFree_outside (away block member)).symm
        rw [flag]
        refine frame at_ fun other otherMember => ?_
        rw [← shape, release, List.mem_map] at otherMember
        obtain ⟨original, originalMember, rfl⟩ := otherMember
        split
        · exact away original originalMember
        · exact away original originalMember

/-! ## Fuel and the initial heap -/

theorem kmallocLoop_mono {fuel more : Nat} (enough : fuel ≤ more) {result : Nat × Memory}
    (found : kmallocLoop fuel size pointer memory = some result) :
    kmallocLoop more size pointer memory = some result := by
  induction fuel generalizing pointer more with
  | zero => cases found
  | succ fuel ih =>
      cases more with
      | zero => cases enough
      | succ more =>
          simp only [kmallocLoop] at found ⊢
          split
          · next null => rwa [if_pos null] at found
          · next notNull =>
              rw [if_neg notNull] at found
              split
              · next suitable => rwa [if_pos suitable] at found
              · next unsuitable =>
                  rw [if_neg unsuitable] at found
                  exact ih (Nat.le_of_succ_le_succ enough) found

theorem kfreeLoop_mono {fuel more : Nat} (enough : fuel ≤ more) {result : Memory}
    (found : kfreeLoop fuel pointer memory = some result) :
    kfreeLoop more pointer memory = some result := by
  induction fuel generalizing pointer memory more with
  | zero => cases found
  | succ fuel ih =>
      cases more with
      | zero => cases enough
      | succ more =>
          simp only [kfreeLoop] at found ⊢
          split
          · next nonempty =>
              rw [if_pos nonempty] at found
              split
              · next both =>
                  rw [if_pos both] at found
                  exact ih (Nat.le_of_succ_le_succ enough) found
              · next notBoth =>
                  rw [if_neg notBoth] at found
                  exact ih (Nat.le_of_succ_le_succ enough) found
          · next last => rwa [if_neg last] at found

theorem kmalloc_mono {fuel more : Nat} (enough : fuel ≤ more) {result : Nat × Memory}
    (found : kmalloc fuel pointer size memory = some result) :
    kmalloc more pointer size memory = some result := by
  unfold kmalloc at found ⊢
  split
  · next zero => rwa [if_pos zero] at found
  · next nonzero =>
      rw [if_neg nonzero] at found
      exact kmallocLoop_mono enough found

theorem kfree_mono {fuel more ptr : Nat} (enough : fuel ≤ more) {result : Memory}
    (found : kfree fuel pointer ptr memory = some result) :
    kfree more pointer ptr memory = some result := by
  unfold kfree at found ⊢
  split
  · next null => rwa [if_pos null] at found
  · next notNull =>
      rw [if_neg notNull] at found
      exact kfreeLoop_mono enough found

theorem kmallocInit_chain {dynamicHeapStart : Nat} (positive : 0 < dynamicHeapStart)
    (room : dynamicHeapStart + headerSize ≤ identityMappedCieling) (memory : Memory) :
    Chain (kmallocInit dynamicHeapStart memory) dynamicHeapStart [initialBlock dynamicHeapStart] := by
  unfold headerSize identityMappedCieling at room
  have sizeEq : u32Sub (u32Sub identityMappedCieling dynamicHeapStart) headerSize =
      identityMappedCieling - dynamicHeapStart - headerSize := by
    have first : dynamicHeapStart ≤ identityMappedCieling := by
      unfold identityMappedCieling
      omega
    have second : headerSize ≤ identityMappedCieling - dynamicHeapStart := by
      unfold identityMappedCieling headerSize
      omega
    rw [u32Sub_of_le first, u32Sub_of_le second]
  have small : identityMappedCieling - dynamicHeapStart - headerSize < 4294967296 := by
    unfold identityMappedCieling headerSize
    omega
  refine ⟨rfl, Nat.pos_iff_ne_zero.mp positive, ⟨?_, ?_⟩, ?_⟩
  · simp (disch := omega) only [kmallocInit, initialBlock, sizeEq, blockSize_setNext,
      blockSize_setIsFree, blockSize_setSize_self]
    exact u32_of_lt small
  · simp (disch := omega) only [kmallocInit, initialBlock, blockIsFree_setNext,
      blockIsFree_setIsFree_self]
  · simp only [kmallocInit, initialBlock, blockNext_setNext_self]
    rfl

end KdbOS.Klibc
