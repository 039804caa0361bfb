import KdbOS.Klibc.HeapRuns

/-! When the heap loses no memory. The merging pass drops the size of the block it
merges into, so the blocks tile the region exactly as long as nothing is merged. -/

set_option autoImplicit false

namespace KdbOS.Klibc

open Library

variable {heapStart : Nat} {heap before after final : Heap} {blocks blocks' : List Block}
variable {label : HeapOp} {trace : List (Transition Heap HeapOp)}

/-- The blocks on the list fill the region, and with nothing live the heap is one free
block of the initial size. -/
def Tiled (heapStart : Nat) (heap : Heap) : Prop :=
  ∃ blocks, Chain heap.memory heapStart blocks ∧
    Block.Tiles headerSize heapStart blocks identityMappedCieling ∧
    (heap.live = [] → blocks = [initialBlock heapStart])

/-- Freeing leaves no two consecutive free blocks on the list, so that nothing is
merged. Other operations are always quiet. -/
def Quiet (heapStart : Nat) (heap : Heap) : HeapOp → Prop
  | .kmalloc _ => True
  | .kfree ptr => ∀ blocks, Chain heap.memory heapStart blocks →
      NoAdjacentFree (release (ptr - headerSize) blocks)
  | .write _ _ => True

private theorem BlocksStep.positive (step : BlocksStep blocks label blocks')
    (positive : ∀ block ∈ blocks, 0 < block.size) : ∀ block ∈ blocks', 0 < block.size := by
  cases step with
  | refused => exact positive
  | @taken front back block size sizePositive _ =>
      intro other member
      simp only [List.mem_append] at member
      rcases member with (old | carved) | old
      · exact positive other (by simp [old])
      · exact carve_positive sizePositive (positive block (by simp)) other carved
      · exact positive other (by simp [old])
  | freed =>
      refine coalesce_positive fun other member => ?_
      obtain ⟨original, originalMember, rfl⟩ := List.mem_map.mp member
      split
      · exact positive original originalMember
      · exact positive original originalMember
  | written => exact positive

/-- What quiet runs maintain on the blocks. -/
structure Dense (heapStart : Nat) (blocks : List Block) : Prop where
  tiles : Block.Tiles headerSize heapStart blocks identityMappedCieling
  apart : NoAdjacentFree blocks

private theorem Dense.step (dense : Dense heapStart blocks) (step : BlocksStep blocks label blocks')
    (chain : Chain heap.memory heapStart blocks) (quiet : Quiet heapStart heap label) :
    Dense heapStart blocks' := by
  cases step with
  | refused => exact dense
  | taken _ suitable =>
      simp only [suits, Bool.and_eq_true] at suitable
      exact ⟨take_tiles dense.tiles, dense.apart.take suitable.1⟩
  | @freed _ block _ _ =>
      have apart := quiet blocks chain
      rw [Nat.add_sub_cancel] at apart
      rw [coalesce_eq_self apart]
      exact ⟨(release_tiles _).mpr dense.tiles, apart⟩
  | written => exact dense

/-- With nothing live, dense blocks are the initial block. -/
private theorem Dense.tiled (dense : Dense heapStart blocks) (inv : HeapInv heapStart heap blocks)
    (room : heapStart + headerSize < identityMappedCieling) : Tiled heapStart heap := by
  refine ⟨blocks, inv.chain, dense.tiles, fun none => ?_⟩
  have free : ∀ block ∈ blocks, block.free = true := by
    intro block member
    cases used : block.free with
    | true => rfl
    | false =>
        have owned := inv.owned block member used
        rw [none] at owned
        cases owned
  cases blocks with
  | nil =>
      have ends : heapStart = identityMappedCieling := dense.tiles
      omega
  | cons block rest =>
      obtain rfl := dense.apart.single free
      obtain ⟨starts, ends⟩ := dense.tiles
      have isFree := free block List.mem_cons_self
      simp only [Block.Tiles, Block.finish] at ends
      cases block with
      | mk address size free =>
          simp only at starts ends isFree
          subst starts isFree
          simp only [initialBlock, List.cons.injEq, and_true, Block.mk.injEq, true_and]
          omega

/-- A step between two tiled heaps merges nothing. -/
private theorem quiet_of_tiled (inv : HeapInv heapStart before blocks)
    (positive : ∀ block ∈ blocks, 0 < block.size)
    (step : HeapStep heapStart before label after)
    (tiledBefore : Tiled heapStart before) (tiledAfter : Tiled heapStart after) :
    Quiet heapStart before label := by
  obtain ⟨blocks', abstract, inv', _⟩ := inv.step step
  cases abstract with
  | refused => trivial
  | taken => trivial
  | written => trivial
  | @freed _ block member used =>
      intro others chain
      obtain rfl := chain.unique inv.chain
      rw [Nat.add_sub_cancel]
      by_contra adjacent
      obtain ⟨_, beforeChain, beforeTiles, _⟩ := tiledBefore
      obtain ⟨_, afterChain, afterTiles, _⟩ := tiledAfter
      have beforeExtent := beforeTiles.extent_eq
      have afterExtent := afterTiles.extent_eq
      rw [beforeChain.unique chain] at beforeExtent
      rw [afterChain.unique inv'.chain] at afterExtent
      have released : ∀ other ∈ release block.address others, 0 < other.size := by
        intro other otherMember
        obtain ⟨original, originalMember, rfl⟩ := List.mem_map.mp otherMember
        split
        · exact positive original originalMember
        · exact positive original originalMember
      have lost := extent_coalesce_lt released adjacent
      rw [extent_release] at lost
      omega

theorem freshHeap_dense (room : heapStart + headerSize < identityMappedCieling) :
    Dense heapStart [initialBlock heapStart] ∧
      ∀ block ∈ [initialBlock heapStart], 0 < block.size := by
  refine ⟨⟨initialBlock_tiles (Nat.le_of_lt room), .singleton _⟩, fun block member => ?_⟩
  rw [List.mem_singleton.mp member]
  unfold initialBlock
  simp only
  omega

/-- The blocks tile the region in every state of a run exactly when none of its
`kfree` calls has two free neighbours to merge. -/
theorem heap_tiled_iff {memory : Memory} (positive : 0 < heapStart)
    (room : heapStart + headerSize < identityMappedCieling)
    (run : HeapRun heapStart (freshHeap heapStart memory) trace final) :
    (Tiled heapStart final ∧ ∀ transition ∈ trace,
      Tiled heapStart transition.before ∧ Tiled heapStart transition.after) ↔
    ∀ transition ∈ trace, Quiet heapStart transition.before transition.label := by
  have fresh := freshHeap_inv positive (Nat.le_of_lt room) memory
  obtain ⟨freshDense, freshPositive⟩ := freshHeap_dense room
  constructor
  · intro tiled transition member
    obtain ⟨⟨blocks, inv, sizes⟩, _, step⟩ := (run.invariant (fun _ _ => True)
      (fun heap => ∃ blocks, HeapInv heapStart heap blocks ∧ ∀ block ∈ blocks, 0 < block.size)
      ⟨_, fresh, freshPositive⟩ (fun known _ step => by
        obtain ⟨blocks, inv, sizes⟩ := known
        obtain ⟨blocks', abstract, inv', _⟩ := inv.step step
        exact ⟨blocks', inv', abstract.positive sizes⟩)
      fun _ _ => trivial).2 transition member
    obtain ⟨tiledBefore, tiledAfter⟩ := tiled.2 transition member
    exact quiet_of_tiled inv sizes step tiledBefore tiledAfter
  · intro quiet
    obtain ⟨⟨blocks, inv, dense⟩, visited⟩ := run.invariant (Quiet heapStart)
      (fun heap => ∃ blocks, HeapInv heapStart heap blocks ∧ Dense heapStart blocks)
      ⟨_, fresh, freshDense⟩ (fun known quiet step => by
        obtain ⟨blocks, inv, dense⟩ := known
        obtain ⟨blocks', abstract, inv', _⟩ := inv.step step
        exact ⟨blocks', inv', dense.step abstract inv.chain quiet⟩) quiet
    refine ⟨dense.tiled inv room, fun transition member => ?_⟩
    obtain ⟨⟨_, invBefore, denseBefore⟩, ⟨_, invAfter, denseAfter⟩, _⟩ := visited transition member
    exact ⟨denseBefore.tiled invBefore room, denseAfter.tiled invAfter room⟩

/-- Two allocations free nothing, so the heap stays tiled. -/
theorem heap_tiled_iff_sample :
    ∃ final, final.live = [(4194336, 8), (4194316, 8)] ∧ Tiled 4194304 final := by
  have returned : ((kmalloc 2 4194304 8 (freshHeap 4194304 (fun _ => 0)).memory).bind
      fun first => (kmalloc 3 4194304 8 first.2).map fun second => (first.1, second.1)) =
        some (4194316, 4194336) := by decide
  obtain ⟨⟨first, memory⟩, allocated, returned⟩ := Option.bind_eq_some_iff.mp returned
  obtain ⟨⟨second, memory'⟩, allocated', equal⟩ := Option.map_eq_some_iff.mp returned
  obtain ⟨rfl, rfl⟩ := Prod.mk.inj equal
  have run := (Run.start.step (HeapStep.kmalloc (by decide) allocated)).step
    (HeapStep.kmalloc (by decide) allocated')
  refine ⟨_, rfl, ((heap_tiled_iff (by decide) (by decide) run).mpr ?_).1⟩
  intro transition member
  simp only [List.nil_append, List.cons_append, List.mem_cons, List.not_mem_nil,
    or_false] at member
  cases member with
  | inl first => exact first ▸ trivial
  | inr second => exact second ▸ trivial

/-- After one allocation and its release the heap has lost the bytes of that
allocation. -/
theorem heap_tiled_fails :
    ¬ ∀ heapStart memory trace final, 0 < heapStart →
      heapStart + headerSize < identityMappedCieling →
      HeapRun heapStart (freshHeap heapStart memory) trace final → Tiled heapStart final := by
  intro tiled
  have returned : ((kmalloc 2 4194304 8 (freshHeap 4194304 (fun _ => 0)).memory).bind
      fun first => (kfree 3 4194304 first.1 first.2).map fun memory =>
        (first.1, blockSize memory 4194304, blockNext memory 4194304)) =
        some (4194316, 4194283, 0) := by decide
  obtain ⟨⟨ptr, memory⟩, allocated, returned⟩ := Option.bind_eq_some_iff.mp returned
  obtain ⟨memory', freed, equal⟩ := Option.map_eq_some_iff.mp returned
  simp only [Prod.mk.injEq] at equal
  obtain ⟨rfl, size, next⟩ := equal
  have run := (Run.start.step (HeapStep.kmalloc (by decide) allocated)).step
    (HeapStep.kfree (List.mem_cons_self) freed)
  obtain ⟨blocks, chain, tiles, _⟩ := tiled _ _ _ _ (by decide) (by decide) run
  cases blocks with
  | nil => cases chain
  | cons block rest =>
      obtain ⟨address, _, header, behind⟩ := chain
      rw [← address] at behind
      have sizeEq := header.size
      rw [← address] at sizeEq
      have last : rest = [] := by
        cases rest with
        | nil => rfl
        | cons _ _ => exact absurd next behind.2.1
      subst last
      obtain ⟨starts, ends⟩ := tiles
      simp only [Block.Tiles, Block.finish] at ends
      have small : block.size = 4194283 := sizeEq.symm.trans size
      unfold headerSize identityMappedCieling at ends
      omega

end KdbOS.Klibc
