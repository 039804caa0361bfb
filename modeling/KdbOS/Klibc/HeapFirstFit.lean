import KdbOS.Klibc.HeapCoalescing

/-! Which block `kmalloc` takes, and what is left of the heap once everything has been freed:
one block, which every further allocation makes smaller for good. -/

set_option autoImplicit false

namespace KdbOS.Klibc

open Library

variable {heapStart size remaining : Nat} {heap final : Heap} {blocks : List Block}
variable {memory : Memory} {trace : List (Transition Heap HeapOp)}

/-! ## First fit -/

/-- The first block of the list that is free and large enough is taken, cut to the size when
it is large enough for another one; without such a block nothing changes. -/
def TakesFirst (heapStart size : Nat) (memory : Memory) (blocks : List Block) (ptr : Nat)
    (after : Memory) : Prop :=
  (blocks.find? (suits size) = none ∧ ptr = 0 ∧ after = memory) ∨
    ∃ front block back, blocks = front ++ block :: back ∧
      blocks.find? (suits size) = some block ∧ ptr = block.address + headerSize ∧
      Chain after heapStart (front ++ carve size block ++ back) ∧
      Memory.SameOutside memory after block.address (block.finish headerSize)

theorem HeapInv.takesFirst (inv : HeapInv heapStart heap blocks) (positive : 0 < size) :
    ∃ ptr after, (∀ fuel, blocks.length < fuel →
        Klibc.kmalloc fuel heapStart size heap.memory = some (ptr, after)) ∧
      TakesFirst heapStart size heap.memory blocks ptr after := by
  have enters : ∀ fuel, Klibc.kmalloc fuel heapStart size heap.memory =
      kmallocLoop fuel size heapStart heap.memory := fun fuel => if_neg (Nat.ne_of_gt positive)
  simp only [enters]
  cases kmallocLoop_spec size inv.chain inv.fits (by decide : identityMappedCieling < 2147483648) with
  | inl none =>
      refine ⟨0, heap.memory, none.2, .inl ⟨?_, rfl, rfl⟩⟩
      rw [List.find?_eq_none]
      intro block member suitable
      rw [none.1 block member] at suitable
      cases suitable
  | inr found =>
      obtain ⟨front, block, back, after, rfl, suitable, earlier, result, outside, chain⟩ := found
      refine ⟨_, after, result, .inr ⟨front, block, back, rfl, ?_, rfl, chain, outside⟩⟩
      have skipped : front.find? (suits size) = none := by
        rw [List.find?_eq_none]
        intro other member isSuitable
        rw [earlier other member] at isSuitable
        cases isSuitable
      rw [List.find?_append, skipped, Option.none_or, List.find?_cons_of_pos suitable]

theorem TakesFirst.null_iff {ptr : Nat} {after : Memory}
    (takes : TakesFirst heapStart size memory blocks ptr after) :
    ptr = 0 ↔ ∀ block ∈ blocks, block.free = true → block.size < size := by
  rcases takes with ⟨none, isNull, _⟩ | ⟨front, block, back, _, found, isPointer, _⟩
  · refine iff_of_true isNull fun block member free => ?_
    have unsuited := List.find?_eq_none.mp none block member
    simp only [suits, free, Bool.true_and, decide_eq_true_eq] at unsuited
    omega
  · have member := List.mem_of_find?_eq_some found
    have suitable := List.find?_some found
    simp only [suits, Bool.and_eq_true, decide_eq_true_eq] at suitable
    refine iff_of_false (by unfold headerSize at isPointer; omega) fun small => ?_
    exact absurd (small block member suitable.1) (Nat.not_lt.mpr suitable.2)

/-- The heap after a run is a list of blocks, no two of them free side by side. -/
theorem reached_blocks (positive : 0 < heapStart)
    (room : heapStart + headerSize ≤ identityMappedCieling)
    (run : HeapRun heapStart (freshHeap heapStart memory) trace final) :
    ∃ blocks, HeapInv heapStart final blocks ∧ NoAdjacentFree blocks :=
  (run.invariant (fun _ _ => True)
    (fun heap => ∃ blocks, HeapInv heapStart heap blocks ∧ NoAdjacentFree blocks)
    ⟨_, freshHeap_inv positive room memory, .singleton _⟩ (fun known _ step => by
      obtain ⟨blocks, inv, apart⟩ := known
      obtain ⟨blocks', abstract, inv', _⟩ := inv.step step
      exact ⟨blocks', inv', abstract.apart apart⟩) fun _ _ => trivial).1

/-- In every state that allocation, freeing and payload writes can lead to, `kmalloc` takes
the first free block that is large enough, and returns NULL only where there is none. -/
theorem kmalloc_firstFit (positive : 0 < heapStart)
    (room : heapStart + headerSize ≤ identityMappedCieling)
    (run : HeapRun heapStart (freshHeap heapStart memory) trace final) :
    ∃ blocks, Chain final.memory heapStart blocks ∧
      blocks.Pairwise (fun left right => left.finish headerSize ≤ right.address) ∧
      ∀ size, 0 < size → ∃ ptr after, (∀ fuel, blocks.length < fuel →
          kmalloc fuel heapStart size final.memory = some (ptr, after)) ∧
        TakesFirst heapStart size final.memory blocks ptr after ∧
        (ptr = 0 ↔ ∀ block ∈ blocks, block.free = true → block.size < size) := by
  obtain ⟨blocks, inv, _⟩ := reached_blocks positive room run
  refine ⟨blocks, inv.chain, inv.fits.ordered, fun size notZero => ?_⟩
  obtain ⟨ptr, after, result, takes⟩ := inv.takesFirst notZero
  exact ⟨ptr, after, result, takes, takes.null_iff⟩

/-- A heap that starts at 4 MiB. -/
theorem kmalloc_firstFit_sample :
    ∃ blocks, Chain (freshHeap 4194304 (fun _ => 0)).memory 4194304 blocks ∧
      blocks.Pairwise (fun left right => left.finish headerSize ≤ right.address) ∧
      ∀ size, 0 < size → ∃ ptr after, (∀ fuel, blocks.length < fuel →
          kmalloc fuel 4194304 size (freshHeap 4194304 (fun _ => 0)).memory = some (ptr, after)) ∧
        TakesFirst 4194304 size (freshHeap 4194304 (fun _ => 0)).memory blocks ptr after ∧
        (ptr = 0 ↔ ∀ block ∈ blocks, block.free = true → block.size < size) :=
  kmalloc_firstFit (by decide) (by decide) .start

/-! ## The heap when everything has been freed -/

/-- One free block in front. -/
def wholeBlock (heapStart remaining : Nat) : Block := ⟨heapStart, remaining, true⟩

theorem HeapInv.emptied (inv : HeapInv heapStart heap blocks) (apart : NoAdjacentFree blocks)
    (positive : 0 < heapStart) (released : heap.live = []) :
    ∃ remaining, blocks = [wholeBlock heapStart remaining] := by
  have free : ∀ block ∈ blocks, block.free = true := by
    intro block member
    by_contra used
    have owner := inv.owned block member (Bool.eq_false_iff.mpr used)
    rw [released] at owner
    cases owner
  have chain := inv.chain
  cases blocks with
  | nil => exact absurd chain (Nat.ne_of_gt positive)
  | cons block rest =>
      cases rest with
      | nil =>
          refine ⟨block.size, ?_⟩
          rw [wholeBlock, chain.1, ← free block List.mem_cons_self]
      | cons next rest =>
          have pair := List.isChain_cons_cons.mp apart
          have first := free block (by simp)
          have second := free next (by simp)
          rw [first, second] at pair
          cases pair.1

/-- What an allocation and its release leave of one free block. -/
def worn (size remaining : Nat) : Nat :=
  if size + 16 ≤ remaining then remaining - size else remaining

theorem coalesce_release_carve (heapStart : Nat) (size remaining : Nat) :
    coalesce (release heapStart (carve size (wholeBlock heapStart remaining))) =
      [wholeBlock heapStart (worn size remaining)] := by
  unfold carve worn wholeBlock
  by_cases split : size + 16 ≤ remaining
  · have other : heapStart + headerSize + size ≠ heapStart := by
      unfold headerSize
      omega
    have size : headerSize + (remaining - size - headerSize) = remaining - size := by
      unfold headerSize
      omega
    simp [split, release, coalesce, coalesceFrom, other, size]
  · simp [split, release, coalesce, coalesceFrom]

/-- An allocation from one free block, and its release. -/
theorem HeapInv.round (inv : HeapInv heapStart heap [wholeBlock heapStart remaining])
    (positive : 0 < heapStart) (released : heap.live = []) (notZero : 0 < size)
    (fits : size ≤ remaining) :
    ∃ taken freed, HeapStep heapStart heap (.kmalloc size) ⟨taken, [(heapStart + 12, size)]⟩ ∧
      HeapStep heapStart ⟨taken, [(heapStart + 12, size)]⟩ (.kfree (heapStart + 12)) ⟨freed, []⟩ ∧
      HeapInv heapStart ⟨freed, []⟩ [wholeBlock heapStart (worn size remaining)] := by
  have small : size < 4294967296 := by
    have inside := inv.fits.2
    unfold wholeBlock Block.finish Block.Fits identityMappedCieling at inside
    dsimp only at inside
    omega
  obtain ⟨ptr, taken, result, takes⟩ := inv.takesFirst notZero
  have suitable : suits size (wholeBlock heapStart remaining) = true := by
    simp [suits, wholeBlock, fits]
  rcases takes with ⟨none, _⟩ | ⟨front, block, back, shape, found, isPointer, chain, _⟩
  · rw [List.find?_cons_of_pos suitable] at none
    cases none
  rw [List.find?_cons_of_pos suitable] at found
  obtain rfl := Option.some.inj found
  obtain ⟨rfl, rfl⟩ : front = [] ∧ back = [] := by
    have lengths := congrArg List.length shape
    simp only [List.length_append, List.length_cons, List.length_nil] at lengths
    exact ⟨List.eq_nil_of_length_eq_zero (by omega), List.eq_nil_of_length_eq_zero (by omega)⟩
  have pointer : ptr = heapStart + 12 := isPointer
  subst pointer
  have allocates : HeapStep heapStart heap (.kmalloc size) ⟨taken, [(heapStart + 12, size)]⟩ := by
    have step := HeapStep.kmalloc small (result 2 (by simp))
    rw [if_neg (by omega), released] at step
    exact step
  obtain ⟨carved, _, carvedInv, _⟩ := inv.step allocates
  obtain rfl := chain.unique carvedInv.chain
  rw [List.nil_append, List.append_nil] at carvedInv
  have live : (heapStart + 12, size) ∈ [(heapStart + 12, size)] := List.mem_singleton.mpr rfl
  obtain ⟨freed, merged, freeing, _, mergedInv, _⟩ := carvedInv.kfree live
  have frees := HeapStep.kfree live (freeing _ (Nat.lt_succ_self _))
  have none : [(heapStart + 12, size)].filter (fun entry => entry.1 ≠ heapStart + 12) = [] := by
    simp
  rw [none] at frees
  have others : [(heapStart + 12, size)].filter (fun other =>
      other.1 ≠ (heapStart + 12, size).1) = [] := none
  rw [others] at mergedInv
  refine ⟨taken, freed, allocates, frees, ?_⟩
  obtain ⟨head, isHead, address, used, _⟩ := carvedInv.owner _ live
  obtain ⟨after, again, afterChain, _⟩ := kfree_spec carvedInv.chain carvedInv.fits
    (by decide : identityMappedCieling < 2147483648) isHead
  have isStart : head.address = heapStart := Nat.add_right_cancel address
  have same : freed = after := by
    have second := again _ (Nat.lt_succ_self _)
    rw [isStart] at second
    exact Option.some.inj ((freeing _ (Nat.lt_succ_self _)).symm.trans second)
  rw [isStart, coalesce_release_carve, ← same] at afterChain
  rw [afterChain.unique mergedInv.chain]
  exact mergedInv

/-- The calls of so many rounds. -/
def roundCalls (heapStart size rounds : Nat) : List HeapOp :=
  (List.replicate rounds [HeapOp.kmalloc size, HeapOp.kfree (heapStart + 12)]).flatten

theorem roundCalls_succ (heapStart size rounds : Nat) :
    roundCalls heapStart size (rounds + 1) =
      roundCalls heapStart size rounds ++ [.kmalloc size, .kfree (heapStart + 12)] := by
  rw [roundCalls, List.replicate_succ', List.flatten_append]
  rfl

/-- By induction on the rounds, each of which loses `size` bytes. -/
theorem HeapInv.rounds {start : Heap} (run : HeapRun heapStart start trace heap)
    (inv : HeapInv heapStart heap [wholeBlock heapStart remaining])
    (positive : 0 < heapStart) (released : heap.live = []) (notZero : 0 < size) (rounds : Nat)
    (enough : size * rounds + 16 ≤ remaining) :
    ∃ later last, HeapRun heapStart start (trace ++ later) last ∧
      later.map Transition.label = roundCalls heapStart size rounds ∧ last.live = [] ∧
      HeapInv heapStart last [wholeBlock heapStart (remaining - size * rounds)] := by
  induction rounds with
  | zero => exact ⟨[], heap, by rwa [List.append_nil], rfl, released, inv⟩
  | succ rounds ih =>
      rw [Nat.mul_succ] at enough ⊢
      obtain ⟨later, last, earlier, calls, empty, reached⟩ := ih (by omega)
      obtain ⟨taken, freed, allocates, frees, wornInv⟩ :=
        reached.round positive empty notZero (by omega : size ≤ remaining - size * rounds)
      refine ⟨later ++ [⟨last, .kmalloc size, ⟨taken, [(heapStart + 12, size)]⟩⟩,
        ⟨⟨taken, [(heapStart + 12, size)]⟩, .kfree (heapStart + 12), ⟨freed, []⟩⟩],
        ⟨freed, []⟩, ?_, ?_, rfl, ?_⟩
      · have both := (earlier.step allocates).step frees
        rw [List.append_assoc, List.append_assoc] at both
        exact both
      · rw [List.map_append, calls, roundCalls_succ]
        rfl
      · have split : worn size (remaining - size * rounds) =
            remaining - (size * rounds + size) := by
          rw [worn, if_pos (by omega)]
          omega
        rw [← split]
        exact wornInv

/-- Whenever nothing is allocated, the heap is one free block. Every further allocation of
`size` bytes and its release make that block `size` bytes smaller, until it is too small for
another one beside it, so that in the end larger requests fail on an empty heap. -/
theorem heap_wears (positive : 0 < heapStart)
    (room : heapStart + headerSize ≤ identityMappedCieling)
    (run : HeapRun heapStart (freshHeap heapStart memory) trace final)
    (released : final.live = []) :
    ∃ remaining, Chain final.memory heapStart [wholeBlock heapStart remaining] ∧
      ∀ size rounds, 0 < size → size * rounds + 16 ≤ remaining →
        ∃ later last, HeapRun heapStart (freshHeap heapStart memory) (trace ++ later) last ∧
          later.map Transition.label = roundCalls heapStart size rounds ∧ last.live = [] ∧
          ∀ request, 0 < request → ∃ ptr after,
            (∀ fuel, 1 < fuel → kmalloc fuel heapStart request last.memory = some (ptr, after)) ∧
            (ptr = 0 ↔ remaining - size * rounds < request) := by
  obtain ⟨blocks, inv, apart⟩ := reached_blocks positive room run
  obtain ⟨remaining, rfl⟩ := inv.emptied apart positive released
  refine ⟨remaining, inv.chain, fun size rounds notZero enough => ?_⟩
  obtain ⟨later, last, continued, calls, empty, wornInv⟩ :=
    inv.rounds run positive released notZero rounds enough
  refine ⟨later, last, continued, calls, empty, fun request wanted => ?_⟩
  obtain ⟨ptr, after, result, takes⟩ := wornInv.takesFirst wanted
  refine ⟨ptr, after, result, takes.null_iff.trans ?_⟩
  simp [wholeBlock]

/-- A heap of 40 bytes. -/
theorem heap_wears_sample :
    ∃ remaining, Chain (freshHeap 8388555 (fun _ => 0)).memory 8388555
        [wholeBlock 8388555 remaining] ∧
      ∀ size rounds, 0 < size → size * rounds + 16 ≤ remaining →
        ∃ later last, HeapRun 8388555 (freshHeap 8388555 (fun _ => 0)) ([] ++ later) last ∧
          later.map Transition.label = roundCalls 8388555 size rounds ∧ last.live = [] ∧
          ∀ request, 0 < request → ∃ ptr after,
            (∀ fuel, 1 < fuel → kmalloc fuel 8388555 request last.memory = some (ptr, after)) ∧
            (ptr = 0 ↔ remaining - size * rounds < request) :=
  heap_wears (by decide) (by decide) .start rfl

end KdbOS.Klibc
