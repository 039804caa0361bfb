import KdbOS.Klibc.HeapRuns

/-! Completeness of the merging pass: no state of the heap has two free neighbours. -/

set_option autoImplicit false

namespace KdbOS.Klibc

open Library

variable {heapStart : Nat} {heap before after final : Heap} {blocks blocks' : List Block}
variable {label : HeapOp} {trace : List (Transition Heap HeapOp)}

/-- The list at `heapStart` is finite and has no two free neighbours. -/
def Merged (heapStart : Nat) (memory : Memory) : Prop :=
  ∃ blocks, Chain memory heapStart blocks ∧ NoAdjacentFree blocks

/-- `kmalloc` returns, and leaves no two free neighbours. -/
def AllocatesMerged (heapStart : Nat) (memory : Memory) (size : Nat) : Prop :=
  ∃ bound ptr result, (∀ fuel, bound ≤ fuel →
      kmalloc fuel heapStart size memory = some (ptr, result)) ∧ Merged heapStart result

/-- `kfree` returns, and leaves the used blocks and the first block of every chain of free ones,
with no two free neighbours. -/
def FreesMerged (heapStart : Nat) (memory : Memory) (ptr : Nat) : Prop :=
  ∃ bound result blocks blocks', (∀ fuel, bound ≤ fuel →
      kfree fuel heapStart ptr memory = some result) ∧
    Chain memory heapStart blocks ∧ Chain result heapStart blocks' ∧ NoAdjacentFree blocks' ∧
    blocks'.map (fun block => (block.address, block.free)) =
      leaders false (release (ptr - headerSize) blocks)

/-- Carving a block from a free one or taking it whole makes no free neighbours, and what
`kfree` makes is merged. -/
theorem BlocksStep.apart (step : BlocksStep blocks label blocks') (apart : NoAdjacentFree blocks) :
    NoAdjacentFree blocks' := by
  cases step with
  | refused => exact apart
  | taken _ suitable =>
      simp only [suits, Bool.and_eq_true] at suitable
      exact apart.take suitable.1
  | freed => exact coalesce_apart _
  | written => exact apart

private theorem HeapInv.allocatesMerged (inv : HeapInv heapStart heap blocks)
    (apart : NoAdjacentFree blocks) (size : Nat) :
    AllocatesMerged heapStart heap.memory size := by
  obtain ⟨ptr, memory, blocks', result, abstract, inv', _⟩ := inv.kmalloc size
  exact ⟨blocks.length + 1, ptr, memory, fun fuel enough => result fuel enough, blocks',
    inv'.chain, abstract.apart apart⟩

private theorem HeapInv.freesMerged (inv : HeapInv heapStart heap blocks) {entry : Nat × Nat}
    (member : entry ∈ heap.live) : FreesMerged heapStart heap.memory entry.1 := by
  obtain ⟨memory, blocks', result, abstract, inv', _⟩ := inv.kfree member
  generalize labelled : HeapOp.kfree entry.1 = label at abstract
  cases abstract with
  | @freed _ block blockMember used =>
      have ptr : entry.1 = block.address + headerSize := HeapOp.kfree.inj labelled
      refine ⟨blocks.length + 1, memory, blocks, _, fun fuel enough => result fuel enough,
        inv.chain, inv'.chain, coalesce_apart _, ?_⟩
      rw [coalesce_leaders, ptr, Nat.add_sub_cancel]
  | refused => cases labelled
  | taken => cases labelled
  | written => cases labelled

/-- In every state that allocation, freeing and payload writes can lead to, no two successive
blocks are free, and this is so again after every further `kmalloc` and `kfree`, which return. -/
theorem heap_merged {memory : Memory} (positive : 0 < heapStart)
    (room : heapStart + headerSize ≤ identityMappedCieling)
    (run : HeapRun heapStart (freshHeap heapStart memory) trace final) :
    Merged heapStart final.memory ∧
    (∀ transition ∈ trace, Merged heapStart transition.before.memory ∧
      Merged heapStart transition.after.memory) ∧
    (∀ size, AllocatesMerged heapStart final.memory size) ∧
    ∀ entry ∈ final.live, FreesMerged heapStart final.memory entry.1 := by
  obtain ⟨⟨blocks, inv, apart⟩, visited⟩ := run.invariant (fun _ _ => True)
    (fun heap => ∃ blocks, HeapInv heapStart heap blocks ∧ NoAdjacentFree blocks)
    ⟨_, freshHeap_inv positive room memory, .singleton _⟩ (fun known _ step => by
      obtain ⟨blocks, inv, apart⟩ := known
      obtain ⟨blocks', abstract, inv', _⟩ := inv.step step
      exact ⟨blocks', inv', abstract.apart apart⟩) fun _ _ => trivial
  refine ⟨⟨blocks, inv.chain, apart⟩, fun transition member => ?_, inv.allocatesMerged apart,
    fun entry member => inv.freesMerged member⟩
  obtain ⟨⟨_, invBefore, apartBefore⟩, ⟨_, invAfter, apartAfter⟩, _⟩ := visited transition member
  exact ⟨⟨_, invBefore.chain, apartBefore⟩, ⟨_, invAfter.chain, apartAfter⟩⟩

/-- One block is allocated and released again. -/
theorem heap_merged_sample :
    ∃ final : Heap, final.live = [] ∧ Merged 4194304 final.memory := by
  have returned : ((kmalloc 2 4194304 8 (freshHeap 4194304 (fun _ => 0)).memory).bind
      fun first => (kfree 3 4194304 first.1 first.2).map fun _ => first.1) = some 4194316 := by
    decide
  obtain ⟨⟨ptr, memory⟩, allocated, returned⟩ := Option.bind_eq_some_iff.mp returned
  obtain ⟨memory', freed, equal⟩ := Option.map_eq_some_iff.mp returned
  obtain rfl : ptr = 4194316 := equal
  have run := (Run.start.step (HeapStep.kmalloc (by decide) allocated)).step
    (HeapStep.kfree (List.mem_cons_self) freed)
  exact ⟨_, rfl, (heap_merged (by decide) (by decide) run).1⟩

end KdbOS.Klibc
