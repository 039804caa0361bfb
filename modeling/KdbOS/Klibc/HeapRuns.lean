import KdbOS.Klibc.HeapLayout
import KdbOS.Library.Runs
import Mathlib.Data.Set.Lattice
import Mathlib.Order.CompletePartialOrder
import Mathlib.Order.Interval.Set.Disjoint

/-! Runs of the kernel heap from `kmalloc_init`. Callers allocate, free pointers
they hold, and write to the payloads they hold, in any order. -/

set_option autoImplicit false

namespace KdbOS.Klibc

open Library

/-- Memory, with the live pointers and the sizes they were requested with. -/
structure Heap where
  memory : Memory
  live : List (Nat × Nat)

inductive HeapOp where
  | kmalloc (size : Nat)
  | kfree (ptr : Nat)
  | write (address : Nat) (byte : UInt8)

inductive HeapStep (heapStart : Nat) : Heap → HeapOp → Heap → Prop where
  | kmalloc {heap : Heap} {fuel size ptr : Nat} {memory : Memory} :
      size < 4294967296 → kmalloc fuel heapStart size heap.memory = some (ptr, memory) →
      HeapStep heapStart heap (.kmalloc size)
        ⟨memory, if ptr = 0 then heap.live else (ptr, size) :: heap.live⟩
  | kfree {heap : Heap} {fuel ptr size : Nat} {memory : Memory} :
      (ptr, size) ∈ heap.live → kfree fuel heapStart ptr heap.memory = some memory →
      HeapStep heapStart heap (.kfree ptr)
        ⟨memory, heap.live.filter fun entry => entry.1 ≠ ptr⟩
  | write {heap : Heap} {ptr size address : Nat} {byte : UInt8} :
      (ptr, size) ∈ heap.live → ptr ≤ address → address < ptr + size →
      HeapStep heapStart heap (.write address byte) ⟨heap.memory.store8 address byte, heap.live⟩

abbrev HeapRun (heapStart : Nat) := Run (HeapStep heapStart)

/-- The heap that `kmalloc_init` leaves in whatever memory it was called on. -/
def freshHeap (heapStart : Nat) (memory : Memory) : Heap :=
  ⟨kmallocInit heapStart memory, []⟩

/-- Steps on the abstract list of blocks. -/
inductive BlocksStep : List Block → HeapOp → List Block → Prop where
  | refused {blocks : List Block} {size : Nat} : BlocksStep blocks (.kmalloc size) blocks
  | taken {front back : List Block} {block : Block} {size : Nat} :
      0 < size → suits size block = true →
      BlocksStep (front ++ block :: back) (.kmalloc size) (front ++ carve size block ++ back)
  | freed {blocks : List Block} {block : Block} :
      block ∈ blocks → block.free = false →
      BlocksStep blocks (.kfree (block.address + headerSize))
        (coalesce (release block.address blocks))
  | written {blocks : List Block} {address : Nat} {byte : UInt8} :
      BlocksStep blocks (.write address byte) blocks

/-- The list at `heapStart` is a layout of the region, every live pointer is the
payload of a used block that is large enough, and every used block has one. -/
structure HeapInv (heapStart : Nat) (heap : Heap) (blocks : List Block) : Prop where
  chain : Chain heap.memory heapStart blocks
  fits : Block.Fits headerSize heapStart blocks identityMappedCieling
  owner : ∀ entry ∈ heap.live, ∃ block ∈ blocks, block.address + headerSize = entry.1 ∧
    block.free = false ∧ entry.2 ≤ block.size
  distinct : (heap.live.map Prod.fst).Nodup
  owned : ∀ block ∈ blocks, block.free = false →
    block.address + headerSize ∈ heap.live.map Prod.fst

/-- The step leaves the payload bytes of every other live allocation alone. -/
def PayloadsKept (before : Heap) (label : HeapOp) (after : Heap) : Prop :=
  (∀ address byte, label ≠ .write address byte) →
  ∀ entry ∈ before.live, label ≠ .kfree entry.1 →
    ∀ address, entry.1 ≤ address → address < entry.1 + entry.2 →
      after.memory address = before.memory address

variable {heapStart : Nat} {heap before after start final : Heap} {blocks : List Block}
variable {label : HeapOp} {trace : List (Transition Heap HeapOp)}

private theorem cieling_lt : identityMappedCieling < 2147483648 := by decide

private theorem mem_carve_used {size : Nat} {block other : Block}
    (member : other ∈ carve size block) (used : other.free = false) :
    other.address = block.address := by
  unfold carve at member
  split at member
  · cases List.mem_cons.mp member with
    | inl first => rw [first]
    | inr rest =>
        rw [List.mem_singleton.mp rest] at used
        cases used
  · rw [List.mem_singleton.mp member]

private theorem carve_head (size : Nat) (block : Block) :
    ∃ used ∈ carve size block, used.address = block.address ∧ used.free = false ∧
      (size ≤ block.size → size ≤ used.size) := by
  unfold carve
  split
  · exact ⟨_, List.mem_cons_self, rfl, rfl, fun _ => Nat.le_refl _⟩
  · exact ⟨_, List.mem_cons_self, rfl, rfl, id⟩

/-- `kmalloc` in a state that obeys the invariant. -/
theorem HeapInv.kmalloc (inv : HeapInv heapStart heap blocks) (size : Nat) :
    ∃ ptr memory blocks',
      (∀ fuel, blocks.length < fuel →
        kmalloc fuel heapStart size heap.memory = some (ptr, memory)) ∧
      BlocksStep blocks (.kmalloc size) blocks' ∧
      HeapInv heapStart ⟨memory, if ptr = 0 then heap.live else (ptr, size) :: heap.live⟩ blocks' ∧
      PayloadsKept heap (.kmalloc size)
        ⟨memory, if ptr = 0 then heap.live else (ptr, size) :: heap.live⟩ := by
  by_cases zero : size = 0
  · refine ⟨0, heap.memory, blocks, fun fuel _ => if_pos zero, .refused, inv, ?_⟩
    intro _ _ _ _ _ _ _
    rfl
  · have enters : ∀ fuel, Klibc.kmalloc fuel heapStart size heap.memory =
        kmallocLoop fuel size heapStart heap.memory := fun fuel => if_neg zero
    simp only [enters]
    cases kmallocLoop_spec size inv.chain inv.fits cieling_lt with
    | inl none =>
        refine ⟨0, heap.memory, blocks, none.2, .refused, inv, ?_⟩
        intro _ _ _ _ _ _ _
        rfl
    | inr found =>
        obtain ⟨front, block, back, memory, rfl, suitable, _, result, outside, chain⟩ := found
        have free : block.free = true := by
          simp only [suits, Bool.and_eq_true] at suitable
          exact suitable.1
        have enough : size ≤ block.size := by
          simp only [suits, Bool.and_eq_true, decide_eq_true_eq] at suitable
          exact suitable.2
        have member : block ∈ front ++ block :: back := by simp
        have notNull : block.address + headerSize ≠ 0 := by
          unfold headerSize
          omega
        refine ⟨block.address + headerSize, memory, _, result,
          .taken (Nat.pos_iff_ne_zero.mpr zero) suitable, ?_, ?_⟩
        · rw [if_neg notNull]
          refine ⟨chain, take_fits inv.fits, ?_, ?_, ?_⟩
          · intro entry entryMember
            cases List.mem_cons.mp entryMember with
            | inl new =>
                obtain ⟨used, usedMember, address, usedFree, large⟩ := carve_head size block
                refine ⟨used, by simp [usedMember], ?_, usedFree, ?_⟩
                · rw [new, address]
                · rw [new]
                  exact large enough
            | inr old =>
                obtain ⟨owner, ownerMember, address, used, large⟩ := inv.owner entry old
                have different : owner ≠ block := by
                  intro same
                  rw [same, free] at used
                  cases used
                have kept : owner ∈ front ++ back := by
                  simp only [List.mem_append, List.mem_cons] at ownerMember ⊢
                  tauto
                refine ⟨owner, ?_, address, used, large⟩
                simp only [List.mem_append] at kept ⊢
                tauto
          · refine List.nodup_cons.mpr ⟨?_, inv.distinct⟩
            intro known
            obtain ⟨entry, entryMember, same⟩ := List.mem_map.mp known
            obtain ⟨owner, ownerMember, address, used, _⟩ := inv.owner entry entryMember
            have equal : owner = block :=
              inv.fits.unique (by decide) ownerMember member (by
                simp only at same
                omega)
            rw [equal, free] at used
            cases used
          · intro other otherMember used
            simp only [List.mem_append] at otherMember
            rw [List.map_cons, List.mem_cons]
            rcases otherMember with (old | carved) | old
            · exact .inr (inv.owned other (by simp [old]) used)
            · exact .inl (by rw [mem_carve_used carved used])
            · exact .inr (inv.owned other (by simp [old]) used)
        · intro _ entry entryMember _ address above below
          obtain ⟨owner, ownerMember, ownerAddress, used, large⟩ := inv.owner entry entryMember
          refine (outside address ?_).symm
          have different : owner ≠ block := by
            intro same
            rw [same, free] at used
            cases used
          have apart := (inv.fits.apart ownerMember member).resolve_left different
          unfold Block.finish at apart ⊢
          omega

/-- `kfree` of a live pointer. -/
theorem HeapInv.kfree (inv : HeapInv heapStart heap blocks) {entry : Nat × Nat}
    (member : entry ∈ heap.live) :
    ∃ memory blocks',
      (∀ fuel, blocks.length < fuel →
        kfree fuel heapStart entry.1 heap.memory = some memory) ∧
      BlocksStep blocks (.kfree entry.1) blocks' ∧
      HeapInv heapStart ⟨memory, heap.live.filter fun other => other.1 ≠ entry.1⟩ blocks' ∧
      PayloadsKept heap (.kfree entry.1)
        ⟨memory, heap.live.filter fun other => other.1 ≠ entry.1⟩ := by
  obtain ⟨block, blockMember, address, used, _⟩ := inv.owner entry member
  obtain ⟨memory, result, chain, frame⟩ := kfree_spec inv.chain inv.fits cieling_lt blockMember
  rw [← address]
  refine ⟨memory, _, result, .freed blockMember used,
    ⟨chain, coalesce_fits ((release_fits block.address).mpr inv.fits), ?_, ?_, ?_⟩, ?_⟩
  · intro other otherMember
    obtain ⟨known, different⟩ := List.mem_filter.mp otherMember
    simp only [ne_eq, decide_not, Bool.not_eq_true', decide_eq_false_iff_not] at different
    obtain ⟨owner, ownerMember, ownerAddress, ownerUsed, large⟩ := inv.owner other known
    refine ⟨owner, mem_coalesce_of_used (mem_release_of_ne ownerMember ?_) ownerUsed,
      ownerAddress, ownerUsed, large⟩
    omega
  · exact inv.distinct.sublist (List.filter_sublist.map _)
  · intro other otherMember otherUsed
    obtain ⟨known, different⟩ :=
      mem_of_mem_release (mem_of_mem_coalesce otherMember otherUsed) otherUsed
    obtain ⟨owner, ownerMember, same⟩ := List.mem_map.mp (inv.owned other known otherUsed)
    refine List.mem_map.mpr ⟨owner, List.mem_filter.mpr ⟨ownerMember, ?_⟩, same⟩
    simp only [ne_eq, decide_not, Bool.not_eq_true', decide_eq_false_iff_not]
    omega
  · intro _ other otherMember _ at_ above below
    obtain ⟨owner, ownerMember, ownerAddress, _, large⟩ := inv.owner other otherMember
    refine (frame at_ fun header headerMember => ?_).symm
    rcases inv.fits.apart ownerMember headerMember with same | before | behind
    · rw [← same]
      exact .inr (by omega)
    · unfold Block.finish at before
      exact .inl (by omega)
    · unfold Block.finish at behind
      exact .inr (by omega)

/-- A store to a live payload. -/
theorem HeapInv.write (inv : HeapInv heapStart heap blocks) {entry : Nat × Nat} {address : Nat}
    (member : entry ∈ heap.live) (above : entry.1 ≤ address) (below : address < entry.1 + entry.2)
    (byte : UInt8) : HeapInv heapStart ⟨heap.memory.store8 address byte, heap.live⟩ blocks := by
  obtain ⟨owner, ownerMember, ownerAddress, _, large⟩ := inv.owner entry member
  refine ⟨inv.chain.congr fun block blockMember at_ from_ to_ => ?_, inv.fits, inv.owner,
    inv.distinct, inv.owned⟩
  refine (Memory.store8_of_ne ?_).symm
  rcases inv.fits.apart ownerMember blockMember with same | before | behind
  · rw [← same] at to_
    omega
  · unfold Block.finish at before
    omega
  · unfold Block.finish at behind
    omega

/-- One step of the heap is a step on its blocks, keeps the invariant and keeps the
payloads of everybody else. -/
theorem HeapInv.step (inv : HeapInv heapStart before blocks)
    (step : HeapStep heapStart before label after) :
    ∃ blocks', BlocksStep blocks label blocks' ∧ HeapInv heapStart after blocks' ∧
      PayloadsKept before label after := by
  cases step with
  | @kmalloc fuel size ptr memory _ allocated =>
      obtain ⟨ptr', memory', blocks', result, abstract, inv', kept⟩ := inv.kmalloc size
      have same : (ptr, memory) = (ptr', memory') := by
        have long := kmalloc_mono (Nat.le_max_left fuel (blocks.length + 1)) allocated
        exact Option.some.inj (long.symm.trans (result _ (Nat.le_max_right _ _)))
      obtain ⟨rfl, rfl⟩ := Prod.mk.inj same
      exact ⟨blocks', abstract, inv', kept⟩
  | @kfree fuel ptr size memory member freed =>
      obtain ⟨memory', blocks', result, abstract, inv', kept⟩ := inv.kfree member
      have long := kfree_mono (Nat.le_max_left fuel (blocks.length + 1)) freed
      obtain rfl := Option.some.inj (long.symm.trans (result _ (Nat.le_max_right _ _)))
      exact ⟨blocks', abstract, inv', kept⟩
  | write member above below =>
      exact ⟨blocks, .written, inv.write member above below _, fun notWrite =>
        absurd rfl (notWrite _ _)⟩

theorem freshHeap_inv (positive : 0 < heapStart)
    (room : heapStart + headerSize ≤ identityMappedCieling) (memory : Memory) :
    HeapInv heapStart (freshHeap heapStart memory) [initialBlock heapStart] :=
  ⟨kmallocInit_chain positive room memory, (initialBlock_tiles room).fits, by simp [freshHeap],
    by simp [freshHeap], by simp [initialBlock]⟩

/-! ## Safety -/

def headerRange (block : Block) : Set Nat :=
  Set.Ico block.address (block.address + headerSize)

def payloadRange (entry : Nat × Nat) : Set Nat :=
  Set.Ico entry.1 (entry.1 + entry.2)

/-- The list is strictly increasing and ends, all headers and live payloads are
disjoint and inside the region, and every call on this heap returns. -/
def HeapSafe (heapStart : Nat) (heap : Heap) : Prop :=
  ∃ blocks, Chain heap.memory heapStart blocks ∧
    blocks.Pairwise (fun left right => left.address < right.address) ∧
    (blocks.map headerRange ++ heap.live.map payloadRange).Pairwise Disjoint ∧
    (∀ range ∈ blocks.map headerRange ++ heap.live.map payloadRange,
      range ⊆ Set.Ico heapStart identityMappedCieling) ∧
    (∀ size, ∃ bound, ∀ fuel, bound ≤ fuel →
      (kmalloc fuel heapStart size heap.memory).isSome) ∧
    ∀ entry ∈ heap.live, ∃ bound, ∀ fuel, bound ≤ fuel →
      (kfree fuel heapStart entry.1 heap.memory).isSome

private theorem ico_disjoint {first second third fourth : Nat}
    (apart : second ≤ third ∨ fourth ≤ first) :
    Disjoint (Set.Ico first second) (Set.Ico third fourth) := by
  rw [Set.Ico_disjoint_Ico]
  omega

private theorem headers_disjoint (inv : HeapInv heapStart heap blocks) :
    (blocks.map headerRange).Pairwise Disjoint := by
  rw [List.pairwise_map]
  refine inv.fits.ordered.imp fun ordered => ico_disjoint (.inl ?_)
  unfold Block.finish at ordered
  omega

private theorem payloads_disjoint (inv : HeapInv heapStart heap blocks) :
    (heap.live.map payloadRange).Pairwise Disjoint := by
  rw [List.pairwise_map]
  have distinct := List.pairwise_map.mp inv.distinct
  refine distinct.imp_of_mem fun {left right} leftMember rightMember different => ?_
  obtain ⟨leftOwner, leftIn, leftAddress, _, leftLarge⟩ := inv.owner left leftMember
  obtain ⟨rightOwner, rightIn, rightAddress, _, rightLarge⟩ := inv.owner right rightMember
  have notSame : leftOwner ≠ rightOwner := by
    intro same
    rw [same] at leftAddress
    exact different (leftAddress.symm.trans rightAddress)
  refine ico_disjoint ?_
  have apart := (inv.fits.apart leftIn rightIn).resolve_left notSame
  unfold Block.finish at apart
  omega

private theorem header_payload_disjoint (inv : HeapInv heapStart heap blocks) {block : Block}
    (member : block ∈ blocks) {entry : Nat × Nat} (entryMember : entry ∈ heap.live) :
    Disjoint (headerRange block) (payloadRange entry) := by
  obtain ⟨owner, ownerMember, ownerAddress, _, large⟩ := inv.owner entry entryMember
  refine ico_disjoint ?_
  rcases inv.fits.apart ownerMember member with same | before | after
  · rw [← same]
    exact .inl (Nat.le_of_eq ownerAddress)
  · unfold Block.finish at before
    omega
  · unfold Block.finish at after
    omega

private theorem HeapInv.inside (inv : HeapInv heapStart heap blocks) :
    ∀ range ∈ blocks.map headerRange ++ heap.live.map payloadRange,
      range ⊆ Set.Ico heapStart identityMappedCieling := by
  intro range member address inRange
  cases List.mem_append.mp member with
  | inl header =>
      obtain ⟨block, blockMember, rfl⟩ := List.mem_map.mp header
      have bounds := inv.fits.bounds blockMember
      unfold Block.finish at bounds
      simp only [headerRange, Set.mem_Ico] at inRange ⊢
      omega
  | inr payload =>
      obtain ⟨entry, entryMember, rfl⟩ := List.mem_map.mp payload
      obtain ⟨owner, ownerMember, ownerAddress, _, large⟩ := inv.owner entry entryMember
      have bounds := inv.fits.bounds ownerMember
      unfold Block.finish at bounds
      simp only [payloadRange, Set.mem_Ico] at inRange ⊢
      omega

theorem HeapInv.safe (inv : HeapInv heapStart heap blocks) : HeapSafe heapStart heap := by
  refine ⟨blocks, inv.chain, ?_, ?_, inv.inside, ?_, ?_⟩
  · refine inv.fits.ordered.imp fun ordered => ?_
    unfold Block.finish headerSize at ordered
    omega
  · refine List.pairwise_append.mpr ⟨headers_disjoint inv, payloads_disjoint inv, ?_⟩
    intro header headerMember payload payloadMember
    obtain ⟨block, blockMember, rfl⟩ := List.mem_map.mp headerMember
    obtain ⟨entry, entryMember, rfl⟩ := List.mem_map.mp payloadMember
    exact header_payload_disjoint inv blockMember entryMember
  · intro size
    obtain ⟨ptr, memory, _, result, _⟩ := inv.kmalloc size
    exact ⟨blocks.length + 1, fun fuel enough => by rw [result fuel enough]; rfl⟩
  · intro entry member
    obtain ⟨memory, _, result, _⟩ := inv.kfree member
    exact ⟨blocks.length + 1, fun fuel enough => by rw [result fuel enough]; rfl⟩

/-- In every state that allocation, freeing and payload writes can lead to, the heap
is safe, and no call touches the payload of another live allocation. -/
theorem heap_safe {memory : Memory} (positive : 0 < heapStart)
    (room : heapStart + headerSize ≤ identityMappedCieling)
    (run : HeapRun heapStart (freshHeap heapStart memory) trace final) :
    HeapSafe heapStart final ∧ ∀ transition ∈ trace,
      HeapSafe heapStart transition.before ∧ HeapSafe heapStart transition.after ∧
        PayloadsKept transition.before transition.label transition.after := by
  obtain ⟨⟨blocks, reached⟩, visited⟩ := run.invariant (fun _ _ => True)
    (fun heap => ∃ blocks, HeapInv heapStart heap blocks)
    ⟨_, freshHeap_inv positive room memory⟩ (fun known _ step => by
      obtain ⟨blocks, inv⟩ := known
      obtain ⟨blocks', _, inv', _⟩ := inv.step step
      exact ⟨blocks', inv'⟩) fun _ _ => trivial
  refine ⟨reached.safe, fun transition member => ?_⟩
  obtain ⟨⟨_, before⟩, ⟨_, after⟩, step⟩ := visited transition member
  obtain ⟨_, _, _, kept⟩ := before.step step
  exact ⟨before.safe, after.safe, kept⟩

/-- One allocation on a heap that starts at 4 MiB. -/
theorem heap_safe_sample :
    ∃ final, final.live = [(4194316, 8)] ∧ HeapSafe 4194304 final := by
  have returned : ((kmalloc 2 4194304 8 (freshHeap 4194304 (fun _ => 0)).memory).map Prod.fst) =
      some 4194316 := by decide
  obtain ⟨⟨ptr, memory⟩, allocated, ptrEq⟩ := Option.map_eq_some_iff.mp returned
  obtain rfl : ptr = 4194316 := ptrEq
  have run := Run.start.step (HeapStep.kmalloc (by decide) allocated)
  exact ⟨_, rfl, (heap_safe (by decide) (by decide) run).1⟩

end KdbOS.Klibc
