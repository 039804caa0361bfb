import KdbOS.Proc.SchedQueues
import KdbOS.Proc.SchedRuns

/-! The scheduler invariant. It ties the lists a block is on to its state,
priority, quantum and age, and survives every operation that is not called
while the current process is already waiting. -/

set_option autoImplicit false

namespace KdbOS.Proc

open Library Ds

/-- A block queued on `level`. -/
structure ReadyAt (level : Fin 4) (block : ProcessControlBlock) : Prop where
  state : block.state = .ready
  priority : block.priority = level.val
  quantum : block.quantumRemaining = quantumOf level.val
  age : block.ageTicks < ageTickMax

/-- The scheduling fields of a process that holds the processor. -/
structure Running (block : ProcessControlBlock) : Prop where
  priority : block.priority < mlfqLevels
  quantum : 1 ≤ block.quantumRemaining
  quantumMax : block.quantumRemaining ≤ quantumOf block.priority
  age : block.ageTicks < ageTickMax

/-- The invariant of one block other than the idle one. -/
structure BlockInv (scheduler : Scheduler) (queue : Queues) (address : Nat) : Prop where
  ready : ∀ {level}, address ∈ queue (.level level) → ReadyAt level (scheduler.pcb address)
  waiting : address ∈ queue .waiting →
    (scheduler.pcb address).state = .waiting ∧ (scheduler.pcb address).priority < mlfqLevels
  running : scheduler.currentPcb = some address →
    Running (scheduler.pcb address) ∧
      ((scheduler.pcb address).state = .running ∧ (∀ list, address ∉ queue list) ∨
        address ∈ queue .waiting)
  placed : scheduler.currentPcb = some address ∨ ∃ list, address ∈ queue list

structure SchedInv (scheduler : Scheduler) (created : List Nat) (queue : Queues) : Prop where
  holds : Holds scheduler.lists queue
  queued : ∀ {list address}, address ∈ queue list →
    address ∈ created ∧ some address ≠ scheduler.idlePcb
  block : ∀ {address}, address ∈ created → some address ≠ scheduler.idlePcb →
    BlockInv scheduler queue address
  current : ∀ {address}, scheduler.currentPcb = some address → address ∈ created
  idle : ∀ {address}, scheduler.idlePcb = some address →
    address ∈ created ∧ (scheduler.pcb address).state ≠ .waiting

variable {scheduler : Scheduler} {created : List Nat} {queue : Queues}

/-- A block's invariant depends on its own fields, on the lists it is on and on
whether it is current. -/
theorem BlockInv.congr {after : Scheduler} {queue' : Queues} {address : Nat}
    (inv : BlockInv scheduler queue address) (same : after.pcb address = scheduler.pcb address)
    (current : after.currentPcb = some address ↔ scheduler.currentPcb = some address)
    (listed : ∀ list, address ∈ queue' list ↔ address ∈ queue list) :
    BlockInv after queue' address := by
  constructor
  · intro level member
    rw [same]
    exact inv.ready ((listed _).mp member)
  · intro member
    rw [same]
    exact inv.waiting ((listed _).mp member)
  · intro isCurrent
    rw [same, listed]
    simp only [listed]
    exact inv.running (current.mp isCurrent)
  · simp only [listed, current]
    exact inv.placed

/-- The current process is not waiting. -/
def CurrentAwake (scheduler : Scheduler) : Prop :=
  ∀ address, scheduler.currentPcb = some address → (scheduler.pcb address).state ≠ .waiting

theorem SchedInv.waiting_iff (inv : SchedInv scheduler created queue) {address : Nat}
    (member : address ∈ created) :
    (scheduler.pcb address).state = .waiting ↔ address ∈ queue .waiting := by
  constructor
  · intro state
    by_cases isIdle : some address = scheduler.idlePcb
    · exact absurd state (inv.idle isIdle.symm).2
    · have block := inv.block member isIdle
      cases block.placed with
      | inl current =>
          cases (block.running current).2 with
          | inl running =>
              rw [running.1] at state
              cases state
          | inr inside => exact inside
      | inr found =>
          obtain ⟨list, inside⟩ := found
          cases list with
          | waiting => exact inside
          | level level =>
              have same := (block.ready inside).state
              rw [same] at state
              cases state
  · intro inside
    exact ((inv.block member (inv.queued inside).2).waiting inside).1

/-- A current process that is awake is on no list at all. -/
theorem SchedInv.current_unlinked (inv : SchedInv scheduler created queue)
    (awake : CurrentAwake scheduler) {address : Nat} (current : scheduler.currentPcb = some address) :
    ∀ list, address ∉ queue list := by
  intro list inside
  have block := inv.block (inv.current current) (inv.queued inside).2
  cases (block.running current).2 with
  | inl running => exact running.2 list inside
  | inr waiting => exact awake address current (block.waiting waiting).1

private theorem mem_push {target list : SchedList} {address other : Nat} :
    other ∈ Function.update queue target (queue target ++ [address]) list ↔
      other ∈ queue list ∨ other = address ∧ list = target := by
  by_cases same : list = target
  · subst same
    simp
  · simp [same]

private theorem mem_push_of_ne {target : SchedList} {address other : Nat}
    (different : other ≠ address) (list : SchedList) :
    other ∈ Function.update queue target (queue target ++ [address]) list ↔
      other ∈ queue list := by
  simp [mem_push, different]

theorem setPcb_of_ne {address other : Nat} {block : ProcessControlBlock}
    (different : other ≠ address) :
    (scheduler.setPcb address block).pcb other = scheduler.pcb other :=
  Function.update_of_ne different _ _

theorem setPcb_self {address : Nat} {block : ProcessControlBlock} :
    (scheduler.setPcb address block).pcb address = block :=
  Function.update_self ..

/-- Appending a block to one list keeps the invariant when the block itself fits
its new place and nobody else changes. The state `after` may have let the block
go as the current process. -/
private theorem SchedInv.append {after : Scheduler} {address : Nat} {target : SchedList}
    {before : Scheduler} {everyone : List Nat}
    (inv : SchedInv before created queue)
    (holds : Holds after.lists (Function.update queue target (queue target ++ [address])))
    (everyone_ : ∀ other, other ∈ everyone ↔ other = address ∨ other ∈ created)
    (notIdle : some address ≠ before.idlePcb) (sameIdle : after.idlePcb = before.idlePcb)
    (others : ∀ other, other ≠ address → after.pcb other = before.pcb other ∧
      (after.currentPcb = some other ↔ before.currentPcb = some other))
    (moved : BlockInv after (Function.update queue target (queue target ++ [address])) address) :
    SchedInv after everyone (Function.update queue target (queue target ++ [address])) := by
  refine ⟨holds, ?_, ?_, ?_, ?_⟩
  · intro list other member
    rw [everyone_, sameIdle]
    cases mem_push.mp member with
    | inl old => exact ⟨.inr (inv.queued old).1, (inv.queued old).2⟩
    | inr new => exact ⟨.inl new.1, new.1 ▸ notIdle⟩
  · intro other member otherNotIdle
    by_cases same : other = address
    · exact same ▸ moved
    · have old := ((everyone_ other).mp member).resolve_left same
      rw [sameIdle] at otherNotIdle
      exact (inv.block old otherNotIdle).congr (others other same).1 (others other same).2
        (mem_push_of_ne same)
  · intro other isCurrent
    rw [everyone_]
    by_cases same : other = address
    · exact .inl same
    · exact .inr (inv.current (((others other same).2).mp isCurrent))
  · intro other isIdle
    rw [sameIdle] at isIdle
    have different : other ≠ address := fun same => notIdle (same ▸ isIdle.symm)
    rw [everyone_, (others other different).1]
    exact ⟨.inr (inv.idle isIdle).1, (inv.idle isIdle).2⟩

/-- `sched_enqueue` of a block fresh from `create_pcb`. -/
theorem SchedInv.enqueue (inv : SchedInv scheduler created queue) {address : Nat}
    (fresh : address ∉ created) (pid addressSpace addressSpacePhysical kernelStackPtr : Nat) :
    ∃ lists, schedEnqueue (scheduler.create address
        (createdPcb pid addressSpace addressSpacePhysical kernelStackPtr)) (some address) =
          some ((scheduler.setPcb address (createdPcb pid addressSpace addressSpacePhysical
            kernelStackPtr)).setLists lists) ∧
      SchedInv ((scheduler.setPcb address (createdPcb pid addressSpace addressSpacePhysical
          kernelStackPtr)).setLists lists) (address :: created)
        (Function.update queue (.level 0) (queue (.level 0) ++ [address])) := by
  have unlisted : ∀ list, address ∉ queue list := fun list member => fresh (inv.queued member).1
  have links : Function.update scheduler.lists.links (.node address) Link.null =
      scheduler.lists.links := by
    rw [← inv.holds.loose unlisted, Function.update_eq_self]
  set block := createdPcb pid addressSpace addressSpacePhysical kernelStackPtr with blockEq
  have handed : scheduler.create address block = scheduler.setPcb address block := by
    simp [Scheduler.create, links, Scheduler.setLists, Scheduler.setPcb]
  have readyAt : ReadyAt 0 block := ⟨rfl, rfl, rfl, by simp [blockEq, createdPcb, ageTickMax]⟩
  have pushedBlock : (scheduler.setPcb address block).pcb address = block := setPcb_self
  obtain ⟨lists, enqueued, holds⟩ := schedEnqueue_ready (scheduler.setPcb address block) 0
    inv.holds (by rw [pushedBlock, readyAt.state])
    (by rw [pushedBlock, readyAt.priority]) unlisted
  refine ⟨lists, handed ▸ enqueued, ?_⟩
  have notIdle : some address ≠ scheduler.idlePcb := fun isIdle => fresh (inv.idle isIdle.symm).1
  refine inv.append holds (fun other => by simp) notIdle rfl
    (fun other different => ⟨setPcb_of_ne different, Iff.rfl⟩) ⟨?_, ?_, ?_, ?_⟩
  · intro level member
    cases mem_push.mp member with
    | inl old => exact absurd old (unlisted _)
    | inr new =>
        obtain rfl := SchedList.level.inj new.2
        change ReadyAt 0 ((scheduler.setPcb address block).pcb address)
        rw [pushedBlock]
        exact readyAt
  · intro member
    cases mem_push.mp member with
    | inl old => exact absurd old (unlisted _)
    | inr new => cases new.2
  · intro isCurrent
    exact absurd (inv.current isCurrent) fresh
  · exact .inr ⟨.level 0, mem_push.mpr (.inr ⟨rfl, rfl⟩)⟩

/-- `sched_block_process` while the current process is awake. -/
theorem SchedInv.blockProcess (inv : SchedInv scheduler created queue)
    (awake : CurrentAwake scheduler) :
    ∃ after queue', schedBlockProcess scheduler = some after ∧ SchedInv after created queue' ∧
      (∀ other ∈ queue .waiting, other ∈ queue' .waiting) ∧
      after.idlePcb = scheduler.idlePcb := by
  cases currentEq : scheduler.currentPcb with
  | none =>
      exact ⟨scheduler, queue, by simp [schedBlockProcess, currentEq], inv, fun _ => id, rfl⟩
  | some address =>
      by_cases isIdle : some address = scheduler.idlePcb
      · refine ⟨scheduler, queue, ?_, inv, fun _ => id, rfl⟩
        simp only [schedBlockProcess, currentEq]
        exact if_pos isIdle
      · have unlisted := inv.current_unlinked awake currentEq
        have member := inv.current currentEq
        obtain ⟨running, _⟩ := (inv.block member isIdle).running currentEq
        set block := { scheduler.pcb address with state := .waiting } with blockEq
        have pushedBlock : (scheduler.setPcb address block).pcb address = block := setPcb_self
        obtain ⟨lists, enqueued, holds⟩ := schedEnqueue_waiting (scheduler.setPcb address block)
          inv.holds (by rw [pushedBlock]) unlisted
        refine ⟨(scheduler.setPcb address block).setLists lists,
          Function.update queue .waiting (queue .waiting ++ [address]), ?_, ?_, ?_, rfl⟩
        · simpa only [schedBlockProcess, currentEq, isIdle, ↓reduceIte] using enqueued
        · refine inv.append holds ?_ isIdle rfl
            (fun other different => ⟨setPcb_of_ne different, Iff.rfl⟩) ⟨?_, ?_, ?_, ?_⟩
          · intro other
            exact ⟨.inr, fun either => either.elim (fun same => same ▸ member) id⟩
          · intro level inside
            cases mem_push.mp inside with
            | inl old => exact absurd old (unlisted _)
            | inr new => cases new.2
          · intro _
            change ((scheduler.setPcb address block).pcb address).state = .waiting ∧
              ((scheduler.setPcb address block).pcb address).priority < mlfqLevels
            rw [pushedBlock]
            exact ⟨rfl, running.priority⟩
          · intro _
            refine ⟨?_, .inr (mem_push.mpr (.inr ⟨rfl, rfl⟩))⟩
            change Running ((scheduler.setPcb address block).pcb address)
            rw [pushedBlock]
            exact ⟨running.priority, running.quantum, running.quantumMax, running.age⟩
          · exact .inl currentEq
        · intro other inside
          exact mem_push.mpr (.inl inside)

/-- `sched_unblock_process` of a process that is not current while it waits. -/
theorem SchedInv.unblockProcess (inv : SchedInv scheduler created queue) {address : Nat}
    (member : address ∈ created)
    (apart : (scheduler.pcb address).state = .waiting → scheduler.currentPcb ≠ some address) :
    ∃ after queue', schedUnblockProcess scheduler (some address) = some after ∧
      SchedInv after created queue' ∧
      (∀ other ∈ queue .waiting, other ≠ address → other ∈ queue' .waiting) ∧
      after.idlePcb = scheduler.idlePcb := by
  by_cases state : (scheduler.pcb address).state = .waiting
  · have inside := (inv.waiting_iff member).mp state
    have isIdle := (inv.queued inside).2
    obtain ⟨_, priority⟩ := (inv.block member isIdle).waiting inside
    obtain ⟨before, after, split⟩ := List.append_of_mem inside
    obtain ⟨unlinked, removed, holds⟩ := listRemoveNode_holds inv.holds split
    set shorter := Function.update queue .waiting (before ++ after) with shorterEq
    have unique := inv.holds.unique .waiting
    rw [split] at unique
    have unlisted : ∀ list, address ∉ shorter list := by
      intro list listed
      by_cases same : list = .waiting
      · subst same
        simp only [shorterEq, Function.update_self] at listed
        exact (List.nodup_cons.mp (List.nodup_middle.mp unique)).1 listed
      · simp only [shorterEq, Function.update_of_ne same] at listed
        exact same (inv.holds.apart listed inside)
    have stays : ∀ other, other ≠ address → ∀ list, other ∈ shorter list ↔ other ∈ queue list := by
      intro other different list
      by_cases same : list = .waiting
      · subst same
        simp [shorterEq, split, different]
      · simp [shorterEq, Function.update_of_ne same]
    set block := { scheduler.pcb address with
      state := .ready, ageTicks := 0, quantumRemaining := quantumOf (scheduler.pcb address).priority }
      with blockEq
    have pushedBlock : ((scheduler.setLists unlinked).setPcb address block).pcb address = block :=
      setPcb_self
    have readyAt : ReadyAt ⟨(scheduler.pcb address).priority, priority⟩ block :=
      ⟨rfl, rfl, rfl, by simp [blockEq, ageTickMax]⟩
    obtain ⟨lists, enqueued, pushedHolds⟩ := schedEnqueue_ready
      ((scheduler.setLists unlinked).setPcb address block)
      ⟨(scheduler.pcb address).priority, priority⟩ holds (by rw [pushedBlock])
      (by rw [pushedBlock]) unlisted
    refine ⟨((scheduler.setLists unlinked).setPcb address block).setLists lists,
      Function.update shorter (.level ⟨(scheduler.pcb address).priority, priority⟩)
        (shorter (.level ⟨(scheduler.pcb address).priority, priority⟩) ++ [address]),
      ?_, ?_, ?_, rfl⟩
    · simpa [schedUnblockProcess, state, removed, mlfqQuantums_getElem priority] using enqueued
    · refine ⟨pushedHolds, ?_, ?_, inv.current, ?_⟩
      · intro list other listed
        cases mem_push.mp listed with
        | inl old =>
            by_cases same : other = address
            · exact absurd (same ▸ old) (unlisted list)
            · exact inv.queued ((stays other same list).mp old)
        | inr new => exact ⟨new.1 ▸ member, new.1 ▸ isIdle⟩
      · intro other otherMember otherNotIdle
        by_cases same : other = address
        · subst same
          refine ⟨?_, ?_, ?_, .inr ⟨_, mem_push.mpr (.inr ⟨rfl, rfl⟩)⟩⟩
          · intro level listed
            cases mem_push.mp listed with
            | inl old => exact absurd old (unlisted _)
            | inr new =>
                obtain rfl := SchedList.level.inj new.2
                change ReadyAt _ (((scheduler.setLists unlinked).setPcb other block).pcb other)
                rw [pushedBlock]
                exact readyAt
          · intro listed
            cases mem_push.mp listed with
            | inl old => exact absurd old (unlisted _)
            | inr new => cases new.2
          · intro isCurrent
            exact absurd isCurrent (apart state)
        · refine (inv.block otherMember otherNotIdle).congr (setPcb_of_ne same) Iff.rfl ?_
          intro list
          exact (mem_push_of_ne same list).trans (stays other same list)
      · intro other otherIdle
        have different : other ≠ address := fun same => isIdle (same ▸ otherIdle.symm)
        obtain ⟨old, notWaiting⟩ := inv.idle otherIdle
        refine ⟨old, ?_⟩
        change (((scheduler.setLists unlinked).setPcb address block).pcb other).state ≠ .waiting
        rw [setPcb_of_ne different]
        exact notWaiting
    · intro other inside different
      exact mem_push.mpr (.inl ((stays other different .waiting).mpr inside))
  · exact ⟨scheduler, queue, by simp [schedUnblockProcess, state], inv, fun _ inside _ => inside, rfl⟩

/-! ## The timer interrupt -/

/-- The demotion of a process whose quantum has run out. -/
def demoted (block : ProcessControlBlock) : ProcessControlBlock :=
  let priority := if block.priority < mlfqLevels - 1 then block.priority + 1 else block.priority
  { block with state := .ready, priority := priority, quantumRemaining := quantumOf priority }

theorem demoted_priority_lt {block : ProcessControlBlock} (bounded : block.priority < mlfqLevels) :
    (demoted block).priority < 4 := by
  have raised : (demoted block).priority =
      if block.priority < 3 then block.priority + 1 else block.priority := rfl
  have below : block.priority < 4 := bounded
  rw [raised]
  split <;> omega

/-- A tick on which the quantum of an awake process runs out sends it to the tail
of its next level and leaves no current process. -/
theorem SchedInv.expire (inv : SchedInv scheduler created queue) (awake : CurrentAwake scheduler)
    {address : Nat} (current : scheduler.currentPcb = some address)
    (notIdle : some address ≠ scheduler.idlePcb)
    (last : (scheduler.pcb address).quantumRemaining = 1) :
    ∃ lists level, level.val = (demoted (scheduler.pcb address)).priority ∧
      (∀ fuel, schedTick fuel scheduler = some (((scheduler.setPcb address
        (demoted (scheduler.pcb address))).setLists lists).setCurrent none)) ∧
      SchedInv (((scheduler.setPcb address
        (demoted (scheduler.pcb address))).setLists lists).setCurrent none) created
        (Function.update queue (.level level) (queue (.level level) ++ [address])) := by
  have member := inv.current current
  have unlisted := inv.current_unlinked awake current
  obtain ⟨running, _⟩ := (inv.block member notIdle).running current
  have bounded := demoted_priority_lt running.priority
  set block := demoted (scheduler.pcb address) with blockEq
  have readyAt : ReadyAt ⟨block.priority, bounded⟩ block := ⟨rfl, rfl, rfl, running.age⟩
  have pushedBlock : (scheduler.setPcb address block).pcb address = block := setPcb_self
  obtain ⟨lists, enqueued, holds⟩ := schedEnqueue_ready (scheduler.setPcb address block)
    ⟨block.priority, bounded⟩ inv.holds (by rw [pushedBlock, readyAt.state])
    (by rw [pushedBlock]) unlisted
  refine ⟨lists, ⟨block.priority, bounded⟩, rfl, ?_, ?_⟩
  · have quantum : mlfqQuantums[if (scheduler.pcb address).priority < mlfqLevels - 1 then
        (scheduler.pcb address).priority + 1 else (scheduler.pcb address).priority]? =
          some block.quantumRemaining := mlfqQuantums_getElem bounded
    have zero : u32Sub (scheduler.pcb address).quantumRemaining 1 = 0 := by
      rw [last]
      rfl
    intro fuel
    simp only [schedTick, current, notIdle, ↓reduceIte, zero, quantum, Option.bind_eq_bind,
      Option.bind_some]
    change (schedEnqueue (scheduler.setPcb address block) (some address)).bind _ = _
    rw [enqueued]
    rfl
  · refine inv.append holds ?_ notIdle rfl ?_ ⟨?_, ?_, ?_, ?_⟩
    · intro other
      exact ⟨.inr, fun either => either.elim (fun same => same ▸ member) id⟩
    · intro other different
      refine ⟨setPcb_of_ne different, ?_⟩
      simp [Scheduler.setCurrent, current, different.symm]
    · intro level listed
      cases mem_push.mp listed with
      | inl old => exact absurd old (unlisted _)
      | inr new =>
          obtain rfl := SchedList.level.inj new.2
          change ReadyAt _ ((scheduler.setPcb address block).pcb address)
          rw [pushedBlock]
          exact readyAt
    · intro listed
      cases mem_push.mp listed with
      | inl old => exact absurd old (unlisted _)
      | inr new => cases new.2
    · intro isCurrent
      cases isCurrent
    · exact .inr ⟨_, mem_push.mpr (.inr ⟨rfl, rfl⟩)⟩

theorem mem_agedLevels {address : Nat} :
    address ∈ agedLevels queue ↔ ∃ level : Fin 4, 0 < level.val ∧ address ∈ queue (.level level) := by
  simp only [agedLevels, List.mem_append]
  constructor
  · rintro ((inside | inside) | inside)
    · exact ⟨1, by decide, inside⟩
    · exact ⟨2, by decide, inside⟩
    · exact ⟨3, by decide, inside⟩
  · rintro ⟨level, positive, inside⟩
    match level with
    | 0 => exact absurd positive (by decide)
    | 1 => exact .inl (.inl inside)
    | 2 => exact .inl (.inr inside)
    | 3 => exact .inr inside

/-- A block is on `level` after the aging pass exactly when it stayed there or was
promoted from the level above. -/
theorem mem_agedQueues {pcb : Nat → ProcessControlBlock} {level : Fin 4} {address : Nat} :
    address ∈ agedQueues queue pcb (.level level) ↔
      (address ∈ queue (.level level) ∧ (level.val = 0 ∨ promotes (pcb address) = false)) ∨
      ∃ upper : Fin 4, upper.val = level.val + 1 ∧ address ∈ queue (.level upper) ∧
        promotes (pcb address) = true := by
  have onlyUpper : ∀ (upper next : Fin 4), upper.val = next.val → upper = next :=
    fun _ _ => Fin.ext
  match level with
  | 0 =>
      simp only [agedQueues, List.mem_append, List.mem_filter]
      constructor
      · rintro (inside | inside)
        · exact .inl ⟨inside, .inl rfl⟩
        · exact .inr ⟨1, rfl, inside⟩
      · rintro (inside | ⟨upper, upperEq, inside⟩)
        · exact .inl inside.1
        · exact .inr (onlyUpper upper 1 upperEq ▸ inside)
  | 1 =>
      simp only [agedQueues, List.mem_append, List.mem_filter, Bool.not_eq_true']
      constructor
      · rintro (inside | inside)
        · exact .inl ⟨inside.1, .inr inside.2⟩
        · exact .inr ⟨2, rfl, inside⟩
      · rintro (inside | ⟨upper, upperEq, inside⟩)
        · exact .inl ⟨inside.1, inside.2.resolve_left (by decide)⟩
        · exact .inr (onlyUpper upper 2 upperEq ▸ inside)
  | 2 =>
      simp only [agedQueues, List.mem_append, List.mem_filter, Bool.not_eq_true']
      constructor
      · rintro (inside | inside)
        · exact .inl ⟨inside.1, .inr inside.2⟩
        · exact .inr ⟨3, rfl, inside⟩
      · rintro (inside | ⟨upper, upperEq, inside⟩)
        · exact .inl ⟨inside.1, inside.2.resolve_left (by decide)⟩
        · exact .inr (onlyUpper upper 3 upperEq ▸ inside)
  | 3 =>
      simp only [agedQueues, List.mem_filter, Bool.not_eq_true']
      constructor
      · intro inside
        exact .inl ⟨inside.1, .inr inside.2⟩
      · rintro (inside | ⟨upper, upperEq, _⟩)
        · exact ⟨inside.1, inside.2.resolve_left (by decide)⟩
        · exact absurd upperEq (Nat.ne_of_lt upper.isLt)

/-- The aging pass moves blocks between levels but neither drops nor adds one. -/
theorem listed_agedQueues {pcb : Nat → ProcessControlBlock} {address : Nat} :
    (∃ list, address ∈ agedQueues queue pcb list) ↔ ∃ list, address ∈ queue list := by
  constructor
  · rintro ⟨list, inside⟩
    cases list with
    | waiting => exact ⟨.waiting, inside⟩
    | level level =>
        rcases mem_agedQueues.mp inside with stayed | ⟨upper, _, moved⟩
        · exact ⟨_, stayed.1⟩
        · exact ⟨_, moved.1⟩
  · rintro ⟨list, inside⟩
    cases list with
    | waiting => exact ⟨.waiting, inside⟩
    | level level =>
        cases promoted : promotes (pcb address) with
        | false => exact ⟨_, mem_agedQueues.mpr (.inl ⟨inside, .inr promoted⟩)⟩
        | true =>
            by_cases bottom : level.val = 0
            · exact ⟨_, mem_agedQueues.mpr (.inl ⟨inside, .inl bottom⟩)⟩
            · refine ⟨.level (below level), mem_agedQueues.mpr (.inr ⟨level, ?_, inside, promoted⟩)⟩
              simp only [below]
              omega

/-- A block queued after the aging pass fits the level it is on. -/
private theorem readyAt_aged {pcb : Nat → ProcessControlBlock} {level : Fin 4} {address : Nat}
    (apart : ∀ {left right : SchedList}, address ∈ queue left → address ∈ queue right →
      left = right)
    (ready : ∀ {level}, address ∈ queue (.level level) → ReadyAt level (pcb address))
    (inside : address ∈ agedQueues queue pcb (.level level)) :
    ReadyAt level (ageBlocks pcb (agedLevels queue) address) := by
  rcases mem_agedQueues.mp inside with ⟨stayed, reason⟩ | ⟨upper, upperEq, moved, promoted⟩
  · have readyAt := ready stayed
    by_cases bottom : level.val = 0
    · have untouched : address ∉ agedLevels queue := by
        intro member
        obtain ⟨other, positive, elsewhere⟩ := mem_agedLevels.mp member
        obtain rfl := SchedList.level.inj (apart stayed elsewhere)
        omega
      simpa [ageBlocks, untouched] using readyAt
    · have visited : address ∈ agedLevels queue :=
        mem_agedLevels.mpr ⟨level, Nat.pos_of_ne_zero bottom, stayed⟩
      have staying := reason.resolve_left bottom
      have early : ¬ ageTickMax ≤ (pcb address).ageTicks + 1 := of_decide_eq_false staying
      simp only [ageBlocks, visited, ↓reduceIte, aged, staying, Bool.false_eq_true]
      exact ⟨readyAt.state, readyAt.priority, readyAt.quantum, by simpa using early⟩
  · have readyAt := ready moved
    have visited : address ∈ agedLevels queue := mem_agedLevels.mpr ⟨upper, by omega, moved⟩
    have lower : (pcb address).priority - 1 = level.val := by
      rw [readyAt.priority, upperEq]
      rfl
    simp only [ageBlocks, visited, ↓reduceIte, aged, promoted, lower]
    exact ⟨readyAt.state, rfl, rfl, by simp [ageTickMax]⟩

/-- The current process after a tick that does not end its quantum. -/
def counted (block : ProcessControlBlock) : ProcessControlBlock :=
  { block with quantumRemaining := block.quantumRemaining - 1 }

/-- The scheduler after such a tick, once the aging pass has left `lists`. -/
def ticked (scheduler : Scheduler) (address : Nat) (queue : Queues)
    (lists : ListStore SchedList Nat) : Scheduler :=
  { scheduler with
    lists := lists
    pcb := ageBlocks (scheduler.setPcb address (counted (scheduler.pcb address))).pcb
      (agedLevels queue) }

private theorem ticked_of_ne {address other : Nat} {lists : ListStore SchedList Nat}
    (fresh : other ∉ agedLevels queue) (different : other ≠ address) :
    (ticked scheduler address queue lists).pcb other = scheduler.pcb other := by
  simp only [ticked, ageBlocks, fresh, ↓reduceIte]
  exact setPcb_of_ne different

private theorem ticked_self {address : Nat} {lists : ListStore SchedList Nat}
    (fresh : address ∉ agedLevels queue) :
    (ticked scheduler address queue lists).pcb address = counted (scheduler.pcb address) := by
  simp only [ticked, ageBlocks, fresh, ↓reduceIte]
  exact setPcb_self

/-- A tick on which an awake process keeps running only counts it down and ages
the levels below the top one. -/
theorem SchedInv.age (inv : SchedInv scheduler created queue) (awake : CurrentAwake scheduler)
    {address : Nat} (current : scheduler.currentPcb = some address)
    (notIdle : some address ≠ scheduler.idlePcb)
    (more : (scheduler.pcb address).quantumRemaining ≠ 1) :
    ∃ lists, (∀ fuel, schedTick fuel scheduler =
        if (queue (.level 1)).length < fuel ∧ (queue (.level 2)).length < fuel ∧
            (queue (.level 3)).length < fuel then some (ticked scheduler address queue lists)
        else none) ∧
      SchedInv (ticked scheduler address queue lists) created
        (agedQueues queue (scheduler.setPcb address (counted (scheduler.pcb address))).pcb) := by
  have unlisted := inv.current_unlinked awake current
  obtain ⟨running, place⟩ := (inv.block (inv.current current) notIdle).running current
  set block := counted (scheduler.pcb address) with blockEq
  have pushedBlock : (scheduler.setPcb address block).pcb address = block := setPcb_self
  have listedNe : ∀ {list other}, other ∈ queue list → other ≠ address :=
    fun inside same => unlisted _ (same ▸ inside)
  have ready : ∀ {level other}, other ∈ queue (.level level) →
      ReadyAt level ((scheduler.setPcb address block).pcb other) := by
    intro level other inside
    rw [setPcb_of_ne (listedNe inside)]
    exact (inv.block (inv.queued inside).1 (inv.queued inside).2).ready inside
  have ageable : Ageable queue (scheduler.setPcb address block).pcb := by
    intro level _ other inside
    exact ⟨(ready inside).priority, (ready inside).age⟩
  obtain ⟨lists, holds, walk⟩ := ageLevels_holds (scheduler.setPcb address block)
    inv.holds ageable
  have untouched : ∀ {other}, (∀ list, other ∉ queue list) → other ∉ agedLevels queue := by
    intro other absent member
    obtain ⟨level, _, inside⟩ := mem_agedLevels.mp member
    exact absent _ inside
  refine ⟨lists, ?_, ?_⟩
  · intro fuel
    have counted : u32Sub (scheduler.pcb address).quantumRemaining 1 =
        (scheduler.pcb address).quantumRemaining - 1 := u32Sub_of_le running.quantum
    have positive : (scheduler.pcb address).quantumRemaining - 1 ≠ 0 := by
      have quantum := running.quantum
      omega
    simp only [schedTick, current, notIdle, ↓reduceIte, counted, positive]
    exact walk fuel
  · refine ⟨holds, ?_, ?_, inv.current, ?_⟩
    · intro list other inside
      obtain ⟨old, member⟩ := listed_agedQueues.mp ⟨list, inside⟩
      exact inv.queued member
    · intro other member otherNotIdle
      have old := inv.block member otherNotIdle
      refine ⟨?_, ?_, ?_, ?_⟩
      · intro level inside
        exact readyAt_aged inv.holds.apart ready inside
      · intro inside
        have fresh : other ∉ agedLevels queue := by
          intro visited
          obtain ⟨level, _, elsewhere⟩ := mem_agedLevels.mp visited
          cases inv.holds.apart inside elsewhere
        rw [ticked_of_ne fresh (listedNe inside)]
        exact old.waiting inside
      · intro isCurrent
        obtain rfl : other = address := Option.some.inj (isCurrent.symm.trans current)
        have fresh := untouched unlisted
        have awakeState := place.resolve_right (unlisted _)
        rw [ticked_self fresh]
        refine ⟨⟨running.priority, ?_, ?_, running.age⟩, .inl ⟨awakeState.1, ?_⟩⟩
        · have quantum := running.quantum
          simp only [counted]
          omega
        · exact Nat.le_trans (Nat.sub_le _ _) running.quantumMax
        · intro list inside
          obtain ⟨old, elsewhere⟩ := listed_agedQueues.mp ⟨list, inside⟩
          exact unlisted old elsewhere
      · exact old.placed.imp id listed_agedQueues.mpr
    · intro other otherIdle
      obtain ⟨member, state⟩ := inv.idle otherIdle
      have absent : ∀ list, other ∉ queue list :=
        fun list inside => (inv.queued inside).2 otherIdle.symm
      have different : other ≠ address := fun same => notIdle (same ▸ otherIdle.symm)
      refine ⟨member, ?_⟩
      rw [ticked_of_ne (untouched absent) different]
      exact state

end KdbOS.Proc
