import KdbOS.Proc.SchedProperties

/-! The aging pass of `sched_tick` as a whole: what becomes of the ready queues and of the
blocks while the current process keeps its quantum. -/

set_option autoImplicit false

namespace KdbOS.Proc

open Library Ds

variable {scheduler : Scheduler} {queue : Queues} {created : List Nat} {current address : Nat}

/-- What the pass relies on. -/
structure Ageing (scheduler : Scheduler) (queue : Queues) : Prop where
  holds : Holds scheduler.lists queue
  ageable : Ageable queue scheduler.pcb
  current : ∀ address, scheduler.currentPcb = some address →
    ∀ level, address ∉ queue (.level level)

theorem SchedInv.ageing (inv : SchedInv scheduler created queue) : Ageing scheduler queue where
  holds := inv.holds
  ageable := by
    intro level _ address inside
    obtain ⟨member, notIdle⟩ := inv.queued inside
    have readyAt := (inv.block member notIdle).ready inside
    exact ⟨readyAt.priority, readyAt.age⟩
  current := by
    intro address isCurrent level inside
    obtain ⟨member, notIdle⟩ := inv.queued inside
    cases ((inv.block member notIdle).running isCurrent).2 with
    | inl running => exact running.2 _ inside
    | inr waiting => cases inv.holds.apart inside waiting

/-- The blocks that stay on a level; those of level 0 are not aged. -/
def staying (scheduler : Scheduler) (queue : Queues) (level : Fin 4) : List Nat :=
  if level = 0 then queue (.level level)
  else (queue (.level level)).filter fun address =>
    decide ((scheduler.pcb address).ageTicks + 1 < ageTickMax)

/-- The blocks that come from the level above. -/
def arriving (scheduler : Scheduler) (queue : Queues) (level : Fin 4) : List Nat :=
  if bounded : level.val + 1 < 4 then
    (queue (.level ⟨level.val + 1, bounded⟩)).filter fun address =>
      decide (ageTickMax ≤ (scheduler.pcb address).ageTicks + 1)
  else []

/-- The ready queues and the blocks before and after the pass. -/
structure AgingPass (scheduler after : Scheduler) (current : Nat) (queue queue' : Queues) :
    Prop where
  holds : Holds after.lists queue'
  levels : ∀ level, queue' (.level level) =
    staying scheduler queue level ++ arriving scheduler queue level
  waiting : queue' .waiting = queue .waiting
  aged : ∀ level : Fin 4, 0 < level.val → ∀ address ∈ queue (.level level),
    (scheduler.pcb address).ageTicks + 1 < ageTickMax →
    after.pcb address =
      { scheduler.pcb address with ageTicks := (scheduler.pcb address).ageTicks + 1 }
  promoted : ∀ level : Fin 4, 0 < level.val → ∀ address ∈ queue (.level level),
    ageTickMax ≤ (scheduler.pcb address).ageTicks + 1 →
    ∃ quantum, mlfqQuantums[level.val - 1]? = some quantum ∧
      after.pcb address =
        { scheduler.pcb address with
          ageTicks := 0, priority := level.val - 1, quantumRemaining := quantum }
  untouched : ∀ address ≠ current, (∀ level : Fin 4, 0 < level.val → address ∉ queue (.level level)) →
    after.pcb address = scheduler.pcb address
  counted : after.pcb current = { scheduler.pcb current with
    quantumRemaining := u32Sub (scheduler.pcb current).quantumRemaining 1 }
  moves : ∀ level level' : Fin 4, ∀ address ∈ queue (.level level),
    address ∈ queue' (.level level') → level' = level ∨ level'.val + 1 = level.val
  kept : ∀ address, (∃ level, address ∈ queue' (.level level)) ↔
    ∃ level, address ∈ queue (.level level)
  currentPcb : after.currentPcb = scheduler.currentPcb
  idlePcb : after.idlePcb = scheduler.idlePcb
  outb : after.outb = scheduler.outb

theorem agedQueues_level {pcb : Nat → ProcessControlBlock}
    (same : ∀ level, ∀ address ∈ queue (.level level), pcb address = scheduler.pcb address)
    (level : Fin 4) : agedQueues queue pcb (.level level) =
      staying scheduler queue level ++ arriving scheduler queue level := by
  have promotes_eq : ∀ level, ((queue (.level level)).filter fun address => promotes (pcb address)) =
      (queue (.level level)).filter fun address =>
        decide (ageTickMax ≤ (scheduler.pcb address).ageTicks + 1) := by
    intro level
    refine List.filter_congr fun address inside => ?_
    rw [same level address inside]
    rfl
  have keeps_eq : ∀ level, ((queue (.level level)).filter fun address => !promotes (pcb address)) =
      (queue (.level level)).filter fun address =>
        decide ((scheduler.pcb address).ageTicks + 1 < ageTickMax) := by
    intro level
    refine List.filter_congr fun address inside => ?_
    rw [same level address inside, promotes, ← decide_not, decide_eq_decide]
    exact Nat.not_le
  match level with
  | 0 => simp only [agedQueues, promotes_eq]; rfl
  | 1 => simp only [agedQueues, promotes_eq, keeps_eq]; rfl
  | 2 => simp only [agedQueues, promotes_eq, keeps_eq]; rfl
  | 3 =>
      simp only [agedQueues, keeps_eq]
      exact (List.append_nil _).symm

/-- A block moves down by at most one level. -/
theorem agedQueues_moves {pcb : Nat → ProcessControlBlock} {level level' : Fin 4}
    (holds : Holds scheduler.lists queue) (inside : address ∈ queue (.level level))
    (after : address ∈ agedQueues queue pcb (.level level')) :
    level' = level ∨ level'.val + 1 = level.val := by
  rcases mem_agedQueues.mp after with ⟨stayed, _⟩ | ⟨upper, upperEq, moved, _⟩
  · exact .inl (SchedList.level.inj (holds.apart stayed inside))
  · obtain rfl := SchedList.level.inj (holds.apart moved inside)
    exact .inr upperEq.symm

theorem agedQueues_kept {pcb : Nat → ProcessControlBlock} (holds : Holds scheduler.lists queue)
    (address : Nat) : (∃ level, address ∈ agedQueues queue pcb (.level level)) ↔
      ∃ level, address ∈ queue (.level level) := by
  constructor
  · rintro ⟨level, inside⟩
    rcases mem_agedQueues.mp inside with ⟨stayed, _⟩ | ⟨upper, _, moved, _⟩
    · exact ⟨level, stayed⟩
    · exact ⟨upper, moved⟩
  · rintro ⟨level, inside⟩
    obtain ⟨list, after⟩ := listed_agedQueues.mpr ⟨_, inside⟩
    cases list with
    | level level' => exact ⟨level', after⟩
    | waiting => cases holds.apart after inside

/-- What the pass makes of a block on one of the levels 1 to 3. -/
theorem ageBlocks_of_level {pcb : Nat → ProcessControlBlock} {level : Fin 4}
    (positive : 0 < level.val) (inside : address ∈ queue (.level level)) :
    ageBlocks pcb (agedLevels queue) address = aged (pcb address) :=
  if_pos (mem_agedLevels.mpr ⟨level, positive, inside⟩)

/-- `sched_tick` while the quantum of the current process goes on. It ends exactly when its
walks get enough fuel. -/
theorem Ageing.tick (ageing : Ageing scheduler queue)
    (isCurrent : scheduler.currentPcb = some current)
    (notIdle : some current ≠ scheduler.idlePcb)
    (more : u32Sub (scheduler.pcb current).quantumRemaining 1 ≠ 0) :
    ∃ bound after queue',
      (∀ fuel, schedTick fuel scheduler = if bound ≤ fuel then some after else none) ∧
      AgingPass scheduler after current queue queue' := by
  have offLevels := ageing.current current isCurrent
  let block := { scheduler.pcb current with
    quantumRemaining := u32Sub (scheduler.pcb current).quantumRemaining 1 }
  have same : ∀ level, ∀ address ∈ queue (.level level),
      (scheduler.setPcb current block).pcb address = scheduler.pcb address :=
    fun level address inside =>
      setPcb_of_ne fun isSame => offLevels level (isSame ▸ inside)
  have ageable : Ageable queue (scheduler.setPcb current block).pcb := by
    intro level positive address inside
    rw [same level address inside]
    exact ageing.ageable level positive address inside
  obtain ⟨lists, holds, walk⟩ :=
    ageLevels_holds (scheduler.setPcb current block) ageing.holds ageable
  have notAged : current ∉ agedLevels queue := by
    intro visited
    obtain ⟨level, _, inside⟩ := mem_agedLevels.mp visited
    exact offLevels level inside
  let after : Scheduler := { scheduler.setPcb current block with
    lists := lists
    pcb := ageBlocks (scheduler.setPcb current block).pcb (agedLevels queue) }
  refine ⟨max (queue (.level 1)).length (max (queue (.level 2)).length
    (queue (.level 3)).length) + 1, after, agedQueues queue (scheduler.setPcb current block).pcb,
    fun fuel => ?_, ?_⟩
  · have ticks : schedTick fuel scheduler =
        ageLevels fuel (scheduler.setPcb current block) [1, 2, 3] := by
      rw [schedTick, isCurrent]
      dsimp only
      rw [if_neg notIdle, if_neg more]
    rw [ticks, walk]
    exact if_congr (by omega) rfl rfl
  · have pass : after.pcb =
        ageBlocks (scheduler.setPcb current block).pcb (agedLevels queue) := rfl
    exact {
      holds := holds
      levels := agedQueues_level same
      waiting := rfl
      aged := fun level positive address inside early => by
        rw [pass, ageBlocks_of_level positive inside, same level address inside, aged, if_neg]
        rw [promotes, decide_eq_true_eq]
        exact Nat.not_le.mpr early
      promoted := fun level positive address inside reached => by
        have priority := (ageing.ageable level positive address inside).1
        have lower : level.val - 1 < 4 := by omega
        have reaches : promotes (scheduler.pcb address) = true := decide_eq_true reached
        refine ⟨_, mlfqQuantums_getElem lower, ?_⟩
        rw [pass, ageBlocks_of_level positive inside, same level address inside, aged,
          if_pos reaches, priority]
      untouched := fun address different absent => by
        have fresh : address ∉ agedLevels queue := by
          intro visited
          obtain ⟨level, positive, inside⟩ := mem_agedLevels.mp visited
          exact absent level positive inside
        exact (if_neg fresh).trans (setPcb_of_ne different)
      counted := (if_neg notAged).trans setPcb_self
      moves := fun level level' address inside after =>
        agedQueues_moves ageing.holds inside after
      kept := agedQueues_kept ageing.holds
      currentPcb := rfl
      idlePcb := rfl
      outb := rfl }

/-- `sched_tick` while the quantum of the current process, which is not the idle one, goes
on: every walk ends, and the queues and blocks are those of one aging pass. -/
theorem schedTick_ages (ageing : Ageing scheduler queue)
    (isCurrent : scheduler.currentPcb = some current)
    (notIdle : some current ≠ scheduler.idlePcb)
    (more : u32Sub (scheduler.pcb current).quantumRemaining 1 ≠ 0) :
    ∃ bound after, (∀ fuel, bound ≤ fuel → schedTick fuel scheduler = some after) ∧
      ∃ queue', AgingPass scheduler after current queue queue' := by
  obtain ⟨bound, after, queue', ticks, pass⟩ := ageing.tick isCurrent notIdle more
  exact ⟨bound, after, fun fuel enough => (ticks fuel).trans (if_pos enough), queue', pass⟩

/-- Two processes are enqueued and the first is dispatched; the next tick ages the queues. -/
theorem schedTick_ages_sample :
    ∃ (final : SchedSystem) (after : Scheduler) (queue queue' : Queues),
      final.scheduler.currentPcb = some 1 ∧
      (∃ fuel, schedTick fuel final.scheduler = some after) ∧
      AgingPass final.scheduler after 1 queue queue' := by
  have performed : ([.enqueue 1 1 4096 4096 8192, .enqueue 2 2 4096 4096 8192, .timer].foldlM
      (perform 4) sampleStart).map (fun final => (final.scheduler.currentPcb,
        final.scheduler.idlePcb, (final.scheduler.pcb 1).quantumRemaining)) =
        some (some 1, some 100, 40) := by decide
  obtain ⟨final, reached, facts⟩ := Option.map_eq_some_iff.mp performed
  obtain ⟨trace, run, labels⟩ := sampleRun _ reached
  obtain ⟨queue, inv, _⟩ := sampleStart_initialised.inv_of_run run (by
    intro transition member
    have label := List.mem_map_of_mem (f := Transition.label) member
    rw [labels] at label
    simp only [List.mem_cons, List.not_mem_nil, or_false] at label
    rcases label with label | label | label <;> rw [label] <;> trivial)
  obtain ⟨isCurrent, isIdle, quantum⟩ : final.scheduler.currentPcb = some 1 ∧
      final.scheduler.idlePcb = some 100 ∧ (final.scheduler.pcb 1).quantumRemaining = 40 := by
    simpa using facts
  obtain ⟨bound, after, ticks, queue', pass⟩ := schedTick_ages inv.ageing isCurrent
    (by rw [isIdle]; decide) (by rw [quantum]; decide)
  exact ⟨final, after, queue, queue', isCurrent, ⟨bound, ticks bound (Nat.le_refl bound)⟩, pass⟩

end KdbOS.Proc
