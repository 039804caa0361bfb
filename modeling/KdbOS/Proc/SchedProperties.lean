import KdbOS.Proc.SchedTimer

/-! What holds in every state of a scheduler run: the discipline of the feedback
queues while no process blocks, and the law of waiting processes. -/

set_option autoImplicit false

namespace KdbOS.Proc

open Library Ds

variable {start final before after : SchedSystem} {queue : Queues} {label : SchedOp}
variable {trace : List (Transition SchedSystem SchedOp)}

/-- No step is taken on a process that has blocked and is still current. -/
def Orderly (system : SchedSystem) : SchedOp → Prop
  | .enqueue .. => True
  | .timer => CurrentAwake system.scheduler
  | .block => CurrentAwake system.scheduler
  | .unblock address =>
      (system.scheduler.pcb address).state = .waiting →
        system.scheduler.currentPcb ≠ some address

/-- Enqueueing and the timer, as opposed to blocking and unblocking. -/
def EnqueueOrTimer : SchedOp → Prop
  | .enqueue .. => True
  | .timer => True
  | .block => False
  | .unblock _ => False

theorem SchedInv.awake_of_empty {scheduler : Scheduler} {created : List Nat}
    (inv : SchedInv scheduler created queue) (empty : queue .waiting = []) :
    CurrentAwake scheduler := by
  intro address current state
  have inside := (inv.waiting_iff (inv.current current)).mp state
  rw [empty] at inside
  cases inside

/-- One step of a run keeps the invariant, and says which processes go on waiting. -/
theorem SchedInv.step (inv : SchedInv before.scheduler before.created queue)
    (orderly : Orderly before label) (step : SchedStep before label after) :
    ∃ queue', SchedInv after.scheduler after.created queue' ∧
      (∀ address ∈ queue .waiting, label ≠ .unblock address → address ∈ queue' .waiting) ∧
      (label = .timer → CurrentAwake after.scheduler) ∧
      (EnqueueOrTimer label → queue' .waiting = queue .waiting) ∧
      after.scheduler.idlePcb = before.scheduler.idlePcb := by
  cases step with
  | @enqueue _ address pid addressSpace addressSpacePhysical kernelStackPtr fresh enqueued =>
      obtain ⟨lists, result, inv'⟩ :=
        inv.enqueue fresh pid addressSpace addressSpacePhysical kernelStackPtr
      obtain rfl := Option.some.inj (enqueued.symm.trans result)
      refine ⟨_, inv', ?_, by simp, by simp, rfl⟩
      intro other inside _
      simpa using inside
  | @timer fuel dispatch scheduler handled =>
      obtain ⟨queue', inv', timerDone⟩ := inv.handled orderly handled
      refine ⟨queue', inv', ?_, fun _ => timerDone.awake, fun _ => timerDone.waiting,
        timerDone.idle⟩
      intro other inside _
      rw [timerDone.waiting]
      exact inside
  | @block scheduler blocked =>
      obtain ⟨after, queue', result, inv', stays, idle⟩ := inv.blockProcess orderly
      obtain rfl := Option.some.inj (blocked.symm.trans result)
      exact ⟨queue', inv', fun other inside _ => stays other inside, by simp, False.elim, idle⟩
  | @unblock scheduler address member unblocked =>
      obtain ⟨after, queue', result, inv', stays, idle⟩ := inv.unblockProcess member orderly
      obtain rfl := Option.some.inj (unblocked.symm.trans result)
      refine ⟨queue', inv', ?_, by simp, False.elim, idle⟩
      intro other inside different
      exact stays other inside fun same => different (same ▸ rfl)

/-! ## Runs without blocking -/

/-- The discipline of the multi-level feedback queues. -/
structure MlfqDiscipline (system : SchedSystem) (queue : Queues) : Prop where
  holds : Holds system.scheduler.lists queue
  placed : ∀ address ∈ system.created, some address ≠ system.scheduler.idlePcb →
    (system.scheduler.currentPcb = some address ∧ ∀ level, address ∉ queue (.level level)) ∨
    (system.scheduler.currentPcb ≠ some address ∧
      ∃ level, (queue (.level level)).count address = 1 ∧
        ∀ other, other ≠ level → address ∉ queue (.level other))
  queued : ∀ (level : Fin 4), ∀ address ∈ queue (.level level),
    (system.scheduler.pcb address).state = .ready ∧
    (system.scheduler.pcb address).priority = level.val ∧
    mlfqQuantums[level.val]? = some (system.scheduler.pcb address).quantumRemaining ∧
    (system.scheduler.pcb address).ageTicks < ageTickMax
  running : ∀ address, system.scheduler.currentPcb = some address →
    some address ≠ system.scheduler.idlePcb →
    (system.scheduler.pcb address).state = .running ∧ (∀ list, address ∉ queue list) ∧
    (system.scheduler.pcb address).priority < mlfqLevels ∧
    1 ≤ (system.scheduler.pcb address).quantumRemaining ∧
    ∃ quantum, mlfqQuantums[(system.scheduler.pcb address).priority]? = some quantum ∧
      (system.scheduler.pcb address).quantumRemaining ≤ quantum
  /-- No later call reads an array out of range or walks a broken list. -/
  enqueues : ∀ address ∉ system.created,
    ∀ pid addressSpace addressSpacePhysical kernelStackPtr,
      (schedEnqueue (system.scheduler.create address
        (createdPcb pid addressSpace addressSpacePhysical kernelStackPtr))
          (some address)).isSome
  ticks : ∃ bound, ∀ fuel, bound ≤ fuel → (schedTimerHandler fuel system.scheduler).isSome

private theorem SchedInv.discipline {system : SchedSystem}
    (inv : SchedInv system.scheduler system.created queue) (empty : queue .waiting = [])
    (hasIdle : system.scheduler.idlePcb ≠ none) : MlfqDiscipline system queue := by
  have awake := inv.awake_of_empty empty
  constructor
  · exact inv.holds
  · intro address member notIdle
    by_cases current : system.scheduler.currentPcb = some address
    · exact .inl ⟨current, fun level => inv.current_unlinked awake current _⟩
    · obtain ⟨list, inside⟩ := (inv.block member notIdle).placed.resolve_left current
      cases list with
      | waiting =>
          rw [empty] at inside
          cases inside
      | level level =>
          refine .inr ⟨current, level, List.count_eq_one_of_mem (inv.holds.unique _) inside, ?_⟩
          intro other different elsewhere
          exact different (SchedList.level.inj (inv.holds.apart elsewhere inside))
  · intro level address inside
    have readyAt := (inv.block (inv.queued inside).1 (inv.queued inside).2).ready inside
    refine ⟨readyAt.state, readyAt.priority, ?_, readyAt.age⟩
    rw [readyAt.quantum]
    exact mlfqQuantums_getElem level.isLt
  · intro address current notIdle
    obtain ⟨running, place⟩ := (inv.block (inv.current current) notIdle).running current
    have unlinked := inv.current_unlinked awake current
    have state := (place.resolve_right (unlinked _)).1
    exact ⟨state, unlinked, running.priority, running.quantum, _,
      mlfqQuantums_getElem running.priority, running.quantumMax⟩
  · intro address fresh pid addressSpace addressSpacePhysical kernelStackPtr
    obtain ⟨lists, enqueued, _⟩ :=
      inv.enqueue fresh pid addressSpace addressSpacePhysical kernelStackPtr
    rw [enqueued]
    rfl
  · obtain ⟨bound, result, handles, stuck, _⟩ := inv.timer awake
    refine ⟨bound, fun fuel enough => ?_⟩
    rw [handles fuel, if_pos enough, Option.isSome_iff_ne_none]
    exact fun none => hasIdle (stuck none)

/-- While no process has blocked, both kinds of steps keep the invariant. -/
theorem SchedInv.step_of_empty (inv : SchedInv before.scheduler before.created queue)
    (empty : queue .waiting = []) (allowed : EnqueueOrTimer label)
    (step : SchedStep before label after) :
    ∃ queue', SchedInv after.scheduler after.created queue' ∧ queue' .waiting = [] ∧
      after.scheduler.idlePcb = before.scheduler.idlePcb := by
  have orderly : Orderly before label := by
    cases label with
    | enqueue => trivial
    | timer => exact inv.awake_of_empty empty
    | block => exact allowed.elim
    | unblock => exact allowed.elim
  obtain ⟨queue', inv', _, _, waiting, sameIdle⟩ := inv.step orderly step
  exact ⟨queue', inv', (waiting allowed).trans empty, sameIdle⟩

theorem Initialised.inv_of_run (initialised : Initialised start) (run : SchedRun start trace final)
    (operations : ∀ transition ∈ trace, EnqueueOrTimer transition.label) :
    ∃ queue, SchedInv final.scheduler final.created queue ∧ queue .waiting = [] ∧
      final.scheduler.idlePcb = start.scheduler.idlePcb := by
  refine (run.invariant (fun _ label => EnqueueOrTimer label)
    (fun system => ∃ queue, SchedInv system.scheduler system.created queue ∧
      queue .waiting = [] ∧ system.scheduler.idlePcb = start.scheduler.idlePcb)
    ⟨_, initialised.inv, rfl, rfl⟩ ?_ operations).1
  intro before label after known allowed step
  obtain ⟨queue, inv, empty, idle⟩ := known
  obtain ⟨queue', inv', empty', sameIdle⟩ := inv.step_of_empty empty allowed step
  exact ⟨queue', inv', empty', sameIdle.trans idle⟩

/-- With an idle process, every state that fresh processes and timer interrupts
can lead to obeys the discipline. -/
theorem mlfq_discipline (initialised : Initialised start)
    (hasIdle : start.scheduler.idlePcb ≠ none) (run : SchedRun start trace final)
    (operations : ∀ transition ∈ trace, EnqueueOrTimer transition.label) :
    ∃ queue, MlfqDiscipline final queue := by
  obtain ⟨queue, inv, empty, idle⟩ := initialised.inv_of_run run operations
  exact ⟨queue, inv.discipline empty (idle ▸ hasIdle)⟩

/-- Two processes are enqueued and the timer dispatches the first. -/
theorem mlfq_discipline_sample :
    ∃ final queue, final.scheduler.currentPcb = some 1 ∧ final.created = [2, 1, 100] ∧
      MlfqDiscipline final queue := by
  have performed : ([.enqueue 1 1 4096 4096 8192, .enqueue 2 2 4096 4096 8192, .timer].foldlM
      (perform 4) sampleStart).map (fun final => (final.scheduler.currentPcb, final.created)) =
        some (some 1, [2, 1, 100]) := by decide
  obtain ⟨final, reached, facts⟩ := Option.map_eq_some_iff.mp performed
  obtain ⟨trace, run, labels⟩ := sampleRun _ reached
  obtain ⟨queue, discipline⟩ := mlfq_discipline sampleStart_initialised (by simp [sampleStart, schedInit]) run (by
    intro transition member
    have label := List.mem_map_of_mem (f := Transition.label) member
    rw [labels] at label
    simp only [List.mem_cons, List.not_mem_nil, or_false] at label
    rcases label with label | label | label <;> rw [label] <;> trivial)
  exact ⟨final, queue, congrArg Prod.fst facts, congrArg Prod.snd facts, discipline⟩

/-! ## Waiting processes -/

/-- A waiting process is on the waiting queue and nowhere else, nothing was pushed
while it was linked, and a process on a level is not the current one. -/
def WaitingLaw (system : SchedSystem) : Prop :=
  ∃ queue : Queues, Holds system.scheduler.lists queue ∧
    (∀ address ∈ system.created, (system.scheduler.pcb address).state = .waiting →
      address ∈ queue .waiting ∧ ∀ level, address ∉ queue (.level level)) ∧
    (∀ level, ∀ address ∈ queue (.level level), system.scheduler.currentPcb ≠ some address) ∧
    ∀ entry ∈ system.scheduler.lists.pushed, entry.2 = Link.null

/-- A process stops waiting only by being unblocked, and is not current any more
once a timer interrupt has been handled. -/
def WaitsUntilUnblocked (transition : Transition SchedSystem SchedOp) : Prop :=
  (∀ address ∈ transition.before.created,
    (transition.before.scheduler.pcb address).state = .waiting →
    transition.label ≠ .unblock address →
    (transition.after.scheduler.pcb address).state = .waiting) ∧
  (transition.label = .timer → CurrentAwake transition.after.scheduler)

private theorem SchedInv.waitingLaw {system : SchedSystem}
    (inv : SchedInv system.scheduler system.created queue)
    (apart : ∀ level, ∀ address ∈ queue (.level level),
      system.scheduler.currentPcb ≠ some address) : WaitingLaw system := by
  refine ⟨queue, inv.holds, ?_, apart, inv.holds.clean⟩
  intro address member state
  have inside := (inv.waiting_iff member).mp state
  refine ⟨inside, fun level elsewhere => ?_⟩
  cases inv.holds.apart inside elsewhere

private theorem SchedInv.current_offLevels {system : SchedSystem}
    (inv : SchedInv system.scheduler system.created queue) :
    ∀ level, ∀ address ∈ queue (.level level), system.scheduler.currentPcb ≠ some address := by
  intro level address inside current
  have block := inv.block (inv.queued inside).1 (inv.queued inside).2
  cases (block.running current).2 with
  | inl running => exact running.2 _ inside
  | inr waiting => cases inv.holds.apart waiting inside

/-- In a run whose steps are all orderly the law of waiting processes holds in
every state and over every step. -/
theorem waiting_law_of_orderly (initialised : Initialised start)
    (run : SchedRun start trace final)
    (orderly : ∀ transition ∈ trace, Orderly transition.before transition.label) :
    WaitingLaw final ∧ ∀ transition ∈ trace,
      WaitingLaw transition.before ∧ WaitingLaw transition.after ∧
        WaitsUntilUnblocked transition := by
  have lawful : ∀ {system : SchedSystem},
      (∃ queue, SchedInv system.scheduler system.created queue) → WaitingLaw system := by
    intro system known
    obtain ⟨queue, inv⟩ := known
    exact inv.waitingLaw inv.current_offLevels
  obtain ⟨reached, visited⟩ := run.invariant Orderly
    (fun system => ∃ queue, SchedInv system.scheduler system.created queue)
    ⟨_, initialised.inv⟩ (fun known allowed step => by
      obtain ⟨queue, inv⟩ := known
      obtain ⟨queue', inv', _⟩ := inv.step allowed step
      exact ⟨queue', inv'⟩) orderly
  refine ⟨lawful reached, fun transition member => ?_⟩
  obtain ⟨known, knownAfter, step⟩ := visited transition member
  refine ⟨lawful known, lawful knownAfter, ?_⟩
  obtain ⟨queue, inv⟩ := known
  obtain ⟨queue', inv', stays, awake, _⟩ := inv.step (orderly transition member) step
  refine ⟨?_, awake⟩
  intro address created state different
  have inside := stays address ((inv.waiting_iff created).mp state) different
  exact (inv'.waiting_iff (inv'.queued inside).1).mpr inside

/-- A process is enqueued, dispatched, and blocks. -/
theorem waiting_law_of_orderly_sample :
    ∃ final, (final.scheduler.pcb 1).state = .waiting ∧ WaitingLaw final := by
  have performed : ((perform 4 sampleStart (.enqueue 1 1 4096 4096 8192)).bind fun created =>
      (perform 4 created .timer).bind fun running =>
        (perform 4 running .block).map fun blocked =>
          (created.scheduler.currentPcb, running.scheduler.currentPcb,
            (running.scheduler.pcb 1).state, (blocked.scheduler.pcb 1).state)) =
      some (none, some 1, .running, .waiting) := by decide
  obtain ⟨created, enqueued, performed⟩ := Option.bind_eq_some_iff.mp performed
  obtain ⟨running, ticked, performed⟩ := Option.bind_eq_some_iff.mp performed
  obtain ⟨blocked, stopped, facts⟩ := Option.map_eq_some_iff.mp performed
  simp only [Prod.mk.injEq] at facts
  obtain ⟨noCurrent, current, awake, state⟩ := facts
  have run : SchedRun sampleStart
      ([] ++ [⟨sampleStart, .enqueue 1 1 4096 4096 8192, created⟩] ++ [⟨created, .timer, running⟩] ++
        [⟨running, .block, blocked⟩]) blocked :=
    ((Run.start.step (perform_step enqueued)).step (perform_step ticked)).step (perform_step stopped)
  refine ⟨blocked, state, (waiting_law_of_orderly sampleStart_initialised run ?_).1⟩
  intro transition member
  simp only [List.nil_append, List.cons_append, List.mem_cons, List.not_mem_nil,
    or_false] at member
  rcases member with rfl | rfl | rfl
  · trivial
  · intro address isCurrent
    rw [noCurrent] at isCurrent
    cases isCurrent
  · intro address isCurrent
    obtain rfl : 1 = address := Option.some.inj (current.symm.trans isCurrent)
    simp [awake]

/-- `sched_block_process` does not give up the processor: the blocked process is
still current after the next timer interrupt. -/
theorem waiting_law_fails :
    ¬ ∀ start trace final, Initialised start → SchedRun start trace final →
      WaitingLaw final ∧ ∀ transition ∈ trace, WaitsUntilUnblocked transition := by
  intro lawful
  have performed : (([.enqueue 1 1 4096 4096 8192, .timer, .block].foldlM (perform 4)
      sampleStart).bind fun before => (perform 4 before .timer).map fun after =>
        (after.scheduler.currentPcb, (after.scheduler.pcb 1).state)) = some (some 1, .waiting) := by
    decide
  obtain ⟨before, reached, last⟩ := Option.bind_eq_some_iff.mp performed
  obtain ⟨after, ticked, facts⟩ := Option.map_eq_some_iff.mp last
  obtain ⟨trace, run, _⟩ := sampleRun _ reached
  have law := (lawful _ _ _ sampleStart_initialised (run.step (perform_step ticked))).2
    ⟨before, .timer, after⟩ (by simp)
  exact law.2 rfl 1 (congrArg Prod.fst facts) (congrArg Prod.snd facts)

end KdbOS.Proc
