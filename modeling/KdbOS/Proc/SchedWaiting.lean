import KdbOS.Proc.SchedPair

/-! Ages and waiting times. A process is promoted for its age, which counts the timer
interrupts it has waited through, but which a dispatch does not reset. -/

set_option autoImplicit false

namespace KdbOS.Proc

open Library Ds

variable {start final before after system : SchedSystem} {queue : Queues} {created : List Nat}
variable {scheduler : Scheduler} {label : SchedOp} {address count : Nat}
variable {trace earlier later : List (Transition SchedSystem SchedOp)}

/-- The process is on a ready queue and does not run. -/
def WaitsReady (system : SchedSystem) (address : Nat) : Prop :=
  system.scheduler.currentPcb ≠ some address ∧
    ∃ queue, Holds system.scheduler.lists queue ∧ ∃ level, address ∈ queue (.level level)

def timers (trace : List (Transition SchedSystem SchedOp)) : Nat :=
  trace.countP fun transition => decide (transition.label = .timer)

/-- The process has been waiting without a break for at least so many timer interrupts. -/
def WaitedThrough (trace : List (Transition SchedSystem SchedOp)) (address count : Nat) : Prop :=
  ∃ earlier recent, trace = earlier ++ recent ∧ count ≤ timers recent ∧
    ∀ transition ∈ recent, WaitsReady transition.before address

/-- `sched_tick` promotes the process. -/
def Promotes (transition : Transition SchedSystem SchedOp) (address : Nat) : Prop :=
  transition.label = .timer ∧ address ∈ transition.before.created ∧
    (transition.after.scheduler.pcb address).priority <
      (transition.before.scheduler.pcb address).priority

/-- Every promotion so far was waited for. -/
def PromotionsEarned (trace : List (Transition SchedSystem SchedOp)) : Prop :=
  ∀ earlier transition later, trace = earlier ++ transition :: later →
    ∀ address, Promotes transition address →
      WaitedThrough (earlier ++ [transition]) address ageTickMax

/-- A process whose quantum is about to run out has no age left from earlier waiting. -/
def ExpiresFresh (scheduler : Scheduler) : Prop :=
  ∀ current, scheduler.currentPcb = some current → some current ≠ scheduler.idlePcb →
    (scheduler.pcb current).quantumRemaining = 1 → (scheduler.pcb current).ageTicks = 0

/-! ## What a timer interrupt does to ages -/

/-- The age and the priority of one block after a timer interrupt. -/
inductive AgeEffect (scheduler : Scheduler) (address : Nat) (block : ProcessControlBlock) : Prop
  | same : block.ageTicks = (scheduler.pcb address).ageTicks →
      block.priority = (scheduler.pcb address).priority → AgeEffect scheduler address block
  | aged : scheduler.currentPcb ≠ some address →
      block.ageTicks = (scheduler.pcb address).ageTicks + 1 →
      block.priority = (scheduler.pcb address).priority → AgeEffect scheduler address block
  | promoted : scheduler.currentPcb ≠ some address → some address ≠ scheduler.idlePcb →
      ageTickMax ≤ (scheduler.pcb address).ageTicks + 1 → block.ageTicks = 0 →
      AgeEffect scheduler address block
  | demoted : scheduler.currentPcb = some address → some address ≠ scheduler.idlePcb →
      (scheduler.pcb address).quantumRemaining = 1 →
      block.ageTicks = (scheduler.pcb address).ageTicks →
      (scheduler.pcb address).priority ≤ block.priority → AgeEffect scheduler address block

theorem AgingPass.ageEffect {after : Scheduler} {current : Nat} {queue' : Queues}
    (pass : AgingPass scheduler after current queue queue') (inv : SchedInv scheduler created queue)
    (isCurrent : scheduler.currentPcb = some current) (address : Nat) :
    AgeEffect scheduler address (after.pcb address) := by
  by_cases queued : ∃ level : Fin 4, 0 < level.val ∧ address ∈ queue (.level level)
  · obtain ⟨level, positive, inside⟩ := queued
    have notCurrent : scheduler.currentPcb ≠ some address :=
      fun same => inv.ageing.current address same level inside
    rcases Nat.lt_or_ge ((scheduler.pcb address).ageTicks + 1) ageTickMax with early | reached
    · have block := pass.aged level positive address inside early
      exact .aged notCurrent (by rw [block]) (by rw [block])
    · obtain ⟨quantum, _, block⟩ := pass.promoted level positive address inside reached
      exact .promoted notCurrent (inv.queued inside).2 reached (by rw [block])
  · by_cases same : address = current
    · subst same
      exact .same (by rw [pass.counted]) (by rw [pass.counted])
    · have block := pass.untouched address same fun level positive inside =>
        queued ⟨level, positive, inside⟩
      exact .same (by rw [block]) (by rw [block])

private theorem demoted_priority_le (block : ProcessControlBlock) :
    block.priority ≤ (demoted block).priority := by
  show block.priority ≤ if block.priority < mlfqLevels - 1 then block.priority + 1 else block.priority
  split
  · exact Nat.le_succ _
  · exact Nat.le_refl _

/-- `sched_tick` changes ages and priorities in these ways, and a process that is not at the
end of its quantum keeps the processor. -/
theorem SchedInv.tick_ages (inv : SchedInv scheduler created queue) (awake : CurrentAwake scheduler)
    {fuel : Nat} {ticked : Scheduler} (ticks : schedTick fuel scheduler = some ticked) :
    (∀ address, AgeEffect scheduler address (ticked.pcb address)) ∧
      ((∃ current, scheduler.currentPcb = some current ∧ some current ≠ scheduler.idlePcb ∧
          (scheduler.pcb current).quantumRemaining = 1) ∨
        ticked.currentPcb = scheduler.currentPcb) := by
  cases current : scheduler.currentPcb with
  | none =>
      have unchanged : schedTick fuel scheduler = some scheduler := by
        rw [schedTick, current]
      obtain rfl := Option.some.inj (ticks.symm.trans unchanged)
      exact ⟨fun address => .same rfl rfl, .inr current⟩
  | some current' =>
      by_cases isIdle : some current' = scheduler.idlePcb
      · have unchanged : schedTick fuel scheduler = some scheduler := by
          rw [schedTick, current]
          exact if_pos isIdle
        obtain rfl := Option.some.inj (ticks.symm.trans unchanged)
        exact ⟨fun address => .same rfl rfl, .inr current⟩
      · by_cases last : (scheduler.pcb current').quantumRemaining = 1
        · obtain ⟨lists, _, _, expires, _⟩ := inv.expire awake current isIdle last
          obtain rfl := Option.some.inj (ticks.symm.trans (expires fuel))
          refine ⟨fun address => ?_, .inl ⟨current', rfl, isIdle, last⟩⟩
          by_cases same : address = current'
          · subst same
            have block : (((scheduler.setPcb address (demoted (scheduler.pcb address))).setLists
                lists).setCurrent none).pcb address = demoted (scheduler.pcb address) := setPcb_self
            rw [block]
            exact .demoted current isIdle last rfl (demoted_priority_le _)
          · have block : (((scheduler.setPcb current' (demoted (scheduler.pcb current'))).setLists
                lists).setCurrent none).pcb address = scheduler.pcb address := setPcb_of_ne same
            rw [block]
            exact .same rfl rfl
        · have notIdle : some current' ≠ scheduler.idlePcb := isIdle
          obtain ⟨running, _⟩ := (inv.block (inv.current current) notIdle).running current
          have more : u32Sub (scheduler.pcb current').quantumRemaining 1 ≠ 0 := by
            rw [u32Sub_of_le running.quantum]
            have := running.quantum
            omega
          obtain ⟨bound, after, queue', passes, pass⟩ := inv.ageing.tick current notIdle more
          have same : after = ticked := by
            rw [passes fuel] at ticks
            split at ticks
            · exact Option.some.inj ticks
            · cases ticks
          subst same
          refine ⟨fun address => ?_, .inr (pass.currentPcb.trans current)⟩
          exact pass.ageEffect inv current address

/-- The timer interrupt changes ages and priorities as `sched_tick` does, and takes the
processor only from a process at the end of its quantum. -/
theorem SchedInv.timer_ages (inv : SchedInv scheduler created queue) (awake : CurrentAwake scheduler)
    {fuel : Nat} {dispatch : Dispatch} {next : Scheduler}
    (handled : schedTimerHandler fuel scheduler = some (dispatch, next)) :
    (∀ address, AgeEffect scheduler address (next.pcb address)) ∧
      ∀ current, scheduler.currentPcb = some current → next.currentPcb ≠ some current →
        some current ≠ scheduler.idlePcb ∧ (scheduler.pcb current).quantumRemaining = 1 := by
  rw [schedTimerHandler_eq] at handled
  obtain ⟨ticked, ticks, dispatches⟩ := Option.bind_eq_some_iff.mp handled
  obtain ⟨effects, outcome⟩ := inv.tick_ages awake ticks
  have ages := dispatchNext_keeps dispatches
  have eoi : ∀ address, (picSendEoi 0 ticked).pcb address = ticked.pcb address := fun _ => rfl
  refine ⟨fun address => ?_, fun current isCurrent taken => ?_⟩
  · obtain ⟨age, priority, _⟩ := ages address
    rw [eoi] at age priority
    cases effects address with
    | same sameAge samePriority => exact .same (age.trans sameAge) (priority.trans samePriority)
    | aged waits grows samePriority =>
        exact .aged waits (age.trans grows) (priority.trans samePriority)
    | promoted waits notIdle reached reset =>
        exact .promoted waits notIdle reached (age.trans reset)
    | demoted runs notIdle last sameAge raised =>
        exact .demoted runs notIdle last (age.trans sameAge) (priority ▸ raised)
  · rcases outcome with ⟨other, otherCurrent, notIdle, last⟩ | stays
    · obtain rfl := Option.some.inj (isCurrent.symm.trans otherCurrent)
      exact ⟨notIdle, last⟩
    · have keeps : dispatchNext scheduler.currentPcb (picSendEoi 0 ticked) =
          some (.none, picSendEoi 0 ticked) := by
        refine if_neg ?_
        rw [isCurrent] at stays ⊢
        exact fun either => either.elim (fun none => nomatch stays.symm.trans none) nofun
      obtain ⟨_, rfl⟩ := Prod.mk.inj (Option.some.inj (keeps.symm.trans dispatches))
      exact absurd (stays.trans isCurrent) taken

/-! ## Along a run -/

theorem timers_append (earlier later : List (Transition SchedSystem SchedOp)) :
    timers (earlier ++ later) = timers earlier + timers later :=
  List.countP_append

theorem WaitedThrough.zero (trace : List (Transition SchedSystem SchedOp)) (address : Nat) :
    WaitedThrough trace address 0 :=
  ⟨trace, [], (List.append_nil trace).symm, Nat.le_refl 0, nofun⟩

theorem WaitedThrough.le (waited : WaitedThrough trace address count) {fewer : Nat}
    (less : fewer ≤ count) : WaitedThrough trace address fewer := by
  obtain ⟨earlier, recent, split, enough, waits⟩ := waited
  exact ⟨earlier, recent, split, less.trans enough, waits⟩

/-- One more transition that finds the process waiting. -/
theorem WaitedThrough.snoc (waited : WaitedThrough trace address count)
    {transition : Transition SchedSystem SchedOp} (waits : WaitsReady transition.before address)
    {more : Nat} (enough : more ≤ count + timers [transition]) :
    WaitedThrough (trace ++ [transition]) address more := by
  obtain ⟨earlier, recent, rfl, counted, waiting⟩ := waited
  refine ⟨earlier, recent ++ [transition], List.append_assoc .., ?_, fun other member => ?_⟩
  · rw [timers_append]
    omega
  · rcases List.mem_append.mp member with member | member
    · exact waiting other member
    · obtain rfl := List.mem_singleton.mp member
      exact waits

/-- While no process blocks, a process that does not run is ready. -/
theorem SchedInv.waitsReady (inv : SchedInv system.scheduler system.created queue)
    (empty : queue .waiting = []) (member : address ∈ system.created)
    (notIdle : some address ≠ system.scheduler.idlePcb)
    (notCurrent : system.scheduler.currentPcb ≠ some address) : WaitsReady system address := by
  refine ⟨notCurrent, queue, inv.holds, ?_⟩
  obtain ⟨list, inside⟩ := (inv.block member notIdle).placed.resolve_left notCurrent
  cases list with
  | level level => exact ⟨level, inside⟩
  | waiting =>
      rw [empty] at inside
      cases inside

/-- The age of a ready process has been waited for. -/
def AgesEarned (trace : List (Transition SchedSystem SchedOp)) (system : SchedSystem) : Prop :=
  ∀ address ∈ system.created, some address ≠ system.scheduler.idlePcb →
    system.scheduler.currentPcb ≠ some address →
    WaitedThrough trace address (system.scheduler.pcb address).ageTicks

/-- One step of a run without blocking: a timer interrupt that takes the processor from a
process finds it without age. -/
theorem SchedInv.step_earned (inv : SchedInv before.scheduler before.created queue)
    (empty : queue .waiting = []) (earned : AgesEarned trace before)
    (allowed : EnqueueOrTimer label) (fresh : label = .timer → ExpiresFresh before.scheduler)
    (step : SchedStep before label after) :
    AgesEarned (trace ++ [⟨before, label, after⟩]) after ∧
      ∀ address, Promotes ⟨before, label, after⟩ address →
        WaitedThrough (trace ++ [⟨before, label, after⟩]) address ageTickMax := by
  have waits : ∀ address ∈ before.created, some address ≠ before.scheduler.idlePcb →
      before.scheduler.currentPcb ≠ some address → WaitsReady before address :=
    fun _ member notIdle notCurrent => inv.waitsReady empty member notIdle notCurrent
  cases step with
  | @enqueue _ new pid addressSpace addressSpacePhysical kernelStackPtr unknown enqueued =>
      obtain ⟨lists, result, _⟩ :=
        inv.enqueue unknown pid addressSpace addressSpacePhysical kernelStackPtr
      obtain rfl := Option.some.inj (enqueued.symm.trans result)
      refine ⟨fun address member notIdle notCurrent => ?_, fun _ promotes => nomatch promotes.1⟩
      by_cases same : address = new
      · subst same
        have block : ((before.scheduler.setPcb address (createdPcb pid addressSpace
            addressSpacePhysical kernelStackPtr)).setLists lists).pcb address = _ := setPcb_self
        rw [block]
        exact .zero _ _
      · have block : ((before.scheduler.setPcb new (createdPcb pid addressSpace
            addressSpacePhysical kernelStackPtr)).setLists lists).pcb address =
              before.scheduler.pcb address := setPcb_of_ne same
        have known := (List.mem_cons.mp member).resolve_left same
        rw [block]
        exact (earned address known notIdle notCurrent).snoc
          (waits address known notIdle notCurrent) (Nat.le_add_right _ _)
  | @timer fuel dispatch scheduler handled =>
      have awake := inv.awake_of_empty empty
      obtain ⟨effects, taken⟩ := inv.timer_ages awake handled
      have sameIdle : scheduler.idlePcb = before.scheduler.idlePcb :=
        (inv.step_of_empty empty allowed (.timer handled)).choose_spec.2.2
      have waited : ∀ address ∈ before.created, some address ≠ before.scheduler.idlePcb →
          before.scheduler.currentPcb ≠ some address →
          WaitedThrough (trace ++ [⟨before, .timer, ⟨scheduler, before.created⟩⟩]) address
            ((before.scheduler.pcb address).ageTicks + 1) :=
        fun address member notIdle notCurrent => (earned address member notIdle notCurrent).snoc
          (waits address member notIdle notCurrent) (Nat.le_refl _)
      refine ⟨fun address member notIdle notCurrent => ?_, fun address promotes => ?_⟩
      · have notIdle' : some address ≠ before.scheduler.idlePcb := sameIdle ▸ notIdle
        by_cases wasCurrent : before.scheduler.currentPcb = some address
        · obtain ⟨_, last⟩ := taken address wasCurrent notCurrent
          have young := fresh rfl address wasCurrent notIdle' last
          have none : (scheduler.pcb address).ageTicks = 0 := by
            cases effects address with
            | same sameAge _ => exact sameAge.trans young
            | aged waiting => exact absurd wasCurrent waiting
            | promoted waiting => exact absurd wasCurrent waiting
            | demoted _ _ _ sameAge _ => exact sameAge.trans young
          rw [none]
          exact .zero _ _
        · refine (waited address member notIdle' wasCurrent).le ?_
          cases effects address with
          | same sameAge _ => exact sameAge.le.trans (Nat.le_succ _)
          | aged _ grows _ => exact grows.le
          | promoted _ _ _ reset => exact reset.le.trans (Nat.zero_le _)
          | demoted runs => exact absurd runs wasCurrent
      · obtain ⟨_, member, lower⟩ := promotes
        cases effects address with
        | same _ samePriority => exact absurd samePriority (Nat.ne_of_lt lower)
        | aged _ _ samePriority => exact absurd samePriority (Nat.ne_of_lt lower)
        | promoted waiting notIdle reached _ =>
            exact (waited address member notIdle waiting).le reached
        | demoted _ _ _ _ raised => exact absurd lower (Nat.not_lt.mpr raised)
  | block => exact allowed.elim
  | unblock => exact allowed.elim

private theorem sample_shows :
    ∃ trace system, SchedRun sampleStart trace system ∧
      (∀ transition ∈ trace, EnqueueOrTimer transition.label) ∧
      Shows system ⟨1, 2, 40, 0, 0, 0, 0⟩ := by
  have performed : ([.enqueue 1 1 4096 4096 8192, .enqueue 2 2 4096 4096 8192, .timer].foldlM
      (perform 4) sampleStart).map (fun system =>
        (system.scheduler.currentPcb, system.scheduler.idlePcb, system.created,
          [(system.scheduler.pcb 1).quantumRemaining, (system.scheduler.pcb 1).priority,
            (system.scheduler.pcb 1).ageTicks, (system.scheduler.pcb 2).priority,
            (system.scheduler.pcb 2).ageTicks])) =
        some (some 1, some 100, [2, 1, 100], [40, 0, 0, 0, 0]) := by decide
  obtain ⟨system, reached, facts⟩ := Option.map_eq_some_iff.mp performed
  simp only [Prod.mk.injEq, List.cons.injEq, and_true] at facts
  obtain ⟨current, idle, created, quantum, runLevel, runAge, waitLevel, waitAge⟩ := facts
  obtain ⟨trace, run, labels⟩ := sampleRun _ reached
  have operations : ∀ transition ∈ trace, EnqueueOrTimer transition.label := by
    intro transition member
    have label := List.mem_map_of_mem (f := Transition.label) member
    rw [labels] at label
    simp only [List.mem_cons, List.not_mem_nil, or_false] at label
    rcases label with label | label | label <;> rw [label] <;> trivial
  obtain ⟨queue, inv, empty, _⟩ := sampleStart_initialised.inv_of_run run operations
  refine ⟨trace, system, run, operations, ⟨⟨queue, inv, empty⟩, ?_, by decide, ?_, current, quantum,
    runLevel, runAge, waitLevel, waitAge⟩⟩
  · rw [idle]
    nofun
  · intro address
    rw [created, idle]
    simp only [List.mem_cons, List.not_mem_nil, or_false, ne_eq, Option.some.injEq]
    omega

/-- After nine quanta both processes are on the lowest level with ages from earlier waits. -/
private theorem nine_quanta :
    ∃ count, Pair.tick^[count] ⟨1, 2, 40, 0, 0, 0, 0⟩ = ⟨2, 1, 160, 3, 516, 3, 396⟩ := by
  have top₁ : Pair.tick^[40] ⟨1, 2, 40, 0, 0, 0, 0⟩ = ⟨2, 1, 40, 0, 0, 1, 0⟩ :=
    Pair.quantum_top rfl rfl
  have top₂ : Pair.tick^[40] ⟨2, 1, 40, 0, 0, 1, 0⟩ = ⟨1, 2, 80, 1, 39, 1, 0⟩ :=
    Pair.quantum_waiting rfl (by decide) (by decide) (by decide)
  have high₁ : Pair.tick^[80] ⟨1, 2, 80, 1, 39, 1, 0⟩ = ⟨2, 1, 80, 1, 79, 2, 39⟩ :=
    Pair.quantum_waiting rfl (by decide) (by decide) (by decide)
  have high₂ : Pair.tick^[80] ⟨2, 1, 80, 1, 79, 2, 39⟩ = ⟨1, 2, 120, 2, 118, 2, 79⟩ :=
    Pair.quantum_waiting rfl (by decide) (by decide) (by decide)
  have low₁ : Pair.tick^[120] ⟨1, 2, 120, 2, 118, 2, 79⟩ = ⟨2, 1, 120, 2, 198, 3, 118⟩ :=
    Pair.quantum_waiting rfl (by decide) (by decide) (by decide)
  have low₂ : Pair.tick^[120] ⟨2, 1, 120, 2, 198, 3, 118⟩ = ⟨1, 2, 160, 3, 237, 3, 198⟩ :=
    Pair.quantum_waiting rfl (by decide) (by decide) (by decide)
  have bottom₁ : Pair.tick^[160] ⟨1, 2, 160, 3, 237, 3, 198⟩ = ⟨2, 1, 160, 3, 357, 3, 237⟩ :=
    Pair.quantum_waiting rfl (by decide) (by decide) (by decide)
  have bottom₂ : Pair.tick^[160] ⟨2, 1, 160, 3, 357, 3, 237⟩ = ⟨1, 2, 160, 3, 396, 3, 357⟩ :=
    Pair.quantum_waiting rfl (by decide) (by decide) (by decide)
  have bottom₃ : Pair.tick^[160] ⟨1, 2, 160, 3, 396, 3, 357⟩ = ⟨2, 1, 160, 3, 516, 3, 396⟩ :=
    Pair.quantum_waiting rfl (by decide) (by decide) (by decide)
  have high := Pair.iterate_trans (Pair.iterate_trans top₁ top₂) (Pair.iterate_trans high₁ high₂)
  have low := Pair.iterate_trans (Pair.iterate_trans low₁ low₂) (Pair.iterate_trans bottom₁ bottom₂)
  exact ⟨_, Pair.iterate_trans (Pair.iterate_trans high low) bottom₃⟩

/-- From there process 1 gets the processor, and process 2 is promoted in 244 ticks. -/
private theorem short_wait :
    ∃ count, count + 2 < ageTickMax ∧
      Pair.tick^[count] (Pair.tick ⟨2, 1, 160, 3, 516, 3, 396⟩) = ⟨1, 2, 77, 3, 555, 3, 599⟩ := by
  have quantum : Pair.tick^[159 + 1] ⟨2, 1, 160, 3, 516, 3, 396⟩ = ⟨1, 2, 160, 3, 555, 3, 516⟩ :=
    Pair.quantum_waiting rfl (by decide) (by decide) (by decide)
  have ticks : Pair.tick^[83] ⟨1, 2, 160, 3, 555, 3, 516⟩ = ⟨1, 2, 77, 3, 555, 3, 599⟩ :=
    Pair.iterate_waiting (by decide) (by decide) (by decide)
  rw [Function.iterate_succ_apply] at quantum
  exact ⟨_, by decide, Pair.iterate_trans quantum ticks⟩

end KdbOS.Proc
