import KdbOS.Proc.SchedInvariant

/-! The timer interrupt under the scheduler invariant, and the invariant over
whole runs from `sched_init`. -/

set_option autoImplicit false

namespace KdbOS.Proc

open Library Ds

variable {scheduler : Scheduler} {created : List Nat} {queue : Queues}

/-- The scheduler reads the identity, the address space and the saved stack pointer
of a block, but writes none of them. -/
structure SameContext (before after : ProcessControlBlock) : Prop where
  pid : after.pid = before.pid
  addressSpace : after.addressSpace = before.addressSpace
  addressSpacePhysical : after.addressSpacePhysical = before.addressSpacePhysical
  kernelStackPtr : after.kernelStackPtr = before.kernelStackPtr

theorem SameContext.refl (block : ProcessControlBlock) : SameContext block block :=
  ⟨rfl, rfl, rfl, rfl⟩

theorem SameContext.trans {first second third : ProcessControlBlock}
    (left : SameContext first second) (right : SameContext second third) :
    SameContext first third :=
  ⟨right.pid.trans left.pid, right.addressSpace.trans left.addressSpace,
    right.addressSpacePhysical.trans left.addressSpacePhysical,
    right.kernelStackPtr.trans left.kernelStackPtr⟩

private theorem setPcb_context {address : Nat} {block : ProcessControlBlock}
    (same : SameContext (scheduler.pcb address) block) (other : Nat) :
    SameContext (scheduler.pcb other) ((scheduler.setPcb address block).pcb other) := by
  by_cases equal : other = address
  · subst equal
    rw [setPcb_self]
    exact same
  · rw [setPcb_of_ne equal]
    exact .refl _

private theorem dispatched_context (next other : Nat) :
    SameContext (scheduler.pcb other) ((dispatched scheduler next).pcb other) := by
  have runs : SameContext (scheduler.pcb next) { scheduler.pcb next with state := .running } :=
    ⟨rfl, rfl, rfl, rfl⟩
  exact setPcb_context runs other

private theorem aged_context (block : ProcessControlBlock) : SameContext block (aged block) := by
  unfold aged
  split
  · exact ⟨rfl, rfl, rfl, rfl⟩
  · exact ⟨rfl, rfl, rfl, rfl⟩

private theorem ticked_context {lists : ListStore SchedList Nat} (address other : Nat) :
    SameContext (scheduler.pcb other) ((ticked scheduler address queue lists).pcb other) := by
  have counts : SameContext (scheduler.pcb address) (counted (scheduler.pcb address)) :=
    ⟨rfl, rfl, rfl, rfl⟩
  refine (setPcb_context counts other).trans ?_
  simp only [ticked, ageBlocks]
  split
  · exact aged_context _
  · exact .refl _

theorem SchedInv.congr {after : Scheduler} (inv : SchedInv scheduler created queue)
    (lists : after.lists = scheduler.lists) (pcb : after.pcb = scheduler.pcb)
    (current : after.currentPcb = scheduler.currentPcb) (idle : after.idlePcb = scheduler.idlePcb) :
    SchedInv after created queue := by
  constructor
  · exact lists ▸ inv.holds
  · rw [idle]
    exact inv.queued
  · intro address member notIdle
    rw [idle] at notIdle
    exact (inv.block member notIdle).congr (by rw [pcb]) (by rw [current]) fun _ => Iff.rfl
  · rw [current]
    exact inv.current
  · rw [idle, pcb]
    exact inv.idle

/-- With every level empty the idle process is dispatched. -/
private theorem SchedInv.pickIdle (inv : SchedInv scheduler created queue)
    (noCurrent : scheduler.currentPcb = none) {idle : Nat}
    (isIdle : scheduler.idlePcb = some idle) :
    SchedInv (dispatched scheduler idle) created queue := by
  constructor
  · exact inv.holds
  · exact inv.queued
  · intro other member notIdle
    have different : other ≠ idle := fun same => notIdle (same ▸ isIdle.symm)
    refine (inv.block member notIdle).congr (setPcb_of_ne different) ?_ fun _ => Iff.rfl
    rw [noCurrent]
    change some idle = some other ↔ none = some other
    simp [different.symm]
  · intro other isCurrent
    obtain rfl := Option.some.inj isCurrent
    exact (inv.idle isIdle).1
  · intro other otherIdle
    obtain rfl : idle = other := Option.some.inj (isIdle.symm.trans otherIdle)
    refine ⟨(inv.idle isIdle).1, ?_⟩
    simp [dispatched, Scheduler.setPcb]

/-- A block popped from the head of a level starts to run. -/
theorem SchedInv.pickFront (inv : SchedInv scheduler created queue)
    (noCurrent : scheduler.currentPcb = none) {level : Fin 4} {address : Nat} {rest : List Nat}
    {lists : ListStore SchedList Nat} (front : queue (.level level) = address :: rest)
    (holds : Holds lists (Function.update queue (.level level) rest)) :
    SchedInv (dispatched (scheduler.setLists lists) address) created
      (Function.update queue (.level level) rest) := by
  have inside : address ∈ queue (.level level) := by
    rw [front]
    exact List.mem_cons_self
  have readyAt := (inv.block (inv.queued inside).1 (inv.queued inside).2).ready inside
  have notIdle := (inv.queued inside).2
  have listed : ∀ {list other}, other ∈ Function.update queue (.level level) rest list ↔
      other ∈ queue list ∧ other ≠ address := by
    intro list other
    have unique := inv.holds.unique (.level level)
    rw [front] at unique
    have absent := (List.nodup_cons.mp unique).1
    by_cases same : list = .level level
    · subst same
      simp only [Function.update_self, front, List.mem_cons]
      constructor
      · intro member
        exact ⟨.inr member, fun equal => absent (equal ▸ member)⟩
      · intro both
        exact both.1.resolve_left both.2
    · simp only [Function.update_of_ne same]
      constructor
      · intro member
        exact ⟨member, fun equal => same (inv.holds.apart (equal ▸ member) inside)⟩
      · exact And.left
  constructor
  · exact holds
  · intro list other member
    exact inv.queued (listed.mp member).1
  · intro other member otherNotIdle
    by_cases same : other = address
    · subst same
      have placed : (dispatched (scheduler.setLists lists) other).pcb other =
          { scheduler.pcb other with state := .running } := setPcb_self
      constructor
      · intro level' elsewhere
        exact absurd rfl (listed.mp elsewhere).2
      · intro waiting
        exact absurd rfl (listed.mp waiting).2
      · intro _
        rw [placed]
        refine ⟨⟨?_, ?_, ?_, readyAt.age⟩, .inl ⟨rfl, fun list elsewhere => ?_⟩⟩
        · simp only [readyAt.priority]
          exact level.isLt
        · simp only [readyAt.quantum]
          exact quantumOf_pos level.isLt
        · simp only [readyAt.quantum, readyAt.priority, Nat.le_refl]
        · exact absurd rfl (listed.mp elsewhere).2
      · exact .inl rfl
    · refine (inv.block member otherNotIdle).congr (setPcb_of_ne same) ?_ ?_
      · rw [noCurrent]
        change some address = some other ↔ none = some other
        simp [Ne.symm same]
      · intro list
        simp [listed, same]
  · intro other isCurrent
    obtain rfl := Option.some.inj isCurrent
    exact (inv.queued inside).1
  · intro other otherIdle
    obtain ⟨member, state⟩ := inv.idle otherIdle
    refine ⟨member, ?_⟩
    have different : other ≠ address := fun same => notIdle (same ▸ otherIdle.symm)
    have same : (dispatched (scheduler.setLists lists) address).pcb other = scheduler.pcb other :=
      setPcb_of_ne different
    rw [same]
    exact state

/-- What a completed pick leaves: an awake process is current, and the waiting
list and the idle block are the ones from before. -/
structure Picked (scheduler after : Scheduler) (queue queue' : Queues) : Prop where
  current : ∃ address, after.currentPcb = some address ∧ (after.pcb address).state = .running
  front : ∀ address, after.currentPcb = some address → some address ≠ scheduler.idlePcb →
    ∃ level rest, (∀ earlier < level, queue (.level earlier) = []) ∧
      queue (.level level) = address :: rest
  waiting : queue' .waiting = queue .waiting
  idle : after.idlePcb = scheduler.idlePcb
  context : ∀ address, SameContext (scheduler.pcb address) (after.pcb address)

theorem SchedInv.pick (inv : SchedInv scheduler created queue)
    (noCurrent : scheduler.currentPcb = none) :
    (schedPickNextProcess scheduler = none ∧ scheduler.idlePcb = none) ∨
    ∃ after queue', schedPickNextProcess scheduler = some after ∧
      SchedInv after created queue' ∧ Picked scheduler after queue queue' := by
  cases schedPickNextProcess_cases inv.holds with
  | inl idle =>
      obtain ⟨empty, picked⟩ := idle
      cases idleEq : scheduler.idlePcb with
      | none => exact .inl ⟨by rw [picked, idleEq]; rfl, rfl⟩
      | some idle =>
          refine .inr ⟨dispatched scheduler idle, queue, by rw [picked, idleEq]; rfl,
            inv.pickIdle noCurrent idleEq, ⟨idle, rfl, ?_⟩, ?_, rfl, rfl,
            dispatched_context idle⟩
          · simp [dispatched, Scheduler.setPcb]
          · intro address isCurrent notIdle
            exact absurd (isCurrent.symm.trans idleEq.symm) notIdle
  | inr found =>
      obtain ⟨level, address, rest, lists, earlier, front, holds, picked⟩ := found
      have inside : address ∈ queue (.level level) := by
        rw [front]
        exact List.mem_cons_self
      refine .inr ⟨_, _, picked, inv.pickFront noCurrent front holds, ⟨address, rfl, ?_⟩, ?_, ?_,
        rfl, ?_⟩
      · simp [dispatched, Scheduler.setPcb]
      · intro other isCurrent _
        obtain rfl : address = other := Option.some.inj isCurrent
        exact ⟨level, rest, earlier, front⟩
      · simp
      · exact dispatched_context address

/-- The current process stays awake where neither it nor the waiting list changes. -/
private theorem SchedInv.awake (inv : SchedInv scheduler created queue) {after : Scheduler}
    {queue' : Queues} (inv' : SchedInv after created queue') (awake : CurrentAwake scheduler)
    (current : after.currentPcb = scheduler.currentPcb)
    (waiting : queue' .waiting = queue .waiting) : CurrentAwake after := by
  intro address isCurrent state
  have member := inv'.current isCurrent
  have inside := (inv'.waiting_iff member).mp state
  rw [waiting] at inside
  exact awake address (current ▸ isCurrent) ((inv.waiting_iff member).mpr inside)

/-- The quantum of `address` has run out: it has been put behind the processes of the
level it was demoted to. -/
structure Expired (scheduler : Scheduler) (address : Nat) (queue queue' : Queues) : Prop where
  notIdle : some address ≠ scheduler.idlePcb
  last : (scheduler.pcb address).quantumRemaining = 1
  demotes : ∃ level : Fin 4, level.val = (demoted (scheduler.pcb address)).priority ∧
    queue' = Function.update queue (.level level) (queue (.level level) ++ [address])

/-- `sched_tick` while the current process is awake. It ends as soon as its walks
get enough fuel, and leaves the waiting list alone. -/
theorem SchedInv.tick (inv : SchedInv scheduler created queue) (awake : CurrentAwake scheduler) :
    ∃ bound after queue',
      (∀ fuel, schedTick fuel scheduler = if bound ≤ fuel then some after else none) ∧
      SchedInv after created queue' ∧ queue' .waiting = queue .waiting ∧
      after.idlePcb = scheduler.idlePcb ∧
      (∀ address, SameContext (scheduler.pcb address) (after.pcb address)) ∧
      (after.currentPcb = none ∧
          (∀ address, scheduler.currentPcb = some address → Expired scheduler address queue queue') ∨
        after.currentPcb = scheduler.currentPcb ∧ CurrentAwake after) := by
  cases current : scheduler.currentPcb with
  | none =>
      refine ⟨0, scheduler, queue, fun fuel => ?_, inv, rfl, rfl, fun _ => .refl _,
        .inl ⟨current, by simp⟩⟩
      simp [schedTick, current]
  | some address =>
      by_cases isIdle : some address = scheduler.idlePcb
      · refine ⟨0, scheduler, queue, fun fuel => ?_, inv, rfl, rfl, fun _ => .refl _,
          .inr ⟨current, awake⟩⟩
        simp only [schedTick, current, Nat.zero_le, ↓reduceIte]
        exact if_pos isIdle
      · by_cases last : (scheduler.pcb address).quantumRemaining = 1
        · obtain ⟨lists, level, demotes, ticks, after⟩ := inv.expire awake current isIdle last
          have context : SameContext (scheduler.pcb address) (demoted (scheduler.pcb address)) :=
            ⟨rfl, rfl, rfl, rfl⟩
          refine ⟨0, _, _, fun fuel => (ticks fuel).trans (by simp), after, ?_, rfl,
            fun other => setPcb_context context other, .inl ⟨rfl, ?_⟩⟩
          · simp
          · intro other same
            obtain rfl := Option.some.inj same
            exact ⟨isIdle, last, level, demotes, rfl⟩
        · obtain ⟨lists, ticks, after⟩ := inv.age awake current isIdle last
          refine ⟨max (queue (.level 1)).length (max (queue (.level 2)).length
            (queue (.level 3)).length) + 1, _, _, fun fuel => (ticks fuel).trans ?_, after, rfl, rfl,
            ticked_context address, .inr ⟨current, inv.awake after awake rfl rfl⟩⟩
          exact if_congr (by omega) rfl rfl

/-- The stack switch to `next` from the process `oldPcb` that was interrupted. -/
def switchTo (oldPcb : Option Nat) (next : ProcessControlBlock) : Dispatch :=
  match oldPcb with
  | none => .bootstrapFirstProcess next.kernelStackPtr next.addressSpacePhysical
  | some old => .contextSwitch old next.kernelStackPtr next.addressSpacePhysical

/-- The part of `sched_timer_handler` after the tick. -/
def dispatchNext (oldPcb : Option Nat) (scheduler : Scheduler) : Option (Dispatch × Scheduler) :=
  if scheduler.currentPcb = none ∨ oldPcb = none then
    (schedPickNextProcess scheduler).bind fun after =>
      after.currentPcb.map fun next => (switchTo oldPcb (after.pcb next), after)
  else some (.none, scheduler)

theorem schedTimerHandler_eq (fuel : Nat) (scheduler : Scheduler) :
    schedTimerHandler fuel scheduler = (schedTick fuel scheduler).bind fun ticked =>
      dispatchNext scheduler.currentPcb (picSendEoi 0 ticked) := by
  unfold schedTimerHandler dispatchNext switchTo
  cases scheduler.currentPcb with
  | none => simp [Option.map_eq_bind, Option.bind_eq_bind]
  | some old => simp [Option.map_eq_bind, Option.bind_eq_bind]

/-- The current process is on the last tick of its quantum, and no process is queued
at the level it will be demoted to or at a better one. -/
def ExpiresAlone (scheduler : Scheduler) : Prop :=
  ∃ address, scheduler.currentPcb = some address ∧ some address ≠ scheduler.idlePcb ∧
    (scheduler.pcb address).quantumRemaining = 1 ∧
    ∀ level : Fin 4, level.val ≤ (scheduler.pcb address).priority + 1 →
      listGetSize scheduler.lists (.level level) = 0

/-- What a timer interrupt leaves behind: either the interrupted process goes on,
or the process that is current afterwards is the one switched to. -/
structure TimerDone (scheduler : Scheduler) (dispatch : Dispatch) (after : Scheduler)
    (queue queue' : Queues) : Prop where
  current : ∃ next, after.currentPcb = some next ∧
    (dispatch = .none ∧ scheduler.currentPcb = some next ∨
      dispatch = switchTo scheduler.currentPcb (after.pcb next))
  switches : ∀ old, scheduler.currentPcb = some old → dispatch ≠ .none →
    after.currentPcb = some old → ExpiresAlone scheduler
  awake : CurrentAwake after
  waiting : queue' .waiting = queue .waiting
  idle : after.idlePcb = scheduler.idlePcb
  context : ∀ address, SameContext (scheduler.pcb address) (after.pcb address)

/-- A process that is picked right after its quantum ran out was alone. -/
private theorem Expired.alone {address : Nat} {expired after : Scheduler} {queue' queue'' : Queues}
    (inv : SchedInv scheduler created queue) (awake : CurrentAwake scheduler)
    (current : scheduler.currentPcb = some address)
    (gone : Expired scheduler address queue queue') (picked : Picked expired after queue' queue'')
    (idle : expired.idlePcb = scheduler.idlePcb) (again : after.currentPcb = some address) :
    ExpiresAlone scheduler := by
  obtain ⟨target, demotes, pushed⟩ := gone.demotes
  obtain ⟨level, rest, earlier, front⟩ := picked.front address again (idle ▸ gone.notIdle)
  have unlisted := inv.current_unlinked awake current
  have atTarget : level = target := by
    by_cases same : level = target
    · exact same
    · rw [pushed, Function.update_of_ne (by simpa using same)] at front
      exact absurd (front ▸ List.mem_cons_self) (unlisted (.level level))
  subst atTarget
  have nobody : queue (.level level) = [] := by
    rw [pushed, Function.update_self] at front
    cases before : queue (.level level) with
    | nil => rfl
    | cons first others =>
        rw [before, List.cons_append] at front
        have inside : address ∈ queue (.level level) := by
          rw [before, (List.cons.inj front).1]
          exact List.mem_cons_self
        exact absurd inside (unlisted _)
  refine ⟨address, current, gone.notIdle, gone.last, ?_⟩
  intro other upTo
  have raised : level.val = if (scheduler.pcb address).priority < 3 then
      (scheduler.pcb address).priority + 1 else (scheduler.pcb address).priority := demotes
  have bounded := ((inv.block (inv.current current) gone.notIdle).running current).1.priority
  unfold mlfqLevels at bounded
  have ordered : other.val ≤ level.val := by
    have inside := other.isLt
    split at raised <;> omega
  have empty : queue (.level other) = [] := by
    cases Nat.lt_or_eq_of_le ordered with
    | inl less =>
        have before := earlier other less
        rwa [pushed, Function.update_of_ne (by simpa using Fin.ne_of_lt less)] at before
    | inr same => exact (Fin.ext same) ▸ nobody
  have size := inv.holds.size (.level other)
  rw [empty] at size
  exact size

private theorem SchedInv.pickAfter (inv : SchedInv scheduler created queue)
    (oldPcb : Option Nat) (noCurrent : scheduler.currentPcb = none) :
    (dispatchNext oldPcb scheduler = none ∧ scheduler.idlePcb = none) ∨
    ∃ after queue' next, dispatchNext oldPcb scheduler = some (switchTo oldPcb (after.pcb next), after) ∧
      SchedInv after created queue' ∧ Picked scheduler after queue queue' ∧
      after.currentPcb = some next := by
  have picks : dispatchNext oldPcb scheduler = (schedPickNextProcess scheduler).bind
      fun after => after.currentPcb.map fun next => (switchTo oldPcb (after.pcb next), after) :=
    if_pos (.inl noCurrent)
  cases inv.pick noCurrent with
  | inl stuck => exact .inl ⟨by rw [picks, stuck.1]; rfl, stuck.2⟩
  | inr picked =>
      obtain ⟨after, queue', picked, inv', done⟩ := picked
      obtain ⟨next, isCurrent, _⟩ := done.current
      refine .inr ⟨after, queue', next, ?_, inv', done, isCurrent⟩
      rw [picks, picked, Option.bind_some, isCurrent, Option.map_some]

/-- The timer interrupt while the current process is awake. With an idle process it
always completes; the fuel it needs depends only on the state. -/
theorem SchedInv.timer (inv : SchedInv scheduler created queue) (awake : CurrentAwake scheduler) :
    ∃ bound result,
      (∀ fuel, schedTimerHandler fuel scheduler = if bound ≤ fuel then result else none) ∧
      (result = none → scheduler.idlePcb = none) ∧
      ∀ {dispatch after}, result = some (dispatch, after) →
        ∃ queue', SchedInv after created queue' ∧
          TimerDone scheduler dispatch after queue queue' := by
  obtain ⟨bound, ticked, queue', ticks, tickedInv, waiting, idle, context, outcome⟩ := inv.tick awake
  have eoiInv : SchedInv (picSendEoi 0 ticked) created queue' := tickedInv.congr rfl rfl rfl rfl
  refine ⟨bound, dispatchNext scheduler.currentPcb (picSendEoi 0 ticked), ?_, ?_⟩
  · intro fuel
    rw [schedTimerHandler_eq, ticks]
    by_cases enough : bound ≤ fuel <;> simp [enough]
  · cases current : ticked.currentPcb with
    | none =>
        cases eoiInv.pickAfter scheduler.currentPcb current with
        | inl stuck => exact ⟨fun _ => idle ▸ stuck.2, by simp [stuck.1]⟩
        | inr picked =>
            obtain ⟨after, queue'', next, result, inv', done, isCurrent⟩ := picked
            rw [result]
            refine ⟨by simp, fun equal => ?_⟩
            obtain ⟨rfl, rfl⟩ := Prod.mk.inj (Option.some.inj equal)
            refine ⟨queue'', inv', ⟨next, isCurrent, .inr rfl⟩, ?_, ?_, done.waiting.trans waiting,
              done.idle.trans idle, fun address => (context address).trans (done.context address)⟩
            · intro old wasCurrent _ again
              have expired : Expired scheduler old queue queue' := by
                cases outcome with
                | inl gone => exact gone.2 old wasCurrent
                | inr stays => simp [← stays.1, current] at wasCurrent
              exact expired.alone inv awake wasCurrent done idle again
            · intro other otherCurrent
              obtain ⟨address, addressCurrent, running⟩ := done.current
              obtain rfl : address = other :=
                Option.some.inj (addressCurrent.symm.trans otherCurrent)
              simp [running]
    | some address =>
        obtain ⟨same, tickedAwake⟩ := outcome.resolve_left (by simp [current])
        have stays : dispatchNext scheduler.currentPcb (picSendEoi 0 ticked) =
            some (.none, picSendEoi 0 ticked) := by
          refine if_neg ?_
          simp [← same, current, picSendEoi]
        rw [stays]
        refine ⟨by simp, fun equal => ?_⟩
        obtain ⟨rfl, rfl⟩ := Prod.mk.inj (Option.some.inj equal)
        exact ⟨queue', eoiInv, ⟨address, current, .inl ⟨rfl, same ▸ current⟩⟩,
          fun _ _ switched => absurd rfl switched, tickedAwake, waiting, idle, context⟩

/-- A timer interrupt that was handled. -/
theorem SchedInv.handled (inv : SchedInv scheduler created queue) (awake : CurrentAwake scheduler)
    {fuel : Nat} {dispatch : Dispatch} {after : Scheduler}
    (handled : schedTimerHandler fuel scheduler = some (dispatch, after)) :
    ∃ queue', SchedInv after created queue' ∧ TimerDone scheduler dispatch after queue queue' := by
  obtain ⟨bound, result, handles, _, done⟩ := inv.timer awake
  rw [handles fuel] at handled
  split at handled
  · exact done handled
  · cases handled

/-! ## Runs from `sched_init` -/

private theorem schedInit_links (errMsg : SchedList → Nat) (bytes : Memory)
    (popHeadText popTailText : Nat) (pcb : Nat → ProcessControlBlock) (idle : Option Nat)
    (list : SchedList) :
    (schedInit errMsg bytes popHeadText popTailText pcb idle).lists.links (.root list) =
      ⟨some (.root list), some (.root list)⟩ := by
  cases list with
  | waiting => simp [schedInit, listInit]
  | level level =>
      match level with
      | 0 | 1 | 2 | 3 => simp [schedInit, listInit]

private theorem schedInit_size (errMsg : SchedList → Nat) (bytes : Memory)
    (popHeadText popTailText : Nat) (pcb : Nat → ProcessControlBlock) (idle : Option Nat)
    (list : SchedList) :
    ((schedInit errMsg bytes popHeadText popTailText pcb idle).lists.header list).size = 0 := by
  cases list with
  | waiting => simp [schedInit, listInit]
  | level level =>
      match level with
      | 0 | 1 | 2 | 3 => simp [schedInit, listInit]

theorem schedInit_inv (errMsg : SchedList → Nat) (bytes : Memory) (popHeadText popTailText : Nat)
    (pcb : Nat → ProcessControlBlock) (idle : Option Nat) (created : List Nat)
    (idleCreated : ∀ address, idle = some address →
      address ∈ created ∧ (pcb address).state ≠ .waiting)
    (onlyIdle : ∀ address ∈ created, idle = some address) :
    SchedInv (schedInit errMsg bytes popHeadText popTailText pcb idle) created fun _ => [] := by
  refine ⟨⟨?_, ?_, ?_, ?_, ?_, ?_⟩, by simp, ?_, ?_, fun isIdle => idleCreated _ isIdle⟩
  · intro list
    simp only [List.map_nil, Ring.isRing_nil_iff]
    exact schedInit_links ..
  · simp
  · simp
  · intro list
    exact schedInit_size ..
  · intro address _
    simp [schedInit, listInit]
  · simp [schedInit, listInit]
  · intro address member notIdle
    exact absurd (onlyIdle address member).symm notIdle
  · simp [schedInit]

theorem Initialised.inv {system : SchedSystem} (initialised : Initialised system) :
    SchedInv system.scheduler system.created fun _ => [] := by
  cases initialised with
  | withIdle =>
      refine schedInit_inv _ _ _ _ _ _ _ ?_ ?_
      · intro address isIdle
        obtain rfl := Option.some.inj isIdle
        simp [createdPcb]
      · simp
  | withoutIdle =>
      exact schedInit_inv _ _ _ _ _ _ _ (by simp) (by simp)

end KdbOS.Proc
