import KdbOS.Proc.SchedTimer

/-! When the scheduler is work-conserving. The facts here need no intact lists:
they only use that no link ever points at the idle block, so that a pop can never
return it. -/

set_option autoImplicit false

namespace KdbOS.Proc

open Library Ds

variable {scheduler after : Scheduler} {idle : Option Nat}

/-- No link points at the idle block. -/
def AvoidsIdle (lists : ListStore SchedList Nat) (idle : Option Nat) : Prop :=
  ∀ address, idle = some address → Ring.Avoids lists.links (.node address)

/-- The idle block, if there is one, is awake and no link points at it. -/
structure IdleApart (scheduler : Scheduler) (idle : Option Nat) : Prop where
  isIdle : scheduler.idlePcb = idle
  awake : ∀ address, idle = some address → (scheduler.pcb address).state ≠ .waiting
  links : AvoidsIdle scheduler.lists idle

private theorem listPushTail_avoids {lists pushed : ListStore SchedList Nat} {list : SchedList}
    {address : Nat} (avoids : AvoidsIdle lists idle) (different : some address ≠ idle)
    (pushes : listPushTail lists list (.node address) = some pushed) : AvoidsIdle pushed idle := by
  simp only [listPushTail, Option.bind_eq_bind, Option.bind_eq_some_iff, Option.some.injEq] at pushes
  obtain ⟨prev, prevEq, rfl⟩ := pushes
  rintro other rfl
  refine (avoids other rfl).insertBetween (by simpa using different) ?_ (by simp)
  rintro rfl
  exact (avoids other rfl _).2 prevEq

private theorem listRemoveNode_avoids {lists unlinked : ListStore SchedList Nat} {list : SchedList}
    {node : ListNode SchedList Nat} {code : Nat} (avoids : AvoidsIdle lists idle)
    (removes : listRemoveNode lists list node = some (code, unlinked)) :
    AvoidsIdle unlinked idle := by
  unfold listRemoveNode at removes
  split at removes
  · obtain ⟨_, rfl⟩ := Prod.mk.inj (Option.some.inj removes)
    exact avoids
  · simp only [Option.bind_eq_bind, Option.bind_eq_some_iff, Option.some.injEq,
      Prod.mk.injEq] at removes
    obtain ⟨prev, prevEq, next, nextEq, _, rfl⟩ := removes
    intro other isIdle
    refine (avoids other isIdle).removeBetween ?_ ?_
    · rintro rfl
      exact (avoids other isIdle _).2 prevEq
    · rintro rfl
      exact (avoids other isIdle _).1 nextEq

namespace IdleApart

theorem setPcb (apart : IdleApart scheduler idle) {address : Nat} {block : ProcessControlBlock}
    (different : some address ≠ idle) : IdleApart (scheduler.setPcb address block) idle := by
  refine ⟨apart.isIdle, ?_, apart.links⟩
  rintro other rfl
  rw [setPcb_of_ne fun same => different (congrArg some same.symm)]
  exact apart.awake other rfl

theorem setLists (apart : IdleApart scheduler idle) {lists : ListStore SchedList Nat}
    (links : AvoidsIdle lists idle) : IdleApart (scheduler.setLists lists) idle :=
  ⟨apart.isIdle, apart.awake, links⟩

theorem setCurrent (apart : IdleApart scheduler idle) (current : Option Nat) :
    IdleApart (scheduler.setCurrent current) idle :=
  ⟨apart.isIdle, apart.awake, apart.links⟩

theorem enqueue (apart : IdleApart scheduler idle) {address : Nat}
    (different : some address ≠ idle)
    (enqueued : schedEnqueue scheduler (some address) = some after) :
    IdleApart after idle ∧ after.currentPcb = scheduler.currentPcb := by
  simp only [schedEnqueue] at enqueued
  split at enqueued
  · simp only [Option.bind_eq_bind, Option.bind_eq_some_iff, Option.some.injEq] at enqueued
    obtain ⟨queue, _, lists, pushes, rfl⟩ := enqueued
    exact ⟨apart.setLists (listPushTail_avoids apart.links different pushes), rfl⟩
  · simp only [Option.bind_eq_bind, Option.bind_eq_some_iff, Option.some.injEq] at enqueued
    obtain ⟨lists, pushes, rfl⟩ := enqueued
    exact ⟨apart.setLists (listPushTail_avoids apart.links different pushes), rfl⟩
  · obtain rfl := Option.some.inj enqueued
    exact ⟨apart, rfl⟩

theorem ageWalk (level : Fin 4) (fuel : Nat) :
    ∀ {scheduler after : Scheduler} {currentNode : Option (ListNode SchedList Nat)},
      IdleApart scheduler idle →
      (∀ address, idle = some address → currentNode ≠ some (.node address)) →
      ageWalk level fuel currentNode scheduler = some after →
      IdleApart after idle ∧ after.currentPcb = scheduler.currentPcb := by
  induction fuel with
  | zero =>
      intro scheduler after currentNode _ _ walked
      cases walked
  | succ fuel ih =>
      intro scheduler after currentNode apart different walked
      simp only [Proc.ageWalk] at walked
      split at walked
      · obtain rfl := Option.some.inj walked
        exact ⟨apart, rfl⟩
      · obtain ⟨node, nodeEq, walked⟩ := Option.bind_eq_some_iff.mp walked
        obtain ⟨address, addressEq, walked⟩ := Option.bind_eq_some_iff.mp walked
        have other : some address ≠ idle := by
          rintro rfl
          cases node with
          | root _ => cases addressEq
          | node object =>
              obtain rfl := Option.some.inj addressEq
              exact different object rfl nodeEq
        have onward := fun address isIdle => (apart.links address isIdle node).1
        split at walked
        · obtain ⟨⟨code, unlinked⟩, removes, walked⟩ := Option.bind_eq_some_iff.mp walked
          obtain ⟨quantum, _, walked⟩ := Option.bind_eq_some_iff.mp walked
          obtain ⟨queue, _, walked⟩ := Option.bind_eq_some_iff.mp walked
          obtain ⟨pushed, pushes, walked⟩ := Option.bind_eq_some_iff.mp walked
          have avoids := listPushTail_avoids (listRemoveNode_avoids apart.links removes) other pushes
          obtain ⟨afterApart, same⟩ := ih ((apart.setPcb other).setLists avoids) onward walked
          exact ⟨afterApart, same⟩
        · obtain ⟨afterApart, same⟩ := ih (apart.setPcb other) onward walked
          exact ⟨afterApart, same⟩

theorem ageLevels (fuel : Nat) (levels : List (Fin 4)) :
    ∀ {scheduler after : Scheduler}, IdleApart scheduler idle →
      ageLevels fuel scheduler levels = some after →
      IdleApart after idle ∧ after.currentPcb = scheduler.currentPcb := by
  induction levels with
  | nil =>
      intro scheduler after apart aged
      obtain rfl := Option.some.inj aged
      exact ⟨apart, rfl⟩
  | cons level rest ih =>
      intro scheduler after apart aged
      obtain ⟨middle, walked, aged⟩ := Option.bind_eq_some_iff.mp aged
      obtain ⟨middleApart, same⟩ := IdleApart.ageWalk level fuel apart
        (fun address isIdle => (apart.links address isIdle _).1) walked
      obtain ⟨afterApart, same'⟩ := ih middleApart aged
      exact ⟨afterApart, same'.trans same⟩

theorem tick (apart : IdleApart scheduler idle)
    (busy : scheduler.currentPcb = none ∨ scheduler.currentPcb ≠ idle)
    {fuel : Nat} (ticked : schedTick fuel scheduler = some after) :
    IdleApart after idle ∧ (after.currentPcb = none ∨ after.currentPcb ≠ idle) := by
  unfold schedTick at ticked
  split at ticked
  · obtain rfl := Option.some.inj ticked
    exact ⟨apart, busy⟩
  · rename_i current currentEq
    have different : some current ≠ idle := currentEq ▸ busy.resolve_left (by simp [currentEq])
    split at ticked
    · rename_i isIdle
      exact absurd (isIdle.trans apart.isIdle) different
    · dsimp only at ticked
      split at ticked
      · obtain ⟨quantum, _, ticked⟩ := Option.bind_eq_some_iff.mp ticked
        obtain ⟨queued, enqueued, ticked⟩ := Option.bind_eq_some_iff.mp ticked
        obtain rfl := Option.some.inj ticked
        exact ⟨((apart.setPcb different).enqueue different enqueued).1.setCurrent none, .inl rfl⟩
      · obtain ⟨afterApart, same⟩ := (apart.setPcb different).ageLevels fuel _ ticked
        rw [same]
        exact ⟨afterApart, busy⟩

private theorem pickFrom (levels : List (Fin 4)) {found : Option Nat}
    (apart : IdleApart scheduler idle) (picks : pickFrom scheduler levels = some (found, after)) :
    (found = none ∧ after = scheduler ∧
      ∀ level ∈ levels, listGetSize scheduler.lists (.level level) = 0) ∨
    ∃ address, found = some address ∧ some address ≠ idle ∧ IdleApart after idle := by
  induction levels with
  | nil =>
      obtain ⟨rfl, rfl⟩ := Prod.mk.inj (Option.some.inj picks)
      exact .inl ⟨rfl, rfl, by simp⟩
  | cons level rest ih =>
      simp only [Proc.pickFrom] at picks
      split at picks
      · rename_i nonempty
        obtain ⟨⟨node, lists⟩, popped, picks⟩ := Option.bind_eq_some_iff.mp picks
        obtain ⟨node, rfl, picks⟩ := Option.bind_eq_some_iff.mp picks
        obtain ⟨address, addressEq, picks⟩ := Option.bind_eq_some_iff.mp picks
        obtain ⟨rfl, rfl⟩ := Prod.mk.inj (Option.some.inj picks)
        have occupied : ¬ (scheduler.lists.header (.level level)).size = 0 := by
          simpa [listGetSize, Nat.pos_iff_ne_zero] using nonempty
        simp only [listPopHead, occupied, ↓reduceIte, Option.bind_eq_bind,
          Option.bind_eq_some_iff, Option.some.injEq, Prod.mk.injEq] at popped
        obtain ⟨target, first, ⟨code, unlinked⟩, removes, rfl, rfl⟩ := popped
        refine .inr ⟨address, rfl, ?_, apart.setLists (listRemoveNode_avoids apart.links removes)⟩
        rintro rfl
        cases target with
        | root _ => cases addressEq
        | node object =>
            obtain rfl := Option.some.inj addressEq
            exact (apart.links _ rfl _).1 first
      · rename_i empty
        cases ih picks with
        | inl none =>
            obtain ⟨rfl, rfl, rest⟩ := none
            refine .inl ⟨rfl, rfl, fun other member => ?_⟩
            cases List.mem_cons.mp member with
            | inl same => exact same ▸ Nat.eq_zero_of_not_pos empty
            | inr later => exact rest other later
        | inr found => exact .inr found

end IdleApart

/-- Every priority queue is empty. -/
def LevelsEmpty (scheduler : Scheduler) : Prop :=
  ∀ level : Fin 4, listGetSize scheduler.lists (.level level) = 0

/-- The idle process is current only with empty priority queues. -/
def WorkConserving (scheduler : Scheduler) : Prop :=
  scheduler.currentPcb = scheduler.idlePcb → LevelsEmpty scheduler

/-- Nothing has become ready while the idle process runs. -/
def NothingReadyUnderIdle (scheduler : Scheduler) : Prop :=
  ∀ idle, scheduler.idlePcb = some idle → scheduler.currentPcb = some idle → LevelsEmpty scheduler

theorem IdleApart.pick (apart : IdleApart scheduler idle)
    (picks : schedPickNextProcess scheduler = some after) :
    IdleApart after idle ∧ WorkConserving after := by
  obtain ⟨⟨found, picked⟩, search, chosen⟩ := Option.bind_eq_some_iff.mp picks
  cases IdleApart.pickFrom _ apart search with
  | inl none =>
      obtain ⟨rfl, rfl, empty⟩ := none
      have byIdle : (picked.idlePcb.bind fun next => some (dispatched picked next)) = some after :=
        chosen
      obtain ⟨next, nextEq, result⟩ := Option.bind_eq_some_iff.mp byIdle
      obtain rfl := Option.some.inj result
      refine ⟨⟨apart.isIdle, ?_, apart.links⟩, ?_⟩
      · intro address isIdle
        obtain rfl : next = address :=
          Option.some.inj (nextEq.symm.trans (apart.isIdle.trans isIdle))
        simp [dispatched, Scheduler.setPcb]
      · intro _ level
        have listed : ∀ level : Fin 4, level ∈ [0, 1, 2, 3] := by decide
        exact empty level (listed level)
  | inr some =>
      obtain ⟨address, rfl, different, pickedApart⟩ := some
      have byLevel : Option.some (dispatched picked address) = .some after := chosen
      obtain rfl := Option.some.inj byLevel
      refine ⟨(pickedApart.setCurrent _).setPcb different, ?_⟩
      intro isIdle
      exact absurd (isIdle.trans pickedApart.isIdle) different

theorem IdleApart.timer (apart : IdleApart scheduler idle) {fuel : Nat} {dispatch : Dispatch}
    (handled : schedTimerHandler fuel scheduler = some (dispatch, after)) :
    IdleApart after idle ∧ (WorkConserving after ↔ NothingReadyUnderIdle scheduler) := by
  rw [schedTimerHandler_eq] at handled
  obtain ⟨ticked, ticks, handled⟩ := Option.bind_eq_some_iff.mp handled
  by_cases busy : scheduler.currentPcb = none ∨ scheduler.currentPcb ≠ idle
  · obtain ⟨tickedApart, stillBusy⟩ := apart.tick busy ticks
    have vacuous : NothingReadyUnderIdle scheduler := by
      intro address isIdle current
      cases busy with
      | inl none =>
          rw [none] at current
          cases current
      | inr different => exact absurd (current.trans (isIdle.symm.trans apart.isIdle)) different
    have eoiApart : IdleApart (picSendEoi 0 ticked) idle :=
      ⟨tickedApart.isIdle, tickedApart.awake, tickedApart.links⟩
    simp only [vacuous, iff_true]
    unfold dispatchNext at handled
    split at handled
    · obtain ⟨picked, picks, handled⟩ := Option.bind_eq_some_iff.mp handled
      obtain ⟨next, _, equal⟩ := Option.map_eq_some_iff.mp handled
      obtain ⟨_, rfl⟩ := Prod.mk.inj equal
      exact eoiApart.pick picks
    · rename_i noSwitch
      obtain ⟨_, rfl⟩ := Prod.mk.inj (Option.some.inj handled)
      have current : ticked.currentPcb ≠ none := fun none => noSwitch (.inl none)
      refine ⟨eoiApart, fun isIdle => ?_⟩
      exact absurd (isIdle.trans eoiApart.isIdle) (stillBusy.resolve_left current)
  · -- The idle process runs: the tick returns at once, and no reschedule follows.
    simp only [not_or, not_not] at busy
    obtain ⟨current, idling⟩ := busy
    obtain ⟨address, currentEq⟩ := Option.ne_none_iff_exists'.mp current
    have same : ticked = scheduler := by
      simpa [schedTick, currentEq, apart.isIdle, ← idling] using ticks.symm
    have stays : dispatchNext scheduler.currentPcb (picSendEoi 0 ticked) =
        some (.none, picSendEoi 0 ticked) := by
      refine if_neg ?_
      simp [same, currentEq, picSendEoi]
    obtain ⟨_, rfl⟩ := Prod.mk.inj (Option.some.inj (stays.symm.trans handled))
    subst same
    refine ⟨⟨apart.isIdle, apart.awake, apart.links⟩, ?_⟩
    constructor
    · intro conserving _ _ _
      exact conserving (idling.trans apart.isIdle.symm)
    · intro nothing _
      exact nothing address (apart.isIdle.trans (idling.symm.trans currentEq)) currentEq

/-! ## Runs -/

variable {start final before next : SchedSystem} {label : SchedOp}
variable {trace : List (Transition SchedSystem SchedOp)}

/-- One step of a run keeps the idle block apart. -/
theorem IdleApart.step (apart : IdleApart before.scheduler idle)
    (member : ∀ address, idle = some address → address ∈ before.created)
    (step : SchedStep before label next) :
    IdleApart next.scheduler idle ∧ (∀ address, idle = some address → address ∈ next.created) ∧
      (label = .timer →
        (WorkConserving next.scheduler ↔ NothingReadyUnderIdle before.scheduler)) := by
  cases step with
  | @enqueue scheduler address _ _ _ _ fresh enqueued =>
      have different : some address ≠ idle := fun same => fresh (member address same.symm)
      have created : ∀ block, IdleApart (before.scheduler.create address block) idle := fun block =>
        (apart.setLists fun other isIdle => (apart.links other isIdle).update
          (by simp [Link.null]) (by simp [Link.null])).setPcb different
      refine ⟨((created _).enqueue different enqueued).1, ?_, by simp⟩
      intro other isIdle
      exact List.mem_cons_of_mem _ (member other isIdle)
  | timer handled =>
      obtain ⟨after, conserving⟩ := apart.timer handled
      exact ⟨after, member, fun _ => conserving⟩
  | @block scheduler blocked =>
      refine ⟨?_, member, by simp⟩
      unfold schedBlockProcess at blocked
      split at blocked
      · exact Option.some.inj blocked ▸ apart
      · split at blocked
        · exact Option.some.inj blocked ▸ apart
        · rename_i current _ notIdle
          have different : some current ≠ idle := apart.isIdle ▸ notIdle
          exact ((apart.setPcb different).enqueue different blocked).1
  | @unblock scheduler address _ unblocked =>
      refine ⟨?_, member, by simp⟩
      simp only [schedUnblockProcess] at unblocked
      split at unblocked
      · exact Option.some.inj unblocked ▸ apart
      · rename_i waiting
        have different : some address ≠ idle :=
          fun same => apart.awake address same.symm (not_not.mp waiting)
        obtain ⟨⟨code, lists⟩, removes, unblocked⟩ := Option.bind_eq_some_iff.mp unblocked
        obtain ⟨quantum, _, enqueued⟩ := Option.bind_eq_some_iff.mp unblocked
        have removed := apart.setLists (listRemoveNode_avoids apart.links removes)
        exact ((removed.setPcb different).enqueue different enqueued).1

theorem Initialised.idleApart (initialised : Initialised start) :
    IdleApart start.scheduler start.scheduler.idlePcb ∧
      ∀ address, start.scheduler.idlePcb = some address → address ∈ start.created := by
  have inv := initialised.inv
  refine ⟨⟨rfl, fun address isIdle => (inv.idle isIdle).2, ?_⟩, fun _ isIdle => (inv.idle isIdle).1⟩
  intro address isIdle node
  cases node with
  | node object => simp [inv.holds.loose (fun _ => List.not_mem_nil), Link.null]
  | root list =>
      have ring := inv.holds.ring list
      rw [List.map_nil, Ring.isRing_nil_iff] at ring
      simp [ring]

/-- At the end of every timer interrupt of a run the scheduler is work-conserving
exactly when none of them came while the idle process ran and a process was ready. -/
theorem work_conserving_iff (initialised : Initialised start) (run : SchedRun start trace final) :
    (∀ transition ∈ trace, transition.label = .timer →
      WorkConserving transition.after.scheduler) ↔
    ∀ transition ∈ trace, transition.label = .timer →
      NothingReadyUnderIdle transition.before.scheduler := by
  have visited := (run.invariant (fun _ _ => True)
    (fun system => IdleApart system.scheduler start.scheduler.idlePcb ∧
      ∀ address, start.scheduler.idlePcb = some address → address ∈ system.created)
    initialised.idleApart
    (fun known _ step => by
      obtain ⟨apart, member, _⟩ := known.1.step known.2 step
      exact ⟨apart, member⟩)
    fun _ _ => trivial).2
  have conserving : ∀ transition ∈ trace, transition.label = .timer →
      (WorkConserving transition.after.scheduler ↔
        NothingReadyUnderIdle transition.before.scheduler) := by
    intro transition member timer
    obtain ⟨⟨apart, created⟩, _, step⟩ := visited transition member
    exact (apart.step created step).2.2 timer
  exact forall₃_congr conserving

/-- The idle process is dispatched, then a process is enqueued. -/
theorem work_conserving_iff_sample :
    ∃ trace final, SchedRun sampleStart trace final ∧
      trace.map Transition.label = [.timer, .enqueue 1 1 4096 4096 8192] ∧
      ∀ transition ∈ trace, transition.label = .timer →
        WorkConserving transition.after.scheduler := by
  have performed : ((perform 4 sampleStart .timer).bind fun idling =>
      (perform 4 idling (.enqueue 1 1 4096 4096 8192)).map fun _ => ()) = some () := by decide
  obtain ⟨idling, ticked, performed⟩ := Option.bind_eq_some_iff.mp performed
  obtain ⟨final, enqueued, _⟩ := Option.map_eq_some_iff.mp performed
  have run : SchedRun sampleStart ([] ++ [⟨sampleStart, .timer, idling⟩] ++
      [⟨idling, .enqueue 1 1 4096 4096 8192, final⟩]) final :=
    (Run.start.step (perform_step ticked)).step (perform_step enqueued)
  refine ⟨_, final, run, rfl, (work_conserving_iff sampleStart_initialised run).mpr ?_⟩
  intro transition member timer
  simp only [List.nil_append, List.cons_append, List.mem_cons, List.not_mem_nil,
    or_false] at member
  cases member with
  | inl first =>
      subst first
      intro idle _ current
      cases current
  | inr second =>
      subst second
      cases timer

/-- A process that becomes ready while the idle process runs is not dispatched by
the next timer interrupt. -/
theorem work_conserving_fails :
    ¬ ∀ start trace final, Initialised start → SchedRun start trace final →
      ∀ transition ∈ trace, transition.label = .timer →
        WorkConserving transition.after.scheduler := by
  intro conserving
  have performed : (([.timer, .enqueue 1 1 4096 4096 8192].foldlM (perform 4) sampleStart).bind
      fun before => (perform 4 before .timer).map fun after =>
        (after.scheduler.currentPcb, after.scheduler.idlePcb,
          listGetSize after.scheduler.lists (.level 0))) = some (some 100, some 100, 1) := by
    decide
  obtain ⟨before, reached, last⟩ := Option.bind_eq_some_iff.mp performed
  obtain ⟨after, ticked, facts⟩ := Option.map_eq_some_iff.mp last
  simp only [Prod.mk.injEq] at facts
  obtain ⟨trace, run, _⟩ := sampleRun _ reached
  have empty := conserving _ _ _ sampleStart_initialised (run.step (perform_step ticked))
    ⟨before, .timer, after⟩ (by simp) rfl (facts.1.trans facts.2.1.symm) 0
  exact absurd (facts.2.2.symm.trans empty) (by decide)

end KdbOS.Proc
