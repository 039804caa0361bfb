import KdbOS.Proc.SchedAging
import Mathlib.Data.List.Perm.Subperm

/-! No ready process starves. While the processor is not idle, each tick brings a queued
process nearer to its dispatch: on level 0 by the queue in front of it, on the other levels
by its age. -/

set_option autoImplicit false

namespace KdbOS.Proc

open Library Ds

variable {scheduler between after : Scheduler} {created : List Nat} {queue : Queues}
variable {system : SchedSystem} {level : Fin 4} {address current most fuel : Nat}
variable {dispatch : Dispatch} {oldPcb : Option Nat}

/-! ## Bounds -/

theorem quantumOf_bounds {priority : Nat} (bounded : priority < 4) :
    40 ≤ quantumOf priority ∧ quantumOf priority ≤ 160 := by
  unfold quantumOf mlfqQuantums
  match priority, bounded with
  | 0, _ => decide
  | 1, _ => decide
  | 2, _ => decide
  | 3, _ => decide

/-- The ticks that the current process has left. Without one the next tick dispatches. -/
def remaining (scheduler : Scheduler) : Nat :=
  match scheduler.currentPcb with
  | none => 1
  | some current => (scheduler.pcb current).quantumRemaining

theorem remaining_of_none (noCurrent : scheduler.currentPcb = none) : remaining scheduler = 1 := by
  unfold remaining
  rw [noCurrent]

theorem remaining_of_current (isCurrent : scheduler.currentPcb = some current) :
    remaining scheduler = (scheduler.pcb current).quantumRemaining := by
  unfold remaining
  rw [isCurrent]

/-- A bound on the ticks before a block on the level is dispatched, while there are at most
`most` blocks. Every tick that ages the block costs two, since a dispatch may come between. -/
def patience (most : Nat) (scheduler : Scheduler) (queue : Queues) (level : Fin 4)
    (address : Nat) : Nat :=
  if level = 0 then 160 * (queue (.level 0)).idxOf address + remaining scheduler
  else 160 * most + 2 * (ageTickMax * level.val - (scheduler.pcb address).ageTicks) +
    (160 - remaining scheduler)

/-- No process has blocked, and the processor is not given to the idle one. -/
structure Busy (scheduler : Scheduler) (created : List Nat) (queue : Queues) : Prop where
  inv : SchedInv scheduler created queue
  nobody : queue .waiting = []
  notIdle : ∀ current, scheduler.currentPcb = some current → some current ≠ scheduler.idlePcb

namespace Busy

variable (busy : Busy scheduler created queue)

include busy

theorem awake : CurrentAwake scheduler := busy.inv.awake_of_empty busy.nobody

theorem running (isCurrent : scheduler.currentPcb = some current) :
    Running (scheduler.pcb current) :=
  ((busy.inv.block (busy.inv.current isCurrent) (busy.notIdle current isCurrent)).running
    isCurrent).1

theorem remaining_bounds : 1 ≤ remaining scheduler ∧ remaining scheduler ≤ 160 := by
  cases isCurrent : scheduler.currentPcb with
  | none =>
      rw [remaining_of_none isCurrent]
      decide
  | some current =>
      have running := busy.running isCurrent
      rw [remaining_of_current isCurrent]
      exact ⟨running.quantum, running.quantumMax.trans (quantumOf_bounds running.priority).2⟩

theorem idxOf_lt (few : created.length ≤ most) (member : address ∈ queue (.level level)) :
    (queue (.level level)).idxOf address < most := by
  have position := List.idxOf_lt_length_of_mem member
  have inside : queue (.level level) ⊆ created := fun other listed => (busy.inv.queued listed).1
  have length := ((busy.inv.holds.unique (.level level)).subperm inside).length_le
  omega

/-- A block on level 0 is nearer to its dispatch than any other may be. -/
theorem patience_zero (few : created.length ≤ most) (member : address ∈ queue (.level 0)) :
    patience most scheduler queue 0 address ≤ 160 * most := by
  have position := busy.idxOf_lt few member
  have left := busy.remaining_bounds.2
  rw [patience, if_pos rfl]
  omega

theorem patience_lt (few : created.length ≤ most) (member : address ∈ queue (.level level)) :
    patience most scheduler queue level address < 160 * most + 3760 := by
  by_cases isZero : level = 0
  · subst isZero
    have nearer := busy.patience_zero few member
    omega
  · have left := busy.remaining_bounds.1
    have bounded := level.isLt
    rw [patience, if_neg isZero]
    unfold ageTickMax
    omega

end Busy

/-! ## One dispatch -/

/-- The block goes on waiting on its level, and the process that is dispatched has a whole
quantum. -/
structure StillQueued (between after : Scheduler) (queue queue' : Queues) (level : Fin 4)
    (address : Nat) : Prop where
  member : address ∈ queue' (.level level)
  age : (after.pcb address).ageTicks = (between.pcb address).ageTicks
  remaining : 40 ≤ remaining after
  nearer : level = 0 → (queue' (.level 0)).idxOf address + 1 = (queue (.level 0)).idxOf address

/-- A dispatch takes the block, or another one of its level or of a better one. -/
theorem SchedInv.picksNext (inv : SchedInv between created queue)
    (nobody : queue .waiting = []) (noCurrent : between.currentPcb = none)
    (member : address ∈ queue (.level level))
    (picks : dispatchNext oldPcb between = some (dispatch, after)) :
    after.currentPcb = some address ∨ ∃ queue', Busy after created queue' ∧
      StillQueued between after queue queue' level address := by
  have isPick : dispatchNext oldPcb between = (schedPickNextProcess between).bind
      fun after => after.currentPcb.map fun next => (switchTo oldPcb (after.pcb next), after) :=
    if_pos (.inl noCurrent)
  rcases schedPickNextProcess_cases inv.holds with
    ⟨empty, _⟩ | ⟨found, next, rest, lists, earlier, front, holds, picked⟩
  · rw [empty level] at member
    cases member
  · rw [isPick, picked] at picks
    obtain ⟨_, rfl⟩ := Prod.mk.inj (Option.some.inj picks)
    have isNext : next ∈ queue (.level found) := by
      rw [front]
      exact List.mem_cons_self
    have nextInv := inv.block (inv.queued isNext).1 (inv.queued isNext).2
    by_cases same : next = address
    · exact .inl (congrArg some same)
    · right
      have self : (dispatched (between.setLists lists) next).pcb next =
          { between.pcb next with state := .running } := setPcb_self
      refine ⟨_, ⟨inv.pickFront noCurrent front holds, ?_, fun other isCurrent => ?_⟩, ?_, ?_, ?_, ?_⟩
      · simpa using nobody
      · obtain rfl : next = other := Option.some.inj isCurrent
        exact (inv.queued isNext).2
      · by_cases here : level = found
        · subst here
          rw [front] at member
          rw [Function.update_self]
          exact (List.mem_cons.mp member).resolve_left fun isSame => same isSame.symm
        · rw [Function.update_of_ne fun isSame => here (SchedList.level.inj isSame)]
          exact member
      · exact congrArg ProcessControlBlock.ageTicks (setPcb_of_ne (Ne.symm same))
      · show 40 ≤ ((dispatched (between.setLists lists) next).pcb next).quantumRemaining
        rw [self]
        show 40 ≤ (between.pcb next).quantumRemaining
        rw [(nextInv.ready isNext).quantum]
        exact (quantumOf_bounds found.isLt).1
      · rintro rfl
        -- A better level than 0 does not exist.
        have isZero : found = 0 := by
          by_contra notZero
          have none := earlier 0 (Fin.pos_iff_ne_zero.mpr notZero)
          rw [none] at member
          cases member
        subst isZero
        rw [Function.update_self, front, List.idxOf_cons_ne _ same]

/-! ## One tick -/

namespace Busy

variable (busy : Busy scheduler created queue)

include busy

/-- The tick dispatches: nobody is current, or the quantum runs out. -/
theorem timer_dispatches (most : Nat)
    (last : ∀ current, scheduler.currentPcb = some current →
      (scheduler.pcb current).quantumRemaining = 1)
    (member : address ∈ queue (.level level))
    (handled : schedTimerHandler fuel scheduler = some (dispatch, after)) :
    after.currentPcb = some address ∨ ∃ queue' level', Busy after created queue' ∧
      address ∈ queue' (.level level') ∧
        patience most after queue' level' address + 1 ≤ patience most scheduler queue level address := by
  have isLast : remaining scheduler = 1 := by
    cases isCurrent : scheduler.currentPcb with
    | none => exact remaining_of_none isCurrent
    | some current =>
        rw [remaining_of_current isCurrent]
        exact last current isCurrent
  -- Before the dispatch the block has not moved.
  have ticks : ∃ between queue', schedTick fuel scheduler = some between ∧
      SchedInv between created queue' ∧ queue' .waiting = [] ∧ between.currentPcb = none ∧
        address ∈ queue' (.level level) ∧
        (between.pcb address).ageTicks = (scheduler.pcb address).ageTicks ∧
        (queue' (.level level)).idxOf address = (queue (.level level)).idxOf address := by
    cases isCurrent : scheduler.currentPcb with
    | none =>
        refine ⟨scheduler, queue, ?_, busy.inv, busy.nobody, isCurrent, member, rfl, rfl⟩
        rw [schedTick, isCurrent]
    | some current =>
        have unlisted := busy.inv.current_unlinked busy.awake isCurrent
        have different : address ≠ current := fun same => unlisted _ (same ▸ member)
        obtain ⟨lists, target, _, expires, inv⟩ :=
          busy.inv.expire busy.awake isCurrent (busy.notIdle current isCurrent) (last current isCurrent)
        refine ⟨_, _, expires fuel, inv, ?_, rfl, ?_, ?_, ?_⟩
        · simpa using busy.nobody
        · by_cases here : SchedList.level level = .level target
          · rw [here, Function.update_self, ← here]
            exact List.mem_append_left _ member
          · rw [Function.update_of_ne here]
            exact member
        · exact congrArg ProcessControlBlock.ageTicks (setPcb_of_ne different)
        · by_cases here : SchedList.level level = .level target
          · rw [here, Function.update_self, ← here]
            exact List.idxOf_append_of_mem member
          · rw [Function.update_of_ne here]
  obtain ⟨between, queue', ticked, inv, nobody, noCurrent, stillMember, age, position⟩ := ticks
  rw [schedTimerHandler_eq, ticked] at handled
  have eoi : SchedInv (picSendEoi 0 between) created queue' := inv.congr rfl rfl rfl rfl
  rcases eoi.picksNext nobody noCurrent stillMember handled with
    isDispatched | ⟨later, busyAfter, still⟩
  · exact .inl isDispatched
  · refine .inr ⟨later, level, busyAfter, still.member, ?_⟩
    have bounds := busyAfter.remaining_bounds
    have fresh := still.remaining
    have sameAge : (after.pcb address).ageTicks = (scheduler.pcb address).ageTicks := still.age.trans age
    by_cases isZero : level = 0
    · subst isZero
      have nearer := still.nearer rfl
      rw [patience, if_pos rfl, patience, if_pos rfl]
      omega
    · rw [patience, if_neg isZero, patience, if_neg isZero, sameAge]
      omega

/-- The current process goes on, and the queues age. -/
theorem timer_ages (few : created.length ≤ most) (isCurrent : scheduler.currentPcb = some current)
    (more : (scheduler.pcb current).quantumRemaining ≠ 1) (member : address ∈ queue (.level level))
    (handled : schedTimerHandler fuel scheduler = some (dispatch, after)) :
    ∃ queue' level', Busy after created queue' ∧ address ∈ queue' (.level level') ∧
      patience most after queue' level' address + 1 ≤ patience most scheduler queue level address := by
  have notIdle := busy.notIdle current isCurrent
  have readyAt := (busy.inv.block (busy.inv.queued member).1 (busy.inv.queued member).2).ready member
  have unlisted := busy.inv.current_unlinked busy.awake isCurrent
  have different : address ≠ current := fun same => unlisted _ (same ▸ member)
  obtain ⟨lists, ticks, inv⟩ := busy.inv.age busy.awake isCurrent notIdle more
  let block := counted (scheduler.pcb current)
  have same : (scheduler.setPcb current block).pcb address = scheduler.pcb address :=
    setPcb_of_ne different
  -- The handler ends after the tick.
  have isAfter : after = picSendEoi 0 (ticked scheduler current queue lists) := by
    rw [schedTimerHandler_eq, ticks fuel] at handled
    split at handled
    · have stays : dispatchNext scheduler.currentPcb
          (picSendEoi 0 (ticked scheduler current queue lists)) =
            some (.none, picSendEoi 0 (ticked scheduler current queue lists)) := by
        refine if_neg ?_
        simp [ticked, picSendEoi, isCurrent]
      rw [Option.bind_some, stays] at handled
      exact (Prod.mk.inj (Option.some.inj handled)).2.symm
    · cases handled
  subst isAfter
  have eoi : SchedInv (picSendEoi 0 (ticked scheduler current queue lists)) created _ :=
    inv.congr rfl rfl rfl rfl
  have busyAfter : Busy (picSendEoi 0 (ticked scheduler current queue lists)) created
      (agedQueues queue (scheduler.setPcb current block).pcb) :=
    ⟨eoi, busy.nobody, busy.notIdle⟩
  have left : remaining (picSendEoi 0 (ticked scheduler current queue lists)) + 1 =
      remaining scheduler := by
    have notAged : current ∉ agedLevels queue := by
      intro visited
      obtain ⟨_, _, inside⟩ := mem_agedLevels.mp visited
      exact unlisted _ inside
    have quantum := (busy.running isCurrent).quantum
    have counts : (ticked scheduler current queue lists).pcb current = block :=
      (if_neg notAged).trans setPcb_self
    have stillCurrent : (picSendEoi 0 (ticked scheduler current queue lists)).currentPcb =
        some current := isCurrent
    rw [remaining_of_current isCurrent, remaining_of_current stillCurrent]
    show ((ticked scheduler current queue lists).pcb current).quantumRemaining + 1 = _
    rw [counts]
    exact Nat.sub_add_cancel quantum
  have bounds := busy.remaining_bounds
  have boundsAfter := busyAfter.remaining_bounds
  by_cases isZero : level = 0
  · -- On level 0 the block keeps its place.
    subst isZero
    refine ⟨_, 0, busyAfter, mem_agedQueues.mpr (.inl ⟨member, .inl rfl⟩), ?_⟩
    have place : (agedQueues queue (scheduler.setPcb current block).pcb (.level 0)).idxOf address =
        (queue (.level 0)).idxOf address := List.idxOf_append_of_mem member
    rw [patience, if_pos rfl, patience, if_pos rfl, place]
    omega
  · have positive : 0 < level.val := Nat.pos_of_ne_zero fun zero => isZero (Fin.ext zero)
    have agedBlock : (picSendEoi 0 (ticked scheduler current queue lists)).pcb address =
        aged (scheduler.pcb address) := by
      rw [← same]
      exact ageBlocks_of_level positive member
    have young := readyAt.age
    unfold ageTickMax at young
    by_cases promoted : promotes (scheduler.pcb address) = true
    · -- It moves to the next better level.
      have old := of_decide_eq_true promoted
      unfold ageTickMax at old
      have arrived : address ∈ agedQueues queue (scheduler.setPcb current block).pcb
          (.level (below level)) := mem_agedQueues.mpr (.inr ⟨level, by
        show level.val = level.val - 1 + 1
        omega, member, same ▸ promoted⟩)
      refine ⟨_, below level, busyAfter, arrived, ?_⟩
      rw [patience.eq_1 _ scheduler, if_neg isZero]
      by_cases belowZero : below level = 0
      · rw [belowZero] at arrived ⊢
        have nearer := busyAfter.patience_zero few arrived
        have first : level.val = 1 := by
          have value := congrArg Fin.val belowZero
          have isBelow : level.val - 1 = 0 := value
          omega
        rw [first]
        unfold ageTickMax
        omega
      · rw [patience, if_neg belowZero, agedBlock, aged, if_pos promoted]
        show 160 * most + 2 * (ageTickMax * (level.val - 1) - 0) + _ + 1 ≤ _
        unfold ageTickMax
        omega
    · have stays := Bool.eq_false_of_not_eq_true promoted
      refine ⟨_, level, busyAfter, mem_agedQueues.mpr (.inl ⟨member, .inr (same ▸ stays)⟩), ?_⟩
      rw [patience, if_neg isZero, patience, if_neg isZero, agedBlock, aged, if_neg promoted]
      show 160 * most + 2 * (ageTickMax * level.val - ((scheduler.pcb address).ageTicks + 1)) + _ + 1 ≤ _
      unfold ageTickMax
      omega

theorem timer (few : created.length ≤ most) (member : address ∈ queue (.level level))
    (handled : schedTimerHandler fuel scheduler = some (dispatch, after)) :
    after.currentPcb = some address ∨ ∃ queue' level', Busy after created queue' ∧
      address ∈ queue' (.level level') ∧
        patience most after queue' level' address + 1 ≤ patience most scheduler queue level address := by
  by_cases last : ∀ current, scheduler.currentPcb = some current →
      (scheduler.pcb current).quantumRemaining = 1
  · exact busy.timer_dispatches most last member handled
  · obtain ⟨current, isCurrent, more⟩ := not_forall₂.mp last
    exact .inr (busy.timer_ages few isCurrent more member handled)

/-- A fresh block is put behind the others. -/
theorem enqueue {scheduler' : Scheduler} {fresh pid addressSpace addressSpacePhysical kernelStackPtr : Nat}
    (isFresh : fresh ∉ created) (member : address ∈ queue (.level level))
    (enqueued : schedEnqueue (scheduler.create fresh
      (createdPcb pid addressSpace addressSpacePhysical kernelStackPtr)) (some fresh) =
        some scheduler') (most : Nat) :
    ∃ queue', Busy scheduler' (fresh :: created) queue' ∧ address ∈ queue' (.level level) ∧
      patience most scheduler' queue' level address = patience most scheduler queue level address := by
  obtain ⟨lists, result, inv⟩ :=
    busy.inv.enqueue isFresh pid addressSpace addressSpacePhysical kernelStackPtr
  obtain rfl := Option.some.inj (enqueued.symm.trans result)
  have others : ∀ other ∈ created, ((scheduler.setPcb fresh (createdPcb pid addressSpace
      addressSpacePhysical kernelStackPtr)).setLists lists).pcb other = scheduler.pcb other :=
    fun other old => setPcb_of_ne fun same => isFresh (same ▸ old)
  have sameLeft : remaining ((scheduler.setPcb fresh (createdPcb pid addressSpace
      addressSpacePhysical kernelStackPtr)).setLists lists) = remaining scheduler := by
    have sameCurrent : ((scheduler.setPcb fresh (createdPcb pid addressSpace addressSpacePhysical
        kernelStackPtr)).setLists lists).currentPcb = scheduler.currentPcb := rfl
    cases isCurrent : scheduler.currentPcb with
    | none => rw [remaining_of_none (sameCurrent.trans isCurrent), remaining_of_none isCurrent]
    | some current =>
        rw [remaining_of_current (sameCurrent.trans isCurrent), remaining_of_current isCurrent,
          others current (busy.inv.current isCurrent)]
  refine ⟨_, ⟨inv, by simpa using busy.nobody, busy.notIdle⟩, ?_, ?_⟩
  · by_cases isZero : level = 0
    · subst isZero
      rw [Function.update_self]
      exact List.mem_append_left _ member
    · rw [Function.update_of_ne fun same => isZero (SchedList.level.inj same)]
      exact member
  · by_cases isZero : level = 0
    · subst isZero
      rw [patience, if_pos rfl, patience, if_pos rfl, sameLeft, Function.update_self,
        List.idxOf_append_of_mem member]
    · rw [patience, if_neg isZero, patience, if_neg isZero, sameLeft,
        others address (busy.inv.queued member).1]

end Busy

/-! ## Runs -/

variable {start middle final : SchedSystem}
variable {before trace : List (Transition SchedSystem SchedOp)}

theorem SchedStep.created_le {first last : SchedSystem} {label : SchedOp}
    (step : SchedStep first label last) : first.created.length ≤ last.created.length := by
  cases step with
  | enqueue => exact Nat.le_succ _
  | timer => exact Nat.le_refl _
  | block => exact Nat.le_refl _
  | unblock => exact Nat.le_refl _

/-- No later state of a run has fewer blocks. -/
theorem SchedRun.created_le (run : SchedRun start trace final) :
    start.created.length ≤ final.created.length ∧
      ∀ transition ∈ trace, transition.before.created.length ≤ final.created.length := by
  induction run with
  | start => exact ⟨Nat.le_refl _, nofun⟩
  | step run step ih =>
      have more := step.created_le
      refine ⟨ih.1.trans more, fun transition member => ?_⟩
      rcases List.mem_append.mp member with earlier | last
      · exact (ih.2 transition earlier).trans more
      · rw [List.mem_singleton.mp last]
        exact more

def isTimer (label : SchedOp) : Bool := label = .timer

/-- The block is on a level, with so much patience. -/
def Waits (most address : Nat) (system : SchedSystem) (rank : Nat) : Prop :=
  ∃ queue level, Busy system.scheduler system.created queue ∧ address ∈ queue (.level level) ∧
    rank = patience most system.scheduler queue level address

theorem Waits.step {first last : SchedSystem} {label : SchedOp} {rank : Nat}
    (waits : Waits most address first rank) (step : SchedStep first label last)
    (allowed : EnqueueOrTimer label) (few : first.created.length ≤ most) :
    last.scheduler.currentPcb = some address ∨ ∃ less, Waits most address last less ∧
      less + (if isTimer label then 1 else 0) ≤ rank := by
  obtain ⟨queue, level, busy, member, rfl⟩ := waits
  cases step with
  | enqueue isFresh enqueued =>
      obtain ⟨queue', busyAfter, stillMember, same⟩ := busy.enqueue isFresh member enqueued most
      exact .inr ⟨_, ⟨queue', level, busyAfter, stillMember, rfl⟩, same.le⟩
  | timer handled =>
      rcases busy.timer few member handled with
        isDispatched | ⟨queue', level', busyAfter, stillMember, lower⟩
      · exact .inl isDispatched
      · exact .inr ⟨_, ⟨queue', level', busyAfter, stillMember, rfl⟩, lower⟩
  | block => exact allowed.elim
  | unblock => exact allowed.elim

/-- Whatever fresh processes are enqueued meanwhile, a process that is not dispatched has seen
fewer ticks than this bound, unless the processor was already given to the idle process. -/
theorem ready_dispatched (initialised : Initialised start) (earlier : SchedRun start before middle)
    (later : SchedRun middle trace final)
    (operations : ∀ transition ∈ before ++ trace, EnqueueOrTimer transition.label)
    (member : address ∈ middle.created) (notIdle : some address ≠ middle.scheduler.idlePcb)
    (busy : ∀ current, middle.scheduler.currentPcb = some current →
      some current ≠ middle.scheduler.idlePcb)
    (long : 160 * final.created.length + 3760 ≤
      trace.countP fun transition => isTimer transition.label) :
    middle.scheduler.currentPcb = some address ∨
      ∃ transition ∈ trace, transition.after.scheduler.currentPcb = some address := by
  obtain ⟨queue, inv, nobody, _⟩ := initialised.inv_of_run earlier fun transition inEarlier =>
    operations transition (List.mem_append_left _ inEarlier)
  have isBusy : Busy middle.scheduler middle.created queue := ⟨inv, nobody, busy⟩
  rcases (inv.block member notIdle).placed with isCurrent | ⟨list, inside⟩
  · exact .inl isCurrent
  · cases list with
    | waiting =>
        rw [nobody] at inside
        cases inside
    | level level =>
        obtain ⟨fewStart, few⟩ := SchedRun.created_le later
        have patient := isBusy.patience_lt fewStart inside
        have outcome := Run.ranked
          (fun transition => EnqueueOrTimer transition.label ∧
            transition.before.created.length ≤ final.created.length)
          isTimer (fun system => system.scheduler.currentPcb = some address)
          (Waits final.created.length address) later ⟨queue, level, isBusy, inside, rfl⟩
          (fun waits step allowed => waits.step step allowed.1 allowed.2)
          (fun transition inTrace => ⟨operations transition (List.mem_append_right _ inTrace),
            few transition inTrace⟩)
        rcases outcome with reached | ⟨less, _, bound⟩
        · exact .inr reached
        · omega

/-- With an idle process the timer never gets stuck. -/
theorem exists_ticks (inv : SchedInv middle.scheduler middle.created queue)
    (nobody : queue .waiting = []) (hasIdle : middle.scheduler.idlePcb ≠ none) (count : Nat) :
    ∃ trace final, SchedRun middle trace final ∧ trace.length = count ∧
      (∀ transition ∈ trace, transition.label = .timer) ∧ final.created = middle.created := by
  induction count with
  | zero => exact ⟨[], middle, .start, rfl, nofun, rfl⟩
  | succ count ih =>
      obtain ⟨trace, last, run, length, timers, same⟩ := ih
      have reached := run.invariant (fun _ label => label = .timer)
        (fun system => ∃ queue, SchedInv system.scheduler system.created queue ∧
          queue .waiting = [] ∧ system.scheduler.idlePcb = middle.scheduler.idlePcb)
        ⟨queue, inv, nobody, rfl⟩ (fun known isTimer step => by
          obtain ⟨queue, inv, nobody, idle⟩ := known
          obtain ⟨queue', inv', nobody', idle'⟩ :=
            inv.step_of_empty nobody (by rw [isTimer]; trivial) step
          exact ⟨queue', inv', nobody', idle'.trans idle⟩) timers
      obtain ⟨⟨queue', inv', nobody', idle⟩, _⟩ := reached
      obtain ⟨bound, result, handles, stuck, _⟩ := inv'.timer (inv'.awake_of_empty nobody')
      cases isResult : result with
      | none => exact absurd (idle.symm.trans (stuck isResult)) hasIdle
      | some outcome =>
          have handled : schedTimerHandler bound last.scheduler = some (outcome.1, outcome.2) := by
            rw [handles bound, if_pos (Nat.le_refl _), isResult]
          refine ⟨_, _, run.step (.timer handled), ?_, fun transition member => ?_, same⟩
          · rw [List.length_append, length]
            rfl
          · rcases List.mem_append.mp member with isEarlier | isLast
            · exact timers transition isEarlier
            · rw [List.mem_singleton.mp isLast]

/-- The second of two processes, while the first one runs. -/
theorem ready_dispatched_sample : ∃ middle trace final,
    middle.scheduler.currentPcb = some 1 ∧ SchedRun middle trace final ∧
      ∃ transition ∈ trace, transition.after.scheduler.currentPcb = some 2 := by
  have performed : ([.enqueue 1 1 4096 4096 8192, .enqueue 2 2 4096 4096 8192, .timer].foldlM
      (perform 4) sampleStart).map (fun final => (final.scheduler.currentPcb, final.created,
        final.scheduler.idlePcb)) = some (some 1, [2, 1, 100], some 100) := by decide
  obtain ⟨middle, reached, facts⟩ := Option.map_eq_some_iff.mp performed
  have isCurrent : middle.scheduler.currentPcb = some 1 := congrArg Prod.fst facts
  have created : middle.created = [2, 1, 100] := congrArg (Prod.fst ∘ Prod.snd) facts
  have isIdle : middle.scheduler.idlePcb = some 100 := congrArg (Prod.snd ∘ Prod.snd) facts
  obtain ⟨before, earlier, labels⟩ := sampleRun _ reached
  have operations : ∀ transition ∈ before, EnqueueOrTimer transition.label := by
    intro transition member
    have label := List.mem_map_of_mem (f := Transition.label) member
    rw [labels] at label
    simp only [List.mem_cons, List.not_mem_nil, or_false] at label
    rcases label with label | label | label <;> rw [label] <;> trivial
  obtain ⟨queue, inv, nobody, _⟩ := sampleStart_initialised.inv_of_run earlier operations
  obtain ⟨trace, final, later, length, timers, same⟩ :=
    exists_ticks inv nobody (by rw [isIdle]; nofun) 4240
  have isDispatched : middle.scheduler.currentPcb = some 2 ∨
      ∃ transition ∈ trace, transition.after.scheduler.currentPcb = some 2 :=
    ready_dispatched sampleStart_initialised earlier later
    (fun transition member => by
      rcases List.mem_append.mp member with isEarlier | isLater
      · exact operations transition isEarlier
      · rw [timers transition isLater]
        trivial)
    (by rw [created]; decide) (by rw [isIdle]; decide)
    (fun current isHere => by
      rw [isCurrent] at isHere
      obtain rfl := Option.some.inj isHere
      rw [isIdle]
      decide)
    (by
      have all : (trace.countP fun transition => isTimer transition.label) = 4240 := by
        rw [← length]
        exact List.countP_eq_length.mpr fun transition member => by rw [timers transition member]; rfl
      rw [all, same, created]
      decide)
  refine ⟨middle, trace, final, isCurrent, later, isDispatched.resolve_left ?_⟩
  rw [isCurrent]
  decide

end KdbOS.Proc
