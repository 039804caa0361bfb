import KdbOS.Proc.SchedAging

/-! Two processes and the timer. While only two processes besides the idle one exist, the
scheduler is a machine on seven numbers: who runs, who waits, their levels and ages, and
the rest of the quantum. -/

set_option autoImplicit false

namespace KdbOS.Proc

open Library Ds

variable {system : SchedSystem} {scheduler : Scheduler} {queue : Queues} {created : List Nat}

private theorem pickFrom_pcb {levels : List (Fin 4)} {found : Option Nat} {picked : Scheduler}
    (result : pickFrom scheduler levels = some (found, picked)) : picked.pcb = scheduler.pcb := by
  induction levels with
  | nil =>
      cases result
      rfl
  | cons level rest ih =>
      rw [pickFrom] at result
      split at result
      · obtain ⟨⟨node, lists⟩, _, result⟩ := Option.bind_eq_some_iff.mp result
        obtain ⟨popped, _, result⟩ := Option.bind_eq_some_iff.mp result
        obtain ⟨address, _, result⟩ := Option.bind_eq_some_iff.mp result
        cases result
        rfl
      · exact ih result

/-- Dispatching a process changes no age, no priority and no quantum. -/
theorem dispatchNext_keeps {oldPcb : Option Nat} {dispatch : Dispatch} {next : Scheduler}
    (result : dispatchNext oldPcb scheduler = some (dispatch, next)) (address : Nat) :
    (next.pcb address).ageTicks = (scheduler.pcb address).ageTicks ∧
      (next.pcb address).priority = (scheduler.pcb address).priority ∧
      (next.pcb address).quantumRemaining = (scheduler.pcb address).quantumRemaining := by
  rw [dispatchNext] at result
  split at result
  · obtain ⟨picked, picks, result⟩ := Option.bind_eq_some_iff.mp result
    obtain ⟨process, _, result⟩ := Option.map_eq_some_iff.mp result
    obtain ⟨_, rfl⟩ := Prod.mk.inj result
    rw [schedPickNextProcess] at picks
    obtain ⟨⟨found, popped⟩, search, picks⟩ := Option.bind_eq_some_iff.mp picks
    have blocks := pickFrom_pcb search
    have dispatchedAs : ∃ chosen, picked = dispatched popped chosen := by
      cases found with
      | some chosen => exact ⟨chosen, (Option.some.inj picks).symm⟩
      | none =>
          obtain ⟨chosen, _, picks⟩ := Option.bind_eq_some_iff.mp picks
          exact ⟨chosen, (Option.some.inj picks).symm⟩
    obtain ⟨chosen, rfl⟩ := dispatchedAs
    by_cases same : address = chosen
    · subst same
      have block : (dispatched popped address).pcb address =
          { popped.pcb address with state := .running } := setPcb_self
      rw [block, ← blocks]
      exact ⟨rfl, rfl, rfl⟩
    · have block : (dispatched popped chosen).pcb address = popped.pcb address := setPcb_of_ne same
      rw [block, ← blocks]
      exact ⟨rfl, rfl, rfl⟩
  · obtain ⟨_, rfl⟩ := Prod.mk.inj (Option.some.inj result)
    exact ⟨rfl, rfl, rfl⟩

/-- What the scheduler keeps of two processes. -/
structure Pair where
  runs : Nat
  waits : Nat
  quantum : Nat
  runLevel : Nat
  runAge : Nat
  waitLevel : Nat
  waitAge : Nat
  deriving DecidableEq, Repr

/-- The level below, for a process whose quantum has run out. -/
def lowerLevel (level : Nat) : Nat :=
  if level < mlfqLevels - 1 then level + 1 else level

/-- One timer interrupt. -/
def Pair.tick (pair : Pair) : Pair :=
  if pair.quantum = 1 then
    if pair.waitLevel ≤ lowerLevel pair.runLevel then
      { runs := pair.waits
        waits := pair.runs
        quantum := quantumOf pair.waitLevel
        runLevel := pair.waitLevel
        runAge := pair.waitAge
        waitLevel := lowerLevel pair.runLevel
        waitAge := pair.runAge }
    else
      { pair with
        quantum := quantumOf (lowerLevel pair.runLevel)
        runLevel := lowerLevel pair.runLevel }
  else if pair.waitLevel = 0 then { pair with quantum := pair.quantum - 1 }
  else if pair.waitAge + 1 < ageTickMax then
    { pair with quantum := pair.quantum - 1, waitAge := pair.waitAge + 1 }
  else { pair with quantum := pair.quantum - 1, waitLevel := pair.waitLevel - 1, waitAge := 0 }

/-- The two processes are all there is besides the idle one, and have these numbers. -/
structure Shows (system : SchedSystem) (pair : Pair) : Prop where
  inv : ∃ queue, SchedInv system.scheduler system.created queue ∧ queue .waiting = []
  hasIdle : system.scheduler.idlePcb ≠ none
  apart : pair.runs ≠ pair.waits
  created : ∀ address, (address ∈ system.created ∧ some address ≠ system.scheduler.idlePcb) ↔
    address = pair.runs ∨ address = pair.waits
  current : system.scheduler.currentPcb = some pair.runs
  quantum : (system.scheduler.pcb pair.runs).quantumRemaining = pair.quantum
  runLevel : (system.scheduler.pcb pair.runs).priority = pair.runLevel
  runAge : (system.scheduler.pcb pair.runs).ageTicks = pair.runAge
  waitLevel : (system.scheduler.pcb pair.waits).priority = pair.waitLevel
  waitAge : (system.scheduler.pcb pair.waits).ageTicks = pair.waitAge

namespace Shows

variable {pair : Pair}

theorem runs_created (shows : Shows system pair) :
    pair.runs ∈ system.created ∧ some pair.runs ≠ system.scheduler.idlePcb :=
  (shows.created pair.runs).mpr (.inl rfl)

theorem waits_created (shows : Shows system pair) :
    pair.waits ∈ system.created ∧ some pair.waits ≠ system.scheduler.idlePcb :=
  (shows.created pair.waits).mpr (.inr rfl)

theorem not_current (shows : Shows system pair) :
    system.scheduler.currentPcb ≠ some pair.waits := by
  intro isCurrent
  exact shows.apart (Option.some.inj (shows.current.symm.trans isCurrent))

/-- The process that waits is on the level of its priority. -/
theorem queued (shows : Shows system pair)
    (inv : SchedInv system.scheduler system.created queue) (empty : queue .waiting = []) :
    ∃ level : Fin 4, level.val = pair.waitLevel ∧ pair.waits ∈ queue (.level level) := by
  obtain ⟨member, notIdle⟩ := shows.waits_created
  obtain ⟨list, inside⟩ := (inv.block member notIdle).placed.resolve_left shows.not_current
  cases list with
  | waiting =>
      rw [empty] at inside
      cases inside
  | level level =>
      have readyAt := (inv.block member notIdle).ready inside
      exact ⟨level, readyAt.priority.symm.trans shows.waitLevel, inside⟩

/-- The numbers after a timer interrupt, once the blocks of both processes are known. -/
theorem next (shows : Shows system pair) {pair' : Pair} {fuel : Nat} {dispatch : Dispatch}
    {after : Scheduler} (handled : schedTimerHandler fuel system.scheduler = some (dispatch, after))
    (both : pair'.runs = pair.runs ∧ pair'.waits = pair.waits ∨
      pair'.runs = pair.waits ∧ pair'.waits = pair.runs)
    (current : after.currentPcb = some pair'.runs)
    (runs : (after.pcb pair'.runs).quantumRemaining = pair'.quantum ∧
      (after.pcb pair'.runs).priority = pair'.runLevel ∧
      (after.pcb pair'.runs).ageTicks = pair'.runAge)
    (waits : (after.pcb pair'.waits).priority = pair'.waitLevel ∧
      (after.pcb pair'.waits).ageTicks = pair'.waitAge) :
    SchedStep system .timer ⟨after, system.created⟩ ∧ Shows ⟨after, system.created⟩ pair' := by
  obtain ⟨queue, inv, empty⟩ := shows.inv
  have step : SchedStep system .timer ⟨after, system.created⟩ := .timer handled
  have allowed : EnqueueOrTimer .timer := trivial
  obtain ⟨queue', inv', empty', sameIdle⟩ := inv.step_of_empty empty allowed step
  have idle : after.idlePcb = system.scheduler.idlePcb := sameIdle
  refine ⟨step, ⟨⟨queue', inv', empty'⟩, ?_, ?_, ?_, current, runs.1, runs.2.1, runs.2.2, waits.1,
    waits.2⟩⟩
  · exact idle ▸ shows.hasIdle
  · rcases both with ⟨runs, waits⟩ | ⟨runs, waits⟩
    · exact runs ▸ waits ▸ shows.apart
    · exact runs ▸ waits ▸ shows.apart.symm
  · intro address
    change address ∈ system.created ∧ some address ≠ after.idlePcb ↔ _
    rw [idle, shows.created address]
    rcases both with ⟨runs, waits⟩ | ⟨runs, waits⟩
    · rw [runs, waits]
    · rw [runs, waits]
      exact Or.comm

/-- A timer interrupt in the middle of a quantum. -/
theorem counts (shows : Shows system pair) (more : pair.quantum ≠ 1) :
    ∃ after, SchedStep system .timer after ∧ Shows after pair.tick := by
  obtain ⟨queue, inv, empty⟩ := shows.inv
  obtain ⟨member, notIdle⟩ := shows.runs_created
  obtain ⟨running, _⟩ := (inv.block member notIdle).running shows.current
  have counted : u32Sub (system.scheduler.pcb pair.runs).quantumRemaining 1 = pair.quantum - 1 := by
    rw [u32Sub_of_le running.quantum, shows.quantum]
  have positive := shows.quantum ▸ running.quantum
  obtain ⟨bound, after, queue', ticks, pass⟩ :=
    inv.ageing.tick shows.current notIdle (by rw [counted]; omega)
  have current : after.currentPcb = some pair.runs := pass.currentPcb.trans shows.current
  have handled : schedTimerHandler bound system.scheduler = some (.none, picSendEoi 0 after) := by
    rw [schedTimerHandler_eq, ticks bound, if_pos (Nat.le_refl bound), Option.bind_some]
    refine if_neg ?_
    rw [shows.current]
    exact fun either => either.elim (fun none => nomatch current.symm.trans none) nofun
  have block : after.pcb pair.runs =
      { system.scheduler.pcb pair.runs with quantumRemaining := pair.quantum - 1 } :=
    counted ▸ pass.counted
  have runs : (after.pcb pair.runs).quantumRemaining = pair.quantum - 1 ∧
      (after.pcb pair.runs).priority = pair.runLevel ∧
      (after.pcb pair.runs).ageTicks = pair.runAge := by
    rw [block]
    exact ⟨rfl, shows.runLevel, shows.runAge⟩
  obtain ⟨level, atLevel, inside⟩ := shows.queued inv empty
  unfold Pair.tick
  rw [if_neg more]
  by_cases top : pair.waitLevel = 0
  · rw [if_pos top]
    have untouched := pass.untouched pair.waits shows.apart.symm fun other positive elsewhere => by
      obtain rfl := SchedList.level.inj (inv.holds.apart inside elsewhere)
      omega
    refine ⟨_, shows.next handled (.inl ⟨rfl, rfl⟩) current runs ?_⟩
    have same : (picSendEoi 0 after).pcb pair.waits = system.scheduler.pcb pair.waits := untouched
    rw [same]
    exact ⟨shows.waitLevel, shows.waitAge⟩
  · rw [if_neg top]
    have below : 0 < level.val := by omega
    by_cases early : pair.waitAge + 1 < ageTickMax
    · rw [if_pos early]
      have aged : (picSendEoi 0 after).pcb pair.waits = _ :=
        pass.aged level below pair.waits inside (by rw [shows.waitAge]; exact early)
      refine ⟨_, shows.next handled (.inl ⟨rfl, rfl⟩) current runs ?_⟩
      rw [aged]
      exact ⟨shows.waitLevel, congrArg (· + 1) shows.waitAge⟩
    · rw [if_neg early]
      obtain ⟨quantum, _, promoted⟩ := pass.promoted level below pair.waits inside
        (by rw [shows.waitAge]; exact Nat.le_of_not_lt early)
      have block' : (picSendEoi 0 after).pcb pair.waits = _ := promoted
      refine ⟨_, shows.next handled (.inl ⟨rfl, rfl⟩) current runs ?_⟩
      rw [block']
      exact ⟨congrArg (· - 1) atLevel, rfl⟩

/-- A timer interrupt at the end of a quantum: the process that waits is dispatched, unless
it is on a lower level than the other is demoted to. -/
theorem expires (shows : Shows system pair) (last : pair.quantum = 1) :
    ∃ after, SchedStep system .timer after ∧ Shows after pair.tick := by
  obtain ⟨queue, inv, empty⟩ := shows.inv
  obtain ⟨member, notIdle⟩ := shows.runs_created
  have awake := inv.awake_of_empty empty
  obtain ⟨lists, lower, demotes, ticks, inv'⟩ :=
    inv.expire awake shows.current notIdle (shows.quantum.trans last)
  obtain ⟨level, atLevel, inside⟩ := shows.queued inv empty
  set expired := ((system.scheduler.setPcb pair.runs
    (demoted (system.scheduler.pcb pair.runs))).setLists lists).setCurrent none with expiredEq
  set queue' := Function.update queue (.level lower) (queue (.level lower) ++ [pair.runs])
    with queueEq
  have atLower : lower.val = lowerLevel pair.runLevel := by
    rw [demotes, ← shows.runLevel]
    rfl
  have runs : expired.pcb pair.runs = demoted (system.scheduler.pcb pair.runs) := setPcb_self
  have waits : expired.pcb pair.waits = system.scheduler.pcb pair.waits :=
    setPcb_of_ne shows.apart.symm
  have unlisted := inv.current_unlinked awake shows.current
  have runsInside : pair.runs ∈ queue' (.level lower) := by
    rw [queueEq, Function.update_self]
    exact List.mem_append_right _ (List.mem_singleton.mpr rfl)
  have waitsInside : pair.waits ∈ queue' (.level level) := by
    by_cases same : level = lower
    · rw [same, queueEq, Function.update_self]
      exact List.mem_append_left _ (same ▸ inside)
    · rw [queueEq, Function.update_of_ne fun equal => same (SchedList.level.inj equal)]
      exact inside
  rcases schedPickNextProcess_cases (show Holds (picSendEoi 0 expired).lists queue' from inv'.holds) with
    ⟨nothing, _⟩ | ⟨picked, address, rest, lists', earlier, front, _, picks⟩
  · rw [nothing lower] at runsInside
    cases runsInside
  have notBefore : ∀ {other : Fin 4} {process}, process ∈ queue' (.level other) →
      ¬ other < picked := by
    intro other process listed less
    rw [earlier other less] at listed
    cases listed
  have pickedInside : address ∈ queue' (.level picked) := front ▸ List.mem_cons_self
  have either : address = pair.runs ∨ address = pair.waits :=
    (shows.created address).mp (inv'.queued pickedInside)
  set after := dispatched ((picSendEoi 0 expired).setLists lists') address with afterEq
  obtain ⟨dispatch, dispatches⟩ : ∃ dispatch,
      dispatchNext system.scheduler.currentPcb (picSendEoi 0 expired) = some (dispatch, after) := by
    rw [dispatchNext, if_pos (.inl rfl), picks]
    exact ⟨_, rfl⟩
  have handled : schedTimerHandler 0 system.scheduler = some (dispatch, after) := by
    rw [schedTimerHandler_eq, ticks 0]
    exact dispatches
  obtain ⟨runAge, runLevel, runQuantum⟩ : (after.pcb pair.runs).ageTicks = pair.runAge ∧
      (after.pcb pair.runs).priority = lowerLevel pair.runLevel ∧
      (after.pcb pair.runs).quantumRemaining = quantumOf (lowerLevel pair.runLevel) := by
    obtain ⟨age, priority, quantum⟩ := dispatchNext_keeps dispatches pair.runs
    have same : (picSendEoi 0 expired).pcb pair.runs = demoted (system.scheduler.pcb pair.runs) :=
      runs
    rw [same] at age priority quantum
    rw [← shows.runAge, ← shows.runLevel]
    exact ⟨age, priority, quantum⟩
  obtain ⟨waitAge, waitLevel, waitQuantum⟩ : (after.pcb pair.waits).ageTicks = pair.waitAge ∧
      (after.pcb pair.waits).priority = pair.waitLevel ∧
      (after.pcb pair.waits).quantumRemaining = quantumOf pair.waitLevel := by
    obtain ⟨age, priority, quantum⟩ := dispatchNext_keeps dispatches pair.waits
    have same : (picSendEoi 0 expired).pcb pair.waits = system.scheduler.pcb pair.waits := waits
    have readyAt := (inv.block shows.waits_created.1 shows.waits_created.2).ready inside
    rw [same] at age priority quantum
    exact ⟨age.trans shows.waitAge, priority.trans shows.waitLevel,
      quantum.trans (readyAt.quantum.trans (by rw [atLevel]))⟩
  unfold Pair.tick
  rw [if_pos last]
  by_cases turn : pair.waitLevel ≤ lowerLevel pair.runLevel
  · rw [if_pos turn]
    have chosen : address = pair.waits := by
      refine either.resolve_left fun same => ?_
      subst same
      obtain rfl : picked = lower := SchedList.level.inj (inv'.holds.apart pickedInside runsInside)
      have same : level = picked := by
        have := notBefore waitsInside
        exact Fin.ext (by omega)
      rw [queueEq, Function.update_self] at front
      cases ahead : queue (.level picked) with
      | nil =>
          rw [same, ahead] at inside
          cases inside
      | cons first others =>
          rw [ahead] at front
          refine unlisted (.level picked) ?_
          rw [ahead, (List.cons.inj front).1]
          exact List.mem_cons_self
    subst chosen
    exact ⟨_, shows.next handled (.inr ⟨rfl, rfl⟩) rfl ⟨waitQuantum, waitLevel, waitAge⟩
      ⟨runLevel, runAge⟩⟩
  · rw [if_neg turn]
    have chosen : address = pair.runs := by
      refine either.resolve_right fun same => ?_
      subst same
      obtain rfl : picked = level := SchedList.level.inj (inv'.holds.apart pickedInside waitsInside)
      have := notBefore runsInside
      omega
    exact ⟨_, shows.next handled (.inl ⟨rfl, rfl⟩) (congrArg some chosen)
      ⟨runQuantum, runLevel, runAge⟩ ⟨waitLevel, waitAge⟩⟩

/-- The scheduler does what the machine on the numbers does. -/
theorem timer (shows : Shows system pair) :
    ∃ after, SchedStep system .timer after ∧ Shows after pair.tick := by
  by_cases last : pair.quantum = 1
  · exact shows.expires last
  · exact shows.counts last

/-- So many timer interrupts at the end of a run. -/
theorem timers (shows : Shows system pair) {start : SchedSystem}
    {trace : List (Transition SchedSystem SchedOp)} (run : SchedRun start trace system)
    (count : Nat) :
    ∃ more after, SchedRun start (trace ++ more) after ∧ more.map Transition.label =
      List.replicate count .timer ∧ Shows after (Pair.tick^[count] pair) := by
  induction count with
  | zero => exact ⟨[], system, by rwa [List.append_nil], rfl, shows⟩
  | succ count ih =>
      obtain ⟨more, before, earlier, labels, reached⟩ := ih
      obtain ⟨after, step, next⟩ := reached.timer
      refine ⟨more ++ [⟨before, .timer, after⟩], after, ?_, ?_, ?_⟩
      · rw [← List.append_assoc]
        exact earlier.step step
      · rw [List.map_append, labels, List.replicate_succ']
        rfl
      · rw [Function.iterate_succ_apply']
        exact next

end Shows

/-! ## Whole quanta -/

namespace Pair

variable {pair : Pair} {count : Nat}

/-- The process that waits grows older, below the top level. -/
theorem iterate_waiting (below : 0 < pair.waitLevel) (more : count < pair.quantum)
    (young : pair.waitAge + count < ageTickMax) :
    tick^[count] pair =
      { pair with quantum := pair.quantum - count, waitAge := pair.waitAge + count } := by
  induction count with
  | zero => rfl
  | succ count ih =>
      rw [Function.iterate_succ_apply', ih (by omega) (by omega), tick]
      dsimp only
      rw [if_neg (by omega), if_neg (by omega), if_pos (by omega)]
      rfl

/-- On the top level it does not. -/
theorem iterate_top (top : pair.waitLevel = 0) (more : count < pair.quantum) :
    tick^[count] pair = { pair with quantum := pair.quantum - count } := by
  induction count with
  | zero => rfl
  | succ count ih =>
      rw [Function.iterate_succ_apply', ih (by omega), tick]
      dsimp only
      rw [if_neg (by omega), if_pos top]
      rfl

/-- A whole quantum, after which the processes have changed places. -/
theorem quantum_waiting (quantum : pair.quantum = count + 1) (below : 0 < pair.waitLevel)
    (young : pair.waitAge + count < ageTickMax) (turn : pair.waitLevel ≤ lowerLevel pair.runLevel) :
    tick^[count + 1] pair =
      { runs := pair.waits
        waits := pair.runs
        quantum := quantumOf pair.waitLevel
        runLevel := pair.waitLevel
        runAge := pair.waitAge + count
        waitLevel := lowerLevel pair.runLevel
        waitAge := pair.runAge } := by
  rw [Function.iterate_succ_apply', iterate_waiting below (by omega) young, tick]
  dsimp only
  rw [if_pos (by omega), if_pos turn]

theorem quantum_top (quantum : pair.quantum = count + 1) (top : pair.waitLevel = 0) :
    tick^[count + 1] pair =
      { runs := pair.waits
        waits := pair.runs
        quantum := quantumOf 0
        runLevel := 0
        runAge := pair.waitAge
        waitLevel := lowerLevel pair.runLevel
        waitAge := pair.runAge } := by
  rw [Function.iterate_succ_apply', iterate_top top (by omega), tick]
  dsimp only
  rw [if_pos (by omega), if_pos (by rw [top]; exact Nat.zero_le _), top]

theorem iterate_trans {first second : Nat} {middle last : Pair}
    (earlier : tick^[first] pair = middle) (later : tick^[second] middle = last) :
    tick^[first + second] pair = last := by
  rw [Nat.add_comm, Function.iterate_add_apply, earlier, later]

end Pair

end KdbOS.Proc
