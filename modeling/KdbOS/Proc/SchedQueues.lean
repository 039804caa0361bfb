import KdbOS.Ds.ListProperties
import KdbOS.Proc.Sched

/-! What each scheduler operation does to the sequences on its lists. The walks
over intrusive nodes are related here to filters and appends of those sequences. -/

set_option autoImplicit false

namespace KdbOS.Proc

open Library Ds

abbrev Queues := SchedList → List Nat

def quantumOf (priority : Nat) : Nat := mlfqQuantums.getD priority 0

theorem mlfqQuantums_getElem {priority : Nat} (bounded : priority < 4) :
    mlfqQuantums[priority]? = some (quantumOf priority) := by
  have inside : priority < mlfqQuantums.length := bounded
  simp [quantumOf, inside]

theorem quantumOf_pos {priority : Nat} (bounded : priority < 4) : 1 ≤ quantumOf priority := by
  match priority, bounded with
  | 0, _ | 1, _ | 2, _ | 3, _ => decide

theorem priorityQueue_of_lt {priority : Nat} (bounded : priority < 4) :
    priorityQueue priority = some (.level ⟨priority, bounded⟩) := by
  simp [priorityQueue, bounded]

/-- The block has waited long enough to be moved up one level at the next tick. -/
def promotes (block : ProcessControlBlock) : Bool :=
  decide (ageTickMax ≤ block.ageTicks + 1)

/-- A queued block after one aging pass has visited it. -/
def aged (block : ProcessControlBlock) : ProcessControlBlock :=
  if promotes block then
    { block with
      ageTicks := 0
      priority := block.priority - 1
      quantumRemaining := quantumOf (block.priority - 1) }
  else { block with ageTicks := block.ageTicks + 1 }

def ageBlocks (pcb : Nat → ProcessControlBlock) (visited : List Nat) :
    Nat → ProcessControlBlock :=
  fun address => if address ∈ visited then aged (pcb address) else pcb address

@[simp] theorem ageBlocks_nil (pcb : Nat → ProcessControlBlock) : ageBlocks pcb [] = pcb := by
  funext address
  simp [ageBlocks]

def below (level : Fin 4) : Fin 4 := ⟨level.val - 1, by omega⟩

@[simp] theorem below_one : below 1 = 0 := rfl

@[simp] theorem below_two : below 2 = 1 := rfl

@[simp] theorem below_three : below 3 = 2 := rfl

/-- The queues after `level` has been walked: `kept` was already passed over. -/
def walked (queue : Queues) (pcb : Nat → ProcessControlBlock) (level : Fin 4)
    (kept rest : List Nat) : Queues :=
  Function.update
    (Function.update queue (.level level)
      (kept ++ rest.filter fun address => !promotes (pcb address)))
    (.level (below level))
    (queue (.level (below level)) ++ rest.filter fun address => promotes (pcb address))

private theorem below_ne {level : Fin 4} (positive : 0 < level.val) : below level ≠ level := by
  intro same
  have values := congrArg Fin.val same
  simp only [below] at values
  omega

private theorem filter_update {pcb : Nat → ProcessControlBlock} {address : Nat}
    {block : ProcessControlBlock} {rest : List Nat} (absent : address ∉ rest)
    (select : ProcessControlBlock → Bool) :
    (rest.filter fun other => select (Function.update pcb address block other)) =
      rest.filter fun other => select (pcb other) := by
  apply List.filter_congr
  intro other member
  have different : other ≠ address := fun same => absent (same ▸ member)
  rw [Function.update_of_ne different]

private theorem ageBlocks_cons {pcb : Nat → ProcessControlBlock} {address : Nat}
    {rest : List Nat} (absent : address ∉ rest) :
    ageBlocks (Function.update pcb address (aged (pcb address))) rest =
      ageBlocks pcb (address :: rest) := by
  funext other
  by_cases same : other = address
  · subst same
    simp [ageBlocks, absent]
  · simp [ageBlocks, same]

private theorem ageTicks_succ {block : ProcessControlBlock} (bounded : block.ageTicks < ageTickMax) :
    u32 (block.ageTicks + 1) = block.ageTicks + 1 := by
  refine u32_of_lt (Nat.lt_of_le_of_lt bounded ?_)
  decide

/-- One step of the walk at a block that is promoted. -/
private theorem ageWalk_promoted {level : Fin 4} (positive : 0 < level.val) {address : Nat}
    {scheduler : Scheduler} {unlinked pushed : ListStore SchedList Nat} {code : Nat}
    (priorityEq : (scheduler.pcb address).priority = level.val)
    (ageBound : (scheduler.pcb address).ageTicks < ageTickMax)
    (promoted : promotes (scheduler.pcb address) = true)
    (removed : listRemoveNode scheduler.lists (.level level) (.node address) =
      some (code, unlinked))
    (pushes : listPushTail unlinked (.level (below level)) (.node address) = some pushed)
    (fuel : Nat) :
    ageWalk level (fuel + 1) (some (.node address)) scheduler =
      ageWalk level fuel (scheduler.lists.links (.node address)).next
        ((scheduler.setPcb address (aged (scheduler.pcb address))).setLists pushed) := by
  have reached : ageTickMax ≤ (scheduler.pcb address).ageTicks + 1 := of_decide_eq_true promoted
  have lower : u32Sub level.val 1 = level.val - 1 := u32Sub_of_le positive
  have bounded : level.val - 1 < 4 := by omega
  have block : aged (scheduler.pcb address) =
      { scheduler.pcb address with
        ageTicks := 0
        priority := level.val - 1
        quantumRemaining := quantumOf (level.val - 1) } := by
    simp [aged, promoted, priorityEq]
  have queue : priorityQueue (level.val - 1) = some (.level (below level)) :=
    priorityQueue_of_lt bounded
  simp only [ageWalk, Option.some.injEq, reduceCtorEq, ↓reduceIte, containerOf,
    ageTicks_succ ageBound, reached, ge_iff_le, removed, priorityEq, lower,
    mlfqQuantums_getElem bounded, queue, pushes, block, Option.bind_eq_bind, Option.bind_some]

/-- One step of the walk at a block that stays on its level. -/
private theorem ageWalk_kept {level : Fin 4} {address : Nat} {scheduler : Scheduler}
    (ageBound : (scheduler.pcb address).ageTicks < ageTickMax)
    (kept : promotes (scheduler.pcb address) = false) (fuel : Nat) :
    ageWalk level (fuel + 1) (some (.node address)) scheduler =
      ageWalk level fuel (scheduler.lists.links (.node address)).next
        (scheduler.setPcb address (aged (scheduler.pcb address))) := by
  have early : ¬ ageTickMax ≤ (scheduler.pcb address).ageTicks + 1 := of_decide_eq_false kept
  simp only [ageWalk, Option.some.injEq, reduceCtorEq, ↓reduceIte, containerOf,
    ageTicks_succ ageBound, early, ge_iff_le, aged, kept, Bool.false_eq_true,
    Option.bind_eq_bind, Option.bind_some]

/-- Walking one level ages each of its blocks once, keeps the ones that stay in
order and appends the promoted ones in order to the level below. The saved
successor stays valid because a promoted block only leaves its own position. -/
theorem ageWalk_holds (level : Fin 4) (positive : 0 < level.val) (rest : List Nat) :
    ∀ (kept : List Nat) (scheduler : Scheduler) {queue : Queues},
      Holds scheduler.lists queue → queue (.level level) = kept ++ rest →
      (∀ address ∈ rest, (scheduler.pcb address).priority = level.val ∧
        (scheduler.pcb address).ageTicks < ageTickMax) →
      ∃ lists, Holds lists (walked queue scheduler.pcb level kept rest) ∧
        ∀ fuel, ageWalk level fuel
            (some ((rest.map ListNode.node ++ [ListNode.root (SchedList.level level)]).head (by simp)))
            scheduler =
          if rest.length < fuel then
            some { scheduler with lists := lists, pcb := ageBlocks scheduler.pcb rest }
          else none := by
  induction rest with
  | nil =>
      intro kept scheduler queue holds split blocks
      have same : walked queue scheduler.pcb level kept [] = queue := by
        rw [List.append_nil] at split
        simp only [walked, List.filter_nil, List.append_nil, ← split, Function.update_eq_self]
      refine ⟨scheduler.lists, by rw [same]; exact holds, ?_⟩
      intro fuel
      cases fuel with
      | zero => simp [ageWalk]
      | succ fuel => simp [ageWalk]
  | cons address rest ih =>
      intro kept scheduler queue holds split blocks
      have unique := holds.unique (.level level)
      rw [split] at unique
      have absentRest : address ∉ rest := by
        have tail := (List.nodup_append.mp unique).2.1
        exact (List.nodup_cons.mp tail).1
      have ring := holds.ring (.level level)
      rw [split, List.map_append, List.map_cons] at ring
      have successor := ring.next_member
      obtain ⟨priorityEq, ageBound⟩ := blocks address (by simp)
      cases promoted : promotes (scheduler.pcb address) with
      | true =>
          obtain ⟨unlinked, removed, removedHolds⟩ := listRemoveNode_holds holds split
          have fresh : ∀ other,
              address ∉ Function.update queue (.level level) (kept ++ rest) other := by
            intro other member
            by_cases same : other = .level level
            · subst same
              simp only [Function.update_self] at member
              exact (List.nodup_cons.mp (List.nodup_middle.mp unique)).1 member
            · simp only [Function.update_of_ne same] at member
              exact same (holds.apart member (by rw [split]; simp))
          obtain ⟨pushed, pushes, pushedHolds⟩ :=
            listPushTail_holds removedHolds (.level (below level)) fresh
          have belowNe : SchedList.level (below level) ≠ .level level := by
            simpa using below_ne positive
          obtain ⟨lists, listsHold, walk⟩ := ih kept
            ((scheduler.setPcb address (aged (scheduler.pcb address))).setLists pushed)
            pushedHolds (by simp [Function.update_of_ne belowNe.symm])
            (by
              intro other member
              have different : other ≠ address := fun same => absentRest (same ▸ member)
              simpa [Scheduler.setPcb, Scheduler.setLists, different] using
                blocks other (List.mem_cons_of_mem _ member))
          refine ⟨lists, ?_, ?_⟩
          · have same : walked queue scheduler.pcb level kept (address :: rest) =
                walked (Function.update (Function.update queue (.level level) (kept ++ rest))
                    (.level (below level))
                    (Function.update queue (.level level) (kept ++ rest) (.level (below level)) ++
                      [address]))
                  (Function.update scheduler.pcb address (aged (scheduler.pcb address)))
                  level kept rest := by
              funext list
              unfold walked
              rw [filter_update absentRest (fun block => !promotes block),
                filter_update absentRest promotes]
              by_cases isBelow : list = .level (below level)
              · subst isBelow
                simp [promoted, Function.update_of_ne belowNe]
              · by_cases isLevel : list = .level level
                · subst isLevel
                  simp [promoted, Function.update_of_ne belowNe.symm]
                · simp [Function.update_of_ne isBelow, Function.update_of_ne isLevel]
            rw [same]
            exact listsHold
          · intro fuel
            cases fuel with
            | zero => simp [ageWalk]
            | succ fuel =>
                simp only [List.map_cons, List.cons_append, List.head_cons, List.length_cons,
                  Nat.add_lt_add_iff_right]
                rw [ageWalk_promoted positive priorityEq ageBound promoted removed pushes,
                  successor, walk fuel]
                simp only [Scheduler.setPcb, Scheduler.setLists, ageBlocks_cons absentRest]
      | false =>
          obtain ⟨lists, listsHold, walk⟩ := ih (kept ++ [address])
            (scheduler.setPcb address (aged (scheduler.pcb address)))
            holds (by simpa using split)
            (by
              intro other member
              have different : other ≠ address := fun same => absentRest (same ▸ member)
              simpa [Scheduler.setPcb, different] using
                blocks other (List.mem_cons_of_mem _ member))
          refine ⟨lists, ?_, ?_⟩
          · have same : walked queue scheduler.pcb level kept (address :: rest) =
                walked queue (Function.update scheduler.pcb address (aged (scheduler.pcb address)))
                  level (kept ++ [address]) rest := by
              unfold walked
              rw [filter_update absentRest (fun block => !promotes block),
                filter_update absentRest promotes]
              simp [promoted]
            rw [same]
            exact listsHold
          · intro fuel
            cases fuel with
            | zero => simp [ageWalk]
            | succ fuel =>
                simp only [List.map_cons, List.cons_append, List.head_cons, List.length_cons,
                  Nat.add_lt_add_iff_right]
                rw [ageWalk_kept ageBound promoted, successor, walk fuel]
                simp only [Scheduler.setPcb, ageBlocks_cons absentRest]

/-- The queues after the whole aging pass: level `i` keeps its blocks that stay
and receives, behind them, the blocks promoted from level `i + 1`. -/
def agedQueues (queue : Queues) (pcb : Nat → ProcessControlBlock) : Queues
  | .level 0 => queue (.level 0) ++ (queue (.level 1)).filter fun address => promotes (pcb address)
  | .level 1 =>
      ((queue (.level 1)).filter fun address => !promotes (pcb address)) ++
        (queue (.level 2)).filter fun address => promotes (pcb address)
  | .level 2 =>
      ((queue (.level 2)).filter fun address => !promotes (pcb address)) ++
        (queue (.level 3)).filter fun address => promotes (pcb address)
  | .level 3 => (queue (.level 3)).filter fun address => !promotes (pcb address)
  | .waiting => queue .waiting

def agedLevels (queue : Queues) : List Nat :=
  queue (.level 1) ++ queue (.level 2) ++ queue (.level 3)

private theorem ageBlocks_of_notMem {pcb : Nat → ProcessControlBlock} {visited : List Nat}
    {address : Nat} (absent : address ∉ visited) : ageBlocks pcb visited address = pcb address := by
  simp [ageBlocks, absent]

private theorem ageBlocks_append {pcb : Nat → ProcessControlBlock} {left right : List Nat}
    (disjoint : ∀ address ∈ right, address ∉ left) :
    ageBlocks (ageBlocks pcb left) right = ageBlocks pcb (left ++ right) := by
  funext address
  by_cases inRight : address ∈ right
  · simp [ageBlocks, inRight, disjoint address inRight]
  · simp [ageBlocks, inRight]

private theorem filter_ageBlocks (pcb : Nat → ProcessControlBlock) {visited members : List Nat}
    (disjoint : ∀ address ∈ members, address ∉ visited) (select : ProcessControlBlock → Bool) :
    (members.filter fun address => select (ageBlocks pcb visited address)) =
      members.filter fun address => select (pcb address) := by
  apply List.filter_congr
  intro address member
  rw [ageBlocks_of_notMem (disjoint address member)]

/-- Every block on levels 1 to 3 has the priority of its level and an age below
the promotion bound. -/
def Ageable (queue : Queues) (pcb : Nat → ProcessControlBlock) : Prop :=
  ∀ level : Fin 4, 0 < level.val → ∀ address ∈ queue (.level level),
    (pcb address).priority = level.val ∧ (pcb address).ageTicks < ageTickMax

theorem ageLevels_holds (scheduler : Scheduler) {queue : Queues}
    (holds : Holds scheduler.lists queue) (ageable : Ageable queue scheduler.pcb) :
    ∃ lists, Holds lists (agedQueues queue scheduler.pcb) ∧
      ∀ fuel, ageLevels fuel scheduler [1, 2, 3] =
        if (queue (.level 1)).length < fuel ∧ (queue (.level 2)).length < fuel ∧
            (queue (.level 3)).length < fuel then
          some { scheduler with
            lists := lists, pcb := ageBlocks scheduler.pcb (agedLevels queue) }
        else none := by
  have apart : ∀ {left right : Fin 4} {address}, left ≠ right →
      address ∈ queue (.level left) → address ∉ queue (.level right) := by
    intro left right address different inLeft inRight
    exact different (SchedList.level.inj (holds.apart inLeft inRight))
  obtain ⟨lists₁, holds₁, walk₁⟩ := ageWalk_holds 1 (by decide) (queue (.level 1)) []
    scheduler holds rfl (ageable 1 (by decide))
  set pcb₁ := ageBlocks scheduler.pcb (queue (.level 1))
  set queue₁ := walked queue scheduler.pcb 1 [] (queue (.level 1))
  have old₁ : ∀ address ∈ queue (.level 2) ++ queue (.level 3), address ∉ queue (.level 1) := by
    intro address member
    rcases List.mem_append.mp member with member | member
    · exact apart (by decide) member
    · exact apart (by decide) member
  have level₂ : queue₁ (.level 2) = queue (.level 2) := by
    simp [queue₁, walked]
  obtain ⟨lists₂, holds₂, walk₂⟩ := ageWalk_holds 2 (by decide) (queue (.level 2)) []
    { scheduler with lists := lists₁, pcb := pcb₁ } holds₁ level₂ (by
      intro address member
      simp only [pcb₁, ageBlocks_of_notMem (old₁ address (List.mem_append_left _ member))]
      exact ageable 2 (by decide) address member)
  set pcb₂ := ageBlocks pcb₁ (queue (.level 2))
  set queue₂ := walked queue₁ pcb₁ 2 [] (queue (.level 2))
  have blocks₂ : pcb₂ = ageBlocks scheduler.pcb (queue (.level 1) ++ queue (.level 2)) :=
    ageBlocks_append fun address member => old₁ address (List.mem_append_left _ member)
  have old₂ : ∀ address ∈ queue (.level 3), address ∉ queue (.level 1) ++ queue (.level 2) := by
    intro address member inside
    rcases List.mem_append.mp inside with inside | inside
    · exact apart (by decide) member inside
    · exact apart (by decide) member inside
  have level₃ : queue₂ (.level 3) = queue (.level 3) := by
    simp [queue₂, queue₁, walked]
  obtain ⟨lists₃, holds₃, walk₃⟩ := ageWalk_holds 3 (by decide) (queue (.level 3)) []
    { scheduler with lists := lists₂, pcb := pcb₂ } holds₂ level₃ (by
      intro address member
      simp only [blocks₂, ageBlocks_of_notMem (old₂ address member)]
      exact ageable 3 (by decide) address member)
  have final : walked queue₂ pcb₂ 3 [] (queue (.level 3)) = agedQueues queue scheduler.pcb := by
    have filter₂ := filter_ageBlocks scheduler.pcb
      fun address member => old₁ address (List.mem_append_left _ member)
    have filter₃ := filter_ageBlocks scheduler.pcb old₂
    funext list
    simp only [walked, blocks₂, queue₂, queue₁, pcb₁, filter₂ promotes, filter₃ promotes,
      filter₂ fun block => !promotes block, filter₃ fun block => !promotes block]
    cases list with
    | waiting => simp [agedQueues]
    | level index =>
        match index with
        | 0 => simp [agedQueues]
        | 1 => simp [agedQueues]
        | 2 => simp [agedQueues]
        | 3 => simp [agedQueues]
  refine ⟨lists₃, final ▸ holds₃, ?_⟩
  intro fuel
  have blocks₃ : ageBlocks pcb₂ (queue (.level 3)) =
      ageBlocks scheduler.pcb (agedLevels queue) := by
    rw [blocks₂]
    exact ageBlocks_append old₂
  have first₁ := (holds.ring (.level 1)).next_root
  have first₂ := (holds₁.ring (.level 2)).next_root
  have first₃ := (holds₂.ring (.level 3)).next_root
  simp only [level₂] at first₂
  simp only [level₃] at first₃
  simp only [ageLevels, Option.bind_eq_bind, first₁, walk₁ fuel]
  by_cases enough₁ : (queue (.level 1)).length < fuel
  · simp only [enough₁, ↓reduceIte, Option.bind_some, first₂, walk₂ fuel]
    by_cases enough₂ : (queue (.level 2)).length < fuel
    · simp only [enough₂, ↓reduceIte, Option.bind_some, first₃, walk₃ fuel, blocks₃]
      by_cases enough₃ : (queue (.level 3)).length < fuel <;> simp [enough₃]
    · simp [enough₂]
  · simp [enough₁]

theorem schedEnqueue_ready (scheduler : Scheduler) {queue : Queues} {address : Nat} (level : Fin 4)
    (holds : Holds scheduler.lists queue) (state : (scheduler.pcb address).state = .ready)
    (priority : (scheduler.pcb address).priority = level.val)
    (fresh : ∀ list, address ∉ queue list) :
    ∃ lists, schedEnqueue scheduler (some address) = some (scheduler.setLists lists) ∧
      Holds lists (Function.update queue (.level level) (queue (.level level) ++ [address])) := by
  obtain ⟨lists, pushes, after⟩ := listPushTail_holds holds (.level level) fresh
  refine ⟨lists, ?_, after⟩
  simp [schedEnqueue, state, priority, priorityQueue_of_lt level.isLt, pushes]

theorem schedEnqueue_waiting (scheduler : Scheduler) {queue : Queues} {address : Nat}
    (holds : Holds scheduler.lists queue) (state : (scheduler.pcb address).state = .waiting)
    (fresh : ∀ list, address ∉ queue list) :
    ∃ lists, schedEnqueue scheduler (some address) = some (scheduler.setLists lists) ∧
      Holds lists (Function.update queue .waiting (queue .waiting ++ [address])) := by
  obtain ⟨lists, pushes, after⟩ := listPushTail_holds holds .waiting fresh
  refine ⟨lists, ?_, after⟩
  simp [schedEnqueue, state, pushes]

/-- The scheduler once `next` has been made the running process. -/
def dispatched (scheduler : Scheduler) (next : Nat) : Scheduler :=
  (scheduler.setCurrent (some next)).setPcb next { scheduler.pcb next with state := .running }

private theorem pickFrom_empty {scheduler : Scheduler} {queue : Queues}
    (holds : Holds scheduler.lists queue) (levels : List (Fin 4))
    (empty : ∀ level ∈ levels, queue (.level level) = []) :
    pickFrom scheduler levels = some (none, scheduler) := by
  induction levels with
  | nil => rfl
  | cons level rest ih =>
      have none : listGetSize scheduler.lists (.level level) = 0 := by
        simp [listGetSize, holds.size, empty level]
      simp only [pickFrom, none, Nat.lt_irrefl, gt_iff_lt, ↓reduceIte]
      exact ih fun other member => empty other (List.mem_cons_of_mem _ member)

private theorem pickFrom_found {scheduler : Scheduler} {queue : Queues} {address : Nat}
    {level : Fin 4} {rest : List Nat} (holds : Holds scheduler.lists queue)
    (front : queue (.level level) = address :: rest) (before after : List (Fin 4))
    (empty : ∀ earlier ∈ before, queue (.level earlier) = []) :
    ∃ lists, pickFrom scheduler (before ++ level :: after) =
        some (some address, scheduler.setLists lists) ∧
      Holds lists (Function.update queue (.level level) rest) := by
  induction before with
  | nil =>
      obtain ⟨lists, popped, remaining⟩ := listPopHead_holds holds front
      have some_ : 0 < listGetSize scheduler.lists (.level level) := by
        simp [listGetSize, holds.size, front]
      refine ⟨lists, ?_, remaining⟩
      simp [pickFrom, some_, popped, containerOf]
  | cons earlier before ih =>
      obtain ⟨lists, picked, remaining⟩ :=
        ih fun other member => empty other (List.mem_cons_of_mem _ member)
      have none : listGetSize scheduler.lists (.level earlier) = 0 := by
        simp [listGetSize, holds.size, empty earlier]
      refine ⟨lists, ?_, remaining⟩
      simpa only [List.cons_append, pickFrom, none, Nat.lt_irrefl, gt_iff_lt, ↓reduceIte] using picked

/-- The next process is the head of the first nonempty level, or the idle process
when every level is empty. -/
theorem schedPickNextProcess_cases {scheduler : Scheduler} {queue : Queues}
    (holds : Holds scheduler.lists queue) :
    ((∀ level, queue (.level level) = []) ∧
      schedPickNextProcess scheduler = scheduler.idlePcb.map (dispatched scheduler)) ∨
    ∃ level address rest lists, (∀ earlier < level, queue (.level earlier) = []) ∧
      queue (.level level) = address :: rest ∧
      Holds lists (Function.update queue (.level level) rest) ∧
      schedPickNextProcess scheduler = some (dispatched (scheduler.setLists lists) address) := by
  have found : ∀ (before after : List (Fin 4)) (level : Fin 4),
      [0, 1, 2, 3] = before ++ level :: after →
      (∀ earlier, earlier < level → earlier ∈ before) →
      (∀ earlier ∈ before, queue (.level earlier) = []) → queue (.level level) ≠ [] →
      ∃ level address rest lists, (∀ earlier < level, queue (.level earlier) = []) ∧
        queue (.level level) = address :: rest ∧
        Holds lists (Function.update queue (.level level) rest) ∧
        schedPickNextProcess scheduler = some (dispatched (scheduler.setLists lists) address) := by
    intro before after level levels covered empty nonempty
    obtain ⟨address, rest, front⟩ := List.exists_cons_of_ne_nil nonempty
    obtain ⟨lists, picked, remaining⟩ := pickFrom_found holds front before after empty
    refine ⟨level, address, rest, lists, fun earlier less => empty earlier (covered earlier less),
      front, remaining, ?_⟩
    rw [← levels] at picked
    simp [schedPickNextProcess, picked, dispatched, Scheduler.setCurrent, Scheduler.setLists]
  by_cases empty₀ : queue (.level 0) = []
  · by_cases empty₁ : queue (.level 1) = []
    · by_cases empty₂ : queue (.level 2) = []
      · by_cases empty₃ : queue (.level 3) = []
        · have empty : ∀ level : Fin 4, queue (.level level) = [] := by
            intro level
            match level with
            | 0 => exact empty₀
            | 1 => exact empty₁
            | 2 => exact empty₂
            | 3 => exact empty₃
          refine .inl ⟨empty, ?_⟩
          have picked := pickFrom_empty holds [0, 1, 2, 3] fun level _ => empty level
          cases idle : scheduler.idlePcb with
          | none => simp [schedPickNextProcess, picked, idle]
          | some address =>
              simp [schedPickNextProcess, picked, idle, dispatched, Scheduler.setCurrent]
        · exact .inr (found [0, 1, 2] [] 3 rfl (by decide) (by simp [*]) empty₃)
      · exact .inr (found [0, 1] [3] 2 rfl (by decide) (by simp [*]) empty₂)
    · exact .inr (found [0] [2, 3] 1 rfl (by decide) (by simp [*]) empty₁)
  · exact .inr (found [] [1, 2, 3] 0 rfl (by decide) (by simp) empty₀)

end KdbOS.Proc
