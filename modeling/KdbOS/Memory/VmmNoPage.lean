import KdbOS.Memory.VmmNewPage

/-! `vmm_get_new_page` where it returns NULL: what it has taken until then is not given
back. -/

set_option autoImplicit false

namespace KdbOS.Vmm

open Library Pmm Arch Kernel

variable {s t : Machine} {directory : Frame} {pointer virtual explicitVirtual : Nat}
variable {isRw isUser hasTable : Bool} {slot : EntryIndex}

def OneFrameLeft (frames : FrameAllocator) : Prop := ∃! frame, frames.Free frame

/-- The slot of the page asked for, or one of the slots that are searched, has no table. -/
def LacksTable (s : Machine) (directory : Frame) (explicitVirtual : Nat) : Prop :=
  if explicitVirtual ≠ 0 then
    (tablesOf s.memory directory (directoryIndex explicitVirtual)).present = false
  else ∃ slot ∈ searchSlots, (tablesOf s.memory directory slot).present = false

/-- A table is missing only where the allocator has no frame for it. -/
theorem ensureTable_eq_false (sees : Sees s pointer directory)
    (run : ensureTable pointer slot isRw isUser s = .ok false t) :
    (tablesOf s.memory directory slot).present = false ∧ s.frames.allocate.1 = 0 ∧
      t = { s with frames := s.frames.allocate.2 } := by
  cases level : (tablesOf s.memory directory slot).present with
  | true =>
      rw [ensureTable_of_present sees isRw isUser level] at run
      cases run
  | false =>
      by_cases none : s.frames.allocate.1 = 0
      · rw [ensureTable_of_none sees isRw isUser level none] at run
        cases run
        exact ⟨rfl, none, rfl⟩
      · rw [ensureTable, bind_ok (readDirectory_ok sees), level, if_neg Bool.false_ne_true,
          bind_ok (allocateFrame_ok s), if_neg none] at run
        obtain ⟨_, linked, _, run⟩ := bind_eq_ok run
        obtain ⟨_, opened, _, run⟩ := bind_eq_ok run
        obtain ⟨_, cleared, _, run⟩ := bind_eq_ok run
        obtain ⟨_, closed, _, run⟩ := bind_eq_ok run
        cases run

/-- NULL is returned for want of the page's frame, or for want of the frame of its table;
in the second case the page's frame stays taken. -/
inductive NullResult (s t : Machine) (directory : Frame) (virtual : Nat) : Prop
  | noFrame : t.frames = s.frames → (∀ frame, ¬ s.frames.Free frame) → NullResult s t directory virtual
  | noTable {frame : Frame} :
      (∀ other, s.frames.Free other ↔ other = frame) → (∀ other, ¬ t.frames.Free other) →
      (tablesOf s.memory directory (directoryIndex virtual)).present = false →
      NullResult s t directory virtual

theorem mapNewPage_null (sees : Sees s pointer directory) (notNull : virtual ≠ 0)
    (run : mapNewPage pointer isRw isUser virtual s = .ok 0 t) :
    t.memory = s.memory ∧ NullResult s t directory virtual := by
  cases s.frames.allocate_cases with
  | inl full =>
      rw [mapNewPage, bind_ok (allocateFrame_ok s), if_pos (by rw [full.1])] at run
      cases run
      exact ⟨rfl, .noFrame (by rw [full.1]) full.2⟩
  | inr found =>
      obtain ⟨frame, least, allocated, frees⟩ := found
      have notZero : ¬ s.frames.allocate.1 = 0 := by
        rw [allocated]
        exact least.1.address_ne_zero
      rw [mapNewPage, bind_ok (allocateFrame_ok s), if_neg notZero] at run
      obtain ⟨hasTable, u, ensured, run⟩ := bind_eq_ok run
      cases hasTable with
      | true =>
          rw [Bool.not_true, if_neg Bool.false_ne_true] at run
          obtain ⟨_, _, _, run⟩ := bind_eq_ok run
          cases run
          exact absurd rfl notNull
      | false =>
          have seesAllocated : Sees { s with frames := s.frames.allocate.2 } pointer directory := sees
          obtain ⟨absent, none, rfl⟩ := ensureTable_eq_false seesAllocated ensured
          cases run
          refine ⟨rfl, ?_⟩
          cases s.frames.allocate.2.allocate_cases with
          | inl full =>
              have only : ∀ other, s.frames.Free other ↔ other = frame := by
                intro other
                constructor
                · intro free
                  by_contra different
                  exact full.2 other ((frees other).mpr ⟨free, different⟩)
                · rintro rfl
                  exact least.1
              have exhausted : ∀ other, ¬ s.frames.allocate.2.allocate.2.Free other := by
                rw [full.1]
                exact full.2
              exact .noTable only exhausted absent
          | inr foundTable =>
              obtain ⟨newTable, leastTable, allocatedTable, _⟩ := foundTable
              have taken : s.frames.allocate.2.allocate.1 = 0 := none
              rw [allocatedTable] at taken
              exact absurd taken leastTable.1.address_ne_zero

/-- The search gives up only where every slot has a table, and otherwise chooses a page
of one of the slots. -/
theorem findSlot_slots {slots : List EntryIndex} {result : Option Nat}
    (sees : Sees s pointer directory) (run : findSlot pointer slots s = .ok result t) :
    (result = none → ∀ slot ∈ slots, (tablesOf s.memory directory slot).present = true) ∧
      ∀ virtual ∈ result, ∃ slot ∈ slots, ∃ index, virtual = pageAddress slot index := by
  induction slots generalizing s with
  | nil =>
      cases run
      exact ⟨fun _ => nofun, nofun⟩
  | cons slot slots ih =>
      cases level : (tablesOf s.memory directory slot).present with
      | false =>
          rw [findSlot_of_absent sees level] at run
          cases run
          refine ⟨nofun, fun virtual chosen => ⟨slot, List.mem_cons_self, 0, ?_⟩⟩
          exact (Option.some.inj chosen).symm
      | true =>
          cases translated : Arch.translate s.memory s.kernelDirectory
              (frameAddress (tablesOf s.memory directory slot).frameAddr) with
          | none =>
              rw [findSlot_of_fault sees level rfl translated] at run
              cases run
          | some reached =>
              cases first : firstAbsent s.memory reached with
              | some index =>
                  rw [findSlot_of_some sees level rfl translated first] at run
                  cases run
                  refine ⟨nofun, fun virtual chosen => ⟨slot, List.mem_cons_self, index, ?_⟩⟩
                  exact (Option.some.inj chosen).symm
              | none =>
                  rw [findSlot_of_none sees level rfl translated first] at run
                  have seesNoted : Sees (s.note (tablesOf s.memory directory slot).frameAddr
                    (some reached)) pointer directory := sees
                  obtain ⟨full, chosen⟩ := ih seesNoted run
                  constructor
                  · intro none other member
                    rcases List.mem_cons.mp member with rfl | later
                    · exact level
                    · exact full none other later
                  · intro virtual isResult
                    obtain ⟨other, later, index, same⟩ := chosen virtual isResult
                    exact ⟨other, List.mem_cons_of_mem _ later, index, same⟩

theorem NullResult.frames_eq_iff (result : NullResult s t directory virtual) :
    t.frames = s.frames ↔ ¬ OneFrameLeft s.frames := by
  cases result with
  | noFrame same exhausted =>
      refine iff_of_true same ?_
      rintro ⟨frame, free, _⟩
      exact exhausted frame free
  | @noTable frame only exhausted =>
      have left : OneFrameLeft s.frames :=
        ⟨frame, (only frame).mpr rfl, fun other free => (only other).mp free⟩
      refine iff_of_false (fun same => ?_) (not_not_intro left)
      rw [same] at exhausted
      exact exhausted frame ((only frame).mpr rfl)

theorem NullResult.lacksTable (result : NullResult s t directory virtual)
    (left : OneFrameLeft s.frames) :
    (tablesOf s.memory directory (directoryIndex virtual)).present = false := by
  cases result with
  | noFrame _ exhausted =>
      obtain ⟨frame, free, _⟩ := left
      exact absurd free (exhausted frame)
  | noTable _ _ absent => exact absent

/-- No entry of any table is changed; whether a frame is lost depends on the frames left. -/
theorem vmmGetNewPage_null_cases (sees : Sees s pointer directory)
    (run : vmmGetNewPage pointer isRw isUser explicitVirtual s = .ok 0 t) :
    t.memory = s.memory ∧
      (t.frames = s.frames ↔ ¬ (OneFrameLeft s.frames ∧ LacksTable s directory explicitVirtual)) := by
  unfold vmmGetNewPage at run
  unfold LacksTable
  by_cases explicit : explicitVirtual ≠ 0
  · rw [if_pos explicit] at run ⊢
    obtain ⟨memory, result⟩ := mapNewPage_null sees explicit run
    refine ⟨memory, result.frames_eq_iff.trans (not_congr ?_)⟩
    exact ⟨fun left => ⟨left, result.lacksTable left⟩, And.left⟩
  · rw [if_neg explicit] at run ⊢
    obtain ⟨found, u, search, run⟩ := bind_eq_ok run
    obtain ⟨accesses, rfl, _⟩ := findSlot_eq_ok sees search
    obtain ⟨full, chosen⟩ := findSlot_slots sees search
    cases found with
    | none =>
        cases run
        refine ⟨rfl, iff_of_true rfl ?_⟩
        rintro ⟨_, slot, member, absent⟩
        rw [full rfl slot member] at absent
        cases absent
    | some virtual =>
        have seesNoted : Sees (s.notes accesses) pointer directory := sees
        obtain ⟨slot, member, index, rfl⟩ := chosen virtual rfl
        have lower := (mem_searchSlots.mp member).1
        have notNull : pageAddress slot index ≠ 0 := by
          unfold pageAddress
          omega
        obtain ⟨memory, result⟩ := mapNewPage_null seesNoted notNull run
        refine ⟨memory, result.frames_eq_iff.trans (not_congr ?_)⟩
        refine ⟨fun left => ⟨left, slot, member, ?_⟩, And.left⟩
        have absent := result.lacksTable left
        rw [directoryIndex_pageAddress] at absent
        exact absent

/-- The machine after boot with 4112 KiB of RAM: the tables of boot leave one frame. -/
def tightMachine : Machine :=
  bootMachine ⟨1048576, 1052672, 1056768⟩ (by decide : 4210688 < 4294967296) fun _ => 0

theorem tightMachine_booted :
    (∀ frame, tightMachine.frames.Free frame ↔ frame = 1027) ∧
      ∃ sections kernelPageTable secondPageTable,
        Booted tightMachine sections kernelPageTable secondPageTable := by
  have leaves : LeavesTables 4210688 := by
    unfold LeavesTables
    decide
  obtain ⟨first, total, kernelPageTable, secondPageTable, booted⟩ :=
    bootMachine_booted ⟨1048576, 1052672, 1056768⟩ (by decide : 4210688 < 4294967296) (fun _ => 0)
      leaves
  refine ⟨fun frame => ?_, _, _, _, booted⟩
  have free := booted.free frame
  have isFirst : firstBootFrame 4210688 = 1024 := by decide
  have last : (1027 : Frame).val = 1027 := rfl
  rw [first, total, isFirst] at free
  rw [Fin.ext_iff, last]
  exact free.trans (by omega)

theorem tightMachine_left : OneFrameLeft tightMachine.frames :=
  ⟨1027, (tightMachine_booted.1 1027).mpr rfl, fun frame free => (tightMachine_booted.1 frame).mp free⟩

theorem tightMachine_sees :
    Sees tightMachine (frameAddress tightMachine.kernelDirectory) tightMachine.kernelDirectory := by
  obtain ⟨_, _, _, _, booted⟩ := tightMachine_booted
  exact booted.pageStructures.kernelDirectory.sees

theorem tightMachine_lacksTable : LacksTable tightMachine tightMachine.kernelDirectory 0 := by
  obtain ⟨_, _, _, _, booted⟩ := tightMachine_booted
  have member : (2 : EntryIndex) ∈ searchSlots := mem_searchSlots.mpr (by decide)
  exact ⟨2, member, booted.absent_of_high (by unfold KernelSlot; decide)⟩

/-- The first call takes the last frame and returns NULL. -/
theorem tightMachine_null :
    ∃ t, vmmGetNewPage (frameAddress tightMachine.kernelDirectory) true false 0 tightMachine =
        .ok 0 t ∧ t.frames ≠ tightMachine.frames := by
  obtain ⟨only, _, _, _, booted⟩ := tightMachine_booted
  have absent : ∀ slot ∈ searchSlots,
      (tablesOf tightMachine.memory tightMachine.kernelDirectory slot).present = false :=
    fun slot member =>
      booted.absent_of_high (Nat.not_lt.mpr (mem_searchSlots.mp member).1)
  have reachable : TablesReachable tightMachine tightMachine.kernelDirectory searchSlots := by
    intro slot member isPresent
    rw [absent slot member] at isPresent
    cases isPresent
  obtain ⟨virtual, t, run, result⟩ := vmmGetNewPage_cases booted.pageStructures rfl
    booted.pageStructures.kernelDirectory reachable true false
  cases result with
  | full mapped =>
      obtain ⟨address, range⟩ : ∃ address, address ∈ NewPageRange :=
        ⟨0x00800000, by unfold NewPageRange; decide⟩
      have slot := (pageAddress_indices range).2
      refine absurd ?_ (mapped address range)
      exact Tables.walk_of_absent (absent _ slot)
  | exhausted noFrame =>
      refine ⟨t, run, fun same => ?_⟩
      obtain ⟨frame, free, _⟩ := tightMachine_left
      rw [← same] at free
      exact noFrame.exhausted frame free
  | @mapped _ _ frame table least newPage =>
      have slot := (pageAddress_indices least.1.1).2
      cases table with
      | none =>
          have isPresent := newPage.withoutTable.mp rfl
          rw [absent _ slot] at isPresent
          cases isPresent
      | some newTable =>
          obtain ⟨free, different⟩ := (newPage.leastTable newTable rfl).1
          exact absurd (((only newTable).mp free).trans ((only frame).mp newPage.least.1).symm) different

end KdbOS.Vmm
