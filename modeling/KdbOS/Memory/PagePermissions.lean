import KdbOS.Library.Runs
import KdbOS.Memory.VmmMapFrame
import KdbOS.Memory.VmmNoPage

/-! The rights of mapped pages. The hardware grants a right where both levels of the walk
grant it. The upper level is shared by the 1024 pages of a slot, and it is set by the call
that makes the table, with the rights that this call asks for. -/

set_option autoImplicit false

namespace KdbOS.Vmm

open Library Pmm Arch Kernel

variable {s t u start final : Machine} {directories : Set Frame} {directory frame : Frame}
variable {pointer virtual address : Nat} {isRw isUser : Bool}

/-! ## Calls that map pages -/

/-- A call that has mapped a page. Of `vmm_get_new_page` the result is noted too. -/
inductive Mapping where
  | newPage (isRw isUser : Bool) (explicitVirtual result : Nat)
  | mapFrame (virtualAddr physicalFrame : Nat) (isWriteable isUserProcess cached : Bool)

namespace Mapping

def page : Mapping → Nat
  | newPage _ _ _ result => result
  | mapFrame virtualAddr _ _ _ _ => virtualAddr

def asksRw : Mapping → Bool
  | newPage isRw _ _ _ => isRw
  | mapFrame _ _ isWriteable _ _ => isWriteable

def asksUser : Mapping → Bool
  | newPage _ isUser _ _ => isUser
  | mapFrame _ _ _ isUserProcess _ => isUserProcess

end Mapping

/-- The call succeeds on the address space behind the pointer, outside the first 8 MiB. -/
inductive Maps (pointer : Nat) : Machine → Mapping → Machine → Prop where
  | newPage {s t : Machine} {isRw isUser : Bool} {explicitVirtual result : Nat} :
      (explicitVirtual ≠ 0 → ¬ KernelSlot (directoryIndex explicitVirtual)) →
      vmmGetNewPage pointer isRw isUser explicitVirtual s = .ok result t → result ≠ 0 →
      Maps pointer s (.newPage isRw isUser explicitVirtual result) t
  | mapFrame {s t : Machine} {virtualAddr physicalFrame : Nat}
      {isWriteable isUserProcess cached : Bool} :
      ¬ KernelSlot (directoryIndex virtualAddr) →
      vmmMapFrame pointer virtualAddr physicalFrame isWriteable isUserProcess cached s =
        .ok true t →
      Maps pointer s (.mapFrame virtualAddr physicalFrame isWriteable isUserProcess cached) t

/-- The page is mapped with these rights. -/
structure Permitted (s : Machine) (directory : Frame) (virtual : Nat) (isRw isUser : Bool) :
    Prop where
  mapped : walk s.memory directory virtual ≠ none
  rw : grants Page.rw s.memory directory virtual = isRw
  user : grants Page.user s.memory directory virtual = isUser

/-- Every page has the rights that the last call asked for which mapped it. -/
def RightsKept (directory : Frame) (trace : List (Transition Machine Mapping)) (final : Machine) :
    Prop :=
  ∀ earlier transition later, trace = earlier ++ transition :: later →
    (∀ other ∈ later, ¬ SamePage transition.label.page other.label.page) →
    Permitted final directory transition.label.page transition.label.asksRw
      transition.label.asksUser

/-- If the slot of the page has a table, the directory grants the rights too. -/
def SlotGrants (s : Machine) (directory : Frame) (virtual : Nat) (isRw isUser : Bool) : Prop :=
  (tablesOf s.memory directory (directoryIndex virtual)).present = true →
    (isRw = true → (tablesOf s.memory directory (directoryIndex virtual)).rw = true) ∧
    (isUser = true → (tablesOf s.memory directory (directoryIndex virtual)).user = true)

/-- The directory grants what is asked for, and the tables that the call dereferences by
their physical addresses are reached. -/
def Grantable (directory : Frame) (s : Machine) : Mapping → Prop
  | .newPage isRw isUser explicitVirtual _ =>
      if explicitVirtual ≠ 0 then SlotGrants s directory explicitVirtual isRw isUser
      else
        TablesReachable s directory searchSlots ∧
          ∀ virtual, IsLeast
            {address | address ∈ NewPageRange ∧ walk s.memory directory address = none} virtual →
              SlotGrants s directory virtual isRw isUser
  | .mapFrame virtualAddr _ isWriteable isUserProcess _ =>
      SlotGrants s directory virtualAddr isWriteable isUserProcess ∧
        TablesReachable s directory [directoryIndex virtualAddr] ∧
        ((tablesOf s.memory directory (directoryIndex virtualAddr)).present = false →
          TablesReachable s s.kernelDirectory searchSlots)

/-- The kernel can work on the address space. Its own structures lie in the first 8 MiB, as
`paging_init` has placed them. -/
structure SpaceReady (s : Machine) (directories : Set Frame) (pointer : Nat) (directory : Frame) :
    Prop where
  structures : PageStructures s directories
  member : directory ∈ directories
  space : Addresses s pointer directory
  lowDirectory : KernelSlot (directoryIndex (frameAddress s.kernelDirectory))
  lowTable : KernelSlot (directoryIndex (frameAddress s.secondTable))
  lowSpace : directory = s.kernelDirectory → KernelSlot (directoryIndex pointer)

theorem beside_of_low (low : KernelSlot (directoryIndex address))
    (high : ¬ KernelSlot (directoryIndex virtual)) : Beside s directory virtual address :=
  .inl fun same => high (same.1 ▸ low)

namespace SpaceReady

variable (ready : SpaceReady s directories pointer directory)
  (high : ¬ KernelSlot (directoryIndex virtual))

include ready high

theorem beside : Beside s directory virtual pointer := by
  by_cases isKernel : directory = s.kernelDirectory
  · exact beside_of_low (ready.lowSpace isKernel) high
  · exact .inr ⟨fun same => isKernel same.symm, high⟩

theorem undisturbed : Undisturbed s directory pointer virtual :=
  ⟨beside_of_low ready.lowDirectory high, beside_of_low ready.lowTable high, ready.beside high,
    not_windowPage_of_high high⟩

omit high in
/-- Steps that keep pointers beside the page valid keep the address space ready. -/
theorem of_effect (structures : PageStructures t directories)
    (kernelDirectory : t.kernelDirectory = s.kernelDirectory)
    (secondTable : t.secondTable = s.secondTable) (space : Addresses t pointer directory) :
    SpaceReady t directories pointer directory where
  structures := structures
  member := ready.member
  space := space
  lowDirectory := by
    rw [kernelDirectory]
    exact ready.lowDirectory
  lowTable := by
    rw [secondTable]
    exact ready.lowTable
  lowSpace := by
    rw [kernelDirectory]
    exact ready.lowSpace

end SpaceReady

/-- What a successful call leaves. -/
structure Mapped (s t : Machine) (directories : Set Frame) (pointer : Nat) (directory : Frame)
    (virtual : Nat) (isRw isUser : Bool) : Prop where
  ready : SpaceReady t directories pointer directory
  page : ∃ entry, walk t.memory directory virtual = some entry ∧
    entry.rw = isRw ∧ entry.user = isUser
  slot : (tablesOf s.memory directory (directoryIndex virtual)).present = true ∧
      tablesOf t.memory directory (directoryIndex virtual) =
        tablesOf s.memory directory (directoryIndex virtual) ∨
    (tablesOf s.memory directory (directoryIndex virtual)).present = false ∧
      (isRw = true → (tablesOf t.memory directory (directoryIndex virtual)).rw = true) ∧
      (isUser = true → (tablesOf t.memory directory (directoryIndex virtual)).user = true)
  kept : ∀ address, ¬ KernelSlot (directoryIndex address) → ¬ SamePage address virtual →
    walk s.memory directory address ≠ none →
      walk t.memory directory address = walk s.memory directory address ∧
        tablesOf t.memory directory (directoryIndex address) =
          tablesOf s.memory directory (directoryIndex address)

namespace Mapped

variable (mapped : Mapped s t directories pointer directory virtual isRw isUser)

include mapped

/-- The page has the rights exactly when the directory grants them. -/
theorem permitted_iff : Permitted t directory virtual isRw isUser ↔
    SlotGrants s directory virtual isRw isUser := by
  obtain ⟨entry, found, rfl, rfl⟩ := mapped.page
  -- A right that both levels of the walk must grant is granted if the directory does.
  have granted : ∀ right : Page → Bool, grants right t.memory directory virtual = right entry ↔
      (right entry = true → right (tablesOf t.memory directory (directoryIndex virtual)) = true) := by
    intro right
    rw [grants, found, Option.any_some]
    cases right entry <;> simp
  have both : Permitted t directory virtual entry.rw entry.user ↔
      (entry.rw = true → (tablesOf t.memory directory (directoryIndex virtual)).rw = true) ∧
      (entry.user = true →
        (tablesOf t.memory directory (directoryIndex virtual)).user = true) := by
    rw [← granted, ← granted]
    constructor
    · exact fun permitted => ⟨permitted.rw, permitted.user⟩
    · rintro ⟨rw, user⟩
      refine ⟨?_, rw, user⟩
      rw [found]
      nofun
  rw [both]
  rcases mapped.slot with ⟨isPresent, same⟩ | ⟨absent, grants⟩
  · rw [same]
    exact ⟨fun granted _ => granted, fun granted => granted isPresent⟩
  · exact iff_of_true grants fun isPresent => Bool.noConfusion (absent.symm.trans isPresent)

theorem permitted_kept {rw user : Bool} (high : ¬ KernelSlot (directoryIndex address))
    (apart : ¬ SamePage address virtual) (permitted : Permitted s directory address rw user) :
    Permitted t directory address rw user := by
  obtain ⟨same, entry⟩ := mapped.kept address high apart permitted.mapped
  refine ⟨same ▸ permitted.mapped, ?_, ?_⟩
  · rw [← permitted.rw, grants, grants, same, entry]
  · rw [← permitted.user, grants, grants, same, entry]

end Mapped

section Calls

variable (ready : SpaceReady s directories pointer directory)
  (high : ¬ KernelSlot (directoryIndex virtual))

include ready high

theorem NewPage.mappedPage {table : Option Frame}
    (newPage : NewPage s t directories directory virtual isRw isUser frame table) :
    Mapped s t directories pointer directory virtual isRw isUser where
  ready := by
    have undisturbed := ready.undisturbed high
    exact ready.of_effect
      (newPage.pageStructures ready.structures undisturbed.kernelDirectory undisturbed.secondTable)
      newPage.kernelDirectory (newPage.secondTable ready.structures)
      (newPage.addresses ready.structures.laid.kernel ready.space undisturbed.space)
  page := by
    obtain ⟨entry, found⟩ := newPage.mapped
    exact ⟨_, found, rfl, rfl⟩
  slot := by
    cases level : (tablesOf s.memory directory (directoryIndex virtual)).present with
    | true => exact .inl ⟨rfl, newPage.entry_of_present ready.member level⟩
    | false =>
        cases table with
        | none => exact absurd (newPage.withoutTable.mp rfl) (by rw [level]; exact Bool.false_ne_true)
        | some newTable =>
            refine .inr ⟨rfl, ?_⟩
            rw [newPage.directoryEntry newTable rfl]
            exact ⟨id, id⟩
  kept address highAddress apart mapped :=
    ⟨newPage.walks _ ready.member _ _ (not_windowPage_of_high highAddress) (.inl apart),
      newPage.entry_of_present ready.member (present_of_walk mapped)⟩

theorem MapFrameResult.mappedPage {physicalFrame : Nat}
    (result : MapFrameResult s directories directory virtual physicalFrame isRw isUser true t) :
    Mapped s t directories pointer directory virtual isRw isUser where
  ready := by
    have undisturbed := ready.undisturbed high
    have laid := ready.structures.laid
    obtain ⟨kernelDirectory, entry⟩ : t.kernelDirectory = s.kernelDirectory ∧
        tablesOf t.memory s.kernelDirectory 1 = tablesOf s.memory s.kernelDirectory 1 := by
      cases result with
      | entered _ changed => exact ⟨changed.kernelDirectory, changed.tables.entries _ laid.kernel 1⟩
      | created absent made changed =>
          exact ⟨changed.kernelDirectory.trans made.kernelDirectory,
            (changed.tables.entries _ laid.kernel 1).trans
              (made.entry_of_present absent laid.kernel laid.isPresent)⟩
    refine ready.of_effect
      (result.pageStructures ready.structures undisturbed.kernelDirectory undisturbed.secondTable)
      kernelDirectory ?_ (result.addresses ready.structures ready.space undisturbed.space)
    unfold Machine.secondTable
    rw [kernelDirectory, entry]
  page := by
    cases result with
    | entered _ changed => exact ⟨_, changed.tables.mapped, rfl, rfl⟩
    | created _ _ changed => exact ⟨_, changed.tables.mapped, rfl, rfl⟩
  slot := by
    cases result with
    | entered isPresent changed => exact .inl ⟨isPresent, changed.tables.entries _ ready.member _⟩
    | created absent made changed =>
        obtain ⟨entry, link⟩ := made.directoryEntry
        refine .inr ⟨absent, ?_⟩
        rw [changed.tables.entries _ ready.member, link]
        exact ⟨fun _ => rfl, id⟩
  kept address highAddress apart mapped := by
    have isPresent := present_of_walk mapped
    cases result with
    | entered _ changed =>
        exact ⟨changed.tables.walks _ ready.member _ _ (.inl apart),
          changed.tables.entries _ ready.member _⟩
    | created absent made changed =>
        refine ⟨(changed.tables.walks _ ready.member _ _ (.inl apart)).trans
          (made.walk_of_ne absent ready.member (not_windowPage_of_high highAddress) ?_),
          (changed.tables.entries _ ready.member _).trans
            (made.entry_of_present absent ready.member isPresent)⟩
        -- The kernel's new page was not mapped before.
        rintro ⟨rfl, sameSlot, sameIndex⟩
        refine mapped ?_
        rw [walk, sameSlot, sameIndex]
        exact made.leastWindow.1.2

end Calls

/-- A successful call maps its page, and changes no other that was mapped. -/
theorem SpaceReady.maps {label : Mapping} (ready : SpaceReady s directories pointer directory)
    (maps : Maps pointer s label t) (grantable : Grantable directory s label) :
    ¬ KernelSlot (directoryIndex label.page) ∧
      SlotGrants s directory label.page label.asksRw label.asksUser ∧
      Mapped s t directories pointer directory label.page label.asksRw label.asksUser := by
  cases maps with
  | @newPage _ isRw isUser explicitVirtual result outside run notNull =>
      by_cases isExplicit : explicitVirtual ≠ 0
      · have high := outside isExplicit
        rw [Grantable, if_pos isExplicit] at grantable
        rw [vmmGetNewPage, if_pos isExplicit] at run
        rcases mapNewPage_cases ready.structures ready.member ready.space (ready.undisturbed high)
          isRw isUser with ⟨u, none, _⟩ | ⟨u, frame, table, some, newPage⟩
        · rw [none] at run
          cases run
          exact absurd rfl notNull
        · rw [some] at run
          cases run
          exact ⟨high, grantable, newPage.mappedPage ready high⟩
      · rw [Grantable, if_neg isExplicit] at grantable
        obtain rfl : explicitVirtual = 0 := not_not.mp isExplicit
        obtain ⟨virtual, u, found, outcome⟩ := vmmGetNewPage_cases ready.structures ready.member
          ready.space grantable.1 isRw isUser
        rw [run] at found
        cases found
        cases outcome with
        | full => exact absurd rfl notNull
        | exhausted => exact absurd rfl notNull
        | mapped least newPage =>
            have high := not_kernelSlot least.1.1
            exact ⟨high, grantable.2 _ least, newPage.mappedPage ready high⟩
  | @mapFrame _ virtualAddr physicalFrame isWriteable isUserProcess cached high run =>
      obtain ⟨grants, reachable, reachableKernel⟩ := grantable
      refine ⟨high, grants, ?_⟩
      cases level : (tablesOf s.memory directory (directoryIndex virtualAddr)).present with
      | true =>
          have sees := reachable _ (List.mem_singleton.mpr rfl) level
          obtain ⟨u, entry, entered, changed⟩ :=
            vmmMapFrame_of_present ready.structures ready.member ready.space level rfl sees
          rw [entered] at run
          cases run
          exact (MapFrameResult.entered level changed).mappedPage ready high
      | false =>
          obtain ⟨window, newPageMachine, found, outcome⟩ := vmmGetNewPage_cases ready.structures
            ready.structures.laid.kernel ready.structures.kernelDirectory (reachableKernel level)
            true false
          rcases vmmMapFrame_of_absent ready.structures ready.member ready.space level found outcome
            physicalFrame isWriteable isUserProcess cached with
              ⟨answer, u, entered, result⟩ | ⟨_, _, _, _, _, _, stopped, _⟩
          · rw [entered] at run
            cases run
            exact result.mappedPage ready high
          · rw [stopped] at run
            cases run

/-- Two free frames are enough for a page that is asked for by its address. -/
theorem SpaceReady.explicit (ready : SpaceReady s directories pointer directory)
    (high : ¬ KernelSlot (directoryIndex virtual)) (notNull : virtual ≠ 0)
    (free : s.frames.Free frame) {other : Frame} (otherFree : s.frames.Free other)
    (different : frame ≠ other) (isRw isUser : Bool) :
    ∃ t taken table, Maps pointer s (.newPage isRw isUser virtual virtual) t ∧
      NewPage s t directories directory virtual isRw isUser taken table := by
  rcases mapNewPage_cases ready.structures ready.member ready.space (ready.undisturbed high)
    isRw isUser with ⟨t, none, _⟩ | ⟨t, taken, table, run, newPage⟩
  · cases (mapNewPage_null ready.space.sees notNull none).2 with
    | noFrame _ exhausted => exact absurd free (exhausted frame)
    | noTable only _ _ =>
        exact absurd (((only frame).mp free).trans ((only other).mp otherFree).symm) different
  · refine ⟨t, taken, table, .newPage (fun _ => high) ?_ notNull, newPage⟩
    rw [vmmGetNewPage, if_pos notNull]
    exact run

/-! ## Runs -/

/-- Where every call asks for no more than the directory grants, every page keeps the rights
that it was last mapped with. -/
theorem rights_kept {trace : List (Transition Machine Mapping)}
    (ready : SpaceReady start directories pointer directory)
    (run : Run (Maps pointer) start trace final)
    (grantable : ∀ transition ∈ trace, Grantable directory transition.before transition.label) :
    RightsKept directory trace final := by
  have known : SpaceReady final directories pointer directory ∧
      (∀ transition ∈ trace, ¬ KernelSlot (directoryIndex transition.label.page)) ∧
      RightsKept directory trace final := by
    induction run with
    | start =>
        refine ⟨ready, nofun, fun earlier transition later split => ?_⟩
        cases earlier <;> cases split
    | @step trace before label after run step ih =>
        obtain ⟨readyBefore, high, kept⟩ :=
          ih fun transition member => grantable transition (List.mem_append_left _ member)
        obtain ⟨highPage, grants, mapped⟩ := readyBefore.maps step
          (grantable ⟨before, label, after⟩ (List.mem_append_right _ List.mem_cons_self))
        refine ⟨mapped.ready, fun transition member => ?_, fun earlier transition later split last => ?_⟩
        · rcases List.mem_append.mp member with member | member
          · exact high transition member
          · obtain rfl := List.mem_singleton.mp member
            exact highPage
        · rcases snoc_split split with ⟨rfl, rfl, rfl⟩ | ⟨later', rfl, rfl⟩
          · exact mapped.permitted_iff.mpr grants
          · have before := kept earlier transition later' rfl fun other member =>
              last other (List.mem_append_left _ member)
            exact mapped.permitted_kept (high transition (by simp))
              (last _ (List.mem_append_right _ List.mem_cons_self)) before
  exact known.2.2

private theorem sample_free (lower : 1028 ≤ frame.val) (upper : frame.val < 32768) :
    sampleMachine.frames.Free frame := by
  obtain ⟨first, total, _, _, _, booted⟩ := sampleMachine_booted
  refine (booted.free frame).mpr ?_
  rw [first, total]
  exact ⟨lower, upper⟩

private theorem sample_ready : SpaceReady sampleMachine {sampleMachine.kernelDirectory}
    (frameAddress sampleMachine.kernelDirectory) sampleMachine.kernelDirectory := by
  obtain ⟨first, _, _, _, secondPageTable, booted⟩ := sampleMachine_booted
  have low : ∀ frame : Frame, frame.val < 2048 → KernelSlot (directoryIndex (frameAddress frame)) := by
    intro frame small
    unfold KernelSlot directoryIndex frameAddress pageSize
    rw [Fin.val_ofNat]
    omega
  have lowDirectory := low sampleMachine.kernelDirectory (by omega)
  refine ⟨booted.pageStructures, rfl, booted.pageStructures.kernelDirectory, lowDirectory, ?_,
    fun _ => lowDirectory⟩
  rw [booted.secondTable]
  exact low _ (by rw [booted.second]; omega)

/-- Two pages of one slot in the address space of the kernel, which has no table there. -/
private theorem sample_pages (firstRw secondRw : Bool) :
    ∃ t u, Maps (frameAddress sampleMachine.kernelDirectory) sampleMachine
        (.newPage firstRw false 0x00800000 0x00800000) t ∧
      Maps (frameAddress sampleMachine.kernelDirectory) t
        (.newPage secondRw false 0x00801000 0x00801000) u ∧
      (tablesOf sampleMachine.memory sampleMachine.kernelDirectory
        (directoryIndex 0x00800000)).present = false ∧
      (∃ newTable entry, tablesOf t.memory sampleMachine.kernelDirectory (directoryIndex 0x00801000) =
        pointEntry firstRw false (frameAddress newTable) entry) ∧
      Mapped t u {sampleMachine.kernelDirectory} (frameAddress sampleMachine.kernelDirectory)
        sampleMachine.kernelDirectory 0x00801000 secondRw false := by
  obtain ⟨_, _, _, _, _, booted⟩ := sampleMachine_booted
  have high : ¬ KernelSlot (directoryIndex 0x00800000) := by unfold KernelSlot; decide
  have absent := booted.absent_of_high high
  let first : Frame := ⟨2000, by decide⟩
  let second : Frame := ⟨2001, by decide⟩
  have different : first ≠ second := by decide
  obtain ⟨t, taken, table, maps, newPage⟩ := sample_ready.explicit high (by decide)
    (sample_free (by decide : 1028 ≤ first.val) (by decide))
    (sample_free (by decide : 1028 ≤ second.val) (by decide)) different firstRw false
  have readyAfter := (newPage.mappedPage sample_ready high).ready
  cases table with
  | none => exact absurd (newPage.withoutTable.mp rfl) (by rw [absent]; exact Bool.false_ne_true)
  | some newTable =>
      -- Only the two lowest frames have been taken.
      let lowest : Frame := ⟨1028, by decide⟩
      have lowFrame : taken.val ≤ 1028 :=
        newPage.least.2 (sample_free (by decide : 1028 ≤ lowest.val) (by decide))
      have lowTable : newTable.val ≤ 1029 := by
        let next : Frame := ⟨1029, by decide⟩
        have apart : next ≠ taken := by
          rintro rfl
          exact absurd lowFrame (by decide)
        exact (newPage.leastTable newTable rfl).2
          ⟨sample_free (by decide : 1028 ≤ next.val) (by decide), apart⟩
      have still : ∀ {frame : Frame}, 2000 ≤ frame.val → frame.val < 32768 → t.frames.Free frame := by
        intro frame lower upper
        refine (newPage.free frame).mpr ⟨sample_free (by omega) upper, ?_, ?_⟩
        · rintro rfl
          omega
        · rintro ⟨rfl⟩
          omega
      have otherHigh : ¬ KernelSlot (directoryIndex 0x00801000) := by unfold KernelSlot; decide
      obtain ⟨u, otherTaken, otherTable, otherMaps, otherPage⟩ := readyAfter.explicit otherHigh
        (by decide) (still (by decide : 2000 ≤ first.val) (by decide))
        (still (by decide : 2000 ≤ second.val) (by decide)) different secondRw false
      exact ⟨t, u, maps, otherMaps, absent, ⟨newTable, _, newPage.directoryEntry newTable rfl⟩,
        otherPage.mappedPage readyAfter otherHigh⟩

/-- A page that may be written, and one in the same slot that may not. -/
theorem rights_kept_sample :
    ∃ trace final, Run (Maps (frameAddress sampleMachine.kernelDirectory)) sampleMachine trace final ∧
      trace.length = 2 ∧ RightsKept sampleMachine.kernelDirectory trace final := by
  obtain ⟨t, u, first, second, absent, ⟨newTable, entry, table⟩, _⟩ := sample_pages true false
  have run := (Run.start.step first).step second
  refine ⟨_, u, run, rfl, rights_kept sample_ready run fun transition member => ?_⟩
  simp only [List.nil_append, List.cons_append, List.mem_cons, List.not_mem_nil, or_false] at member
  rcases member with rfl | rfl
  · rw [Grantable, if_pos (by decide)]
    exact fun isPresent => Bool.noConfusion (absent.symm.trans isPresent)
  · rw [Grantable, if_pos (by decide), SlotGrants, table]
    exact fun _ => ⟨fun _ => rfl, id⟩

/-- The other way round the second page may not be written either. -/
theorem rights_kept_fails :
    ¬ ∀ (start final : Machine) (directories : Set Frame) (pointer : Nat) (directory : Frame)
      (trace : List (Transition Machine Mapping)),
      SpaceReady start directories pointer directory → Run (Maps pointer) start trace final →
      RightsKept directory trace final := by
  intro kept
  obtain ⟨t, u, first, second, _, ⟨newTable, entry, table⟩, mapped⟩ := sample_pages false true
  have permitted := kept _ _ _ _ _ _ sample_ready ((Run.start.step first).step second)
    _ _ [] rfl nofun
  have grants := mapped.permitted_iff.mp permitted
  unfold SlotGrants at grants
  rw [table] at grants
  exact Bool.false_ne_true ((grants rfl).1 rfl)

end KdbOS.Vmm
