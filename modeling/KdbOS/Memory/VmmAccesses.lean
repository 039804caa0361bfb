import KdbOS.Memory.VmmMapFrame
import KdbOS.Memory.VmmNoPage

/-! Reasoning about sequences of calls. The history of accesses to tables only grows, and as
long as every access reaches its table, each call does what its specification says. -/

set_option autoImplicit false

namespace KdbOS.Vmm

open Library Klibc Pmm Arch

variable {α β : Type} {s t : Machine}

/-! ## The history grows -/

/-- The state that an outcome leaves. -/
def finalState : EStateM.Result PageFault Machine α → Machine
  | .ok _ t => t
  | .error _ t => t

/-- The action keeps the history that it finds. -/
def Grows (action : VmmM α) : Prop := ∀ s, s.direct <+: (finalState (action s)).direct

namespace Grows

theorem pure (a : α) : Grows (Pure.pure a : VmmM α) := fun s => List.prefix_refl s.direct

theorem bind {action : VmmM α} {next : α → VmmM β} (first : Grows action)
    (second : ∀ a, Grows (next a)) : Grows (action >>= next) := by
  intro s
  have start := first s
  cases run : action s with
  | ok a t =>
      rw [run] at start
      rw [bind_ok run]
      exact start.trans (second a t)
  | error fault t =>
      rw [run] at start
      rw [bind_error run]
      exact start

theorem ite {condition : Prop} [Decidable condition] {first second : VmmM α} (left : Grows first)
    (right : Grows second) : Grows (if condition then first else second) := by
  split
  · exact left
  · exact right

theorem of_get : Grows (get : VmmM Machine) := fun s => List.prefix_refl s.direct

theorem of_modify {change : Machine → Machine} (keeps : ∀ s, s.direct <+: (change s).direct) :
    Grows (modify change : VmmM Unit) := keeps

theorem map {change : α → β} {action : VmmM α} (grows : Grows action) :
    Grows (change <$> action) := by
  intro s
  have start := grows s
  show s.direct <+: (finalState (EStateM.map change action s)).direct
  rw [EStateM.map]
  cases run : action s with
  | ok a t =>
      rw [run] at start
      exact start
  | error fault t =>
      rw [run] at start
      exact start

theorem reach (pointer : Nat) : Grows (Vmm.reach pointer) := by
  refine .bind .of_get fun machine => ?_
  cases Arch.translate machine.memory machine.kernelDirectory pointer with
  | some frame => exact .pure frame
  | none => exact fun s => List.prefix_refl s.direct

theorem reachTable (table : Frame) : Grows (Vmm.reachTable table) :=
  .bind (.of_modify fun _ => List.prefix_append _ _) fun _ => reach _

theorem kernelDirectory : Grows Vmm.kernelDirectory := .bind .of_get fun _ => .pure _

theorem readEntry (frame : Frame) (index : EntryIndex) : Grows (Vmm.readEntry frame index) :=
  .bind .of_get fun _ => .pure _

theorem assignEntry (frame : Frame) (index : EntryIndex) (change : Page → Page) :
    Grows (Vmm.assignEntry frame index change) :=
  .of_modify fun s => List.prefix_refl s.direct

theorem readDirectory (space : Nat) (slot : EntryIndex) : Grows (Vmm.readDirectory space slot) :=
  .bind (reach space) fun _ => readEntry _ _

theorem assignDirectory (space : Nat) (slot : EntryIndex) (change : Page → Page) :
    Grows (Vmm.assignDirectory space slot change) :=
  .bind (reach space) fun _ => assignEntry _ _ _

theorem clearPage (pointer : Nat) : Grows (Vmm.clearPage pointer) :=
  .bind (reach pointer) fun _ =>
    .bind (.of_modify fun s => List.prefix_refl s.direct) fun _ => .pure _

theorem allocateFrame : Grows Vmm.allocateFrame := by
  intro s
  rw [allocateFrame_ok]
  exact List.prefix_refl s.direct

theorem assignWindow (change : Page → Page) : Grows (Vmm.assignWindow change) :=
  .bind kernelDirectory fun _ => .bind (readDirectory _ _) fun _ =>
    .bind (reachTable _) fun _ => assignEntry _ _ _

theorem vmmMapToTempWindow (address : Nat) : Grows (Vmm.vmmMapToTempWindow address) :=
  .bind (assignWindow _) fun _ => .pure _

theorem vmmUnmapTempWindow : Grows Vmm.vmmUnmapTempWindow := assignWindow _

theorem findSlot (space : Nat) (slots : List EntryIndex) : Grows (Vmm.findSlot space slots) := by
  induction slots with
  | nil => exact .pure none
  | cons slot slots ih =>
      refine .bind (readDirectory _ _) fun entry => .ite (.pure _) ?_
      refine .bind (reachTable _) fun table => .bind (.bind .of_get fun _ => .pure _) fun found => ?_
      cases found with
      | some index => exact .pure _
      | none => exact ih

theorem ensureTable (space : Nat) (slot : EntryIndex) (isRw isUser : Bool) :
    Grows (Vmm.ensureTable space slot isRw isUser) :=
  .bind (readDirectory _ _) fun _ => .ite (.pure _) <|
    .bind allocateFrame fun _ => .ite (.pure _) <|
      .bind (assignDirectory _ _ _) fun _ => .bind (vmmMapToTempWindow _) fun _ =>
        .bind (clearPage _) fun _ => .bind vmmUnmapTempWindow fun _ => .pure _

theorem installPage (space : Nat) (slot index : EntryIndex) (isRw isUser : Bool)
    (physicalFrame : Nat) : Grows (Vmm.installPage space slot index isRw isUser physicalFrame) :=
  .bind (readDirectory _ _) fun _ => .bind (vmmMapToTempWindow _) fun _ =>
    .bind (reach _) fun _ => .bind (assignEntry _ _ _) fun _ => vmmUnmapTempWindow

theorem mapNewPage (space : Nat) (isRw isUser : Bool) (targetVirtual : Nat) :
    Grows (Vmm.mapNewPage space isRw isUser targetVirtual) :=
  .bind allocateFrame fun _ => .ite (.pure _) <|
    .bind (ensureTable _ _ _ _) fun _ => .ite (.pure _) <|
      .bind (installPage _ _ _ _ _ _) fun _ => .pure _

theorem vmmGetNewPage (space : Nat) (isRw isUser : Bool) (explicitVirtual : Nat) :
    Grows (Vmm.vmmGetNewPage space isRw isUser explicitVirtual) := by
  refine .ite (mapNewPage _ _ _ _) (.bind (findSlot _ _) fun found => ?_)
  cases found with
  | none => exact .pure _
  | some targetVirtual => exact mapNewPage _ _ _ _

theorem vmmFreePage (space virtualAddress : Nat) : Grows (Vmm.vmmFreePage space virtualAddress) :=
  .bind (readDirectory _ _) fun _ => .ite (.pure _) <|
    .bind (reachTable _) fun _ => assignEntry _ _ _

theorem vmmGetPhysicalAddress (space virtualAddress : Nat) :
    Grows (Vmm.vmmGetPhysicalAddress space virtualAddress) :=
  .bind (readDirectory _ _) fun _ => .ite (.pure _) <|
    .bind (assignWindow _) fun _ => .bind (reach _) fun _ => .bind (readEntry _ _) fun _ =>
      .bind (assignWindow _) fun _ => .pure _

theorem mapNewTable (targetDir virtualAddr : Nat) (isUserProcess cached : Bool) :
    Grows (Vmm.mapNewTable targetDir virtualAddr isUserProcess cached) :=
  .bind kernelDirectory fun _ => .bind (vmmGetNewPage _ _ _ _) fun _ => .ite (.pure _) <|
    .bind (clearPage _) fun _ => .bind kernelDirectory fun _ =>
      .bind (vmmGetPhysicalAddress _ _) fun _ => .bind (assignDirectory _ _ _) fun _ =>
        .ite (.bind (.pure _) fun _ => .pure _) (.bind (reach _) fun _ => .pure _)

theorem vmmMapFrame (targetDir virtualAddr physicalFrame : Nat)
    (isWriteable isUserProcess cached : Bool) :
    Grows (Vmm.vmmMapFrame targetDir virtualAddr physicalFrame isWriteable isUserProcess cached) := by
  refine .bind (readDirectory _ _) fun _ =>
    .ite (.bind (.map (reachTable _)) fun table? => ?_)
      (.bind (mapNewTable _ _ _ _) fun table? => ?_)
  all_goals
    cases table? with
    | none => exact .pure _
    | some table => exact .bind (assignEntry _ _ _) fun _ => .pure _

theorem forM {γ : Type} {action : γ → VmmM Unit} (grows : ∀ c, Grows (action c)) (items : List γ) :
    Grows (items.forM action) := by
  induction items with
  | nil => exact .pure ()
  | cons item items ih =>
      show Grows (action item >>= fun _ => items.forM action)
      exact .bind (grows item) fun _ => ih

theorem loadByte (pointer : Nat) : Grows (Vmm.loadByte pointer) :=
  .bind (reach _) fun _ => .bind .of_get fun _ => .pure _

theorem storeByte (pointer : Nat) (byte : UInt8) : Grows (Vmm.storeByte pointer byte) :=
  .bind (reach _) fun _ => .of_modify fun s => List.prefix_refl s.direct

theorem copyBytes (src dest count : Nat) : Grows (Vmm.copyBytes src dest count) :=
  .forM (fun _ => .bind (loadByte _) fun _ => storeByte _ _) _

theorem fillCodePage (localUserCode entryPoint size numPages p : Nat) :
    Grows (Vmm.fillCodePage localUserCode entryPoint size numPages p) :=
  .ite (.bind (clearPage _) fun _ => copyBytes _ _ _) (copyBytes _ _ _)

theorem mapCodePage (newAddressSpace entryPoint size numPages : Nat) (isUserProcess cached : Bool)
    (p : Nat) :
    Grows (Vmm.mapCodePage newAddressSpace entryPoint size numPages isUserProcess cached p) :=
  .bind kernelDirectory fun _ => .bind (vmmGetNewPage _ _ _ _) fun _ => .ite (.pure _) <|
    .bind (fillCodePage _ _ _ _ _) fun _ => .bind kernelDirectory fun _ =>
      .bind (vmmGetPhysicalAddress _ _) fun _ => .bind (vmmMapFrame _ _ _ _ _ _) fun _ =>
        .bind kernelDirectory fun _ => .bind (vmmFreePage _ _) fun _ => .pure _

theorem mapCode (newAddressSpace entryPoint size numPages : Nat) (isUserProcess cached : Bool)
    (rounds : List Nat) :
    Grows (Vmm.mapCode newAddressSpace entryPoint size numPages isUserProcess cached rounds) := by
  induction rounds with
  | nil => exact .pure _
  | cons p rest ih => exact .bind (mapCodePage _ _ _ _ _ _ _) fun _ => .ite (.pure _) ih

theorem shareKernelEntry (newAddressSpace : Nat) (slot : EntryIndex) :
    Grows (Vmm.shareKernelEntry newAddressSpace slot) :=
  .bind kernelDirectory fun _ => .bind (readDirectory _ _) fun _ => assignDirectory _ _ _

theorem vmmCreateVirtualAddressSpace (entryPoint size : Nat) (isUserProcess cached : Bool) :
    Grows (Vmm.vmmCreateVirtualAddressSpace entryPoint size isUserProcess cached) :=
  .bind kernelDirectory fun _ => .bind (vmmGetNewPage _ _ _ _) fun _ => .ite (.pure _) <|
    .bind (clearPage _) fun _ => .bind (shareKernelEntry _ _) fun _ =>
      .bind (shareKernelEntry _ _) fun _ => .bind (mapCode _ _ _ _ _ _ _) fun _ =>
        .ite (.pure _) (.pure _)

end Grows

/-! ## Calls in sequence -/

/-- What an action leads to. In the `safe` mode its accesses are shown to reach their tables,
and a page fault leaves a state that `stops` describes; otherwise the result is described
where all accesses happen to have reached their tables. -/
structure Leads (safe : Bool) (stops : Machine → Prop) (action : VmmM α) (s : Machine)
    (post : α → Machine → Prop) : Prop where
  returns : ∀ a t, action s = .ok a t → (safe = true → Faithful t) ∧ (Faithful t → post a t)
  faults : ∀ fault t, action s = .error fault t → safe = true → stops t

variable {safe : Bool} {stops : Machine → Prop} {action : VmmM α} {next : α → VmmM β}
variable {mid : α → Machine → Prop} {post : β → Machine → Prop}

namespace Leads

theorem of_ok {final : α → Machine → Prop} {a : α} (run : action s = .ok a t)
    (faithful : safe = true → Faithful t) (holds : Faithful t → final a t) :
    Leads safe stops action s final where
  returns other u same := by
    rw [run] at same
    cases same
    exact ⟨faithful, holds⟩
  faults fault u same := by
    rw [run] at same
    cases same

theorem of_error {final : α → Machine → Prop} {fault : PageFault}
    (run : action s = .error fault t) (stop : safe = true → stops t) :
    Leads safe stops action s final where
  returns a u same := by
    rw [run] at same
    cases same
  faults other u same := by
    rw [run] at same
    cases same
    exact stop

theorem mono {weaker : α → Machine → Prop} (leads : Leads safe stops action s mid)
    (weaken : ∀ a t, Faithful t → mid a t → weaker a t) : Leads safe stops action s weaker where
  returns a t run :=
    ⟨(leads.returns a t run).1, fun faithful =>
      weaken a t faithful ((leads.returns a t run).2 faithful)⟩
  faults := leads.faults

theorem bind (first : Leads safe stops action s mid) (grows : ∀ a, Grows (next a))
    (second : ∀ a t, action s = .ok a t → Faithful t → mid a t → Leads safe stops (next a) t post) :
    Leads safe stops (action >>= next) s post where
  returns b u run := by
    obtain ⟨a, t, start, rest⟩ := bind_eq_ok run
    obtain ⟨safeFaithful, holds⟩ := first.returns a t start
    by_cases faithful : Faithful t
    · exact (second a t start faithful (holds faithful)).returns b u rest
    · -- An access has missed its table, and the history still tells so at the end.
      have grown := grows a t
      rw [rest] at grown
      refine ⟨fun isSafe => absurd (safeFaithful isSafe) faithful, fun ends => absurd ?_ faithful⟩
      exact fun access member => ends access (grown.subset member)
  faults fault u run isSafe := by
    cases start : action s with
    | ok a t =>
        rw [bind_ok start] at run
        obtain ⟨safeFaithful, holds⟩ := first.returns a t start
        have faithful := safeFaithful isSafe
        exact (second a t start faithful (holds faithful)).faults fault u run isSafe
    | error other t =>
        rw [bind_error start] at run
        cases run
        exact first.faults fault u start isSafe

/-- An action that is known to return. -/
theorem bind_of_ok {a : α} (run : action s = .ok a t) (rest : Leads safe stops (next a) t post) :
    Leads safe stops (action >>= next) s post where
  returns b u same := by
    rw [bind_ok run] at same
    exact rest.returns b u same
  faults fault u same := by
    rw [bind_ok run] at same
    exact rest.faults fault u same

theorem congr {other : VmmM α} {final : α → Machine → Prop} (same : action s = other s)
    (leads : Leads safe stops other s final) : Leads safe stops action s final :=
  ⟨fun a t run => leads.returns a t (same ▸ run), fun fault t run => leads.faults fault t (same ▸ run)⟩

/-- An action that leads to no fault returns. -/
theorem total {final : α → Machine → Prop} (leads : Leads true (fun _ => False) action s final) :
    ∃ a t, action s = .ok a t ∧ Faithful t ∧ final a t := by
  cases run : action s with
  | ok a t =>
      obtain ⟨faithful, holds⟩ := leads.returns a t run
      exact ⟨a, t, rfl, faithful rfl, holds (faithful rfl)⟩
  | error fault t => exact (leads.faults fault t run rfl).elim

/-- A loop over a list, with an invariant that may speak of the items done. -/
theorem forM {γ : Type} {body : γ → VmmM Unit} {items : List γ} (inv : List γ → Machine → Prop)
    (faithful : Faithful s) (start : inv [] s) (grows : ∀ item, Grows (body item))
    (step : ∀ done item rest t, items = done ++ item :: rest → Faithful t → inv done t →
      Leads safe stops (body item) t fun _ u => inv (done ++ [item]) u) :
    Leads safe stops (items.forM body) s fun _ t => inv items t := by
  suffices general : ∀ rest done t, items = done ++ rest → Faithful t → inv done t →
      Leads safe stops (rest.forM body) t fun _ u => inv items u from
    general items [] s rfl faithful start
  intro rest
  induction rest with
  | nil =>
      intro done t split ends holds
      rw [List.append_nil] at split
      subst split
      exact Leads.of_ok rfl (fun _ => ends) fun _ => holds
  | cons item rest ih =>
      intro done t split ends holds
      refine Leads.bind (step done item rest t split ends holds) (fun _ => .forM grows rest) ?_
      intro _ u _ uEnds uHolds
      exact ih (done ++ [item]) u (by rw [split, List.append_assoc]; rfl) uEnds uHolds

end Leads

/-! ## The single calls -/

variable {directories : Set Frame} {directory frame : Frame} {pointer virtual : Nat}

theorem NewPageResult.reached {isRw isUser : Bool} {result : Nat}
    (newPageResult : NewPageResult s directories directory isRw isUser result t) : Reached s t := by
  cases newPageResult with
  | full _ reached => exact .notes reached
  | exhausted noFrame => exact noFrame.reached
  | mapped _ newPage => exact newPage.reached

theorem MapFrameResult.reached {physicalFrame : Nat} {isWriteable isUser answer : Bool}
    (result : MapFrameResult s directories directory virtual physicalFrame isWriteable isUser answer
      t) : Reached s t := by
  cases result with
  | failed _ newPage => exact newPage.reached
  | entered _ changed => exact changed.reached
  | created _ made changed => exact made.reached.trans changed.reached

/-- A search that returns before anything goes wrong has reached its tables. -/
theorem search_of_faithful {isRw isUser : Bool} {result : Nat} (sees : Sees s pointer directory)
    (run : vmmGetNewPage pointer isRw isUser 0 s = .ok result t) (faithful : Faithful t) :
    ∃ found accesses, findSlot pointer searchSlots s = .ok found (s.notes accesses) ∧
      (∀ access ∈ accesses, access.2 = some access.1) ∧
      (found = none → t = s.notes accesses) ∧ ∀ target ∈ found,
        mapNewPage pointer isRw isUser target (s.notes accesses) = .ok result t := by
  rw [vmmGetNewPage, if_neg (fun notNull => notNull rfl)] at run
  obtain ⟨found, searched, search, rest⟩ := bind_eq_ok run
  obtain ⟨accesses, rfl, _⟩ := findSlot_eq_ok sees search
  have later : (s.notes accesses).direct <+: t.direct ∧
      (found = none → t = s.notes accesses) ∧ ∀ target ∈ found,
        mapNewPage pointer isRw isUser target (s.notes accesses) = .ok result t := by
    cases found with
    | none =>
        cases rest
        exact ⟨List.prefix_refl _, fun _ => rfl,
          fun target isTarget => absurd isTarget (Option.not_mem_none target)⟩
    | some target =>
        have mapped : mapNewPage pointer isRw isUser target (s.notes accesses) = .ok result t := rest
        have grows := Grows.mapNewPage pointer isRw isUser target (s.notes accesses)
        rw [mapped] at grows
        refine ⟨grows, fun isNone => absurd isNone (Option.some_ne_none target),
          fun other same => ?_⟩
        obtain rfl := Option.some.inj same
        exact mapped
  obtain ⟨grown, rest⟩ := later
  exact ⟨found, accesses, search, fun access isAccess =>
    faithful access (grown.subset (List.mem_append_right _ isAccess)), rest⟩

theorem vmmGetNewPage_of_faithful {isRw isUser : Bool} {result : Nat}
    (structures : PageStructures s directories) (member : directory ∈ directories)
    (space : Addresses s pointer directory)
    (run : vmmGetNewPage pointer isRw isUser 0 s = .ok result t) (faithful : Faithful t) :
    NewPageResult s directories directory isRw isUser result t := by
  obtain ⟨found, accesses, search, reached, _⟩ := search_of_faithful space.sees run faithful
  obtain ⟨virtual, u, other, newPageResult⟩ :=
    vmmGetNewPage_of_search structures member space search reached isRw isUser
  rw [run] at other
  cases other
  exact newPageResult

theorem vmmGetNewPage_leads (structures : PageStructures s directories)
    (member : directory ∈ directories) (space : Addresses s pointer directory)
    (faithful : Faithful s) (reachable : safe = true → TablesReachable s directory searchSlots)
    (isRw isUser : Bool) :
    Leads safe stops (vmmGetNewPage pointer isRw isUser 0) s
      (NewPageResult s directories directory isRw isUser) := by
  cases safe with
  | true =>
      obtain ⟨result, t, run, newPageResult⟩ :=
        vmmGetNewPage_cases structures member space (reachable rfl) isRw isUser
      exact Leads.of_ok run (fun _ => newPageResult.reached.faithful faithful) fun _ => newPageResult
  | false =>
      cases run : vmmGetNewPage pointer isRw isUser 0 s with
      | ok result t =>
          exact Leads.of_ok run nofun (vmmGetNewPage_of_faithful structures member space run)
      | error fault t => exact Leads.of_error run nofun

/-- Dereferencing a table by its physical address. -/
theorem reachTable_leads {table : Frame} (faithful : Faithful s)
    (reachable : safe = true → Sees s (frameAddress table) table) :
    Leads safe stops (reachTable table) s fun reached t =>
      reached = table ∧ Sees s (frameAddress table) table ∧ t = s.note table (some table) := by
  cases translated : Arch.translate s.memory s.kernelDirectory (frameAddress table) with
  | none =>
      refine Leads.of_error (reachTable_eq table s |>.trans (by rw [translated]; exact reach_error translated)) fun isSafe => ?_
      exact absurd ((reachable isSafe).symm.trans translated) nofun
  | some reached =>
      refine Leads.of_ok (reachTable_ok translated) (fun isSafe => ?_) fun ends => ?_
      · obtain rfl := Option.some.inj (translated.symm.trans (reachable isSafe))
        exact (Reached.note reached).faithful faithful
      · obtain rfl := Option.some.inj
          (ends (table, some reached) (List.mem_append_right _ (List.mem_singleton.mpr rfl)))
        exact ⟨rfl, translated, rfl⟩

theorem vmmFreePage_leads (structures : PageStructures s directories)
    (member : directory ∈ directories) (space : Addresses s pointer directory)
    (faithful : Faithful s)
    (reachable : safe = true → TablesReachable s directory [directoryIndex virtual]) :
    Leads safe stops (vmmFreePage pointer virtual) s fun _ t =>
      (tablesOf s.memory directory (directoryIndex virtual)).present = false ∧ t = s ∨
        (tablesOf s.memory directory (directoryIndex virtual)).present = true ∧
          PageChanged s t directories directory virtual none := by
  cases level : (tablesOf s.memory directory (directoryIndex virtual)).present with
  | false =>
      exact Leads.of_ok (vmmFreePage_of_absent space level) (fun _ => faithful)
        fun _ => .inl ⟨rfl, rfl⟩
  | true =>
      let table := (tablesOf s.memory directory (directoryIndex virtual)).frameAddr
      have start : vmmFreePage pointer virtual s = (do
          let reached ← reachTable table
          assignEntry reached (pageIndex virtual) fun page =>
            { page with present := false, frameAddr := 0 }) s := by
        rw [vmmFreePage, bind_ok (readDirectory_ok space.sees), level, Bool.not_true,
          if_neg Bool.false_ne_true]
      refine Leads.congr start (Leads.bind (reachTable_leads faithful fun isSafe =>
        reachable isSafe _ (List.mem_singleton.mpr rfl) level) (fun _ => .assignEntry _ _ _) ?_)
      rintro _ _ run ends ⟨rfl, sees, rfl⟩
      obtain ⟨t, done, changed⟩ := vmmFreePage_of_present structures member space level rfl sees
      rw [start, bind_ok run] at done
      exact Leads.of_ok done (fun _ => changed.reached.faithful faithful) fun _ => .inr ⟨rfl, changed⟩

theorem mapNewTable_leads {isUser cached : Bool} (structures : PageStructures s directories)
    (member : directory ∈ directories) (space : Addresses s pointer directory)
    (absent : (tablesOf s.memory directory (directoryIndex virtual)).present = false)
    (faithful : Faithful s)
    (reachable : safe = true → TablesReachable s s.kernelDirectory searchSlots)
    (aliased : s.kernelDirectory = directory → ∀ t, Faithful t → stops t) :
    Leads safe stops (mapNewTable pointer virtual isUser cached) s fun table? t =>
      table? = none ∧ NewPageResult s directories s.kernelDirectory true false 0 t ∨
        ∃ window newTable table, table? = some newTable ∧
          NewTable s t directories directory (directoryIndex virtual) isUser window newTable table := by
  obtain ⟨rest, grows, start⟩ : ∃ rest : Nat → VmmM (Option Frame), (∀ window, Grows (rest window)) ∧
      mapNewTable pointer virtual isUser cached s =
        (vmmGetNewPage (frameAddress s.kernelDirectory) true false 0 >>= rest) s := by
    refine ⟨_, fun window => ?_, by rw [mapNewTable, bind_ok (kernelDirectory_ok s)]⟩
    exact .ite (.pure _) <| .bind (.clearPage _) fun _ => .bind .kernelDirectory fun _ =>
      .bind (.vmmGetPhysicalAddress _ _) fun _ => .bind (.assignDirectory _ _ _) fun _ =>
        .ite (.bind (.pure _) fun _ => .pure _) (.bind (.reach _) fun _ => .pure _)
  refine Leads.congr start (Leads.bind (vmmGetNewPage_leads structures structures.laid.kernel
    structures.kernelDirectory faithful reachable true false) grows ?_)
  intro window t run ends result
  rw [bind_ok run] at start
  cases result with
  | full mapped reached =>
      exact Leads.of_ok (start.symm.trans (mapNewTable_of_null run)) (fun _ => ends)
        fun _ => .inl ⟨rfl, .full mapped reached⟩
  | exhausted noFrame =>
      exact Leads.of_ok (start.symm.trans (mapNewTable_of_null run)) (fun _ => ends)
        fun _ => .inl ⟨rfl, .exhausted noFrame⟩
  | @mapped _ _ newTable table least newPage =>
      obtain ⟨linked, made, outcome⟩ :=
        mapNewTable_spec structures member space absent run least newPage isUser cached
      have linkedFaithful := made.reached.faithful faithful
      rcases outcome with done | ⟨_, isKernel, _, fault, stopped⟩
      · exact Leads.of_ok (start.symm.trans done) (fun _ => linkedFaithful)
          fun _ => .inr ⟨window, newTable, table, rfl, made⟩
      · exact Leads.of_error (start.symm.trans stopped) fun _ => aliased isKernel linked linkedFaithful

theorem vmmMapFrame_leads {physicalFrame : Nat} {isWriteable isUser cached : Bool}
    (structures : PageStructures s directories)
    (member : directory ∈ directories) (space : Addresses s pointer directory)
    (faithful : Faithful s)
    (reachableKernel : safe = true → TablesReachable s s.kernelDirectory searchSlots)
    (reachable : safe = true → TablesReachable s directory [directoryIndex virtual])
    (aliased : s.kernelDirectory = directory → ∀ t, Faithful t → stops t) :
    Leads safe stops (vmmMapFrame pointer virtual physicalFrame isWriteable isUser cached) s
      (MapFrameResult s directories directory virtual physicalFrame isWriteable isUser) := by
  cases level : (tablesOf s.memory directory (directoryIndex virtual)).present with
  | true =>
      let table := (tablesOf s.memory directory (directoryIndex virtual)).frameAddr
      have start : vmmMapFrame pointer virtual physicalFrame isWriteable isUser cached s = (do
          let reached ← reachTable table
          assignEntry reached (pageIndex virtual) (pointEntry isWriteable isUser physicalFrame)
          return true) s := by
        rw [vmmMapFrame, bind_ok (readDirectory_ok space.sees), level, if_pos rfl,
          bind_map_left]
      refine Leads.congr start (Leads.bind (reachTable_leads faithful fun isSafe =>
        reachable isSafe _ (List.mem_singleton.mpr rfl) level)
        (fun _ => .bind (.assignEntry _ _ _) fun _ => .pure _) ?_)
      rintro _ _ run ends ⟨rfl, sees, rfl⟩
      obtain ⟨t, entry, done, changed⟩ :=
        vmmMapFrame_of_present structures member space level rfl sees
      rw [start, bind_ok run] at done
      exact Leads.of_ok done (fun _ => changed.reached.faithful faithful)
        fun _ => .entered level changed
  | false =>
      rw [vmmMapFrame]
      refine Leads.congr (bind_ok (readDirectory_ok space.sees)) ?_
      rw [level, if_neg Bool.false_ne_true]
      refine Leads.bind
        (mapNewTable_leads structures member space level faithful reachableKernel aliased)
        (fun table? => ?_) ?_
      · cases table? with
        | none => exact .pure _
        | some table => exact .bind (.assignEntry _ _ _) fun _ => .pure _
      rintro table? t run ends (⟨rfl, failed⟩ | ⟨window, newTable, table, rfl, made⟩)
      · exact Leads.of_ok rfl (fun _ => ends) fun _ => .failed level failed
      · have changed := made.pageChanged member physicalFrame isWriteable isUser
        exact Leads.of_ok rfl (fun _ => changed.reached.faithful ends)
          fun _ => .created level made changed

/-! ## Calls that find no frame -/

/-- If the kernel has a page left, then no frame is left, or only one and no table for the
page. -/
def Starved (s : Machine) : Prop :=
  ∀ window, IsLeast {address | address ∈ NewPageRange ∧
      walk s.memory s.kernelDirectory address = none} window →
    ∀ frame, s.frames.Free frame →
      (tablesOf s.memory s.kernelDirectory (directoryIndex window)).present = false ∧
        ∀ other, s.frames.Free other → other = frame

theorem starved_of_null {isRw isUser : Bool}
    (sees : Sees s (frameAddress s.kernelDirectory) s.kernelDirectory)
    (run : vmmGetNewPage (frameAddress s.kernelDirectory) isRw isUser 0 s = .ok 0 t)
    (ends : Faithful t) : Starved s := by
  intro window least frame free
  obtain ⟨found, accesses, search, reached, _, rest⟩ := search_of_faithful sees run ends
  obtain ⟨others, same, first⟩ := findSlot_eq_ok sees search
  obtain rfl : accesses = others := List.append_cancel_left (congrArg Machine.direct same)
  have isLeast := (first reached).isLeast
  cases found with
  | none => exact absurd least.1.2 (isLeast window least.1.1)
  | some target =>
      obtain rfl : target = window := isLeast.unique least
      have seesNoted : Sees (s.notes accesses) (frameAddress s.kernelDirectory) s.kernelDirectory :=
        sees
      have notNull : target ≠ 0 := by
        have lower := least.1.1.2.1
        omega
      obtain ⟨_, result⟩ := mapNewPage_null seesNoted notNull (rest target rfl)
      cases result with
      | noFrame _ exhausted => exact absurd free (exhausted frame)
      | noTable only _ absent =>
          exact ⟨absent, fun other otherFree => ((only other).mp otherFree).trans ((only frame).mp free).symm⟩

theorem mapNewTable_none {isUser cached : Bool}
    (run : mapNewTable pointer virtual isUser cached s = .ok none t) :
    vmmGetNewPage (frameAddress s.kernelDirectory) true false 0 s = .ok 0 t := by
  rw [mapNewTable, bind_ok (kernelDirectory_ok s)] at run
  obtain ⟨window, made, get, run⟩ := bind_eq_ok run
  by_cases isNull : window = 0
  · rw [if_pos isNull] at run
    have done : EStateM.Result.ok none made = .ok none t := run
    rw [EStateM.Result.ok.injEq] at done
    rw [isNull, done.2] at get
    exact get
  · rw [if_neg isNull] at run
    obtain ⟨_, _, _, run⟩ := bind_eq_ok run
    obtain ⟨_, _, _, run⟩ := bind_eq_ok run
    obtain ⟨_, _, _, run⟩ := bind_eq_ok run
    obtain ⟨_, assigned, _, run⟩ := bind_eq_ok run
    -- Whichever address the table is found at, it is returned.
    dsimp only at run
    by_cases isCached : cached = true
    · rw [if_pos isCached] at run
      obtain ⟨_, _, _, run⟩ := bind_eq_ok run
      cases run
    · rw [if_neg isCached] at run
      obtain ⟨_, _, _, run⟩ := bind_eq_ok run
      cases run

/-- A frame is not mapped only where the kernel gets no page. -/
theorem vmmMapFrame_false {physicalFrame : Nat} {isWriteable isUser cached : Bool}
    (sees : Sees s pointer directory)
    (run : vmmMapFrame pointer virtual physicalFrame isWriteable isUser cached s = .ok false t) :
    vmmGetNewPage (frameAddress s.kernelDirectory) true false 0 s = .ok 0 t := by
  rw [vmmMapFrame, bind_ok (readDirectory_ok sees)] at run
  cases level : (tablesOf s.memory directory (directoryIndex virtual)).present with
  | true =>
      rw [level, if_pos rfl, bind_map_left] at run
      obtain ⟨_, _, _, run⟩ := bind_eq_ok run
      obtain ⟨_, _, _, run⟩ := bind_eq_ok run
      cases run
  | false =>
      rw [level, if_neg Bool.false_ne_true] at run
      obtain ⟨table?, found, first, run⟩ := bind_eq_ok run
      cases table? with
      | none =>
          cases run
          exact mapNewTable_none first
      | some table =>
          obtain ⟨_, _, _, run⟩ := bind_eq_ok run
          cases run

theorem starved_of_false {physicalFrame : Nat} {isWriteable isUser cached answer : Bool}
    (sees : Sees s pointer directory)
    (kernel : Sees s (frameAddress s.kernelDirectory) s.kernelDirectory)
    (run : vmmMapFrame pointer virtual physicalFrame isWriteable isUser cached s = .ok answer t)
    (ends : Faithful t) : answer = false → Starved s := by
  rintro rfl
  exact starved_of_null kernel (vmmMapFrame_false sees run) ends

/-! ## Copying bytes -/

/-- What the kernel reads through a pointer. -/
def byteAt (s : Machine) (pointer : Nat) : Option UInt8 :=
  (Arch.translate s.memory s.kernelDirectory pointer).map fun frame =>
    s.memory (physical frame pointer)

theorem loadByte_ok (sees : Sees s pointer frame) :
    loadByte pointer s = .ok (s.memory (physical frame pointer)) s := by
  rw [loadByte, bind_ok (reach_ok sees)]
  rfl

theorem loadByte_error (unmapped : Arch.translate s.memory s.kernelDirectory pointer = none) :
    loadByte pointer s = .error ⟨pointer⟩ s := by
  rw [loadByte, bind_error (reach_error unmapped)]

theorem physical_bounds (frame : Frame) (pointer : Nat) :
    frameAddress frame ≤ physical frame pointer ∧
      physical frame pointer < frameAddress frame + 4096 := by
  have := Nat.mod_lt pointer (by decide : 0 < pageSize)
  unfold physical pageSize at *
  omega

theorem FrameWritten.refl (s : Machine) (frame : Frame) : FrameWritten s s frame :=
  ⟨fun _ _ => rfl, rfl, rfl, rfl⟩

theorem FrameWritten.trans {u : Machine} (first : FrameWritten s t frame)
    (second : FrameWritten t u frame) : FrameWritten s u frame :=
  ⟨fun other different => (second.tables other different).trans (first.tables other different),
    second.frames.trans first.frames, second.kernelDirectory.trans first.kernelDirectory,
    second.direct.trans first.direct⟩

theorem FrameWritten.faithful (written : FrameWritten s t frame) (faithful : Faithful s) :
    Faithful t :=
  (Reached.of_eq written.direct).faithful faithful

/-- One byte behind the pointer is stored. -/
theorem storeByte_written {byte : UInt8} (sees : Sees s pointer frame) :
    ∃ t, storeByte pointer byte s = .ok () t ∧ FrameWritten s t frame ∧
      t.memory = s.memory.store8 (physical frame pointer) byte := by
  refine ⟨{ s with memory := s.memory.store8 (physical frame pointer) byte }, ?_,
    ⟨fun other different => ?_, rfl, rfl, rfl⟩, rfl⟩
  · rw [storeByte, bind_ok (reach_ok sees), modify_ok]
  refine tablesOf_of_outside (fun address outside => ?_) different
  have bounds := physical_bounds frame pointer
  exact Memory.store8_of_ne (by omega)

/-- Other frames hold the same bytes. -/
theorem FrameWritten.bytes {other : Frame} (written : FrameWritten s t frame)
    (different : other ≠ frame) (pointer : Nat) :
    t.memory (physical other pointer) = s.memory (physical other pointer) :=
  byte_of_tables (written.tables other different) (physical_bounds other pointer).1
    (physical_bounds other pointer).2

/-- The kernel reads this byte through the pointer, from another frame. -/
def ReadsByte (s : Machine) (frame : Frame) (pointer : Nat) (byte : UInt8) : Prop :=
  ∃ from_, Sees s pointer from_ ∧ from_ ≠ frame ∧ s.memory (physical from_ pointer) = byte

/-- The frame begins with these bytes, and goes on as before. -/
def FrameFilled (s t : Machine) (frame : Frame) (count : Nat) (bytes : Nat → UInt8) : Prop :=
  ∀ offset < 4096, t.memory (frameAddress frame + offset) =
    if offset < count then bytes offset else s.memory (frameAddress frame + offset)

theorem FrameFilled.store {u : Machine} {count : Nat} {bytes : Nat → UInt8}
    (filled : FrameFilled s t frame count bytes)
    (stored : u.memory = t.memory.store8 (frameAddress frame + count) (bytes count)) :
    FrameFilled s u frame (count + 1) bytes := by
  intro offset inside
  rw [stored]
  by_cases isLast : offset = count
  · subst isLast
    rw [Memory.store8_self, if_pos (Nat.lt_succ_self _)]
  · rw [Memory.store8_of_ne (by omega), filled offset inside]
    by_cases before : offset < count
    · rw [if_pos before, if_pos (by omega)]
    · rw [if_neg before, if_neg (by omega)]

theorem eq_length_of_range {count i : Nat} {done rest : List Nat}
    (split : List.range count = done ++ i :: rest) : i = done.length := by
  have item : (List.range count)[done.length]? = some i := by
    rw [split, List.getElem?_append_right (Nat.le_refl _), Nat.sub_self]
    rfl
  obtain ⟨_, same⟩ := List.getElem?_eq_some_iff.mp item
  rw [List.getElem_range] at same
  exact same.symm

/-- Copying into a frame that is no page structure. The bytes arrive unless they are copied
from the very frame. -/
theorem copyBytes_leads {src dest count : Nat} (structures : PageStructures s directories)
    (unlinked : ¬ (tablesOf s.memory).Linked directories frame) (faithful : Faithful s)
    (window : ∀ i < count, Addresses s (u32 (dest + i)) frame)
    (target : ∀ i < count, physical frame (u32 (dest + i)) = frameAddress frame + i)
    (source : safe = true → (∀ i < count, ∃ from_, Sees s (u32 (src + i)) from_) ∨
      ∀ t, FrameWritten s t frame → stops t) :
    Leads safe stops (copyBytes src dest count) s fun _ t => FrameWritten s t frame ∧
      ∀ bytes : Nat → UInt8, (∀ i < count, ReadsByte s frame (u32 (src + i)) (bytes i)) →
        FrameFilled s t frame count bytes := by
  refine (Leads.forM (fun done t => FrameWritten s t frame ∧
      ∀ bytes : Nat → UInt8, (∀ i < count, ReadsByte s frame (u32 (src + i)) (bytes i)) →
        FrameFilled s t frame done.length bytes) faithful
    ⟨.refl s frame, fun bytes _ offset _ => (if_neg (Nat.not_lt_zero _)).symm⟩
    (fun _ => .bind (.loadByte _) fun _ => .storeByte _ _) ?_).mono fun _ t _ holds => ?_
  · intro done i rest t split ends ⟨written, filled⟩
    have isLength := eq_length_of_range split
    have inside : i < count := by
      have member : i ∈ List.range count := by
        rw [split]
        exact List.mem_append_right _ List.mem_cons_self
      exact List.mem_range.mp member
    have translations : ∀ pointer, Arch.translate t.memory t.kernelDirectory pointer =
        Arch.translate s.memory s.kernelDirectory pointer := by
      intro pointer
      unfold Arch.translate walk
      rw [written.kernelDirectory, written.walks unlinked structures.laid.kernel]
    cases found : Arch.translate s.memory s.kernelDirectory (u32 (src + i)) with
    | none =>
        have fault := loadByte_error ((translations (u32 (src + i))).trans found)
        refine Leads.of_error (bind_error fault) fun isSafe => ?_
        rcases source isSafe with readable | stopsAll
        · obtain ⟨from_, sees⟩ := readable i inside
          exact absurd (sees.symm.trans found) nofun
        · exact stopsAll t written
    | some from_ =>
        have load := loadByte_ok ((translations (u32 (src + i))).trans found)
        have sees := (written.addresses structures unlinked (window i inside)).sees
        obtain ⟨u, store, stored, memory⟩ : ∃ u,
            storeByte (u32 (dest + i)) (t.memory (physical from_ (u32 (src + i)))) t = .ok () u ∧
              FrameWritten t u frame ∧ _ := storeByte_written sees
        refine Leads.bind_of_ok load (Leads.of_ok store (fun _ => stored.faithful ends) fun _ => ?_)
        refine ⟨written.trans stored, fun bytes reads => ?_⟩
        obtain ⟨same, seesSource, different, byte⟩ := reads i inside
        obtain rfl := Option.some.inj (seesSource.symm.trans found)
        rw [target i inside, written.bytes different, byte, isLength] at memory
        rw [List.length_append, List.length_singleton]
        exact (filled bytes reads).store memory
  · rw [List.length_range] at holds
    exact holds

end KdbOS.Vmm
