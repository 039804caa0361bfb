import KdbOS.Memory.LowTables

/-! `vmm_create_virtual_address_space`: the directory with the kernel's first tables, and
the loop that fills the code pages and maps them. -/

set_option autoImplicit false

namespace KdbOS.Vmm

open Library Klibc Pmm Arch

variable {start s t u : Machine} {directories : Set Frame} {directory frame : Frame}
variable {pointer window virtual count : Nat} {isUser cached : Bool}
variable {safe : Bool} {stops : Machine → Prop}

/-! ## Within a page -/

/-- Offsets within an aligned page lead to its frame. -/
theorem Addresses.within_page {offset : Nat} (addresses : Addresses s pointer frame)
    (aligned : pointer % 4096 = 0) (upper : pointer < 0x100000000) (inside : offset < 4096) :
    Addresses s (u32 (pointer + offset)) frame := by
  have noWrap : u32 (pointer + offset) = pointer + offset := u32_of_lt (by omega)
  have sameSlot : directoryIndex (pointer + offset) = directoryIndex pointer := by
    unfold directoryIndex
    rw [Fin.ext_iff, Fin.val_ofNat, Fin.val_ofNat]
    omega
  have samePage : pageIndex (pointer + offset) = pageIndex pointer := by
    unfold pageIndex
    rw [Fin.ext_iff, Fin.val_ofNat, Fin.val_ofNat]
    omega
  rw [noWrap]
  refine ⟨?_, ?_⟩
  · have sees := addresses.sees
    unfold Sees Arch.translate walk at *
    rw [sameSlot, samePage]
    exact sees
  · rw [sameSlot, samePage]
    exact addresses.apart

theorem Addresses.within {offset : Nat} (addresses : Addresses s pointer frame)
    (range : pointer ∈ NewPageRange) (inside : offset < 4096) :
    Addresses s (u32 (pointer + offset)) frame :=
  addresses.within_page range.1 range.2.2.1 inside

/-- What the last code page holds of the image fits in. -/
theorem lastChunk_le {size p : Nat} (bounded : size < 4294967296) (inside : p < numCodePages size)
    (last : p = numCodePages size - 1) : u32Sub size (p * pageSize) ≤ 4096 := by
  unfold numCodePages u32 pageSize at *
  have noWrap : size + 4096 - 1 < 4294967296 := by
    by_contra wraps
    have := Nat.mod_lt (size + 4096 - 1) (by decide : 0 < 4294967296)
    omega
  rw [Nat.mod_eq_of_lt noWrap] at inside last
  rw [u32Sub_of_le (by omega)]
  omega

/-- All pages but the last are filled by the image. -/
theorem wholeChunk_le {size p : Nat} (bounded : size < 4294967296) (inside : p < numCodePages size)
    (notLast : p ≠ numCodePages size - 1) : p * pageSize + 4096 ≤ size := by
  unfold numCodePages u32 pageSize at *
  have noWrap : size + 4096 - 1 < 4294967296 := by
    by_contra wraps
    have := Nat.mod_lt (size + 4096 - 1) (by decide : 0 < 4294967296)
    omega
  rw [Nat.mod_eq_of_lt noWrap] at inside notLast
  omega

theorem chunk_lt {size p : Nat} (bounded : size < 4294967296) (inside : p < numCodePages size) :
    p * pageSize < size := by
  unfold numCodePages u32 pageSize at *
  have noWrap : size + 4096 - 1 < 4294967296 := by
    by_contra wraps
    have := Nat.mod_lt (size + 4096 - 1) (by decide : 0 < 4294967296)
    omega
  rw [Nat.mod_eq_of_lt noWrap] at inside
  omega

/-- The kernel has a frame behind every byte of the image. -/
def Readable (s : Machine) (entryPoint size : Nat) : Prop :=
  ∀ i < size, ∃ frame, Addresses s (u32 (entryPoint + i)) frame

theorem Readable.imp {entryPoint size : Nat} (readable : Readable s entryPoint size)
    (keeps : ∀ pointer frame, Addresses s pointer frame → Addresses t pointer frame) :
    Readable t entryPoint size :=
  fun i inside => (readable i inside).imp fun _ => keeps _ _

theorem Readable.sees {entryPoint size : Nat} (readable : Readable s entryPoint size) :
    ∀ i < size, ∃ frame, Sees s (u32 (entryPoint + i)) frame :=
  fun i inside => (readable i inside).imp fun _ addresses => addresses.sees

/-- The bytes of code page `p` of an image. What lies beyond the image's end is zero. -/
def codeBytes (bytes : Nat → UInt8) (size p offset : Nat) : UInt8 :=
  if p * pageSize + offset < size then bytes (p * pageSize + offset) else 0

def FrameHolds (s : Machine) (frame : Frame) (bytes : Nat → UInt8) : Prop :=
  ∀ offset < 4096, s.memory (frameAddress frame + offset) = bytes offset

theorem FrameWritten.translate {address : Nat} (written : FrameWritten s t frame)
    (structures : PageStructures s directories)
    (unlinked : ¬ (tablesOf s.memory).Linked directories frame) :
    Arch.translate t.memory t.kernelDirectory address =
      Arch.translate s.memory s.kernelDirectory address := by
  unfold Arch.translate walk
  rw [written.kernelDirectory, written.walks unlinked structures.laid.kernel]

theorem FrameWritten.readsByte {address : Nat} {byte : UInt8} (written : FrameWritten s t frame)
    (structures : PageStructures s directories)
    (unlinked : ¬ (tablesOf s.memory).Linked directories frame)
    (reads : ReadsByte s frame address byte) : ReadsByte t frame address byte := by
  obtain ⟨from_, sees, different, isByte⟩ := reads
  exact ⟨from_, (written.translate structures unlinked).trans sees, different,
    (written.bytes different address).trans isByte⟩

theorem u32_chunk (entryPoint offset i : Nat) :
    u32 (u32 (entryPoint + offset) + i) = u32 (entryPoint + (offset + i)) := by
  unfold u32
  omega

theorem clearPage_memory (sees : Sees s pointer frame) (run : clearPage pointer s = .ok frame t) :
    t.memory = clearFrame frame s.memory := by
  rw [clearPage_ok sees, EStateM.Result.ok.injEq] at run
  rw [← run.2]

/-- Filling a code page changes only its frame, which gets its part of the image. -/
theorem fillCodePage_leads {entryPoint size p : Nat} (structures : PageStructures s directories)
    (unlinked : ¬ (tablesOf s.memory).Linked directories frame) (faithful : Faithful s)
    (source : safe = true → (∀ i < size, ∃ from_, Sees s (u32 (entryPoint + i)) from_) ∨
      ∀ t, Faithful t → stops t) (addresses : Addresses s window frame)
    (range : window ∈ NewPageRange) (bounded : size < 4294967296) (inside : p < numCodePages size) :
    Leads safe stops (fillCodePage window entryPoint size (numCodePages size) p) s
      fun _ t => FrameWritten s t frame ∧
        ∀ bytes : Nat → UInt8, (∀ i < size, ReadsByte s frame (u32 (entryPoint + i)) (bytes i)) →
          FrameHolds t frame (codeBytes bytes size p) := by
  have target : ∀ i < 4096, physical frame (u32 (window + i)) = frameAddress frame + i := by
    intro i small
    have aligned := range.1
    have upper := range.2.2.1
    rw [u32_of_lt (by omega), physical, pageSize]
    omega
  unfold fillCodePage
  split_ifs with last
  · -- The last page is cleared first.
    obtain ⟨cleared, clear, written, _⟩ := clearPage_written addresses.sees
    have memory := clearPage_memory addresses.sees clear
    have fits := lastChunk_le bounded inside last
    have whole : u32Sub size (p * pageSize) = size - p * pageSize :=
      u32Sub_of_le (Nat.le_of_lt (chunk_lt bounded inside))
    refine Leads.bind_of_ok clear ?_
    have clearedFaithful := written.faithful faithful
    refine (copyBytes_leads (written.pageStructures structures unlinked)
      (fun linked => unlinked ((written.linked unlinked).mp linked)) clearedFaithful
      (fun i small => ?_) (fun i small => target i (Nat.lt_of_lt_of_le small fits))
      fun isSafe => ?_).mono fun _ t _ copied => ⟨written.trans copied.1, fun bytes reads => ?_⟩
    · exact (written.addresses structures unlinked addresses).within range
        (Nat.lt_of_lt_of_le small fits)
    · refine (source isSafe).imp (fun readable i small => ?_) fun all t written =>
        all t (written.faithful clearedFaithful)
      obtain ⟨from_, sees⟩ := readable (p * pageSize + i) (by omega)
      refine ⟨from_, (written.translate structures unlinked).trans ?_⟩
      rw [u32_chunk]
      exact sees
    · intro offset small
      have placed := copied.2 (fun i => bytes (p * pageSize + i)) fun i below => by
        rw [u32_chunk]
        exact written.readsByte structures unlinked (reads _ (by omega))
      have cell : frameAddress frame ≤ frameAddress frame + offset ∧
          frameAddress frame + offset < frameAddress frame + 4096 := by omega
      rw [placed offset small, codeBytes, whole, memory, clearFrame_apply, if_pos cell]
      by_cases before : offset < size - p * pageSize
      · rw [if_pos before, if_pos (by omega)]
      · rw [if_neg before, if_neg (by omega)]
  · have whole := wholeChunk_le bounded inside last
    refine (copyBytes_leads structures unlinked faithful
      (fun i small => addresses.within range small) target fun isSafe => ?_).mono
      fun _ t _ copied => ⟨copied.1, fun bytes reads => ?_⟩
    · refine (source isSafe).imp (fun readable i small => ?_) fun all t written =>
        all t (written.faithful faithful)
      rw [u32_chunk]
      have isPage : pageSize = 4096 := rfl
      exact readable _ (by omega)
    · intro offset small
      have placed := copied.2 (fun i => bytes (p * pageSize + i)) fun i below => by
        have isPage : pageSize = 4096 := rfl
        rw [u32_chunk]
        exact reads _ (by omega)
      have inImage : p * pageSize + offset < size := by omega
      rw [placed offset small, codeBytes, if_pos small, if_pos inImage]

/-- The physical address of a page that is mapped. -/
theorem vmmGetPhysicalAddress_of_walk {entry : Page} (structures : PageStructures s directories)
    (member : directory ∈ directories) (space : Addresses s pointer directory)
    (found : walk s.memory directory virtual = some entry)
    (outside : ¬ WindowPage (directoryIndex virtual) (pageIndex virtual)) :
    ∃ t, vmmGetPhysicalAddress pointer virtual s = .ok (frameAddress entry.frameAddr) t ∧
      WindowUsed s t := by
  obtain ⟨level, lower, _⟩ := Tables.walk_eq_some_iff.mp found
  obtain ⟨t, run, used⟩ := vmmGetPhysicalAddress_of_present structures member space level outside
  rw [tableEntry_target] at lower
  rw [lower] at run
  exact ⟨t, run, used⟩

/-! ## One code page -/

/-- Where code page `p` of a process is mapped. -/
def codePage (p : Nat) : Nat := u32 (userCodeStart + p * pageSize)

/-- What one round of the loop leaves: no page of the kernel was to be had, or the page has
been filled, mapped in the address space, and taken away from the kernel. -/
inductive CodePageResult (s : Machine) (directories : Set Frame) (directory : Frame)
    (entryPoint size : Nat) (isUser : Bool) (p : Nat) : Bool → Machine → Prop where
  | failed {t : Machine} :
      Starved s → NewPageResult s directories s.kernelDirectory true false 0 t →
      CodePageResult s directories directory entryPoint size isUser p false t
  | mapped {made filled read entered t : Machine} {window : Nat} {code : Frame}
      {table : Option Frame} {answer : Bool} :
      IsLeast {address | address ∈ NewPageRange ∧
        walk s.memory s.kernelDirectory address = none} window →
      NewPage s made directories s.kernelDirectory window true false code table →
      FrameWritten made filled code →
      (∀ bytes : Nat → UInt8, (∀ i < size, ReadsByte made code (u32 (entryPoint + i)) (bytes i)) →
        FrameHolds filled code (codeBytes bytes size p)) →
      WindowUsed filled read →
      MapFrameResult read directories directory (codePage p) (frameAddress code) true isUser answer
        entered →
      (answer = false → Starved read) →
      PageChanged entered t directories s.kernelDirectory window none →
      CodePageResult s directories directory entryPoint size isUser p true t

/-- Mapping a page of another directory keeps all pointers. -/
theorem MapFrameResult.addresses_of_ne {physicalFrame : Nat} {isWriteable answer : Bool}
    (structures : PageStructures s directories) (notKernel : directory ≠ s.kernelDirectory)
    (result : MapFrameResult s directories directory virtual physicalFrame isWriteable isUser answer
      t) (high : ¬ KernelSlot (directoryIndex virtual)) (addresses : Addresses s pointer frame) :
    Addresses t pointer frame :=
  result.addresses structures addresses (.inr ⟨notKernel.symm, high⟩)

theorem mapCodePage_leads {entryPoint size p : Nat} (sound : Sound start s directories)
    (notKernel : directory ≠ s.kernelDirectory) (member : directory ∈ directories)
    (space : Addresses s pointer directory) (faithful : Faithful s)
    (source : safe = true → Readable s entryPoint size ∨ ∀ t, Faithful t → stops t)
    (low : safe = true → TablesLow start s directories (count + 4))
    (high : ¬ KernelSlot (directoryIndex (codePage p)))
    (bounded : size < 4294967296) (inside : p < numCodePages size) :
    Leads safe stops
      (mapCodePage pointer entryPoint size (numCodePages size) isUser cached p) s
      (CodePageResult s directories directory entryPoint size isUser p) := by
  refine Leads.bind_of_ok (kernelDirectory_ok s) ?_
  refine Leads.bind (vmmGetNewPage_leads sound.structures sound.kernel
    sound.structures.kernelDirectory faithful
    (fun isSafe => (low isSafe).reachable sound sound.kernel _) true false)
    (fun _ => .ite (.pure _) <| .bind (.fillCodePage _ _ _ _ _) fun _ => .bind .kernelDirectory
      fun _ => .bind (.vmmGetPhysicalAddress _ _) fun _ => .bind (.vmmMapFrame _ _ _ _ _ _)
        fun _ => .bind .kernelDirectory fun _ => .bind (.vmmFreePage _ _) fun _ => .pure _)
    fun window made run madeFaithful result => ?_
  have madeSound := sound.newPage result
  have starved := fun isNull : window = 0 => starved_of_null sound.structures.kernelDirectory.sees
    (isNull ▸ run) madeFaithful
  cases result with
  | full mapped reached =>
      exact Leads.of_ok rfl (fun _ => madeFaithful) fun _ => .failed (starved rfl) (.full mapped reached)
  | exhausted noFrame =>
      exact Leads.of_ok rfl (fun _ => madeFaithful) fun _ => .failed (starved rfl) (.exhausted noFrame)
  | @mapped _ _ code table least newPage =>
  have result : NewPageResult s directories s.kernelDirectory true false window made :=
    .mapped least newPage
  have notNull : window ≠ 0 := by
    have lower := least.1.1.2.1
    omega
  rw [if_neg notNull]
  have windowMade : Addresses made window code := ⟨newPage.sees, not_windowPage least.1.1⟩
  have unlinked := newPage.not_linked sound.structures
  -- The page is filled.
  have madeSource : safe = true → Readable made entryPoint size ∨ ∀ t, Faithful t → stops t :=
    fun isSafe => (source isSafe).imp_left fun readable =>
      readable.imp fun _ _ => result.addresses sound.structures
  refine Leads.bind (fillCodePage_leads madeSound.structures unlinked madeFaithful
    (fun isSafe => (madeSource isSafe).imp_left Readable.sees) windowMade least.1.1 bounded inside) (fun _ => .bind .kernelDirectory fun _ =>
      .bind (.vmmGetPhysicalAddress _ _) fun _ => .bind (.vmmMapFrame _ _ _ _ _ _) fun _ =>
        .bind .kernelDirectory fun _ => .bind (.vmmFreePage _ _) fun _ => .pure _)
    fun _ filled _ filledFaithful ⟨written, holds⟩ => ?_
  have filledSound := madeSound.written written unlinked
  have windowFilled := written.addresses madeSound.structures unlinked windowMade
  have filledDirectory : filled.kernelDirectory = s.kernelDirectory :=
    written.kernelDirectory.trans newPage.kernelDirectory
  -- Its physical address is that of its frame.
  obtain ⟨pageEntry, mapped⟩ := newPage.mapped
  have windowWalk : walk filled.memory filled.kernelDirectory window =
      some (pointEntry true false (frameAddress code) pageEntry) := by
    rw [filledDirectory, ← mapped]
    exact written.walks unlinked sound.kernel
  obtain ⟨read, physical, used⟩ := vmmGetPhysicalAddress_of_walk filledSound.structures
    filledSound.kernel filledSound.structures.kernelDirectory windowWalk (not_windowPage least.1.1)
  have address : (pointEntry true false (frameAddress code) pageEntry).frameAddr = code :=
    frameOf_frameAddress code
  rw [address] at physical
  have readSound := filledSound.windowUsed used
  have readFaithful := used.reached.faithful filledFaithful
  have readDirectory : read.kernelDirectory = s.kernelDirectory :=
    used.kernelDirectory.trans filledDirectory
  have windowRead := used.addresses filledSound.structures windowFilled
  have spaceRead := used.addresses filledSound.structures
    (written.addresses madeSound.structures unlinked (result.addresses sound.structures space))
  have readLow : safe = true → TablesLow start read directories (count + 2) := fun isSafe =>
    (((low isSafe).newPage result).written written unlinked).windowUsed filledSound.structures used
  refine Leads.bind_of_ok (kernelDirectory_ok filled) (Leads.bind_of_ok physical ?_)
  -- It is mapped in the address space.
  have apart : directory ≠ read.kernelDirectory := by
    rw [readDirectory]
    exact notKernel
  refine Leads.bind (vmmMapFrame_leads readSound.structures member spaceRead readFaithful
    (fun isSafe => (readLow isSafe).reachable readSound readSound.kernel _)
    (fun isSafe => (readLow isSafe).reachable readSound member _)
    fun same => absurd same.symm apart) (fun _ => .bind .kernelDirectory fun _ =>
      .bind (.vmmFreePage _ _) fun _ => .pure _)
    fun answer entered mapRun enteredFaithful mapResult => ?_
  have entering := starved_of_false spaceRead.sees readSound.structures.kernelDirectory.sees mapRun
    enteredFaithful
  have enteredSound := readSound.mapFrame mapResult high
  have windowEntered := mapResult.addresses_of_ne readSound.structures apart high windowRead
  have enteredDirectory : entered.kernelDirectory = s.kernelDirectory :=
    (mapResult.lowKept readSound.structures high).kernelDirectory.trans readDirectory
  have enteredLow : safe = true → TablesLow start entered directories count := fun isSafe =>
    (readLow isSafe).mapFrame mapResult
  -- The kernel's page is given back.
  refine Leads.bind_of_ok (kernelDirectory_ok entered) (Leads.bind (vmmFreePage_leads
    enteredSound.structures enteredSound.kernel enteredSound.structures.kernelDirectory
    enteredFaithful fun isSafe => (enteredLow isSafe).reachable enteredSound enteredSound.kernel _)
    (fun _ => .pure true) fun _ t _ lastFaithful freed => ?_)
  refine Leads.of_ok rfl (fun _ => lastFaithful) fun _ => ?_
  rcases freed with ⟨absent, _⟩ | ⟨_, changed⟩
  · obtain ⟨entry, found, _⟩ := Option.map_eq_some_iff.mp windowEntered.sees
    exact Bool.noConfusion (absent.symm.trans (Tables.walk_eq_some_iff.mp found).1)
  · rw [enteredDirectory] at changed
    exact .mapped least newPage written holds used mapResult entering changed

namespace CodePageResult

variable {entryPoint size p : Nat} {answer : Bool}
  (result : CodePageResult s directories directory entryPoint size isUser p answer t)
  (before : Sound start s directories)

include result before

theorem sound (high : ¬ KernelSlot (directoryIndex (codePage p))) : Sound start t directories := by
  cases result with
  | failed _ newPage => exact before.newPage newPage
  | mapped least newPage written _ used mapResult _ changed =>
      have filled := (before.newPage (.mapped least newPage)).written written
        (newPage.not_linked before.structures)
      exact ((filled.windowUsed used).mapFrame mapResult high).pageChanged changed
        (not_kernelSlot least.1.1)

theorem addresses (notKernel : directory ≠ s.kernelDirectory)
    (high : ¬ KernelSlot (directoryIndex (codePage p))) (addresses : Addresses s pointer frame) :
    Addresses t pointer frame := by
  cases result with
  | failed _ newPage => exact newPage.addresses before.structures addresses
  | mapped least newPage written _ used mapResult _ changed =>
      have made := before.newPage (.mapped least newPage)
      have unlinked := newPage.not_linked before.structures
      have filled := made.written written unlinked
      have read := filled.windowUsed used
      have readDirectory := (used.kernelDirectory.trans written.kernelDirectory).trans
        newPage.kernelDirectory
      have entered := mapResult.addresses_of_ne read.structures (readDirectory ▸ notKernel) high
        (used.addresses filled.structures (written.addresses made.structures unlinked
          (NewPageResult.addresses (.mapped least newPage) before.structures addresses)))
      -- The kernel's page was not mapped before.
      refine changed.addresses (read.mapFrame mapResult high).structures entered (.inl ?_)
      exact (Beside.of_unmapped addresses.sees least.1.2
        (not_kernelSlot least.1.1)).resolve_right fun same => same.1 rfl

theorem tablesLow (low : TablesLow start s directories (count + 4)) :
    TablesLow start t directories count := by
  cases result with
  | failed _ newPage => exact (low.mono (Nat.add_le_add_left (by decide) count)).newPage newPage
  | mapped least newPage written _ used mapResult _ changed =>
      have made := before.newPage (.mapped least newPage)
      have unlinked := newPage.not_linked before.structures
      have filled := made.written written unlinked
      have read := ((low.newPage (.mapped least newPage)).written written unlinked).windowUsed
        filled.structures used
      exact (read.mapFrame mapResult).pageChanged changed

end CodePageResult

/-! ## The loop -/

/-- The rounds of the loop one after another, up to the first that fails. -/
inductive CodePages (directories : Set Frame) (directory : Frame) (entryPoint size : Nat)
    (isUser : Bool) : Machine → List Nat → Bool → Machine → Prop where
  | done {s : Machine} : CodePages directories directory entryPoint size isUser s [] true s
  | failed {s t : Machine} {p : Nat} {rest : List Nat} :
      CodePageResult s directories directory entryPoint size isUser p false t →
      CodePages directories directory entryPoint size isUser s (p :: rest) false t
  | next {s t u : Machine} {p : Nat} {rest : List Nat} {answer : Bool} :
      CodePageResult s directories directory entryPoint size isUser p true t →
      CodePages directories directory entryPoint size isUser t rest answer u →
      CodePages directories directory entryPoint size isUser s (p :: rest) answer u

/-- The code pages of these rounds lie outside the first 8 MiB. -/
def HighRounds (rounds : List Nat) : Prop :=
  ∀ p ∈ rounds, ¬ KernelSlot (directoryIndex (codePage p))

theorem Sound.notKernel (sound : Sound start s directories) (later : Sound start t directories)
    (notKernel : directory ≠ s.kernelDirectory) : directory ≠ t.kernelDirectory := by
  rw [later.low.kernelDirectory, ← sound.low.kernelDirectory]
  exact notKernel

namespace CodePages

variable {entryPoint size : Nat} {rounds : List Nat} {answer : Bool}

theorem sound (pages : CodePages directories directory entryPoint size isUser s rounds answer t)
    (sound : Sound start s directories) (high : HighRounds rounds) :
    Sound start t directories := by
  induction pages with
  | done => exact sound
  | failed result => exact result.sound sound (high _ List.mem_cons_self)
  | next result _ ih =>
      exact ih (result.sound sound (high _ List.mem_cons_self))
        fun p member => high p (List.mem_cons_of_mem _ member)

theorem addresses (pages : CodePages directories directory entryPoint size isUser s rounds answer t)
    (sound : Sound start s directories) (notKernel : directory ≠ s.kernelDirectory)
    (high : HighRounds rounds) (addresses : Addresses s pointer frame) :
    Addresses t pointer frame := by
  induction pages with
  | done => exact addresses
  | failed result =>
      exact result.addresses sound notKernel (high _ List.mem_cons_self) addresses
  | next result _ ih =>
      have highFirst := high _ List.mem_cons_self
      have next := result.sound sound highFirst
      exact ih next (sound.notKernel next notKernel)
        (fun p member => high p (List.mem_cons_of_mem _ member))
        (result.addresses sound notKernel highFirst addresses)

theorem tablesLow (pages : CodePages directories directory entryPoint size isUser s rounds answer t)
    (sound : Sound start s directories) (high : HighRounds rounds)
    (low : TablesLow start s directories (count + 4 * rounds.length)) :
    TablesLow start t directories count := by
  induction pages with
  | done => exact low
  | failed result =>
      refine result.tablesLow sound (low.mono ?_)
      rw [List.length_cons]
      omega
  | next result _ ih =>
      refine ih (result.sound sound (high _ List.mem_cons_self))
        (fun p member => high p (List.mem_cons_of_mem _ member)) (result.tablesLow sound ?_)
      refine low.mono ?_
      rw [List.length_cons]
      omega

end CodePages

theorem mapCode_leads {entryPoint size : Nat} {rounds : List Nat} (sound : Sound start s directories)
    (notKernel : directory ≠ s.kernelDirectory) (member : directory ∈ directories)
    (space : Addresses s pointer directory) (faithful : Faithful s)
    (source : safe = true → Readable s entryPoint size ∨ ∀ t, Faithful t → stops t)
    (low : safe = true → TablesLow start s directories (count + 4 * rounds.length))
    (high : HighRounds rounds) (bounded : size < 4294967296)
    (inside : ∀ p ∈ rounds, p < numCodePages size) :
    Leads safe stops (mapCode pointer entryPoint size (numCodePages size) isUser cached rounds) s
      (CodePages directories directory entryPoint size isUser s rounds) := by
  induction rounds generalizing s with
  | nil => exact Leads.of_ok rfl (fun _ => faithful) fun _ => .done
  | cons p rest ih =>
      have highFirst := high p List.mem_cons_self
      have lowFirst : safe = true →
          TablesLow start s directories (count + 4 * rest.length + 4) := fun isSafe => by
        refine (low isSafe).mono ?_
        rw [List.length_cons]
        omega
      refine Leads.bind (mapCodePage_leads sound notKernel member space faithful source
        lowFirst highFirst bounded (inside p List.mem_cons_self))
        (fun _ => .ite (.pure _) (.mapCode _ _ _ _ _ _ _)) fun mapped t _ ends result => ?_
      cases mapped with
      | false => exact Leads.of_ok rfl (fun _ => ends) fun _ => .failed result
      | true =>
          have next := result.sound sound highFirst
          exact (ih next (sound.notKernel next notKernel)
            (result.addresses sound notKernel highFirst space) ends
            (fun isSafe => (source isSafe).imp_left fun readable =>
              readable.imp fun _ _ => result.addresses sound notKernel highFirst)
            (fun isSafe => result.tablesLow sound (lowFirst isSafe))
            (fun q other => high q (List.mem_cons_of_mem _ other))
            fun q other => inside q (List.mem_cons_of_mem _ other)).mono
              fun _ _ _ pages => .next result pages

/-! ## The new directory -/

theorem shareKernelEntry_written (structures : PageStructures s directories)
    (space : Addresses s pointer frame) (slot : EntryIndex) :
    ∃ t, shareKernelEntry pointer slot s = .ok () t ∧ FrameWritten s t frame ∧
      tablesOf t.memory = (tablesOf s.memory).set frame slot
        (tablesOf s.memory s.kernelDirectory slot) := by
  let entry := tablesOf s.memory s.kernelDirectory slot
  have becomes := (Becomes.refl s).store frame slot fun _ => entry
  refine ⟨s.store frame slot fun _ => entry, ?_, ⟨fun other different => ?_, rfl, rfl, rfl⟩,
    becomes.tables⟩
  · rw [shareKernelEntry, bind_ok (kernelDirectory_ok s),
      bind_ok (readDirectory_ok structures.kernelDirectory.sees)]
    exact assignDirectory_ok space.sees _
  · rw [becomes.tables]
    exact funext fun _ => Tables.set_of_frame_ne different

/-- The entries of a new directory: those of the first 8 MiB are the kernel's. -/
def SharesKernel (s : Machine) (directory : Frame) : Prop :=
  ∀ slot, tablesOf s.memory directory slot =
    if KernelSlot slot then tablesOf s.memory s.kernelDirectory slot else Page.decode 0

theorem SharesKernel.copied (shares : SharesKernel s directory) (slot : EntryIndex)
    (isPresent : (tablesOf s.memory directory slot).present = true) :
    KernelSlot slot ∧ tablesOf s.memory directory slot = tablesOf s.memory s.kernelDirectory slot := by
  have entry := shares slot
  by_cases low : KernelSlot slot
  · rw [if_pos low] at entry
    exact ⟨low, entry⟩
  · rw [if_neg low] at entry
    rw [entry] at isPresent
    cases isPresent

/-- The frame is cleared, and takes over the kernel's entries. -/
theorem shareKernel_spec (structures : PageStructures s directories)
    (unlinked : ¬ (tablesOf s.memory).Linked directories frame)
    (space : Addresses s pointer frame) :
    ∃ cleared first t, clearPage pointer s = .ok frame cleared ∧
      shareKernelEntry pointer 0 cleared = .ok () first ∧
      shareKernelEntry pointer 1 first = .ok () t ∧ FrameWritten s t frame ∧
      SharesKernel t frame := by
  obtain ⟨cleared, clear, writtenClear, zero⟩ := clearPage_written space.sees
  have clearedStructures := writtenClear.pageStructures structures unlinked
  have clearedSpace := writtenClear.addresses structures unlinked space
  have clearedUnlinked := fun linked => unlinked ((writtenClear.linked unlinked).mp linked)
  obtain ⟨first, firstRun, writtenFirst, firstTables⟩ :=
    shareKernelEntry_written clearedStructures clearedSpace 0
  have firstStructures := writtenFirst.pageStructures clearedStructures clearedUnlinked
  have firstSpace := writtenFirst.addresses clearedStructures clearedUnlinked clearedSpace
  have firstUnlinked := fun linked => clearedUnlinked ((writtenFirst.linked clearedUnlinked).mp linked)
  obtain ⟨t, secondRun, writtenSecond, secondTables⟩ :=
    shareKernelEntry_written firstStructures firstSpace 1
  refine ⟨cleared, first, t, clear, firstRun, secondRun,
    writtenClear.trans (writtenFirst.trans writtenSecond), fun slot => ?_⟩
  have notFrame : s.kernelDirectory ≠ frame :=
    fun same => unlinked (same ▸ .of_directory structures.laid.kernel)
  have firstDirectory : first.kernelDirectory = s.kernelDirectory :=
    writtenFirst.kernelDirectory.trans writtenClear.kernelDirectory
  rw [writtenSecond.kernelDirectory, secondTables, firstTables, firstDirectory,
    writtenClear.kernelDirectory]
  by_cases isSecond : slot = 1
  · subst isSecond
    have low : KernelSlot 1 := by decide
    rw [Tables.set_self, if_pos low, Tables.set_of_frame_ne notFrame,
      Tables.set_of_frame_ne notFrame, Tables.set_of_frame_ne notFrame]
  · rw [Tables.set_of_index_ne isSecond]
    by_cases isFirst : slot = 0
    · subst isFirst
      have low : KernelSlot 0 := by decide
      rw [Tables.set_self, if_pos low, Tables.set_of_frame_ne notFrame,
        Tables.set_of_frame_ne notFrame]
    · have high : ¬ KernelSlot slot := by
        unfold KernelSlot
        have notZero : slot.val ≠ 0 := fun zero => isFirst (Fin.ext zero)
        have notOne : slot.val ≠ 1 := fun one => isSecond (Fin.ext one)
        omega
      rw [Tables.set_of_index_ne isFirst, if_neg high, zero]

/-! ## The call -/

/-- What `vmm_create_virtual_address_space` returns and leaves. A directory whose pages
could not all be made stays behind, but NULL is returned. -/
inductive CreateResult (s : Machine) (directories : Set Frame) (entryPoint size : Nat)
    (isUser : Bool) (rounds : List Nat) : Nat → Machine → Prop where
  | failed {t : Machine} :
      Starved s → NewPageResult s directories s.kernelDirectory true false 0 t →
      CreateResult s directories entryPoint size isUser rounds 0 t
  | built {made shared t : Machine} {pointer : Nat} {directory : Frame} {table : Option Frame}
      {answer : Bool} :
      IsLeast {address | address ∈ NewPageRange ∧
        walk s.memory s.kernelDirectory address = none} pointer →
      NewPage s made directories s.kernelDirectory pointer true false directory table →
      FrameWritten made shared directory →
      SharesKernel shared directory →
      CodePages (insert directory directories) directory entryPoint size isUser shared rounds answer
        t →
      CreateResult s directories entryPoint size isUser rounds (if answer then pointer else 0) t

theorem highRounds {size : Nat} (bounded : size ≤ 0x40000000) :
    HighRounds (List.range (numCodePages size)) := by
  intro p member
  have inside := List.mem_range.mp member
  unfold numCodePages at inside
  rw [u32_of_lt (by unfold pageSize; omega)] at inside
  unfold pageSize at inside
  unfold KernelSlot directoryIndex codePage userCodeStart pageSize
  rw [u32_of_lt (by omega), Fin.val_ofNat]
  omega

section Shared

variable {made filled : Machine} {table : Option Frame}
  (sound : Sound start s directories)
  (least : IsLeast {address | address ∈ NewPageRange ∧
    walk s.memory s.kernelDirectory address = none} pointer)
  (newPage : NewPage s made directories s.kernelDirectory pointer true false directory table)
  (written : FrameWritten made filled directory) (shares : SharesKernel filled directory)

include sound least newPage written shares

/-- The new directory with the kernel's first tables. -/
theorem Sound.shared : Sound start filled (insert directory directories) := by
  have unlinked := newPage.not_linked sound.structures
  have soundFilled := (sound.newPage (.mapped least newPage)).written written unlinked
  refine soundFilled.adopt (fun linked => unlinked ((written.linked unlinked).mp linked)) ?_
    shares.copied
  rw [written.frames]
  exact fun free => ((newPage.free directory).mp free).2.1 rfl

omit shares in
theorem NewPage.addresses_shared : Addresses filled pointer directory :=
  written.addresses (sound.newPage (.mapped least newPage)).structures
    (newPage.not_linked sound.structures) ⟨newPage.sees, not_windowPage least.1.1⟩

omit least shares in
theorem NewPage.notKernel : directory ≠ filled.kernelDirectory := by
  rw [written.kernelDirectory, newPage.kernelDirectory]
  rintro rfl
  exact sound.structures.used _ (.of_directory sound.kernel) newPage.least.1

theorem TablesLow.shared (low : TablesLow start s directories (count + 2)) :
    TablesLow start filled (insert directory directories) count := by
  have unlinked := newPage.not_linked sound.structures
  have madeSound := sound.newPage (.mapped least newPage)
  exact ((low.newPage (.mapped least newPage)).written written unlinked).adopt
    (madeSound.written written unlinked) shares.copied
    (lowFrame_of_least (low.mono (Nat.le_succ (count + 1))) newPage.least)

end Shared

theorem vmmCreateVirtualAddressSpace_leads {entryPoint size : Nat}
    (sound : Sound start s directories) (faithful : Faithful s)
    (source : safe = true → Readable s entryPoint size ∨ ∀ t, Faithful t → stops t)
    (low : safe = true → TablesLow start s directories (count + 4 * numCodePages size + 2))
    (bounded : size ≤ 0x40000000) :
    Leads safe stops (vmmCreateVirtualAddressSpace entryPoint size isUser cached) s
      (CreateResult s directories entryPoint size isUser (List.range (numCodePages size))) := by
  have growsLoop : ∀ pointer, Grows (do
      let mapped ← mapCode pointer entryPoint size (numCodePages size) isUser cached
        (List.range (numCodePages size))
      if !mapped then return 0 else return pointer) := fun pointer =>
    .bind (.mapCode _ _ _ _ _ _ _) fun _ => .ite (.pure _) (.pure _)
  refine Leads.bind_of_ok (kernelDirectory_ok s) ?_
  refine Leads.bind (vmmGetNewPage_leads sound.structures sound.kernel
    sound.structures.kernelDirectory faithful
    (fun isSafe => (low isSafe).reachable sound sound.kernel _) true false)
    (fun pointer => .ite (.pure _) (.bind (.clearPage _) fun _ => .bind (.shareKernelEntry _ _)
      fun _ => .bind (.shareKernelEntry _ _) fun _ => growsLoop pointer))
    fun pointer made run madeFaithful result => ?_
  have madeSound := sound.newPage result
  have starved := fun isNull : pointer = 0 => starved_of_null sound.structures.kernelDirectory.sees
    (isNull ▸ run) madeFaithful
  cases result with
  | full mapped reached =>
      exact Leads.of_ok rfl (fun _ => madeFaithful) fun _ => .failed (starved rfl) (.full mapped reached)
  | exhausted noFrame =>
      exact Leads.of_ok rfl (fun _ => madeFaithful) fun _ => .failed (starved rfl) (.exhausted noFrame)
  | @mapped _ _ directory table least newPage =>
  have notNull : pointer ≠ 0 := by
    have lower := least.1.1.2.1
    omega
  rw [if_neg notNull]
  obtain ⟨cleared, first, shared, clear, firstRun, secondRun, written, shares⟩ :=
    shareKernel_spec madeSound.structures (newPage.not_linked sound.structures)
      ⟨newPage.sees, not_windowPage least.1.1⟩
  refine Leads.bind_of_ok clear (Leads.bind_of_ok firstRun (Leads.bind_of_ok secondRun ?_))
  refine Leads.bind (mapCode_leads (sound.shared least newPage written shares)
    (newPage.notKernel sound written) (.inl rfl) (newPage.addresses_shared sound least written)
    (written.faithful madeFaithful)
    (fun isSafe => (source isSafe).imp_left fun readable => readable.imp fun _ _ addresses =>
      written.addresses madeSound.structures (newPage.not_linked sound.structures)
        (NewPageResult.addresses (.mapped least newPage) sound.structures addresses))
    (fun isSafe => (low isSafe).shared sound least newPage written shares |>.mono (by
      rw [List.length_range]))
    (highRounds bounded) (by omega) fun p member => List.mem_range.mp member)
    (fun _ => .ite (.pure _) (.pure _)) fun answer t _ ends pages => ?_
  have final := CreateResult.built least newPage written shares pages
  cases answer with
  | false => exact Leads.of_ok rfl (fun _ => ends) fun _ => final
  | true => exact Leads.of_ok rfl (fun _ => ends) fun _ => final

namespace CreateResult

variable {entryPoint size : Nat} {rounds : List Nat} {result : Nat}

theorem tablesLow (created : CreateResult s directories entryPoint size isUser rounds result t)
    (sound : Sound start s directories) (high : HighRounds rounds)
    (low : TablesLow start s directories (count + 4 * rounds.length + 2)) :
    TablesLow start t (directories ∪ {frame | result ≠ 0 ∧ Sees t result frame}) count := by
  cases created with
  | failed _ newPage =>
      refine ((low.newPage newPage).mono (Nat.le_add_right count _)).of_subset ?_
      rintro frame (member | ⟨notNull, _⟩)
      · exact member
      · exact absurd rfl notNull
  | @built made filled _ pointer directory _ answer least newPage written shares pages =>
      have soundFilled := sound.shared least newPage written shares
      have sees := (pages.addresses soundFilled (newPage.notKernel sound written) high
        (newPage.addresses_shared sound least written)).sees
      refine (pages.tablesLow soundFilled high (low.shared sound least newPage written shares)).of_subset ?_
      rintro frame (member | ⟨notNull, found⟩)
      · exact .inr member
      · cases answer with
        | false => exact absurd rfl notNull
        | true => exact .inl (Option.some.inj (found.symm.trans sees))

/-- The directory that the result points to is in use, in addition to the others. -/
theorem sound (created : CreateResult s directories entryPoint size isUser rounds result t)
    (sound : Sound start s directories) (high : HighRounds rounds) :
    Sound start t (directories ∪ {frame | result ≠ 0 ∧ Sees t result frame}) := by
  cases created with
  | failed _ newPage =>
      have after := sound.newPage newPage
      refine after.of_subset ?_ (.inl after.kernel)
      rintro frame (member | ⟨notNull, _⟩)
      · exact member
      · exact absurd rfl notNull
  | @built made shared _ pointer directory _ answer least newPage written shares pages =>
      have sharedSound := sound.shared least newPage written shares
      have after := pages.sound sharedSound high
      have sees := (pages.addresses sharedSound (newPage.notKernel sound written) high
        (newPage.addresses_shared sound least written)).sees
      refine after.of_subset ?_ (.inl ?_)
      · rintro frame (member | ⟨notNull, found⟩)
        · exact .inr member
        · cases answer with
          | false => exact absurd rfl notNull
          | true => exact .inl (Option.some.inj (found.symm.trans sees))
      · rw [after.low.kernelDirectory, ← sound.low.kernelDirectory]
        exact sound.kernel

end CreateResult

end KdbOS.Vmm
