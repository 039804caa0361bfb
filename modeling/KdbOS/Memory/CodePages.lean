import KdbOS.Memory.KernelRoom
import KdbOS.Memory.VmmCreate

/-! The frames that are placed in the address space of a process, one round of the loop of
`vmm_create_virtual_address_space` after another, and what the kernel's room becomes
meanwhile. -/

set_option autoImplicit false

namespace KdbOS.Vmm

open Library Klibc Pmm Arch

variable {start s t u : Machine} {directories : Set Frame} {directory frame other : Frame}
variable {virtual entryPoint size p : Nat} {isUser : Bool} {bytes : Nat → UInt8}

/-! ## Frames that hold data -/

/-- The frame is in use, and is no page structure. -/
structure Settled (s : Machine) (directories : Set Frame) (frame : Frame) : Prop where
  used : ¬ s.frames.Free frame
  unlinked : ¬ (tablesOf s.memory).Linked directories frame

theorem Extends.settled (extended : Extends s t directories directory)
    (settled : Settled s directories frame) : Settled t directories frame where
  used free := settled.used (extended.free frame free)
  unlinked linked := (extended.linked frame linked).elim settled.unlinked settled.used

/-- A frame that holds data does not become the new directory. -/
theorem Settled.adopted (settled : Settled s directories frame)
    (extended : Extends s t directories other) (fresh : s.frames.Free directory)
    (shares : SharesKernel t directory) (kernel : t.kernelDirectory ∈ directories) :
    Settled t (insert directory directories) frame := by
  have later := extended.settled settled
  refine ⟨later.used, fun linked => ?_⟩
  rcases (Tables.linked_adopt shares.copied kernel).mp linked with rfl | old
  · exact settled.used fresh
  · exact later.unlinked old

theorem Extends.byte (extended : Extends s t directories directory)
    (settled : Settled s directories frame) {offset : Nat} (inside : offset < 4096) :
    t.memory (frameAddress frame + offset) = s.memory (frameAddress frame + offset) :=
  byte_of_tables (extended.unlinked frame settled.used settled.unlinked) (Nat.le_add_right _ _)
    (Nat.add_lt_add_left inside _)

theorem FrameHolds.extended (holds : FrameHolds s frame bytes)
    (extended : Extends s t directories directory) (settled : Settled s directories frame) :
    FrameHolds t frame bytes :=
  fun offset inside => (extended.byte settled inside).trans (holds offset inside)

/-- The image lies in frames that hold data, and the kernel reads it from `entryPoint` on. -/
def ImageAt (s : Machine) (directories : Set Frame) (entryPoint size : Nat)
    (bytes : Nat → UInt8) : Prop :=
  ∀ i < size, ∃ from_, Addresses s (u32 (entryPoint + i)) from_ ∧ Settled s directories from_ ∧
    s.memory (physical from_ (u32 (entryPoint + i))) = bytes i

theorem ImageAt.extended (image : ImageAt s directories entryPoint size bytes)
    (extended : Extends s t directories directory) :
    ImageAt t directories entryPoint size bytes := by
  intro i inside
  obtain ⟨from_, addresses, settled, byte⟩ := image i inside
  refine ⟨from_, extended.addresses addresses, extended.settled settled, ?_⟩
  rw [← byte]
  exact extended.byte settled (Nat.mod_lt _ (by decide))

/-- The frames of the image are not among those that were free. -/
theorem ImageAt.readsByte (image : ImageAt s directories entryPoint size bytes)
    (extended : Extends s t directories directory) (free : s.frames.Free frame) :
    ∀ i < size, ReadsByte t frame (u32 (entryPoint + i)) (bytes i) := by
  intro i inside
  obtain ⟨from_, addresses, settled, byte⟩ := image i inside
  refine ⟨from_, (extended.addresses addresses).sees, fun isFrame => settled.used (isFrame ▸ free), ?_⟩
  rw [← byte]
  exact extended.byte settled (Nat.mod_lt _ (by decide))

/-! ## Pages of a process -/

/-- The entries of the address space and its pages from 8 MiB on are as before. -/
structure SpaceKept (s t : Machine) (directory : Frame) : Prop where
  entries : ∀ slot, tablesOf t.memory directory slot = tablesOf s.memory directory slot
  walks : ∀ slot index, ¬ KernelSlot slot →
    (tablesOf t.memory).walk directory slot index = (tablesOf s.memory).walk directory slot index

theorem Extends.spaceKept (extended : Extends s t directories s.kernelDirectory)
    (member : directory ∈ directories) (notKernel : directory ≠ s.kernelDirectory) :
    SpaceKept s t directory where
  entries slot := congrFun (extended.entries directory member notKernel notKernel) slot
  walks := extended.walks directory member notKernel notKernel

/-- A frame that was free has been mapped in the address space. -/
structure FramePlaced (s t : Machine) (directories : Set Frame) (directory : Frame) (virtual : Nat)
    (isUser : Bool) (frame : Frame) : Prop where
  high : ¬ KernelSlot (directoryIndex virtual)
  mapped : ∃ entry, walk t.memory directory virtual =
    some (pointEntry true isUser (frameAddress frame) entry)
  walks : ∀ slot index, ¬ KernelSlot slot →
    ¬ (slot = directoryIndex virtual ∧ index = pageIndex virtual) →
      (tablesOf t.memory).walk directory slot index = (tablesOf s.memory).walk directory slot index
  entries : ∀ slot, tablesOf t.memory directory slot = tablesOf s.memory directory slot ∨
    slot = directoryIndex virtual ∧ ∃ newTable entry,
      tablesOf t.memory directory slot = pointEntry true isUser (frameAddress newTable) entry
  extended : Extends s t directories directory
  fresh : s.frames.Free frame
  settled : Settled t directories frame

/-- The page is mapped between steps that keep the address space. -/
theorem FramePlaced.of_pageMapped {read entered : Machine} (before : SpaceKept s read directory)
    (page : PageMapped read entered directory virtual isUser frame)
    (after : SpaceKept entered t directory) (high : ¬ KernelSlot (directoryIndex virtual))
    (extended : Extends s t directories directory) (fresh : s.frames.Free frame)
    (settled : Settled t directories frame) :
    FramePlaced s t directories directory virtual isUser frame where
  high := high
  mapped := by
    obtain ⟨entry, mapped⟩ := page.mapped
    exact ⟨entry, (after.walks _ _ high).trans mapped⟩
  walks slot index highSlot apart :=
    ((after.walks slot index highSlot).trans
      (page.walks slot index (not_windowPage_of_high highSlot) apart)).trans
        (before.walks slot index highSlot)
  entries slot := by
    rw [after.entries]
    rcases page.entries slot with same | ⟨isSlot, _, newTable, entry, _, isEntry⟩
    · exact .inl (same.trans (before.entries slot))
    · exact .inr ⟨isSlot, newTable, entry, isEntry⟩
  extended := extended
  fresh := fresh
  settled := settled

/-! ## The kernel's room -/

/-- At most so many pages of the kernel have been taken, each with a frame. -/
structure RoomTaken (s t : Machine) (count : Nat) : Prop where
  pages : (kernelPages t).ncard ≤ (kernelPages s).ncard + count
  charge : charge t ≤ charge s + count

namespace RoomTaken

theorem trans {first second : Nat} (before : RoomTaken s t first) (after : RoomTaken t u second) :
    RoomTaken s u (first + second) := by
  have pages := before.pages
  have morePages := after.pages
  have charges := before.charge
  have moreCharges := after.charge
  exact ⟨by omega, by omega⟩

theorem of_takes {window : Nat} {table : Option Frame} (takes : TakesPage s t window frame table) :
    RoomTaken s t 1 :=
  ⟨takes.kernelPages_card, takes.charge_le⟩

theorem of_keeps (keeps : KeepsPages s t) : RoomTaken s t 0 :=
  ⟨(congrArg Set.ncard keeps.kernelPages_eq).le, keeps.charge_eq.le⟩

/-- Without a page nothing is taken but the last frame. -/
theorem of_noPage (newPage : NewPageResult s directories s.kernelDirectory true false 0 t) :
    RoomTaken s t 0 := by
  have samePages : kernelPages t = kernelPages s ∧ (freeFrames t).ncard ≤ (freeFrames s).ncard := by
    cases newPage with
    | full => exact ⟨rfl, Nat.le_refl _⟩
    | exhausted noFrame =>
        refine ⟨?_, Set.ncard_le_ncard (fun frame free => absurd free (noFrame.exhausted frame))⟩
        unfold kernelPages
        rw [noFrame.memory, noFrame.kernelDirectory]
    | mapped least => exact absurd least.1.1.2.1 (by decide)
  refine ⟨by rw [samePages.1]; exact Nat.le_refl _, ?_⟩
  unfold Vmm.charge
  rw [samePages.1]
  have fewer := samePages.2
  omega

theorem pagesLeft {count more : Nat} (taken : RoomTaken s t more)
    (left : PagesLeft s (count + more)) : PagesLeft t count := by
  have pages := taken.pages
  unfold PagesLeft at *
  omega

end RoomTaken

theorem MapFrameResult.roomTaken {physicalFrame : Nat} {isWriteable answer : Bool}
    (result : MapFrameResult s directories directory virtual physicalFrame isWriteable isUser answer
      t) (structures : PageStructures s directories) (notKernel : directory ≠ s.kernelDirectory)
    (high : ¬ KernelSlot (directoryIndex virtual)) : RoomTaken s t 1 := by
  have more : ∀ {t}, RoomTaken s t 0 → RoomTaken s t 1 := fun taken =>
    ⟨taken.pages.trans (Nat.le_succ _), taken.charge.trans (Nat.le_succ _)⟩
  cases result with
  | failed _ newPage => exact more (.of_noPage newPage)
  | entered _ changed => exact more (.of_keeps (changed.keepsPages structures notKernel high))
  | created _ made changed => exact .of_takes (made.takesPage structures notKernel high changed)

/-! ## One code page -/

namespace CodePageResult

variable {answer : Bool}
  (result : CodePageResult s directories directory entryPoint size isUser p answer t)
  (before : Sound start s directories) (notKernel : directory ≠ s.kernelDirectory)
  (high : ¬ KernelSlot (directoryIndex (codePage p)))

include result before notKernel high

theorem extended : Extends s t directories directory := by
  cases result with
  | failed _ newPage => exact newPage.extended before.structures directory
  | mapped least newPage written _ used mapResult _ changed =>
      have made := before.newPage (.mapped least newPage)
      have unlinked := newPage.not_linked before.structures
      have filled := made.written written unlinked
      have read := filled.windowUsed used
      have toMade := NewPageResult.extended (.mapped least newPage) before.structures directory
      have toFilled := toMade.written written newPage.least.1 unlinked before.kernel
      have toRead := toFilled.trans (used.extended filled.structures directory)
      have readNotKernel := before.notKernel read notKernel
      have toEntered := toRead.trans (mapResult.extended read.structures readNotKernel high)
      refine toEntered.freed ?_ before.kernel least.1.2 (not_kernelSlot least.1.1)
      rw [toEntered.kernelDirectory]
      exact changed

/-- A round that gets its page gives it back, and keeps one for a table at most. -/
theorem roomTaken (isMapped : answer = true) :
    (kernelPages t).ncard ≤ (kernelPages s).ncard + 1 ∧ charge t ≤ charge s := by
  cases result with
  | failed => cases isMapped
  | @mapped made filled read entered _ window code table _ least newPage written _ used mapResult
      _ changed =>
      have madeSound := before.newPage (.mapped least newPage)
      have unlinked := newPage.not_linked before.structures
      have filledSound := madeSound.written written unlinked
      have readSound := filledSound.windowUsed used
      have readNotKernel := before.notKernel readSound notKernel
      have toRead := ((RoomTaken.of_takes (newPage.takesPage before.structures least)).trans
        (.of_keeps (written.keepsPages madeSound.structures unlinked))).trans
          (.of_keeps (used.keepsPages filledSound.structures))
      have toEntered := toRead.trans
        (mapResult.roomTaken readSound.structures readNotKernel high)
      -- The page is still mapped before it is given back.
      have enteredSound := readSound.mapFrame mapResult high
      have enteredDirectory : entered.kernelDirectory = s.kernelDirectory := by
        rw [enteredSound.low.kernelDirectory, ← before.low.kernelDirectory]
      have windowMade : Addresses made window code := ⟨newPage.sees, not_windowPage least.1.1⟩
      have windowEntered := mapResult.addresses_of_ne readSound.structures readNotKernel high
        (used.addresses filledSound.structures
          (written.addresses madeSound.structures unlinked windowMade))
      have mapped : walk entered.memory entered.kernelDirectory window ≠ none := by
        intro none
        have sees := windowEntered.sees
        rw [Sees, Arch.translate, none] at sees
        cases sees
      rw [← enteredDirectory] at changed
      have gives := changed.givesPage enteredSound.structures
      have candidate := (pageAddress_indices least.1.1).2
      have pages := gives.kernelPages_card candidate mapped
      have charges := gives.charge_le candidate mapped
      have pagesBefore := toEntered.pages
      have chargesBefore := toEntered.charge
      exact ⟨by omega, by omega⟩

/-- A round that gets its page places it, unless no frame is left. -/
theorem placed (isMapped : answer = true) (member : directory ∈ directories)
    (left : PagesLeft s 2) :
    (∀ frame, ¬ t.frames.Free frame) ∨
      ∃ code, FramePlaced s t directories directory (codePage p) isUser code ∧
        ∀ bytes, ImageAt s directories entryPoint size bytes →
          FrameHolds t code (codeBytes bytes size p) := by
  have extended := result.extended before notKernel high
  cases result with
  | failed => cases isMapped
  | @mapped made filled read entered _ window code table answer least newPage written holds used
      mapResult _ changed =>
      have madeSound := before.newPage (.mapped least newPage)
      have unlinked := newPage.not_linked before.structures
      have filledSound := madeSound.written written unlinked
      have readSound := filledSound.windowUsed used
      have readNotKernel := before.notKernel readSound notKernel
      have readKernel : read.kernelDirectory = s.kernelDirectory := by
        rw [readSound.low.kernelDirectory, ← before.low.kernelDirectory]
      -- Up to the mapping the address space is not worked on.
      have toMade : ∀ other, Extends s made directories other :=
        NewPageResult.extended (.mapped least newPage) before.structures
      have toRead : ∀ other, Extends s read directories other := fun other =>
        ((toMade other).written written newPage.least.1 unlinked before.kernel).trans
          (used.extended filledSound.structures other)
      cases answer with
      | false =>
          left
          cases mapResult with
          | failed absent noPage =>
              cases noPage with
              | full mapped =>
                  have room : PagesLeft made 1 :=
                    (RoomTaken.of_takes (newPage.takesPage before.structures least)).pagesLeft left
                  have readLeft : PagesLeft read 1 :=
                    ((RoomTaken.of_keeps (written.keepsPages madeSound.structures unlinked)).trans
                      (.of_keeps (used.keepsPages filledSound.structures))).pagesLeft room
                  exact absurd mapped readLeft.not_full
              | exhausted noFrame =>
                  rw [changed.frames]
                  exact noFrame.exhausted
              | mapped least => exact absurd least.1.1.2.1 (by decide)
      | true =>
          right
          have page := mapResult.pageMapped member readNotKernel
          have entering := mapResult.extended readSound.structures readNotKernel high
          have settledFilled : Settled filled directories code := by
            refine ⟨?_, fun linked => unlinked ((written.linked unlinked).mp linked)⟩
            rw [written.frames]
            exact fun free => ((newPage.free code).mp free).2.1 rfl
          have fromFilled : Extends filled read directories directory :=
            used.extended filledSound.structures directory
          have settledEntered := entering.settled (fromFilled.settled settledFilled)
          have settled : Settled t directories code := by
            refine ⟨?_, fun linked => settledEntered.unlinked ((changed.tables.linked code).mp linked)⟩
            rw [changed.frames]
            exact settledEntered.used
          refine ⟨code, .of_pageMapped ((toRead _).spaceKept member notKernel) page ⟨?_, ?_⟩ high
            extended newPage.least.1 settled, fun bytes image => ?_⟩
          · exact fun slot => changed.tables.entries _ member slot
          · exact fun slot index _ => changed.tables.walks _ member slot index
              (.inr ⟨notKernel, not_kernelSlot least.1.1⟩)
          · have inEntered := ((holds bytes (image.readsByte (toMade directory)
              newPage.least.1)).extended fromFilled settledFilled).extended entering
                (fromFilled.settled settledFilled)
            intro offset inside
            rw [← inEntered offset inside]
            exact byte_of_tables (changed.tables.unlinked code settledEntered.unlinked)
              (Nat.le_add_right _ _) (Nat.add_lt_add_left inside _)

end CodePageResult

/-! ## The loop -/

namespace CodePages

variable {rounds : List Nat} {answer : Bool}

theorem extended
    (pages : CodePages directories directory entryPoint size isUser s rounds answer t)
    (sound : Sound start s directories) (notKernel : directory ≠ s.kernelDirectory)
    (high : HighRounds rounds) : Extends s t directories directory := by
  induction pages with
  | done => exact .refl _ _ _
  | failed result => exact result.extended sound notKernel (high _ List.mem_cons_self)
  | next result _ ih =>
      have highFirst := high _ List.mem_cons_self
      have next := result.sound sound highFirst
      exact (result.extended sound notKernel highFirst).trans (ih next
        (sound.notKernel next notKernel) fun q later => high q (List.mem_cons_of_mem _ later))

theorem charge_le (pages : CodePages directories directory entryPoint size isUser s rounds answer t)
    (isMapped : answer = true) (sound : Sound start s directories)
    (notKernel : directory ≠ s.kernelDirectory) (high : HighRounds rounds) :
    charge t ≤ charge s := by
  induction pages with
  | done => exact Nat.le_refl _
  | failed => cases isMapped
  | next result _ ih =>
      have highFirst := high _ List.mem_cons_self
      have next := result.sound sound highFirst
      exact (ih isMapped next (sound.notKernel next notKernel) fun q later =>
        high q (List.mem_cons_of_mem _ later)).trans
          (result.roomTaken sound notKernel highFirst rfl).2

/-- What holds before the loop, and is kept by every page that is placed, holds after the loop
if frames are left. -/
theorem keeps (pages : CodePages directories directory entryPoint size isUser s rounds answer t)
    (isMapped : answer = true) (inv : List Nat → Machine → Prop)
    (step : ∀ done p x y code, p ∈ rounds → Extends s x directories directory → inv done x →
      FramePlaced x y directories directory (codePage p) isUser code →
      (∀ bytes, ImageAt x directories entryPoint size bytes →
        FrameHolds y code (codeBytes bytes size p)) → inv (done ++ [p]) y)
    (sound : Sound start s directories) (member : directory ∈ directories)
    (notKernel : directory ≠ s.kernelDirectory) (high : HighRounds rounds)
    (room : PagesLeft s (rounds.length + 2)) (left : ∃ frame, t.frames.Free frame)
    (done : List Nat) (holds : inv done s) : inv (done ++ rounds) t := by
  induction pages generalizing done with
  | done =>
      rw [List.append_nil]
      exact holds
  | failed => cases isMapped
  | @next s x t p rest answer result later ih =>
      have highFirst := high p List.mem_cons_self
      have highRest : HighRounds rest := fun q other => high q (List.mem_cons_of_mem _ other)
      have next := result.sound sound highFirst
      have nextNotKernel := sound.notKernel next notKernel
      have extended := result.extended sound notKernel highFirst
      rw [List.length_cons] at room
      obtain ⟨frame, free⟩ := left
      rcases result.placed sound notKernel highFirst rfl member (room.mono (by omega)) with
        exhausted | ⟨code, placed, content⟩
      · exact absurd ((later.extended next nextNotKernel highRest).free frame free) (exhausted frame)
      · have roomAfter : PagesLeft x (rest.length + 2) := by
          have taken := (result.roomTaken sound notKernel highFirst rfl).1
          unfold PagesLeft at *
          omega
        have rounds := ih isMapped (fun done q x' y code isLater toX =>
            step done q x' y code (List.mem_cons_of_mem _ isLater) (extended.trans toX))
          next nextNotKernel highRest roomAfter ⟨frame, free⟩ (done ++ [p])
          (step done p s x code List.mem_cons_self (.refl _ _ _) holds placed content)
        rw [List.append_assoc] at rounds
        exact rounds

end CodePages

end KdbOS.Vmm
