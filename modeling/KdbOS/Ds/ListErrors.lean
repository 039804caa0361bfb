import KdbOS.Ds.ListRuns

/-! The error exits of `list_pop_head` and `list_pop_tail`. Both call `kstrncpy` with the
list's buffer as `src` and the text as `dest`, so that the buffer is copied onto the text. -/

set_option autoImplicit false

namespace KdbOS.Ds

open Library Klibc

def bytesOf (text : String) : List UInt8 := text.toList.map fun c => UInt8.ofNat c.toNat

/-- The two ends at which a list is popped. -/
inductive ListEnd where
  | head
  | tail
  deriving DecidableEq, Repr

def ListEnd.message : ListEnd → String
  | .head => "ERROR in list_pop_head: list is empty"
  | .tail => "ERROR in list_pop_tail: list is empty"

section

variable {Index Object : Type} [DecidableEq Index] [DecidableEq Object]

def listGetErrorCode (store : ListStore Index Object) (list : Index) : Nat :=
  (store.header list).errCode

def listGetErrMsg (store : ListStore Index Object) (list : Index) : Nat :=
  (store.header list).errMsg

/-- `list_pop_head` or `list_pop_tail`. -/
def ListEnd.pop (store : ListStore Index Object) (list : Index) :
    ListEnd → Option (Option (ListNode Index Object) × ListStore Index Object)
  | .head => listPopHead store list
  | .tail => listPopTail store list

/-- Where the text constant of the call lies. -/
def ListEnd.textAt (store : ListStore Index Object) : ListEnd → Nat
  | .head => store.popHeadText
  | .tail => store.popTailText

/-- The call returns NULL and reports the error in the list's own buffer; it writes nothing
but this buffer and the error code. -/
structure ReportsEmpty (store : ListStore Index Object) (list : Index) (side : ListEnd)
    (after : ListStore Index Object) : Prop where
  returnsNull : side.pop store list = some (none, after)
  links : after.links = store.links
  size : listGetSize after list = listGetSize store list
  others : ∀ other ≠ list, after.header other = store.header other
  errorCode : listGetErrorCode after list = 1
  buffer : listGetErrMsg after list = listGetErrMsg store list
  message : IsText after.bytes (listGetErrMsg after list) (bytesOf side.message)
  unwritten : ∀ address, address < listGetErrMsg store list ∨
    listGetErrMsg store list + maxErrLength ≤ address → after.bytes address = store.bytes address

/-- The list's buffer and the constant lie apart. -/
def BufferApart (store : ListStore Index Object) (list : Index) (side : ListEnd) : Prop :=
  side.textAt store + maxErrLength ≤ listGetErrMsg store list ∨
    listGetErrMsg store list + maxErrLength ≤ side.textAt store

variable {store after start : ListStore Index Object} {list : Index} {side : ListEnd}
variable {sequences : Sequences Index Object} {final : ListSystem Index Object}
variable {trace : List (Transition (ListSystem Index Object) (ListOp Index Object))}

theorem ListEnd.message_short (side : ListEnd) : (bytesOf side.message).length = 37 := by
  cases side with
  | head => decide
  | tail => decide

theorem ListEnd.message_nonzero (side : ListEnd) : ∀ byte ∈ bytesOf side.message, byte ≠ 0 := by
  have all : (bytesOf side.message).all (· != 0) = true := by
    cases side with
    | head => rfl
    | tail => rfl
  exact fun byte member => bne_iff_ne.mp (List.all_eq_true.mp all byte member)

theorem Chains.pop_empty (chains : Chains store sequences) (isEmpty : sequences list = some [])
    (side : ListEnd) :
    side.pop store list = some (none, store.popError list (side.textAt store)) := by
  cases side with
  | head => exact chains.popHead_empty isEmpty
  | tail => exact chains.popTail_empty isEmpty

omit [DecidableEq Object] in
theorem popError_header (text : Nat) :
    (store.popError list text).header =
      Function.update store.header list { store.header list with errCode := 1 } := rfl

omit [DecidableEq Object] in
theorem popError_bytes (text : Nat) :
    (store.popError list text).bytes =
      kstrncpy (listGetErrMsg store list) text maxErrLength store.bytes := by
  simp [ListStore.popError, ListStore.setHeader, listGetErrMsg]

/-- Only the bytes decide about the report; they are right only where the buffer holds the
message already. -/
theorem reportsEmpty_iff (chains : Chains store sequences) (isEmpty : sequences list = some [])
    (apart : BufferApart store list side) :
    (∃ after, ReportsEmpty store list side after) ↔
      IsText store.bytes (listGetErrMsg store list) (bytesOf side.message) ∧
        IsText store.bytes (side.textAt store) (bytesOf side.message) := by
  have pops := chains.pop_empty isEmpty side
  have short := side.message_short
  unfold BufferApart maxErrLength at apart
  have header : (store.popError list (side.textAt store)).header list =
      { store.header list with errCode := 1 } := Function.update_self ..
  have buffer : listGetErrMsg (store.popError list (side.textAt store)) list =
      listGetErrMsg store list := by
    rw [listGetErrMsg, header, listGetErrMsg]
  have copies : IsText store.bytes (listGetErrMsg store list) (bytesOf side.message) →
      IsText (store.popError list (side.textAt store)).bytes (side.textAt store)
        (bytesOf side.message) ∧
      ∀ address, address < side.textAt store ∨
        side.textAt store + (bytesOf side.message).length < address →
        (store.popError list (side.textAt store)).bytes address = store.bytes address := by
    intro before
    rw [popError_bytes]
    exact kstrncpy_text before side.message_nonzero (by unfold maxErrLength; omega) (by omega)
  constructor
  · rintro ⟨after, reports⟩
    have same := reports.returnsNull.symm.trans pops
    obtain ⟨_, rfl⟩ := Prod.mk.inj (Option.some.inj same)
    have message := reports.message
    rw [buffer] at message
    have before : IsText store.bytes (listGetErrMsg store list) (bytesOf side.message) := by
      refine message.congr fun i inside => ?_
      rw [popError_bytes]
      exact (kstrncpy_outside (by decide) (by unfold maxErrLength; omega)).symm
    refine ⟨before, (copies before).1.congr fun i inside => ?_⟩
    exact (reports.unwritten _ (by unfold maxErrLength; omega)).symm
  · rintro ⟨before, constant⟩
    obtain ⟨copied, outside⟩ := copies before
    have same : (store.popError list (side.textAt store)).bytes = store.bytes := by
      funext address
      by_cases inside : side.textAt store ≤ address ∧ address ≤ side.textAt store + 37
      · obtain ⟨i, rfl⟩ := Nat.exists_eq_add_of_le inside.1
        exact copied.eq constant (by omega)
      · exact outside address (by omega)
    refine ⟨_, pops, rfl, ?_, fun other different => Function.update_of_ne different _ _, ?_, buffer,
      ?_, fun address _ => by rw [same]⟩
    · rw [listGetSize, header, listGetSize]
    · rw [listGetErrorCode, header]
    · rw [same, buffer]
      exact before

/-- In every run the pop of an empty list, whatever its buffer holds, reports the error as
it should if and only if the buffer and the constant both hold the message before. -/
theorem pop_empty_reports_iff (run : ListRun ⟨start, fun _ => none⟩ trace final)
    (allowed : ∀ transition ∈ trace, transition.label.Allowed transition.before.sequences)
    (isEmpty : final.sequences list = some []) (bytes : Memory)
    (apart : BufferApart final.store list side) :
    (∃ after, ReportsEmpty { final.store with bytes := bytes } list side after) ↔
      IsText bytes (listGetErrMsg final.store list) (bytesOf side.message) ∧
        IsText bytes (side.textAt final.store) (bytesOf side.message) := by
  have chains := (ListRun.chains run allowed).1
  have refilled : Chains { final.store with bytes := bytes } final.sequences :=
    ⟨chains.ring, chains.unique, chains.apart, chains.size⟩
  have sameText : side.textAt { final.store with bytes := bytes } = side.textAt final.store := by
    cases side with
    | head => rfl
    | tail => rfl
  have apartThere : BufferApart { final.store with bytes := bytes } list side := by
    unfold BufferApart
    rw [sameText]
    exact apart
  have iff := reportsEmpty_iff refilled isEmpty apartThere
  rw [sameText] at iff
  exact iff

end

/-! ## One empty list -/

/-- Memory with a text at one address, and zeros behind it and elsewhere. -/
def textAt (address : Nat) (text : List UInt8) (memory : Memory) : Memory :=
  fun at_ => if address ≤ at_ ∧ at_ ≤ address + text.length then text.getD (at_ - address) 0
    else memory at_

theorem textAt_isText (address : Nat) (text : List UInt8) (memory : Memory) :
    IsText (textAt address text memory) address text := by
  have offset : ∀ i, address + i - address = i := fun i => Nat.add_sub_cancel_left ..
  refine ⟨fun i inside => ?_, ?_⟩
  · rw [textAt, if_pos (by omega), offset, List.getD_eq_getElem _ _ inside]
  · rw [textAt, if_pos (by omega), offset, List.getD_eq_default _ _ (Nat.le_refl _)]

/-- The constants as the kernel image holds them, and a buffer of zeros. -/
def sampleStore : ListStore Bool Nat where
  links := fun _ => Link.null
  header := fun _ => ⟨0, 0, 0⟩
  bytes := textAt 4096 (bytesOf ListEnd.head.message) fun _ => 0
  popHeadText := 4096
  popTailText := 5120
  pushed := []

theorem sampleList_run :
    ∃ trace, ListRun ⟨sampleStore, fun _ => none⟩ trace
        ⟨listInit sampleStore true 8192, Function.update (fun _ => none) true (some [])⟩ ∧
      ∀ transition ∈ trace, transition.label.Allowed transition.before.sequences := by
  have made := (.call rfl : ListStep ⟨sampleStore, fun _ => none⟩ (.listInit true 8192)
    ⟨listInit sampleStore true 8192, Function.update (fun _ => none) true (some [])⟩)
  refine ⟨_, Run.start.step made, fun transition member => ?_⟩
  obtain rfl := List.mem_singleton.mp member
  exact (rfl : (fun _ => none : Sequences Bool Nat) true = none)

theorem sampleList_apart : BufferApart (listInit sampleStore true 8192) true .head := by
  unfold BufferApart
  decide

/-- With the message in the buffer beforehand the report is right. -/
theorem pop_empty_reports_sample :
    ∃ (bytes : Memory) (after : ListStore Bool Nat),
      ReportsEmpty { listInit sampleStore true 8192 with bytes := bytes } true .head after := by
  obtain ⟨trace, run, allowed⟩ := sampleList_run
  have constant := textAt_isText 4096 (bytesOf ListEnd.head.message) fun _ => 0
  refine ⟨textAt 8192 (bytesOf ListEnd.head.message) sampleStore.bytes,
    (pop_empty_reports_iff run allowed rfl _ sampleList_apart).mpr ⟨textAt_isText .., ?_⟩⟩
  refine constant.congr fun i inside => ?_
  have short := ListEnd.head.message_short
  exact if_neg (by omega)

/-- With a zeroed buffer the constant is cut short and the buffer stays empty. -/
theorem pop_empty_reports_fails :
    ¬ ∀ (start : ListStore Bool Nat) (final : ListSystem Bool Nat)
        (trace : List (Transition (ListSystem Bool Nat) (ListOp Bool Nat))) (list : Bool)
        (side : ListEnd),
      ListRun ⟨start, fun _ => none⟩ trace final →
      (∀ transition ∈ trace, transition.label.Allowed transition.before.sequences) →
      final.sequences list = some [] → BufferApart final.store list side →
      IsText final.store.bytes (side.textAt final.store) (bytesOf side.message) →
      ∃ after, ReportsEmpty final.store list side after := by
  intro reports
  obtain ⟨trace, run, allowed⟩ := sampleList_run
  have chains := (ListRun.chains run allowed).1
  have constant : IsText (listInit sampleStore true 8192).bytes 4096 (bytesOf ListEnd.head.message) :=
    textAt_isText ..
  have report := reports _ _ _ true .head run allowed rfl sampleList_apart constant
  have buffer := ((reportsEmpty_iff chains rfl sampleList_apart).mp report).1
  have first := buffer.bytes 0 (by decide)
  exact absurd first (by decide)

end KdbOS.Ds
