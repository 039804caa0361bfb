import KdbOS.Arch.Isr
import KdbOS.Library.PagedWords
import Mathlib.Tactic.IntervalCases

/-! `gdt.c` and `idt.c`: the two descriptor tables, as their packed structures lie in memory
and as the processor reads them there. -/

set_option autoImplicit false

namespace KdbOS.Arch

open Library

def gdtEntries : Nat := 5

def idtEntries : Nat := 256

structure GdtDescriptor where
  limitLow : UInt16
  baseLow : UInt16
  baseMiddle : UInt8
  access : UInt8
  granularity : UInt8
  baseHigh : UInt8
  deriving DecidableEq, Repr

structure IdtDescriptor where
  baseLow : UInt16
  selector : UInt16
  always0 : UInt8
  flags : UInt8
  baseHigh : UInt16
  deriving DecidableEq, Repr

/-- `GdtRegister` and `IdtRegister`. -/
structure DescriptorRegister where
  limit : UInt16
  base : UInt32
  deriving DecidableEq, Repr

def halfWordBytes (value : UInt16) : List UInt8 := [value.toUInt8, (value >>> 8).toUInt8]

def GdtDescriptor.bytes (descriptor : GdtDescriptor) : List UInt8 :=
  halfWordBytes descriptor.limitLow ++ halfWordBytes descriptor.baseLow ++
    [descriptor.baseMiddle, descriptor.access, descriptor.granularity, descriptor.baseHigh]

def IdtDescriptor.bytes (descriptor : IdtDescriptor) : List UInt8 :=
  halfWordBytes descriptor.baseLow ++ halfWordBytes descriptor.selector ++
    [descriptor.always0, descriptor.flags] ++ halfWordBytes descriptor.baseHigh

abbrev Gdt := Vector GdtDescriptor gdtEntries

abbrev Idt := Vector IdtDescriptor idtEntries

/-- The fields that `gdt_set_gate` assigns. -/
def segmentDescriptor (base limit : UInt32) (access gran : UInt8) : GdtDescriptor where
  baseLow := (base &&& 0xFFFF).toUInt16
  baseMiddle := ((base >>> 16) &&& 0xFF).toUInt8
  baseHigh := ((base >>> 24) &&& 0xFF).toUInt8
  limitLow := (limit &&& 0xFFFF).toUInt16
  granularity := ((limit >>> 16) &&& 0x0F).toUInt8 ||| gran &&& 0xF0
  access := access

def gdtSetGate (num : Nat) (base limit : UInt32) (access gran : UInt8) (gdt : Gdt) : Option Gdt :=
  storeEntry gdt num (segmentDescriptor base limit access gran)

/-- What is loaded into GDTR, and the table that is at `address` by then. -/
def initGdt (address : UInt32) (gdt : Gdt) : Option (DescriptorRegister × Gdt) := do
  let gdtPointer : DescriptorRegister := ⟨UInt16.ofNat (8 * gdtEntries - 1), address⟩
  let gdt ← gdtSetGate 0 0 0 0 0 gdt
  let gdt ← gdtSetGate 1 0 0xFFFFFFFF 0x9A 0xCF gdt
  let gdt ← gdtSetGate 2 0 0xFFFFFFFF 0x92 0xCF gdt
  let gdt ← gdtSetGate 3 0 0xFFFFFFFF 0xFA 0xCF gdt
  let gdt ← gdtSetGate 4 0 0xFFFFFFFF 0xF2 0xCF gdt
  return (gdtPointer, gdt)

/-- The fields that `idt_set_gate` assigns. -/
def gateDescriptor (base : UInt32) (selector : UInt16) (flags : UInt8) : IdtDescriptor where
  baseLow := (base &&& 0xFFFF).toUInt16
  baseHigh := ((base >>> 16) &&& 0xFFFF).toUInt16
  selector := selector
  always0 := 0
  flags := flags

def idtSetGate (num : UInt8) (base : UInt32) (selector : UInt16) (flags : UInt8) (idt : Idt) :
    Option Idt :=
  storeEntry idt num.toNat (gateDescriptor base selector flags)

/-- What is loaded into IDTR, and the table that is at `address` by then. -/
def initIdt (address : UInt32) (idtStubTable : Vector UInt32 idtEntries) (idt : Idt) :
    Option (DescriptorRegister × Idt) := do
  let idtPointer : DescriptorRegister := ⟨UInt16.ofNat (8 * idtEntries - 1), address⟩
  let idt ← (List.range idtEntries).foldlM (fun idt i => do
    let stub ← idtStubTable[i]?
    idtSetGate (UInt8.ofNat i) stub 0x08 0x8E idt) idt
  return (idtPointer, idt)

/-! ## What the processor reads -/

/-- A segment descriptor. The limit counts bytes, or pages where the flags say so. -/
structure Segment where
  base : Nat
  limit : Nat
  access : Nat
  flags : Nat
  deriving DecidableEq, Repr

namespace Segment

/-- The last offset inside the segment. -/
def lastOffset (segment : Segment) : Nat :=
  if segment.flags / 8 % 2 = 1 then segment.limit * 4096 + 4095 else segment.limit

def present (segment : Segment) : Bool := segment.access / 128 % 2 = 1

def privilege (segment : Segment) : Nat := segment.access / 32 % 4

/-- Not a system segment. -/
def ordinary (segment : Segment) : Bool := segment.access / 16 % 2 = 1

def executable (segment : Segment) : Bool := segment.access / 8 % 2 = 1

/-- Of code: what runs in it keeps the privilege of its caller. -/
def conforming (segment : Segment) : Bool := segment.access / 4 % 2 = 1

/-- Of code. Data can always be read. -/
def readable (segment : Segment) : Bool := segment.access / 2 % 2 = 1

end Segment

/-- A gate descriptor. -/
structure Gate where
  offset : Nat
  selector : Nat
  flags : Nat
  deriving DecidableEq, Repr

namespace Gate

def present (gate : Gate) : Bool := gate.flags / 128 % 2 = 1

/-- An interrupt gate to 32-bit code: interrupts are disabled on the way in. -/
def interrupt32 (gate : Gate) : Bool := gate.flags % 32 = 14

end Gate

def decodeSegment : List UInt8 → Option Segment
  | [limit0, limit1, base0, base1, base2, access, granularity, base3] =>
      some {
        base := base0.toNat + base1.toNat * 256 + base2.toNat * 65536 + base3.toNat * 16777216
        limit := limit0.toNat + limit1.toNat * 256 + granularity.toNat % 16 * 65536
        access := access.toNat
        flags := granularity.toNat / 16 }
  | _ => none

def decodeGate : List UInt8 → Option Gate
  | [offset0, offset1, selector0, selector1, _, flags, offset2, offset3] =>
      some {
        offset := offset0.toNat + offset1.toNat * 256 + offset2.toNat * 65536 +
          offset3.toNat * 16777216
        selector := selector0.toNat + selector1.toNat * 256
        flags := flags.toNat }
  | _ => none

/-- The eight bytes of a descriptor, which have to lie inside the table. -/
def readDescriptor (byte : UInt32 → Option UInt8) (register : DescriptorRegister) (index : Nat) :
    Option (List UInt8) :=
  if 8 * index + 7 ≤ register.limit.toNat then
    (List.range 8).mapM fun offset => byte (register.base + UInt32.ofNat (8 * index + offset))
  else none

/-- The segment that a selector chooses. The null selector chooses none, and there is no local
table. -/
def readSegment (byte : UInt32 → Option UInt8) (gdtr : DescriptorRegister) (selector : Nat) :
    Option Segment :=
  if selector / 8 = 0 ∨ selector / 4 % 2 = 1 then none
  else (readDescriptor byte gdtr (selector / 8)).bind decodeSegment

def readGate (byte : UInt32 → Option UInt8) (idtr : DescriptorRegister) (vector : Nat) :
    Option Gate :=
  (readDescriptor byte idtr vector).bind decodeGate

/-- Packed structures of eight bytes lie one after the other. -/
def PackedAt (byte : UInt32 → Option UInt8) (base : UInt32) (structures : List (List UInt8)) :
    Prop :=
  ∀ (index : Nat) (bytes : List UInt8), structures[index]? = some bytes →
    bytes.length = 8 ∧ ∀ (offset : Nat) (value : UInt8), bytes[offset]? = some value →
      byte (base + UInt32.ofNat (8 * index + offset)) = some value

variable {byte : UInt32 → Option UInt8} {structures : List (List UInt8)}

private theorem mapM_range {α : Type} {read : Nat → Option α} {items : List α}
    (each : ∀ index item, items[index]? = some item → read index = some item) :
    (List.range items.length).mapM read = some items := by
  induction items using List.reverseRecOn with
  | nil => rfl
  | append_singleton items last ih =>
      have earlier : ∀ index item, items[index]? = some item → read index = some item := by
        intro index item found
        obtain ⟨inside, _⟩ := List.getElem?_eq_some_iff.mp found
        exact each index item ((List.getElem?_append_left inside).trans found)
      have atEnd : read items.length = some last := each _ _ List.getElem?_concat_length
      rw [List.length_append, List.length_singleton, List.range_succ, List.mapM_append,
        ih earlier]
      simp [atEnd]

theorem readDescriptor_of_packed {register : DescriptorRegister} {index : Nat} {bytes : List UInt8}
    (packed : PackedAt byte register.base structures) (found : structures[index]? = some bytes)
    (inside : 8 * index + 7 ≤ register.limit.toNat) :
    readDescriptor byte register index = some bytes := by
  obtain ⟨length, each⟩ := packed index bytes found
  have read := mapM_range each
  rw [length] at read
  rw [readDescriptor, if_pos inside, read]

/-! ## Descriptors that are set -/

private theorem halfWord_toNat (value : UInt16) :
    value.toUInt8.toNat + (value >>> 8).toUInt8.toNat * 256 = value.toNat := by
  have bounded := value.toNat_lt
  have eight : (8 : UInt16).toNat % 16 = 8 := rfl
  rw [UInt16.toNat_toUInt8, UInt16.toNat_toUInt8, UInt16.toNat_shiftRight, eight,
    Nat.shiftRight_eq_div_pow]
  omega

private theorem lowHalf_toNat (word : UInt32) :
    (word &&& 0xFFFF).toUInt16.toNat = word.toNat % 65536 := by
  have mask : (0xFFFF : UInt32).toNat = 2 ^ 16 - 1 := rfl
  rw [UInt32.toNat_toUInt16, UInt32.toNat_and, mask, Nat.and_two_pow_sub_one_eq_mod]
  omega

private theorem highHalf_toNat (word : UInt32) :
    ((word >>> 16) &&& 0xFFFF).toUInt16.toNat = word.toNat / 65536 := by
  have bounded := word.toNat_lt
  have sixteen : (16 : UInt32).toNat % 32 = 16 := rfl
  rw [lowHalf_toNat, UInt32.toNat_shiftRight, sixteen, Nat.shiftRight_eq_div_pow]
  omega

private theorem byteOf_toNat (word shift : UInt32) :
    ((word >>> shift) &&& 0xFF).toUInt8.toNat = word.toNat / 2 ^ (shift.toNat % 32) % 256 := by
  have mask : (0xFF : UInt32).toNat = 2 ^ 8 - 1 := rfl
  rw [UInt32.toNat_toUInt8, UInt32.toNat_and, mask, Nat.and_two_pow_sub_one_eq_mod,
    UInt32.toNat_shiftRight, Nat.shiftRight_eq_div_pow, Nat.mod_mod]

private theorem granularity_toNat (limit : UInt32) (gran : UInt8) :
    (((limit >>> 16) &&& 0x0F).toUInt8 ||| gran &&& 0xF0).toNat =
      limit.toNat / 65536 % 16 + gran.toNat / 16 * 16 := by
  have low : ((limit >>> 16) &&& 0x0F).toUInt8.toNat = limit.toNat / 65536 % 16 := by
    have mask : (0x0F : UInt32).toNat = 2 ^ 4 - 1 := rfl
    have sixteen : (16 : UInt32).toNat % 32 = 16 := rfl
    rw [UInt32.toNat_toUInt8, UInt32.toNat_and, mask, Nat.and_two_pow_sub_one_eq_mod,
      UInt32.toNat_shiftRight, sixteen, Nat.shiftRight_eq_div_pow]
    omega
  have high : (gran &&& 0xF0).toNat = 2 ^ 4 * (gran.toNat / 16) := by
    have all : ∀ value : Fin 256, (UInt8.ofFin value &&& 0xF0).toNat =
        2 ^ 4 * ((UInt8.ofFin value).toNat / 16) := by decide +kernel
    exact all gran.toFin
  have small : limit.toNat / 65536 % 16 < 2 ^ 4 := Nat.mod_lt _ (by decide)
  rw [UInt8.toNat_or, low, high, Nat.or_comm, ← Nat.two_pow_add_eq_or_of_lt small]
  omega

theorem decodeSegment_segmentDescriptor (base limit : UInt32) (access gran : UInt8) :
    decodeSegment (segmentDescriptor base limit access gran).bytes =
      some ⟨base.toNat, limit.toNat % 1048576, access.toNat, gran.toNat / 16⟩ := by
  have bounded := base.toNat_lt
  have granBounded := gran.toNat_lt
  have lowBase := (halfWord_toNat _).trans (lowHalf_toNat base)
  have lowLimit := (halfWord_toNat _).trans (lowHalf_toNat limit)
  have middle : ((base >>> 16) &&& 0xFF).toUInt8.toNat = base.toNat / 65536 % 256 :=
    byteOf_toNat base 16
  have high : ((base >>> 24) &&& 0xFF).toUInt8.toNat = base.toNat / 16777216 % 256 :=
    byteOf_toNat base 24
  simp only [GdtDescriptor.bytes, segmentDescriptor, halfWordBytes, List.cons_append,
    List.nil_append, decodeSegment, lowBase, lowLimit, middle, high, granularity_toNat]
  congr 2
  · omega
  · omega
  · omega

theorem decodeGate_gateDescriptor (base : UInt32) (selector : UInt16) (flags : UInt8) :
    decodeGate (gateDescriptor base selector flags).bytes =
      some ⟨base.toNat, selector.toNat, flags.toNat⟩ := by
  have low := (halfWord_toNat _).trans (lowHalf_toNat base)
  have high := (halfWord_toNat _).trans (highHalf_toNat base)
  simp only [IdtDescriptor.bytes, gateDescriptor, halfWordBytes, List.cons_append,
    List.nil_append, decodeGate, low, halfWord_toNat]
  congr 2
  omega

/-! ## The tables in force -/

/-- A segment of 4 GiB from address 0 on. -/
def flatSegment (access : Nat) : Segment := ⟨0, 0xFFFFF, access, 0xC⟩

/-- Access bytes: code and data of the kernel, code and data of user processes. -/
def bootAccess : List Nat := [0x9A, 0x92, 0xFA, 0xF2]

/-- The segments of `init_gdt`. -/
def bootSegment (selector : Nat) : Option Segment :=
  if selector / 8 = 0 ∨ selector / 4 % 2 = 1 then none
  else bootAccess[selector / 8 - 1]?.map flatSegment

/-- The gates of `init_idt`. -/
def bootGate (stub : UInt32) : Gate := ⟨stub.toNat, 0x08, 0x8E⟩

/-- The processor finds every segment and every gate as boot made them. -/
structure InForce (segments : Nat → Option Segment) (gates : Nat → Option Gate)
    (idtStubTable : Vector UInt32 idtEntries) : Prop where
  segments : ∀ selector, segments selector = bootSegment selector
  gates : ∀ vector, gates vector = idtStubTable[vector]?.map bootGate

variable {gdt gdtAfter : Gdt} {idt idtAfter : Idt} {gdtr idtr : DescriptorRegister}
variable {address gdtAddress idtAddress : UInt32} {idtStubTable : Vector UInt32 idtEntries}

/-- The five entries of `init_gdt`, the null descriptor first. -/
def bootDescriptors : List GdtDescriptor :=
  [segmentDescriptor 0 0 0 0, segmentDescriptor 0 0xFFFFFFFF 0x9A 0xCF,
    segmentDescriptor 0 0xFFFFFFFF 0x92 0xCF, segmentDescriptor 0 0xFFFFFFFF 0xFA 0xCF,
    segmentDescriptor 0 0xFFFFFFFF 0xF2 0xCF]

theorem initGdt_eq (done : initGdt address gdt = some (gdtr, gdtAfter)) :
    gdtr = ⟨39, address⟩ ∧ ∀ index : Nat, gdtAfter[index]? = bootDescriptors[index]? := by
  unfold initGdt at done
  obtain ⟨first, isFirst, done⟩ := Option.bind_eq_some_iff.mp done
  obtain ⟨second, isSecond, done⟩ := Option.bind_eq_some_iff.mp done
  obtain ⟨third, isThird, done⟩ := Option.bind_eq_some_iff.mp done
  obtain ⟨fourth, isFourth, done⟩ := Option.bind_eq_some_iff.mp done
  obtain ⟨fifth, isFifth, done⟩ := Option.bind_eq_some_iff.mp done
  obtain ⟨rfl, rfl⟩ := Prod.mk.inj (Option.some.inj done)
  refine ⟨rfl, fun index => ?_⟩
  have last : fifth[index]? = loadEntry fifth index := rfl
  rw [last, loadEntry_storeEntry isFifth, loadEntry_storeEntry isFourth, loadEntry_storeEntry isThird,
    loadEntry_storeEntry isSecond, loadEntry_storeEntry isFirst]
  by_cases inside : index < 5
  · interval_cases index <;> rfl
  · have outside : loadEntry gdt index = none :=
      Option.not_isSome_iff_eq_none.mp fun found => inside (loadEntry_isSome.mp found)
    rw [List.getElem?_eq_none (Nat.not_lt.mp inside), outside]
    simp only [show 0 ≠ index by omega, show 1 ≠ index by omega, show 2 ≠ index by omega,
      show 3 ≠ index by omega, show 4 ≠ index by omega, if_false]

private theorem setGates (idt : Idt) (idtStubTable : Vector UInt32 idtEntries) {count : Nat}
    (few : count ≤ idtEntries) :
    ∃ after, (List.range count).foldlM (fun idt i => do
        let stub ← idtStubTable[i]?
        idtSetGate (UInt8.ofNat i) stub 0x08 0x8E idt) idt = some after ∧
      ∀ index < count, after[index]? = idtStubTable[index]?.map (gateDescriptor · 0x08 0x8E) := by
  induction count with
  | zero => exact ⟨idt, rfl, fun _ none => absurd none (Nat.not_lt_zero _)⟩
  | succ count ih =>
      obtain ⟨before, earlier, known⟩ := ih (Nat.le_of_succ_le few)
      have inside : count < idtEntries := few
      have stub : idtStubTable[count]? = some idtStubTable[count] := Vector.getElem?_eq_getElem inside
      have number : count % 256 = count := Nat.mod_eq_of_lt few
      obtain ⟨after, stored⟩ := Option.isSome_iff_exists.mp ((storeEntry_isSome before
        (gateDescriptor idtStubTable[count] 0x08 0x8E)).mpr inside)
      refine ⟨after, ?_, fun index below => ?_⟩
      · rw [List.range_succ, List.foldlM_append, earlier]
        simp [stub, idtSetGate, number, stored]
      · have loaded : after[index]? = loadEntry after index := rfl
        rw [loaded, loadEntry_storeEntry stored]
        by_cases last : count = index
        · rw [if_pos last, ← last, stub]
          rfl
        · rw [if_neg last]
          exact known index (by omega)

theorem initIdt_eq (done : initIdt address idtStubTable idt = some (idtr, idtAfter)) :
    idtr = ⟨2047, address⟩ ∧
      ∀ index : Nat, idtAfter[index]? = idtStubTable[index]?.map (gateDescriptor · 0x08 0x8E) := by
  obtain ⟨after, sets, known⟩ := setGates idt idtStubTable (Nat.le_refl idtEntries)
  unfold initIdt at done
  obtain ⟨table, same, done⟩ := Option.bind_eq_some_iff.mp done
  obtain rfl := Option.some.inj (sets.symm.trans same)
  obtain ⟨rfl, rfl⟩ := Prod.mk.inj (Option.some.inj done)
  refine ⟨rfl, fun index => ?_⟩
  by_cases inside : index < idtEntries
  · exact known index inside
  · have outside := Nat.not_lt.mp inside
    rw [Vector.getElem?_eq_none outside, Vector.getElem?_eq_none outside]
    rfl

theorem readSegment_boot (packed : PackedAt byte address (gdt.toList.map GdtDescriptor.bytes))
    (entries : ∀ index : Nat, gdt[index]? = bootDescriptors[index]?) (selector : Nat) :
    readSegment byte ⟨39, address⟩ selector = bootSegment selector := by
  unfold readSegment bootSegment
  by_cases chosen : selector / 8 = 0 ∨ selector / 4 % 2 = 1
  · rw [if_pos chosen, if_pos chosen]
  rw [if_neg chosen, if_neg chosen]
  generalize selector / 8 = index at chosen
  by_cases inside : index < 5
  · obtain ⟨descriptor, found⟩ : ∃ descriptor, bootDescriptors[index]? = some descriptor :=
      ⟨_, List.getElem?_eq_getElem inside⟩
    have bytes : (gdt.toList.map GdtDescriptor.bytes)[index]? = some descriptor.bytes := by
      rw [List.getElem?_map, Vector.getElem?_toList, entries, found]
      rfl
    have limit : (39 : UInt16).toNat = 39 := rfl
    have read : readDescriptor byte ⟨39, address⟩ index = some descriptor.bytes :=
      readDescriptor_of_packed packed bytes (by rw [limit]; omega)
    rw [read]
    obtain rfl | positive := Nat.eq_zero_or_pos index
    · exact absurd (.inl rfl) chosen
    · interval_cases index <;> cases found <;> exact decodeSegment_segmentDescriptor _ _ _ _
  · have limit : (39 : UInt16).toNat = 39 := rfl
    have outside : bootAccess[index - 1]? = none := List.getElem?_eq_none (by
      have length : bootAccess.length = 4 := rfl
      omega)
    rw [readDescriptor, if_neg (by rw [limit]; omega), outside]
    rfl

theorem readGate_boot (packed : PackedAt byte address (idt.toList.map IdtDescriptor.bytes))
    (entries : ∀ index : Nat, idt[index]? = idtStubTable[index]?.map (gateDescriptor · 0x08 0x8E))
    (vector : Nat) :
    readGate byte ⟨2047, address⟩ vector = idtStubTable[vector]?.map bootGate := by
  have limit : (2047 : UInt16).toNat = 2047 := rfl
  by_cases inside : vector < idtEntries
  · have stub : idtStubTable[vector]? = some idtStubTable[vector] := Vector.getElem?_eq_getElem inside
    have bytes : (idt.toList.map IdtDescriptor.bytes)[vector]? =
        some (gateDescriptor idtStubTable[vector] 0x08 0x8E).bytes := by
      rw [List.getElem?_map, Vector.getElem?_toList, entries, stub]
      rfl
    have below : vector < 256 := inside
    have read : readDescriptor byte ⟨2047, address⟩ vector =
        some (gateDescriptor idtStubTable[vector] 0x08 0x8E).bytes :=
      readDescriptor_of_packed packed bytes (by rw [limit]; omega)
    rw [readGate, read, stub]
    exact decodeGate_gateDescriptor _ _ _
  · have above : 256 ≤ vector := Nat.not_lt.mp inside
    rw [readGate, readDescriptor, if_neg (by rw [limit]; omega),
      Vector.getElem?_eq_none (Nat.not_lt.mp inside)]
    rfl

/-- Whatever the two arrays held before, and wherever they lie. -/
theorem descriptors_inForce (gdtDone : initGdt gdtAddress gdt = some (gdtr, gdtAfter))
    (idtDone : initIdt idtAddress idtStubTable idt = some (idtr, idtAfter))
    (gdtPacked : PackedAt byte gdtAddress (gdtAfter.toList.map GdtDescriptor.bytes))
    (idtPacked : PackedAt byte idtAddress (idtAfter.toList.map IdtDescriptor.bytes)) :
    InForce (readSegment byte gdtr) (readGate byte idtr) idtStubTable := by
  obtain ⟨rfl, gdtEntries⟩ := initGdt_eq gdtDone
  obtain ⟨rfl, idtEntries⟩ := initIdt_eq idtDone
  exact ⟨readSegment_boot gdtPacked gdtEntries, readGate_boot idtPacked idtEntries⟩

theorem exists_initGdt (address : UInt32) (gdt : Gdt) : ∃ done, initGdt address gdt = some done :=
  ⟨_, rfl⟩

theorem exists_initIdt (address : UInt32) (idtStubTable : Vector UInt32 idtEntries) (idt : Idt) :
    ∃ done, initIdt address idtStubTable idt = some done := by
  obtain ⟨after, sets, _⟩ := setGates idt idtStubTable (Nat.le_refl idtEntries)
  refine ⟨(⟨2047, address⟩, after), ?_⟩
  unfold initIdt
  rw [sets]
  rfl

/-- The byte at an offset from the first structure. -/
def packedByte (structures : List (List UInt8)) (offset : Nat) : Option UInt8 :=
  structures[offset / 8]?.bind (·[offset % 8]?)

theorem packedAt_packedByte (first : Nat) (length : ∀ bytes ∈ structures, bytes.length = 8)
    (same : ∀ offset < 8 * structures.length,
      byte (UInt32.ofNat (first + offset)) = packedByte structures offset) :
    PackedAt byte (UInt32.ofNat first) structures := by
  intro index bytes found
  have isEight := length bytes (List.mem_of_getElem? found)
  obtain ⟨below, _⟩ := List.getElem?_eq_some_iff.mp found
  refine ⟨isEight, fun offset value isValue => ?_⟩
  obtain ⟨inside, _⟩ := List.getElem?_eq_some_iff.mp isValue
  rw [← UInt32.ofNat_add, same _ (by omega), packedByte,
    show (8 * index + offset) / 8 = index by omega, found,
    show (8 * index + offset) % 8 = offset by omega]
  exact isValue

/-- The two arrays at addresses 0 and 4096. -/
def sampleTables (gdt : Gdt) (idt : Idt) (address : UInt32) : Option UInt8 :=
  if address.toNat < 4096 then packedByte (gdt.toList.map GdtDescriptor.bytes) address.toNat
  else packedByte (idt.toList.map IdtDescriptor.bytes) (address.toNat - 4096)

theorem descriptors_inForce_sample : ∃ byte gdtr idtr,
    InForce (readSegment byte gdtr) (readGate byte idtr) (Vector.replicate idtEntries 0x00100000) := by
  obtain ⟨⟨gdtr, gdt⟩, gdtDone⟩ := exists_initGdt 0 (Vector.replicate gdtEntries
    ⟨0, 0, 0, 0, 0, 0⟩)
  obtain ⟨⟨idtr, idt⟩, idtDone⟩ := exists_initIdt 4096 (Vector.replicate idtEntries 0x00100000)
    (Vector.replicate idtEntries ⟨0, 0, 0, 0, 0⟩)
  refine ⟨sampleTables gdt idt, gdtr, idtr, descriptors_inForce gdtDone idtDone ?_ ?_⟩
  · refine packedAt_packedByte 0 ?_ fun offset inside => ?_
    · rintro _ member
      obtain ⟨_, _, rfl⟩ := List.mem_map.mp member
      rfl
    · rw [List.length_map, Vector.length_toList, show gdtEntries = 5 from rfl] at inside
      have number : (UInt32.ofNat (0 + offset)).toNat = offset := by
        rw [UInt32.toNat_ofNat']
        omega
      rw [sampleTables, number, if_pos (by omega)]
  · refine packedAt_packedByte 4096 ?_ fun offset inside => ?_
    · rintro _ member
      obtain ⟨_, _, rfl⟩ := List.mem_map.mp member
      rfl
    · rw [List.length_map, Vector.length_toList, show idtEntries = 256 from rfl] at inside
      have number : (UInt32.ofNat (4096 + offset)).toNat = 4096 + offset := by
        rw [UInt32.toNat_ofNat']
        omega
      rw [sampleTables, number, if_neg (by omega), Nat.add_sub_cancel_left]

end KdbOS.Arch
