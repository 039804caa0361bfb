import KdbOS.Library.ByteMemory

/-! Little-endian words in a paged memory. Every page of 4096 bytes lies in some frame, or
in none, and pages may share frames; the addresses wrap around at 4 GiB. -/

set_option autoImplicit false

namespace KdbOS.Library

/-- The frame of a page, both by their numbers. -/
abbrev Paging := Nat → Option Nat

namespace Paging

variable {paging other : Paging} {memory after : Memory} {address target base word : UInt32}
variable {words : List UInt32}

/-- Where a byte lies. -/
def locate (paging : Paging) (address : UInt32) : Option Nat :=
  (paging (address.toNat / 4096)).map fun frame => frame * 4096 + address.toNat % 4096

def byte (paging : Paging) (memory : Memory) (address : UInt32) : Option UInt8 :=
  (paging.locate address).map memory

def storeByte (paging : Paging) (memory : Memory) (address : UInt32) (value : UInt8) :
    Option Memory :=
  (paging.locate address).map fun place => memory.store8 place value

/-- The word of four bytes, the lowest first. -/
def ofBytes (first second third fourth : UInt8) : UInt32 :=
  UInt32.ofNat (first.toNat + second.toNat * 256 + third.toNat * 65536 + fourth.toNat * 16777216)

def load (paging : Paging) (memory : Memory) (address : UInt32) : Option UInt32 := do
  let first ← paging.byte memory address
  let second ← paging.byte memory (address + 1)
  let third ← paging.byte memory (address + 2)
  let fourth ← paging.byte memory (address + 3)
  return ofBytes first second third fourth

def store (paging : Paging) (memory : Memory) (address word : UInt32) : Option Memory := do
  let memory ← paging.storeByte memory address (UInt8.ofNat word.toNat)
  let memory ← paging.storeByte memory (address + 1) (UInt8.ofNat (word.toNat / 256))
  let memory ← paging.storeByte memory (address + 2) (UInt8.ofNat (word.toNat / 65536))
  paging.storeByte memory (address + 3) (UInt8.ofNat (word.toNat / 16777216))

/-- Bytes at different offsets within their pages do not meet, whatever the frames are. -/
theorem locate_offset {place : Nat} (found : paging.locate address = some place) :
    place % 4096 = address.toNat % 4096 := by
  obtain ⟨frame, _, rfl⟩ := Option.map_eq_some_iff.mp found
  omega

theorem byte_storeByte_self {value : UInt8} (stored : paging.storeByte memory address value = some after) :
    paging.byte after address = some value := by
  obtain ⟨place, found, rfl⟩ := Option.map_eq_some_iff.mp stored
  rw [byte, found, Option.map_some, Memory.store8_self]

theorem byte_storeByte_of_offset {value : UInt8}
    (stored : paging.storeByte memory address value = some after)
    (different : target.toNat % 4096 ≠ address.toNat % 4096) :
    paging.byte after target = paging.byte memory target := by
  obtain ⟨place, found, rfl⟩ := Option.map_eq_some_iff.mp stored
  refine Option.map_congr fun position isPosition => Memory.store8_of_ne ?_
  rintro rfl
  exact different ((locate_offset isPosition).symm.trans (locate_offset found))

theorem byte_storeByte_of_locate {value : UInt8}
    (stored : paging.storeByte memory address value = some after)
    (different : paging.locate address ≠ paging.locate target) :
    paging.byte after target = paging.byte memory target := by
  obtain ⟨place, found, rfl⟩ := Option.map_eq_some_iff.mp stored
  refine Option.map_congr fun position isPosition => Memory.store8_of_ne ?_
  rintro rfl
  exact different (found.trans isPosition.symm)

theorem store_eq_some (stored : paging.store memory address word = some after) :
    ∃ first second third,
      paging.storeByte memory address (UInt8.ofNat word.toNat) = some first ∧
      paging.storeByte first (address + 1) (UInt8.ofNat (word.toNat / 256)) = some second ∧
      paging.storeByte second (address + 2) (UInt8.ofNat (word.toNat / 65536)) = some third ∧
      paging.storeByte third (address + 3) (UInt8.ofNat (word.toNat / 16777216)) = some after := by
  obtain ⟨first, isFirst, stored⟩ := Option.bind_eq_some_iff.mp stored
  obtain ⟨second, isSecond, stored⟩ := Option.bind_eq_some_iff.mp stored
  obtain ⟨third, isThird, isFourth⟩ := Option.bind_eq_some_iff.mp stored
  exact ⟨first, second, third, isFirst, isSecond, isThird, isFourth⟩

/-- A byte outside the page offsets of a word. -/
theorem byte_store_of_offset (stored : paging.store memory address word = some after)
    (different : ∀ offset : UInt32, offset.toNat < 4 →
      target.toNat % 4096 ≠ (address + offset).toNat % 4096) :
    paging.byte after target = paging.byte memory target := by
  obtain ⟨first, second, third, isFirst, isSecond, isThird, isFourth⟩ := store_eq_some stored
  have start := different 0 (by decide)
  rw [UInt32.add_zero] at start
  rw [byte_storeByte_of_offset isFourth (different 3 (by decide)),
    byte_storeByte_of_offset isThird (different 2 (by decide)),
    byte_storeByte_of_offset isSecond (different 1 (by decide)),
    byte_storeByte_of_offset isFirst start]

theorem load_congr
    (same : ∀ offset : UInt32, offset.toNat < 4 →
      other.byte after (address + offset) = paging.byte memory (address + offset)) :
    other.load after address = paging.load memory address := by
  have start := same 0 (by decide)
  rw [UInt32.add_zero] at start
  rw [load, load, start, same 1 (by decide), same 2 (by decide), same 3 (by decide)]

theorem ofBytes_ofNat (word : UInt32) :
    ofBytes (UInt8.ofNat word.toNat) (UInt8.ofNat (word.toNat / 256))
      (UInt8.ofNat (word.toNat / 65536)) (UInt8.ofNat (word.toNat / 16777216)) = word := by
  have bounded := word.toNat_lt
  rw [← UInt32.toNat_inj, ofBytes, UInt32.toNat_ofNat']
  simp only [UInt8.toNat_ofNat']
  omega

theorem load_store_self (stored : paging.store memory address word = some after) :
    paging.load after address = some word := by
  obtain ⟨first, second, third, isFirst, isSecond, isThird, isFourth⟩ := store_eq_some stored
  -- The four bytes lie at four offsets.
  have offsets : ∀ i j : UInt32, i.toNat < 4 → j.toNat < 4 → i ≠ j →
      (address + i).toNat % 4096 ≠ (address + j).toNat % 4096 := by
    intro i j iSmall jSmall different same
    refine different (UInt32.toNat_inj.mp ?_)
    rw [UInt32.toNat_add, UInt32.toNat_add] at same
    omega
  have start := offsets 0
  rw [UInt32.add_zero] at start
  have firstByte : paging.byte after address = some (UInt8.ofNat word.toNat) := by
    rw [byte_storeByte_of_offset isFourth (start 3 (by decide) (by decide) (by decide)),
      byte_storeByte_of_offset isThird (start 2 (by decide) (by decide) (by decide)),
      byte_storeByte_of_offset isSecond (start 1 (by decide) (by decide) (by decide)),
      byte_storeByte_self isFirst]
  have secondByte : paging.byte after (address + 1) = some (UInt8.ofNat (word.toNat / 256)) := by
    rw [byte_storeByte_of_offset isFourth (offsets 1 3 (by decide) (by decide) (by decide)),
      byte_storeByte_of_offset isThird (offsets 1 2 (by decide) (by decide) (by decide)),
      byte_storeByte_self isSecond]
  have thirdByte : paging.byte after (address + 2) = some (UInt8.ofNat (word.toNat / 65536)) := by
    rw [byte_storeByte_of_offset isFourth (offsets 2 3 (by decide) (by decide) (by decide)),
      byte_storeByte_self isThird]
  rw [load, firstByte, secondByte, thirdByte, byte_storeByte_self isFourth]
  exact congrArg some (ofBytes_ofNat word)

/-- The bytes lie one after the other from `address` up. -/
def BytesAt (paging : Paging) (memory : Memory) : UInt32 → List UInt8 → Prop
  | _, [] => True
  | address, byte :: rest =>
      paging.byte memory address = some byte ∧ BytesAt paging memory (address + 1) rest

theorem bytesAt_append {first second : List UInt8} :
    paging.BytesAt memory address (first ++ second) ↔
      paging.BytesAt memory address first ∧
        paging.BytesAt memory (address + UInt32.ofNat first.length) second := by
  induction first generalizing address with
  | nil =>
      rw [List.nil_append, List.length_nil, show address + UInt32.ofNat 0 = address from
        UInt32.add_zero address]
      exact (iff_of_eq (true_and _)).symm
  | cons byte first ih =>
      have step : address + UInt32.ofNat (first.length + 1) =
          address + 1 + UInt32.ofNat first.length := by
        rw [Nat.add_comm, UInt32.ofNat_add, ← UInt32.add_assoc]
        rfl
      rw [List.cons_append, List.length_cons, step, BytesAt, BytesAt, ih, and_assoc]

theorem bytesAt_of_getElem {bytes : List UInt8}
    (placed : ∀ (i : Nat) (inside : i < bytes.length),
      paging.byte memory (address + UInt32.ofNat i) = some bytes[i]) :
    paging.BytesAt memory address bytes := by
  induction bytes generalizing address with
  | nil => trivial
  | cons byte bytes ih =>
      refine ⟨?_, ih fun i inside => ?_⟩
      · have first := placed 0 (Nat.zero_lt_succ _)
        rw [show address + UInt32.ofNat 0 = address from UInt32.add_zero address] at first
        exact first
      · have next := placed (i + 1) (Nat.succ_lt_succ inside)
        have step : address + UInt32.ofNat (i + 1) = address + 1 + UInt32.ofNat i := by
          rw [Nat.add_comm, UInt32.ofNat_add, ← UInt32.add_assoc]
          rfl
        rw [step] at next
        exact next

/-- The bytes of a word, the lowest first. -/
def wordBytes (word : UInt32) : List UInt8 :=
  [UInt8.ofNat word.toNat, UInt8.ofNat (word.toNat / 256), UInt8.ofNat (word.toNat / 65536),
    UInt8.ofNat (word.toNat / 16777216)]

theorem BytesAt.load (placed : paging.BytesAt memory address (wordBytes word)) :
    paging.load memory address = some word := by
  obtain ⟨first, second, third, fourth, _⟩ := placed
  have two : address + 2 = address + 1 + 1 := by rw [UInt32.add_assoc]; rfl
  have three : address + 3 = address + 1 + 1 + 1 := by
    rw [UInt32.add_assoc _ 1 1, UInt32.add_assoc]
    rfl
  rw [Paging.load, two, three, first, second, third, fourth]
  exact congrArg some (ofBytes_ofNat word)

/-- The words lie one after the other from `address` up. -/
def WordsAt (paging : Paging) (memory : Memory) : UInt32 → List UInt32 → Prop
  | _, [] => True
  | address, word :: rest =>
      paging.load memory address = some word ∧ WordsAt paging memory (address + 4) rest

theorem WordsAt.load {index : Nat} (placed : paging.WordsAt memory address words)
    (found : words[index]? = some word) :
    paging.load memory (address + UInt32.ofNat (4 * index)) = some word := by
  induction words generalizing address index with
  | nil => cases found
  | cons first rest ih =>
      cases index with
      | zero =>
          cases found
          rw [Nat.mul_zero, show address + UInt32.ofNat 0 = address from UInt32.add_zero address]
          exact placed.1
      | succ index =>
          have step : address + UInt32.ofNat (4 * (index + 1)) =
              address + 4 + UInt32.ofNat (4 * index) := by
            rw [Nat.mul_add, Nat.add_comm, UInt32.ofNat_add, ← UInt32.add_assoc]
            rfl
          rw [step]
          exact ih placed.2 found

/-- A row of words that ends before the page offsets of another word come again. -/
theorem WordsAt.store {offset : Nat} (placed : paging.WordsAt memory (base + UInt32.ofNat offset) words)
    (stored : paging.store memory base word = some after) (above : 4 ≤ offset)
    (fits : offset + 4 * words.length ≤ 4096) :
    paging.WordsAt after (base + UInt32.ofNat offset) words := by
  induction words generalizing offset with
  | nil => trivial
  | cons next words ih =>
      rw [List.length_cons] at fits
      have step : base + UInt32.ofNat offset + 4 = base + UInt32.ofNat (offset + 4) := by
        rw [UInt32.add_assoc, UInt32.ofNat_add]
        rfl
      refine ⟨(load_congr fun place small => byte_store_of_offset stored fun k kSmall => ?_).trans
        placed.1, ?_⟩
      · rw [UInt32.toNat_add, UInt32.toNat_add, UInt32.toNat_add, UInt32.toNat_ofNat']
        omega
      · rw [step]
        exact ih (step ▸ placed.2) (by omega) (by omega)

/-- A word stored below a row of words becomes the first of the row. -/
theorem WordsAt.push (placed : paging.WordsAt memory address words) (few : words.length < 1024)
    (stored : paging.store memory (address - 4) word = some after) :
    paging.WordsAt after (address - 4) (word :: words) := by
  have up : address - 4 + UInt32.ofNat 4 = address := UInt32.sub_add_cancel address 4
  refine ⟨load_store_self stored, ?_⟩
  have above : paging.WordsAt memory (address - 4 + UInt32.ofNat 4) words := by
    rw [up]
    exact placed
  exact above.store stored (Nat.le_refl 4) (by omega)

/-- Words are the same where their bytes are. -/
theorem WordsAt.congr {count : Nat} (placed : paging.WordsAt memory address words)
    (same : ∀ offset : UInt32, offset.toNat < count →
      other.byte after (address + offset) = paging.byte memory (address + offset))
    (fits : 4 * words.length ≤ count) (bounded : count ≤ 4294967296) :
    other.WordsAt after address words := by
  induction words generalizing address count with
  | nil => trivial
  | cons word words ih =>
      rw [List.length_cons] at fits
      refine ⟨(load_congr fun offset small => same offset (by omega)).trans placed.1, ?_⟩
      have later : ∀ offset : UInt32, offset.toNat < count - 4 →
          other.byte after (address + 4 + offset) = paging.byte memory (address + 4 + offset) := by
        intro offset small
        rw [UInt32.add_assoc]
        refine same (4 + offset) ?_
        rw [UInt32.toNat_add]
        have four : (4 : UInt32).toNat = 4 := rfl
        omega
      exact ih placed.2 later (by omega) (by omega)

/-- A word stored in other places than the row. -/
theorem WordsAt.store_apart (placed : paging.WordsAt memory base words)
    (stored : paging.store memory address word = some after)
    (apart : ∀ i j : UInt32, i.toNat < 4 → j.toNat < 4 * words.length →
      paging.locate (address + i) ≠ paging.locate (base + j))
    (fits : 4 * words.length ≤ 4294967296) : paging.WordsAt after base words := by
  obtain ⟨first, second, third, isFirst, isSecond, isThird, isFourth⟩ := store_eq_some stored
  have same : ∀ j : UInt32, j.toNat < 4 * words.length →
      paging.byte after (base + j) = paging.byte memory (base + j) := by
    intro j small
    have start := apart 0 j (by decide) small
    rw [UInt32.add_zero] at start
    rw [byte_storeByte_of_locate isFourth (apart 3 j (by decide) small),
      byte_storeByte_of_locate isThird (apart 2 j (by decide) small),
      byte_storeByte_of_locate isSecond (apart 1 j (by decide) small),
      byte_storeByte_of_locate isFirst start]
  exact placed.congr same (Nat.le_refl _) fits

/-- Two rows of words in one place are the same. -/
theorem WordsAt.unique {others : List UInt32} (placed : paging.WordsAt memory address words)
    (again : paging.WordsAt memory address others) (length : words.length = others.length) :
    words = others := by
  induction words generalizing address others with
  | nil => exact (List.eq_nil_of_length_eq_zero length.symm).symm
  | cons word words ih =>
      obtain ⟨other, others, rfl⟩ := List.exists_cons_of_length_eq_add_one length.symm
      rw [Option.some.inj (placed.1.symm.trans again.1),
        ih placed.2 again.2 (Nat.succ.inj length)]

theorem wordsAt_append {front back : List UInt32} :
    paging.WordsAt memory address (front ++ back) ↔
      paging.WordsAt memory address front ∧
        paging.WordsAt memory (address + UInt32.ofNat (4 * front.length)) back := by
  induction front generalizing address with
  | nil =>
      have start : address + UInt32.ofNat (4 * ([] : List UInt32).length) = address :=
        UInt32.add_zero address
      rw [start]
      exact ⟨fun placed => ⟨trivial, placed⟩, And.right⟩
  | cons word front ih =>
      have step : address + 4 + UInt32.ofNat (4 * front.length) =
          address + UInt32.ofNat (4 * (word :: front).length) := by
        rw [List.length_cons, Nat.mul_add, Nat.add_comm, UInt32.ofNat_add, UInt32.add_assoc]
        rfl
      rw [← step]
      exact (and_congr_right fun _ => ih).trans and_assoc.symm

/-! ## Within one page -/

theorem byte_of_page {frame : Nat} (mapped : paging (address.toNat / 4096) = some frame)
    {offset : UInt32} (inside : address.toNat % 4096 + offset.toNat < 4096) :
    paging.byte memory (address + offset) =
      some (memory (frame * 4096 + address.toNat % 4096 + offset.toNat)) := by
  have small := address.toNat_lt
  have sum : (address + offset).toNat = address.toNat + offset.toNat := by
    rw [UInt32.toNat_add]
    omega
  have samePage : (address.toNat + offset.toNat) / 4096 = address.toNat / 4096 := by omega
  have place : frame * 4096 + (address.toNat + offset.toNat) % 4096 =
      frame * 4096 + address.toNat % 4096 + offset.toNat := by omega
  rw [byte, locate, sum, samePage, mapped, Option.map_some, Option.map_some, place]

/-- A word of a page is that of its frame. -/
theorem load_of_page {frame : Nat} (mapped : paging (address.toNat / 4096) = some frame)
    (inside : address.toNat % 4096 + 4 ≤ 4096) :
    paging.load memory address =
      some (UInt32.ofNat (memory.load32 (frame * 4096 + address.toNat % 4096))) := by
  have each : ∀ (offset : UInt32) (i : Nat), offset.toNat = i → i < 4 →
      paging.byte memory (address + offset) =
        some (memory (frame * 4096 + address.toNat % 4096 + i)) := by
    rintro offset _ rfl small
    exact byte_of_page mapped (by omega)
  have first := each 0 0 rfl (by decide)
  rw [UInt32.add_zero, Nat.add_zero] at first
  rw [load, first, each 1 1 rfl (by decide), each 2 2 rfl (by decide), each 3 3 rfl (by decide),
    Memory.load32]
  rfl

/-- Words that lie one after the other in a frame. -/
theorem wordsAt_of_page {frame : Nat} (mapped : paging (address.toNat / 4096) = some frame)
    (inside : address.toNat % 4096 + 4 * words.length ≤ 4096)
    (each : ∀ (i : Nat) (small : i < words.length),
      memory.load32 (frame * 4096 + address.toNat % 4096 + 4 * i) = words[i].toNat) :
    paging.WordsAt memory address words := by
  induction words generalizing address with
  | nil => trivial
  | cons word words ih =>
      rw [List.length_cons] at inside
      refine ⟨?_, ?_⟩
      · have first := each 0 (Nat.zero_lt_succ _)
        rw [Nat.mul_zero, Nat.add_zero] at first
        rw [load_of_page mapped (by omega), first]
        exact congrArg some UInt32.ofNat_toNat
      · cases words with
        | nil => trivial
        | cons next rest =>
            rw [List.length_cons] at inside
            have small := address.toNat_lt
            have sum : (address + 4).toNat = address.toNat + 4 := by
              rw [UInt32.toNat_add, show (4 : UInt32).toNat = 4 from rfl]
              omega
            refine ih ?_ ?_ fun i below => ?_
            · rw [sum, show (address.toNat + 4) / 4096 = address.toNat / 4096 by omega]
              exact mapped
            · rw [sum, List.length_cons]
              omega
            · have later := each (i + 1) (Nat.succ_lt_succ below)
              rw [sum, show frame * 4096 + (address.toNat + 4) % 4096 + 4 * i =
                frame * 4096 + address.toNat % 4096 + 4 * (i + 1) by omega]
              exact later

end Paging

end KdbOS.Library
