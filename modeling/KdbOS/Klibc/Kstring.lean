import KdbOS.Library.ByteMemory

/-! `kstring.c`: the length of a string, and the bounded copy and concatenation. Strings are
NUL-terminated byte runs. -/

set_option autoImplicit false

namespace KdbOS.Klibc

open Library

/-- The copy loop of `kstrncpy`. `remaining` is `n - 1 - i`, so the loop test
`i < n - 1` is `remaining ≠ 0`. Returns the final index and the memory. -/
def kstrncpyLoop (src dest : Nat) : Nat → Nat → Memory → Nat × Memory
  | 0, i, memory => (i, memory)
  | remaining + 1, i, memory =>
      if memory (src + i) ≠ 0 then
        kstrncpyLoop src dest remaining (i + 1)
          (memory.store8 (dest + i) (memory (src + i)))
      else (i, memory)

/-- `kstrncpy(src, dest, n)`; the returned pointer is `dest`. -/
def kstrncpy (src dest n : Nat) (memory : Memory) : Memory :=
  if n = 0 then memory
  else
    let (i, memory) := kstrncpyLoop src dest (n - 1) 0 memory
    memory.store8 (dest + i) 0

/-- The loop of `kstrlen`, or `none` when no NUL is found within `fuel`. -/
def kstrlenLoop (str : Nat) : Nat → Nat → Memory → Option Nat
  | 0, _, _ => none
  | fuel + 1, len, memory =>
      if memory (str + len) ≠ 0 then kstrlenLoop str fuel (len + 1) memory else some len

def kstrlen (fuel str : Nat) (memory : Memory) : Option Nat := kstrlenLoop str fuel 0 memory

/-- `n - dest_len - 1`. -/
def maxAllowed (n destLen : Nat) : Nat := u32Sub (u32Sub n destLen) 1

/-- `kstrncat(dest, src, n)`; its loop is that of `kstrncpy` at the end of `dest`. -/
def kstrncat (fuel dest src n : Nat) (memory : Memory) : Option Memory := do
  let len ← kstrlen fuel dest memory
  let destLen := u32 len
  if destLen ≥ n ∨ n = 0 then return memory
  else
    let (i, memory) := kstrncpyLoop src (dest + destLen) (maxAllowed n destLen) 0 memory
    return memory.store8 (dest + destLen + i) 0

/-! ## Strings in memory -/

/-- The NUL-terminated string at an address. -/
structure IsText (memory : Memory) (address : Nat) (text : List UInt8) : Prop where
  bytes : ∀ i (inside : i < text.length), memory (address + i) = text[i]
  ends : memory (address + text.length) = 0

variable {src dest n address : Nat} {memory other : Memory} {text : List UInt8}

theorem IsText.congr (isText : IsText memory address text)
    (same : ∀ i ≤ text.length, other (address + i) = memory (address + i)) :
    IsText other address text :=
  ⟨fun i inside => (same i (Nat.le_of_lt inside)).trans (isText.bytes i inside),
    (same _ (Nat.le_refl _)).trans isText.ends⟩

/-- Two memories that hold the same string agree on it. -/
theorem IsText.eq (isText : IsText memory address text) (otherText : IsText other address text)
    {i : Nat} (inside : i ≤ text.length) : memory (address + i) = other (address + i) := by
  rcases Nat.lt_or_eq_of_le inside with less | rfl
  · rw [isText.bytes i less, otherText.bytes i less]
  · rw [isText.ends, otherText.ends]

private theorem kstrncpyLoop_outside (src dest remaining : Nat) :
    ∀ (i : Nat) (memory : Memory), (kstrncpyLoop src dest remaining i memory).1 ≤ i + remaining ∧
      ∀ address, address < dest + i ∨ dest + i + remaining ≤ address →
        (kstrncpyLoop src dest remaining i memory).2 address = memory address := by
  induction remaining with
  | zero => exact fun i memory => ⟨Nat.le_refl _, fun _ _ => rfl⟩
  | succ remaining ih =>
      intro i memory
      rw [kstrncpyLoop]
      split
      · obtain ⟨index, outside⟩ := ih (i + 1) (memory.store8 (dest + i) (memory (src + i)))
        refine ⟨by omega, fun address away => ?_⟩
        rw [outside address (by omega), Memory.store8_of_ne (by omega)]
      · exact ⟨Nat.le_add_right _ _, fun _ _ => rfl⟩

/-- Whatever the source holds, nothing outside the `n` bytes of the destination is written. -/
theorem kstrncpy_outside (positive : n ≠ 0) (outside : address < dest ∨ dest + n ≤ address) :
    kstrncpy src dest n memory address = memory address := by
  obtain ⟨index, unwritten⟩ := kstrncpyLoop_outside src dest (n - 1) 0 memory
  rw [kstrncpy, if_neg positive]
  dsimp only
  rw [Memory.store8_of_ne (by omega), unwritten address (by omega)]

/-- The loop stops at the end of the string or after `total` characters. -/
private theorem kstrncpyLoop_text {total : Nat} (nonzero : ∀ byte ∈ text, byte ≠ 0)
    (apart : ∀ j < min text.length total, ∀ k ≤ text.length, src + k ≠ dest + j) (remaining : Nat) :
    ∀ (i : Nat) (memory : Memory), i + remaining = total → IsText memory src text →
      i ≤ text.length →
      (kstrncpyLoop src dest remaining i memory).1 = min text.length total ∧
      ∀ address, (kstrncpyLoop src dest remaining i memory).2 address =
        if dest + i ≤ address ∧ address < dest + min text.length total then
          memory (src + (address - dest))
        else memory address := by
  induction remaining with
  | zero =>
      intro i memory sum isText inside
      refine ⟨by rw [kstrncpyLoop]; omega, fun address => ?_⟩
      rw [kstrncpyLoop, if_neg (by omega)]
  | succ remaining ih =>
      intro i memory sum isText inside
      rw [kstrncpyLoop]
      by_cases last : i = text.length
      · subst last
        rw [if_neg (not_not_intro isText.ends)]
        exact ⟨by dsimp only; omega, fun address => by rw [if_neg (by omega)]⟩
      · have less : i < text.length := Nat.lt_of_le_of_ne inside last
        have byte : memory (src + i) ≠ 0 := by
          rw [isText.bytes i less]
          exact nonzero _ (List.getElem_mem less)
        rw [if_pos byte]
        have unchanged : ∀ j ≤ text.length,
            memory.store8 (dest + i) (memory (src + i)) (src + j) = memory (src + j) :=
          fun j within => Memory.store8_of_ne (apart i (by omega) j within)
        obtain ⟨index, copied⟩ := ih (i + 1) _ (by omega) (isText.congr unchanged) less
        refine ⟨index, fun address => ?_⟩
        rw [copied address]
        by_cases here : address = dest + i
        · subst here
          have position : dest + i - dest = i := Nat.add_sub_cancel_left ..
          rw [if_neg (by omega), if_pos (by omega), Memory.store8_self, position]
        · by_cases later : dest + (i + 1) ≤ address ∧ address < dest + min text.length total
          · rw [if_pos later, if_pos (by omega), unchanged _ (by omega)]
          · rw [if_neg later, if_neg (by omega), Memory.store8_of_ne here]

/-- A string that fits is copied, and no byte behind its end is written. -/
theorem kstrncpy_text (isText : IsText memory src text) (nonzero : ∀ byte ∈ text, byte ≠ 0)
    (short : text.length < n) (apart : src + text.length < dest ∨ dest + text.length < src) :
    IsText (kstrncpy src dest n memory) dest text ∧
      ∀ address, address < dest ∨ dest + text.length < address →
        kstrncpy src dest n memory address = memory address := by
  have all : min text.length (n - 1) = text.length := by omega
  have bytesApart : ∀ j < min text.length (n - 1), ∀ k ≤ text.length, src + k ≠ dest + j :=
    fun j below k within => by omega
  obtain ⟨index, copied⟩ := kstrncpyLoop_text nonzero bytesApart (n - 1) 0 memory
    (Nat.zero_add _) isText (Nat.zero_le _)
  rw [all] at index copied
  have result : ∀ address, kstrncpy src dest n memory address =
      ((kstrncpyLoop src dest (n - 1) 0 memory).2.store8 (dest + text.length) 0) address := by
    intro address
    rw [kstrncpy, if_neg (by omega), ← index]
  refine ⟨⟨fun i inside => ?_, ?_⟩, fun address outside => ?_⟩
  · have position : dest + i - dest = i := Nat.add_sub_cancel_left ..
    rw [result, Memory.store8_of_ne (by omega), copied, if_pos (by omega), position,
      isText.bytes i inside]
  · rw [result, Memory.store8_self]
  · rw [result, Memory.store8_of_ne (by omega), copied, if_neg (by omega)]

/-! ## Truncation -/

/-- A string outside the `n` bytes of the buffer at `dest`. -/
structure Source (memory : Memory) (dest n src : Nat) (text : List UInt8) : Prop where
  isText : IsText memory src text
  nonzero : ∀ byte ∈ text, byte ≠ 0
  apart : src + text.length < dest ∨ dest + n ≤ src

/-- Writing to the buffer alone leaves a source as it is. -/
theorem Source.congr (source : Source memory dest n src text)
    (same : ∀ address, address < dest ∨ dest + n ≤ address → other address = memory address) :
    Source other dest n src text where
  isText := source.isText.congr fun i inside => same _ (by
    have apart := source.apart
    omega)
  nonzero := source.nonzero
  apart := source.apart

/-- The loop and the terminator behind it, from `offset` on. -/
private theorem kstrncpyLoop_appends {offset : Nat} {old : List UInt8}
    (source : Source memory dest n src text) (room : offset < n) (length : old.length = offset)
    (before : ∀ i (inside : i < old.length), memory (dest + i) = old[i]) :
    let result := kstrncpyLoop src (dest + offset) (n - offset - 1) 0 memory
    IsText (result.2.store8 (dest + offset + result.1) 0) dest ((old ++ text).take (n - 1)) ∧
      ∀ address, address < dest ∨ dest + n ≤ address →
        result.2.store8 (dest + offset + result.1) 0 address = memory address := by
  intro result
  have apart := source.apart
  have bytesApart : ∀ j < min text.length (n - offset - 1), ∀ k ≤ text.length,
      src + k ≠ dest + offset + j := fun j below k within => by omega
  obtain ⟨stops, copied⟩ := kstrncpyLoop_text source.nonzero bytesApart (n - offset - 1) 0 memory
    (Nat.zero_add _) source.isText (Nat.zero_le _)
  have index : result.1 = min text.length (n - offset - 1) := stops
  have size : ((old ++ text).take (n - 1)).length = offset + result.1 := by
    rw [List.length_take, List.length_append, length, index]
    omega
  have bound : offset + result.1 < n := by
    rw [index]
    omega
  refine ⟨⟨fun i inside => ?_, ?_⟩, fun address outside => ?_⟩
  · rw [size] at inside
    rw [Memory.store8_of_ne (by omega), copied, List.getElem_take]
    by_cases isOld : i < offset
    · rw [if_neg (by omega), before i (by omega), List.getElem_append_left (by omega)]
    · have written : dest + offset + 0 ≤ dest + i ∧
          dest + i < dest + offset + min text.length (n - offset - 1) := by omega
      have appended : i - offset < text.length := by omega
      have place : src + (dest + i - (dest + offset)) = src + (i - offset) := by omega
      rw [if_pos written, List.getElem_append_right (by omega), place,
        source.isText.bytes (i - offset) appended]
      simp only [length]
  · rw [size, ← Nat.add_assoc, Memory.store8_self]
  · rw [Memory.store8_of_ne (by omega), copied, if_neg (by omega)]

/-- As much of the source as fits. -/
theorem kstrncpy_take (source : Source memory dest n src text) (positive : 1 ≤ n) :
    IsText (kstrncpy src dest n memory) dest (text.take (n - 1)) ∧
      ∀ address, address < dest ∨ dest + n ≤ address →
        kstrncpy src dest n memory address = memory address := by
  have appended := @kstrncpyLoop_appends _ _ _ _ _ 0 [] source positive rfl nofun
  rw [kstrncpy, if_neg (by omega)]
  exact appended

private theorem kstrlenLoop_text {str : Nat} (nonzero : ∀ byte ∈ text, byte ≠ 0)
    (isText : IsText memory str text) (fuel : Nat) :
    ∀ len ≤ text.length, text.length < fuel + len →
      kstrlenLoop str fuel len memory = some text.length := by
  induction fuel with
  | zero => intro len within enough; omega
  | succ fuel ih =>
      intro len within enough
      rw [kstrlenLoop]
      by_cases last : len = text.length
      · subst last
        rw [if_neg (not_not_intro isText.ends)]
      · have less : len < text.length := Nat.lt_of_le_of_ne within last
        have byte : memory (str + len) ≠ 0 := by
          rw [isText.bytes len less]
          exact nonzero _ (List.getElem_mem less)
        rw [if_pos byte]
        exact ih (len + 1) less (by omega)

theorem kstrlen_text {fuel str : Nat} (nonzero : ∀ byte ∈ text, byte ≠ 0)
    (isText : IsText memory str text) (enough : text.length < fuel) :
    kstrlen fuel str memory = some text.length :=
  kstrlenLoop_text nonzero isText fuel 0 (Nat.zero_le _) enough

theorem maxAllowed_of_lt {destLen : Nat} (room : destLen < n) :
    maxAllowed n destLen = n - destLen - 1 := by
  rw [maxAllowed, u32Sub_of_le (Nat.le_of_lt room), u32Sub_of_le (by omega)]

/-- A `kstrncat` that finds the end of its string, computes a remaining length that has not
wrapped, and whose terminator is the last byte it writes and lies in the buffer. -/
structure Appends (fuel dest n src len : Nat) (memory : Memory) : Prop where
  length : kstrlen fuel dest memory = some len
  room : u32 len = len ∧ len < n
  remaining : maxAllowed n len = n - len - 1
  inside : len + (kstrncpyLoop src (dest + len) (maxAllowed n len) 0 memory).1 < n

section Appending

variable {fuel : Nat} {old : List UInt8} (width : n < 4294967296) (enough : n ≤ fuel)
  (held : IsText memory dest old) (nonzero : ∀ byte ∈ old, byte ≠ 0) (room : old.length < n)

include width enough held nonzero room

theorem kstrncat_appends : Appends fuel dest n src old.length memory where
  length := kstrlen_text nonzero held (Nat.lt_of_lt_of_le room enough)
  room := ⟨u32_of_lt (Nat.lt_trans room width), room⟩
  remaining := maxAllowed_of_lt room
  inside := by
    have stops := (kstrncpyLoop_outside src (dest + old.length) (n - old.length - 1) 0 memory).1
    rw [maxAllowed_of_lt room]
    omega

/-- The string and as much of the source as fits behind it. -/
theorem kstrncat_take (source : Source memory dest n src text) :
    ∃ result, kstrncat fuel dest src n memory = some result ∧
      IsText result dest ((old ++ text).take (n - 1)) ∧
      ∀ address, address < dest ∨ dest + n ≤ address → result address = memory address := by
  have appends : Appends fuel dest n src old.length memory :=
    kstrncat_appends width enough held nonzero room
  have appended := kstrncpyLoop_appends source room rfl held.bytes
  refine ⟨_, ?_, appended⟩
  rw [kstrncat, appends.length]
  simp only [Option.bind_eq_bind, Option.bind_some, appends.room.1, appends.remaining]
  rw [if_neg (by omega)]
  rfl

end Appending

/-- `kstrncat` with each of the sources in turn. -/
def kstrncats (fuel dest n : Nat) (sources : List Nat) (memory : Memory) : Option Memory :=
  sources.foldlM (fun memory src => kstrncat fuel dest src n memory) memory

private theorem take_take_append (front back : List UInt8) (size : Nat) :
    (front.take size ++ back).take size = (front ++ back).take size := by
  rw [List.take_append, List.take_append, List.take_take, Nat.min_self, List.length_take]
  congr 2
  omega

variable {fuel : Nat} {parts : List (Nat × List UInt8)}

private theorem kstrncats_take (positive : 1 ≤ n) (width : n < 4294967296) (enough : n ≤ fuel) :
    ∀ (parts : List (Nat × List UInt8)) (memory : Memory) (old : List UInt8),
      IsText memory dest (old.take (n - 1)) → (∀ byte ∈ old, byte ≠ 0) →
      (∀ part ∈ parts, Source memory dest n part.1 part.2) →
      ∃ result, kstrncats fuel dest n (parts.map Prod.fst) memory = some result ∧
        IsText result dest ((old ++ (parts.map Prod.snd).flatten).take (n - 1)) ∧
        ∀ address, address < dest ∨ dest + n ≤ address → result address = memory address := by
  intro parts
  induction parts with
  | nil =>
      intro memory old held _ _
      refine ⟨memory, rfl, ?_, fun _ _ => rfl⟩
      simpa using held
  | cons part parts ih =>
      intro memory old held nonzero sources
      have source := sources part (List.mem_cons_self ..)
      have short : (old.take (n - 1)).length < n := by
        rw [List.length_take]
        omega
      obtain ⟨next, called, text, outside⟩ := kstrncat_take width enough held
        (fun byte inside => nonzero byte (List.mem_of_mem_take inside)) short source
      rw [take_take_append] at text
      have bothNonzero : ∀ byte ∈ old ++ part.2, byte ≠ 0 := by
        intro byte inside
        rcases List.mem_append.1 inside with inside | inside
        · exact nonzero byte inside
        · exact source.nonzero byte inside
      obtain ⟨result, calls, final, frame⟩ := ih next (old ++ part.2) text bothNonzero
        fun other member => (sources other (List.mem_cons_of_mem _ member)).congr outside
      refine ⟨result, ?_, ?_, fun address away => ?_⟩
      · rw [kstrncats, List.map_cons, List.foldlM_cons, called]
        exact calls
      · rw [List.map_cons, List.flatten_cons, ← List.append_assoc]
        exact final
      · rw [frame address away, outside address away]

/-- A copy and any number of concatenations build the truncated string, inside the buffer, and
no call computes a remaining length that has wrapped. -/
theorem kstrncpy_kstrncats (positive : 1 ≤ n) (width : n < 4294967296) (enough : n ≤ fuel)
    (first : Source memory dest n src text)
    (sources : ∀ part ∈ parts, Source memory dest n part.1 part.2) :
    (∃ result, kstrncats fuel dest n (parts.map Prod.fst) (kstrncpy src dest n memory) =
        some result ∧
      IsText result dest ((text ++ (parts.map Prod.snd).flatten).take (n - 1)) ∧
      ∀ address, address < dest ∨ dest + n ≤ address → result address = memory address) ∧
    (kstrncpyLoop src dest (n - 1) 0 memory).1 < n ∧
    ∀ front part back, parts = front ++ part :: back → ∃ before len,
      kstrncats fuel dest n (front.map Prod.fst) (kstrncpy src dest n memory) = some before ∧
      Appends fuel dest n part.1 len before := by
  obtain ⟨copied, unwritten⟩ := kstrncpy_take first positive
  have built : ∀ some : List (Nat × List UInt8), (∀ part ∈ some, part ∈ parts) → _ :=
    fun some subset => kstrncats_take positive width enough some (kstrncpy src dest n memory) text
      copied first.nonzero fun part member => (sources part (subset part member)).congr unwritten
  refine ⟨?_, ?_, ?_⟩
  · obtain ⟨result, calls, final, frame⟩ := built parts fun _ member => member
    exact ⟨result, calls, final, fun address away =>
      (frame address away).trans (unwritten address away)⟩
  · have stops := (kstrncpyLoop_outside src dest (n - 1) 0 memory).1
    omega
  · rintro front part back rfl
    obtain ⟨before, calls, held, _⟩ := built front fun _ member => List.mem_append_left _ member
    have nonzero : ∀ byte ∈ (text ++ (front.map Prod.snd).flatten).take (n - 1), byte ≠ 0 := by
      intro byte inside
      rcases List.mem_append.1 (List.mem_of_mem_take inside) with inside | inside
      · exact first.nonzero byte inside
      · obtain ⟨_, listed, inside⟩ := List.mem_flatten.1 inside
        obtain ⟨other, member, rfl⟩ := List.mem_map.1 listed
        exact (sources other (List.mem_append_left _ member)).nonzero byte inside
    have short : ((text ++ (front.map Prod.snd).flatten).take (n - 1)).length < n := by
      rw [List.length_take]
      omega
    exact ⟨before, _, calls, kstrncat_appends width enough held nonzero short⟩

/-- `"A"` at 0 and `"BC"` at 4. -/
def sampleStrings : Memory := fun address =>
  if address = 0 then 65 else if address = 4 then 66 else if address = 5 then 67 else 0

private theorem sampleStrings_source {src : Nat} {text : List UInt8}
    (cases : src = 0 ∧ text = [65] ∨ src = 4 ∧ text = [66, 67]) :
    Source sampleStrings 16 3 src text := by
  obtain ⟨rfl, rfl⟩ | ⟨rfl, rfl⟩ := cases
  · exact ⟨⟨by decide, rfl⟩, by simp, by decide⟩
  · exact ⟨⟨by decide, rfl⟩, by simp, by decide⟩

/-- In a buffer of three bytes the last character is cut off. -/
theorem kstrncpy_kstrncats_truncates :
    ∃ result, kstrncats 3 16 3 [4] (kstrncpy 0 16 3 sampleStrings) = some result ∧
      IsText result 16 [65, 66] := by
  have built := @kstrncpy_kstrncats 0 16 3 sampleStrings [65] 3 [(4, [66, 67])]
    (by decide) (by decide) (Nat.le_refl 3) (sampleStrings_source (.inl ⟨rfl, rfl⟩))
    fun part member => by
      rw [List.mem_singleton] at member
      exact member ▸ sampleStrings_source (.inr ⟨rfl, rfl⟩)
  obtain ⟨⟨result, calls, text, _⟩, _⟩ := built
  exact ⟨result, calls, text⟩

end KdbOS.Klibc
