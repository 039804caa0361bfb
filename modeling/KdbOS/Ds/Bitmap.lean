import KdbOS.Library.ByteMemory

/-! `bitmap.c`: a bitmap whose words live in memory, together with its meaning as
a set of indices. -/

set_option autoImplicit false

namespace KdbOS.Ds

open Library

structure Bitmap where
  storage : Nat
  totalBits : Nat
  deriving DecidableEq, Repr

/-- The number of words in `storage`, rounded up. -/
def Bitmap.words (b : Bitmap) : Nat :=
  if b.totalBits % 32 ≠ 0 then b.totalBits / 32 + 1 else b.totalBits / 32

/-- The address of `storage[index]`. -/
def Bitmap.wordAddress (b : Bitmap) (index : Nat) : Nat :=
  u32 (b.storage + 4 * index)

def bitmapClearAll (b : Bitmap) (memory : Memory) : Memory :=
  (List.range b.words).foldl (fun memory i => memory.store32 (b.wordAddress i) 0) memory

def bitmapSet (b : Bitmap) (bitIndex : Nat) (memory : Memory) : Memory :=
  if bitIndex ≥ b.totalBits then memory
  else
    let word := b.wordAddress (bitIndex / 32)
    memory.store32 word (memory.load32 word ||| 1 <<< (bitIndex % 32))

def bitmapClear (b : Bitmap) (bitIndex : Nat) (memory : Memory) : Memory :=
  if bitIndex ≥ b.totalBits then memory
  else
    let word := b.wordAddress (bitIndex / 32)
    memory.store32 word (memory.load32 word &&& (4294967295 ^^^ 1 <<< (bitIndex % 32)))

def bitmapTest (b : Bitmap) (bitIndex : Nat) (memory : Memory) : Bool :=
  if bitIndex ≥ b.totalBits then false
  else memory.load32 (b.wordAddress (bitIndex / 32)) &&& 1 <<< (bitIndex % 32) != 0

/-! ## The bits as a set -/

/-- The storage does not run past the end of the address space. -/
def Bitmap.Fits (b : Bitmap) : Prop :=
  b.storage + 4 * b.words ≤ 4294967296

variable {b : Bitmap} {memory : Memory} {bit other : Nat}

theorem Bitmap.words_eq (b : Bitmap) : b.words = (b.totalBits + 31) / 32 := by
  unfold Bitmap.words
  split <;> omega

theorem Bitmap.Fits.wordAddress (fits : b.Fits) {index : Nat} (inside : index < b.words) :
    b.wordAddress index = b.storage + 4 * index := by
  refine u32_of_lt ?_
  unfold Bitmap.Fits at fits
  omega

theorem Bitmap.index_lt (inside : bit < b.totalBits) : bit / 32 < b.words := by
  rw [b.words_eq]
  omega

theorem bitmapTest_eq (inside : bit < b.totalBits) :
    bitmapTest b bit memory =
      (memory.load32 (b.wordAddress (bit / 32))).testBit (bit % 32) := by
  rw [bitmapTest, if_neg (Nat.not_le.mpr inside), Bool.eq_iff_iff, bne_iff_ne]
  exact and_one_shiftLeft_ne_zero

theorem bitmapTest_of_le (outside : b.totalBits ≤ bit) : bitmapTest b bit memory = false :=
  if_pos outside

/-- Rewriting the word of one bit changes the bits of that word only. -/
private theorem bitmapTest_store32 (fits : b.Fits) (inside : bit < b.totalBits)
    (otherInside : other < b.totalBits) {value : Nat} (bounded : value < 4294967296) :
    bitmapTest b other (memory.store32 (b.wordAddress (bit / 32)) value) =
      if other / 32 = bit / 32 then value.testBit (other % 32)
      else bitmapTest b other memory := by
  rw [bitmapTest_eq otherInside, bitmapTest_eq otherInside]
  by_cases same : other / 32 = bit / 32
  · rw [if_pos same, same, Memory.load32_store32_self, u32_of_lt bounded]
  · rw [if_neg same, Memory.load32_store32_of_disjoint]
    rw [fits.wordAddress (b.index_lt inside), fits.wordAddress (b.index_lt otherInside)]
    omega

theorem bitmapTest_set (fits : b.Fits) (inside : bit < b.totalBits) (other : Nat) :
    bitmapTest b other (bitmapSet b bit memory) =
      (bitmapTest b other memory || decide (bit = other)) := by
  by_cases otherInside : other < b.totalBits
  · have bounded : memory.load32 (b.wordAddress (bit / 32)) ||| 1 <<< (bit % 32) < 2 ^ 32 := by
      refine Nat.or_lt_two_pow (memory.load32_lt _) ?_
      rw [Nat.one_shiftLeft]
      exact Nat.pow_lt_pow_right (by decide) (Nat.mod_lt _ (by decide))
    rw [bitmapSet, if_neg (Nat.not_le.mpr inside),
      bitmapTest_store32 fits inside otherInside bounded, testBit_or_one_shiftLeft]
    by_cases same : other / 32 = bit / 32
    · rw [if_pos same, bitmapTest_eq otherInside, same]
      congr 1
      exact decide_eq_decide.mpr (by omega)
    · have different : bit ≠ other := fun equal => same (equal ▸ rfl)
      simp [same, different]
  · have different : bit ≠ other := fun equal => otherInside (equal ▸ inside)
    simp [bitmapTest_of_le (Nat.not_lt.mp otherInside), different]

theorem bitmapTest_clear (fits : b.Fits) (inside : bit < b.totalBits) (other : Nat) :
    bitmapTest b other (bitmapClear b bit memory) =
      (bitmapTest b other memory && !decide (bit = other)) := by
  by_cases otherInside : other < b.totalBits
  · have bounded : memory.load32 (b.wordAddress (bit / 32)) &&&
        (4294967295 ^^^ 1 <<< (bit % 32)) < 2 ^ 32 :=
      Nat.lt_of_le_of_lt Nat.and_le_left (memory.load32_lt _)
    rw [bitmapClear, if_neg (Nat.not_le.mpr inside),
      bitmapTest_store32 fits inside otherInside bounded,
      testBit_and_not_one_shiftLeft _ _ (Nat.mod_lt _ (by decide))]
    by_cases same : other / 32 = bit / 32
    · rw [if_pos same, bitmapTest_eq otherInside, same]
      congr 2
      exact decide_eq_decide.mpr (by omega)
    · have different : bit ≠ other := fun equal => same (equal ▸ rfl)
      simp [same, different]
  · simp [bitmapTest_of_le (Nat.not_lt.mp otherInside)]

theorem bitmapSet_of_le (outside : b.totalBits ≤ bit) : bitmapSet b bit memory = memory :=
  if_pos outside

private theorem clearAll_load32 (fits : b.Fits) {index : Nat} (inside : index < b.words)
    (count : Nat) (bounded : count ≤ b.words) :
    ((List.range count).foldl (fun memory i => memory.store32 (b.wordAddress i) 0) memory).load32
        (b.wordAddress index) =
      if index < count then 0 else memory.load32 (b.wordAddress index) := by
  induction count with
  | zero => simp
  | succ count ih =>
      rw [List.range_succ, List.foldl_append, List.foldl_cons, List.foldl_nil]
      by_cases same : index = count
      · subst same
        rw [Memory.load32_store32_self, if_pos (Nat.lt_succ_self _)]
        rfl
      · rw [Memory.load32_store32_of_disjoint, ih (Nat.le_of_succ_le bounded)]
        · exact if_congr (by omega) rfl rfl
        · rw [fits.wordAddress inside, fits.wordAddress (by omega)]
          omega

theorem bitmapTest_clearAll (fits : b.Fits) (bit : Nat) :
    bitmapTest b bit (bitmapClearAll b memory) = false := by
  by_cases inside : bit < b.totalBits
  · rw [bitmapTest_eq inside, bitmapClearAll, clearAll_load32 fits (b.index_lt inside) _ (Nat.le_refl _),
      if_pos (b.index_lt inside), Nat.zero_testBit]
  · exact bitmapTest_of_le (Nat.not_lt.mp inside)

end KdbOS.Ds
