import Mathlib.Tactic.Common
import Mathlib.Data.Nat.Bitwise

/-! Unsigned 32-bit and 16-bit words as naturals. A word is a natural below `2 ^ 32`
or `2 ^ 16`, and every operation that can leave that range wraps around explicitly. -/

set_option autoImplicit false

namespace KdbOS.Library

/-- Truncation of a natural to 32 bits. -/
def u32 (value : Nat) : Nat := value % 4294967296

/-- Wrapping subtraction of two words. -/
def u32Sub (left right : Nat) : Nat :=
  if right ≤ left then left - right else left + (4294967296 - right)

/-- Truncation to 16 bits, and wrapping subtraction there. -/
def u16 (value : Nat) : Nat := value % 65536

def u16Sub (left right : Nat) : Nat :=
  if right ≤ left then left - right else left + (65536 - right)

theorem u32_lt (value : Nat) : u32 value < 4294967296 :=
  Nat.mod_lt _ (by decide)

theorem u32_of_lt {value : Nat} (bounded : value < 4294967296) : u32 value = value :=
  Nat.mod_eq_of_lt bounded

theorem u32Sub_of_le {left right : Nat} (ordered : right ≤ left) :
    u32Sub left right = left - right :=
  if_pos ordered

theorem u16_of_lt {value : Nat} (bounded : value < 65536) : u16 value = value :=
  Nat.mod_eq_of_lt bounded

/-- The idiom `value & (1U << bit)` tests one bit. -/
theorem and_one_shiftLeft_ne_zero {value bit : Nat} :
    value &&& (1 <<< bit) ≠ 0 ↔ value.testBit bit = true := by
  rw [Nat.one_shiftLeft]
  constructor
  · intro nonzero
    obtain ⟨index, set⟩ := Nat.exists_testBit_of_ne_zero nonzero
    rw [Nat.testBit_and, Nat.testBit_two_pow, Bool.and_eq_true, decide_eq_true_eq] at set
    exact set.2 ▸ set.1
  · intro set zero
    have both : (value &&& 2 ^ bit).testBit bit = true := by
      rw [Nat.testBit_and, set, Nat.testBit_two_pow_self]
      rfl
    rw [zero, Nat.zero_testBit] at both
    cases both

theorem testBit_or_one_shiftLeft (value bit index : Nat) :
    (value ||| 1 <<< bit).testBit index = (value.testBit index || decide (bit = index)) := by
  rw [Nat.one_shiftLeft, Nat.testBit_or, Nat.testBit_two_pow]

/-- The idiom `value & ~(1U << bit)` on words. -/
theorem testBit_and_not_one_shiftLeft (value bit : Nat) {index : Nat} (inside : index < 32) :
    (value &&& (4294967295 ^^^ 1 <<< bit)).testBit index =
      (value.testBit index && !decide (bit = index)) := by
  have ones : (4294967295 : Nat).testBit index = true := by
    have all : (4294967295 : Nat) = 2 ^ 32 - 1 := rfl
    rw [all, Nat.testBit_two_pow_sub_one]
    exact decide_eq_true inside
  rw [Nat.one_shiftLeft, Nat.testBit_and, Nat.testBit_xor, ones, Nat.testBit_two_pow]
  simp

end KdbOS.Library
