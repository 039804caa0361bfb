import Mathlib.Algebra.Order.Group.Nat
import Mathlib.Data.Nat.Basic

/-! Numerals of a fixed width in any base, and reading them back. -/

set_option autoImplicit false

namespace KdbOS.Library

variable {Symbol : Type}

/-- The last `width` digits of a number, the highest one first. -/
def numeral (symbol : Nat → Symbol) (base : Nat) : Nat → Nat → List Symbol
  | 0, _ => []
  | width + 1, value => numeral symbol base width (value / base) ++ [symbol (value % base)]

/-- The number that a numeral stands for, or `none` where a symbol is no digit. -/
def readNumeral (digit : Symbol → Option Nat) (base : Nat) (symbols : List Symbol) : Option Nat :=
  symbols.foldlM (fun value symbol => (digit symbol).map (value * base + ·)) 0

variable {symbol : Nat → Symbol} {digit : Symbol → Option Nat} {base width value : Nat}

@[simp] theorem numeral_length : (numeral symbol base width value).length = width := by
  induction width generalizing value with
  | zero => rfl
  | succ width ih => rw [numeral, List.length_append, ih, List.length_singleton]

theorem mem_numeral {member : Symbol} (positive : 0 < base)
    (inside : member ∈ numeral symbol base width value) : ∃ d < base, member = symbol d := by
  induction width generalizing value with
  | zero => cases inside
  | succ width ih =>
      rcases List.mem_append.mp inside with front | last
      · exact ih front
      · exact ⟨value % base, Nat.mod_lt _ positive, List.mem_singleton.mp last⟩

/-- Counted from the highest one, digit `i` has the weight `base ^ (width - 1 - i)`. -/
theorem getElem_numeral {i : Nat} (inside : i < (numeral symbol base width value).length) :
    (numeral symbol base width value)[i] =
      symbol (value / base ^ (width - 1 - i) % base) := by
  induction width generalizing value with
  | zero => cases inside
  | succ width ih =>
      rw [numeral_length] at inside
      simp only [numeral]
      by_cases last : i = width
      · subst last
        rw [List.getElem_append_right (by simp)]
        simp
      · have front : i < (numeral symbol base width (value / base)).length := by
          rw [numeral_length]
          omega
        have weight : width + 1 - 1 - i = width - 1 - i + 1 := by omega
        rw [List.getElem_append_left front, ih front, Nat.div_div_eq_div_mul, weight, Nat.pow_succ']

theorem numeral_eq_map :
    numeral symbol base width value =
      (List.range' 0 width).map fun i => symbol (value / base ^ (width - 1 - i) % base) := by
  refine List.ext_getElem (by simp) fun i inside _ => ?_
  rw [getElem_numeral, List.getElem_map, List.getElem_range', Nat.one_mul, Nat.zero_add]

/-- A numeral whose symbols read as their digits reads as the number, up to the digits that
its width has no room for. -/
theorem readNumeral_numeral (positive : 0 < base)
    (reads : ∀ d < base, digit (symbol d) = some d) :
    readNumeral digit base (numeral symbol base width value) = some (value % base ^ width) := by
  induction width generalizing value with
  | zero => rw [pow_zero, Nat.mod_one]; rfl
  | succ width ih =>
      have front := @ih (value / base)
      unfold readNumeral at front ⊢
      rw [numeral, List.foldlM_append, front]
      have last := reads _ (Nat.mod_lt value positive)
      have split : value % base ^ (width + 1) =
          value / base % base ^ width * base + value % base := by
        rw [Nat.pow_succ', Nat.mod_mul, Nat.add_comm, Nat.mul_comm]
      simp only [List.foldlM_cons, List.foldlM_nil, last, Option.map_some, split]
      rfl

theorem readNumeral_of_lt (positive : 0 < base) (reads : ∀ d < base, digit (symbol d) = some d)
    (fits : value < base ^ width) :
    readNumeral digit base (numeral symbol base width value) = some value := by
  rw [readNumeral_numeral positive reads, Nat.mod_eq_of_lt fits]

end KdbOS.Library
