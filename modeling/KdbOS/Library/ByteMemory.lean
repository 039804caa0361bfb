import KdbOS.Library.Word
import Mathlib.Data.Set.Function
import Mathlib.Order.Interval.Set.Basic

/-! Byte-addressed memory with little-endian 32-bit words. A memory is a total
function, so a store is a function update and a frame condition is equality
on a set of addresses. -/

set_option autoImplicit false

namespace KdbOS.Library

abbrev Memory := Nat → UInt8

namespace Memory

def store8 (memory : Memory) (address : Nat) (value : UInt8) : Memory :=
  fun at_ => if at_ = address then value else memory at_

def load32 (memory : Memory) (address : Nat) : Nat :=
  (memory address).toNat + (memory (address + 1)).toNat * 256 +
    (memory (address + 2)).toNat * 65536 + (memory (address + 3)).toNat * 16777216

def store32 (memory : Memory) (address value : Nat) : Memory :=
  fun at_ =>
    if at_ = address then UInt8.ofNat value
    else if at_ = address + 1 then UInt8.ofNat (value / 256)
    else if at_ = address + 2 then UInt8.ofNat (value / 65536)
    else if at_ = address + 3 then UInt8.ofNat (value / 16777216)
    else memory at_

variable {memory other : Memory} {address target value : Nat}

@[simp] theorem store8_self (byte : UInt8) : store8 memory address byte address = byte := by
  simp [store8]

theorem store8_of_ne {byte : UInt8} (different : target ≠ address) :
    store8 memory address byte target = memory target := by
  simp [store8, different]

theorem load32_lt (memory : Memory) (address : Nat) : load32 memory address < 4294967296 := by
  have first := (memory address).toNat_lt
  have second := (memory (address + 1)).toNat_lt
  have third := (memory (address + 2)).toNat_lt
  have fourth := (memory (address + 3)).toNat_lt
  unfold load32
  omega

@[simp] theorem load32_store32_self (memory : Memory) (address value : Nat) :
    load32 (store32 memory address value) address = u32 value := by
  have second : address + 1 ≠ address := by omega
  have third : address + 2 ≠ address ∧ address + 2 ≠ address + 1 := by omega
  have fourth : address + 3 ≠ address ∧ address + 3 ≠ address + 1 ∧
      address + 3 ≠ address + 2 := by omega
  simp only [load32, store32, ↓reduceIte, second, third.1, third.2, fourth.1, fourth.2.1,
    fourth.2.2, UInt8.toNat_ofNat', u32]
  omega

theorem store32_of_outside (outside : target < address ∨ address + 4 ≤ target) :
    store32 memory address value target = memory target := by
  have first : target ≠ address := by omega
  have second : target ≠ address + 1 := by omega
  have third : target ≠ address + 2 := by omega
  have fourth : target ≠ address + 3 := by omega
  simp only [store32, first, second, third, fourth, ↓reduceIte]

/-- A word depends only on its own four bytes. -/
theorem load32_congr
    (agree : ∀ at_, address ≤ at_ → at_ < address + 4 → memory at_ = other at_) :
    load32 memory address = load32 other address := by
  simp only [load32, agree address (by omega) (by omega), agree (address + 1) (by omega) (by omega),
    agree (address + 2) (by omega) (by omega), agree (address + 3) (by omega) (by omega)]

theorem load32_store32_of_disjoint
    (disjoint : address + 4 ≤ target ∨ target + 4 ≤ address) :
    load32 (store32 memory address value) target = load32 memory target := by
  apply load32_congr
  intro at_ lower upper
  exact store32_of_outside (by omega)

theorem load32_store8_of_outside {byte : UInt8}
    (outside : address < target ∨ target + 4 ≤ address) :
    load32 (store8 memory address byte) target = load32 memory target := by
  apply load32_congr
  intro at_ lower upper
  exact store8_of_ne (by omega)

/-- The bytes from `start` up to `finish` are the same in both memories. -/
def SameOn (memory other : Memory) (start finish : Nat) : Prop :=
  ∀ at_, start ≤ at_ → at_ < finish → memory at_ = other at_

/-- The bytes outside `[start, finish)` are the same in both memories. -/
def SameOutside (memory other : Memory) (start finish : Nat) : Prop :=
  ∀ at_, (at_ < start ∨ finish ≤ at_) → memory at_ = other at_

end Memory

end KdbOS.Library
