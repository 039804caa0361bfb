import KdbOS.Library.ByteMemory

/-! `kmemory.c`: memory primitives and the kernel heap. Block headers live in the
heap region itself: the size at offset 0, the free flag at offset 4 and the address
of the next header at offset 8, with NULL at the end of the list. -/

set_option autoImplicit false

namespace KdbOS.Klibc

open Library

def kmemset (dest : Nat) (val : UInt8) (count : Nat) (memory : Memory) : Memory :=
  (List.range count).foldl (fun memory i => memory.store8 (u32 (dest + i)) val) memory

def kmemcpy (src dest count : Nat) (memory : Memory) : Memory :=
  (List.range count).foldl
    (fun memory i => memory.store8 (u32 (dest + i)) (memory (u32 (src + i)))) memory

/-- `sizeof(MemoryBlockHeader)`. -/
def headerSize : Nat := 12

def blockSize (memory : Memory) (block : Nat) : Nat := memory.load32 block

def blockIsFree (memory : Memory) (block : Nat) : Bool := memory (block + 4) != 0

def blockNext (memory : Memory) (block : Nat) : Nat := memory.load32 (block + 8)

def setSize (block size : Nat) (memory : Memory) : Memory := memory.store32 block size

def setIsFree (block : Nat) (isFree : Bool) (memory : Memory) : Memory :=
  memory.store8 (block + 4) (if isFree then 1 else 0)

def setNext (block next : Nat) (memory : Memory) : Memory := memory.store32 (block + 8) next

def identityMappedCieling : Nat := 0x007FFFFF

/-- `heap_start` is `dynamicHeapStart` from this call on. -/
def kmallocInit (dynamicHeapStart : Nat) (memory : Memory) : Memory :=
  let kernelHeapSize := u32Sub identityMappedCieling dynamicHeapStart
  let memory := setSize dynamicHeapStart (u32Sub kernelHeapSize headerSize) memory
  let memory := setIsFree dynamicHeapStart true memory
  setNext dynamicHeapStart 0 memory

/-- The block that `kmalloc` has chosen is cut to `size` when the rest can hold a
header and four more bytes, and marked as used. -/
def takeBlock (size block : Nat) (memory : Memory) : Nat × Memory :=
  let memory :=
    if blockSize memory block ≥ u32 (size + headerSize + 4) then
      let newBlock := u32 (block + headerSize + size)
      let memory :=
        setSize newBlock (u32Sub (u32Sub (blockSize memory block) size) headerSize) memory
      let memory := setIsFree newBlock true memory
      let memory := setNext newBlock (blockNext memory block) memory
      let memory := setSize block size memory
      setNext block newBlock memory
    else memory
  (u32 (block + headerSize), setIsFree block false memory)

/-- The search of `kmalloc`, or `none` when the list is longer than `fuel`. -/
def kmallocLoop : Nat → Nat → Nat → Memory → Option (Nat × Memory)
  | 0, _, _, _ => none
  | fuel + 1, size, current, memory =>
      if current = 0 then some (0, memory)
      else if blockIsFree memory current ∧ blockSize memory current ≥ size then
        some (takeBlock size current memory)
      else kmallocLoop fuel size (blockNext memory current) memory

/-- Returns the pointer, with 0 for NULL. -/
def kmalloc (fuel heapStart size : Nat) (memory : Memory) : Option (Nat × Memory) :=
  if size = 0 then some (0, memory) else kmallocLoop fuel size heapStart memory

/-- The merging pass of `kfree`, or `none` when it takes longer than `fuel`. -/
def kfreeLoop : Nat → Nat → Memory → Option Memory
  | 0, _, _ => none
  | fuel + 1, current, memory =>
      if current ≠ 0 ∧ blockNext memory current ≠ 0 then
        let next := blockNext memory current
        if blockIsFree memory current ∧ blockIsFree memory next then
          let memory := setSize current (u32 (headerSize + blockSize memory next)) memory
          let memory := setNext current (blockNext memory (blockNext memory current)) memory
          kfreeLoop fuel current memory
        else kfreeLoop fuel next memory
      else some memory

def kfree (fuel heapStart ptr : Nat) (memory : Memory) : Option Memory :=
  if ptr = 0 then some memory
  else kfreeLoop fuel heapStart (setIsFree (u32Sub ptr headerSize) true memory)

end KdbOS.Klibc
