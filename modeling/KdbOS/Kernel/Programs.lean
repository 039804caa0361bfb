import KdbOS.Library.Interleaving
import KdbOS.Library.PagedWords

/-! The programs of `kernel.c`: machine code that writes to the display in a loop. -/

set_option autoImplicit false

namespace KdbOS.Kernel

open Library

/-- `idle_process_code` -/
def idleProcessCode : List UInt8 :=
  [0xC6, 0x05, 0x00, 0x80, 0x0B, 0x00, 0x49,
    0xC6, 0x05, 0x01, 0x80, 0x0B, 0x00, 0x07,
    0xC6, 0x05, 0x02, 0x80, 0x0B, 0x00, 0x44,
    0xC6, 0x05, 0x03, 0x80, 0x0B, 0x00, 0x07,
    0xC6, 0x05, 0x04, 0x80, 0x0B, 0x00, 0x4C,
    0xC6, 0x05, 0x05, 0x80, 0x0B, 0x00, 0x07,
    0xC6, 0x05, 0x06, 0x80, 0x0B, 0x00, 0x45,
    0xC6, 0x05, 0x07, 0x80, 0x0B, 0x00, 0x07,
    0xEB, 0xC6]

/-- `process_one_code` -/
def processOneCode : List UInt8 :=
  [0xC6, 0x05, 0x00, 0x80, 0x0B, 0x00, 0x50,
    0xC6, 0x05, 0x01, 0x80, 0x0B, 0x00, 0x0A,
    0xC6, 0x05, 0x02, 0x80, 0x0B, 0x00, 0x31,
    0xC6, 0x05, 0x03, 0x80, 0x0B, 0x00, 0x0A,
    0xEB, 0xE2]

/-- `process_two_code` -/
def processTwoCode : List UInt8 :=
  [0xC6, 0x05, 0x00, 0x80, 0x0B, 0x00, 0x50,
    0xC6, 0x05, 0x01, 0x80, 0x0B, 0x00, 0x0B,
    0xC6, 0x05, 0x02, 0x80, 0x0B, 0x00, 0x32,
    0xC6, 0x05, 0x03, 0x80, 0x0B, 0x00, 0x0B,
    0xEB, 0xE2]

/-! ## The processor -/

/-- The instructions of the programs. -/
inductive ProgramInstruction where
  /-- `mov byte [address], value` -/
  | movByte (address : UInt32) (value : UInt8)
  /-- `jmp short offset` -/
  | jmpShort (offset : UInt8)
  deriving DecidableEq, Repr

/-- The instruction at `eip`, and the address behind it. The programs have no other opcodes. -/
def decode (paging : Paging) (memory : Memory) (eip : UInt32) :
    Option (ProgramInstruction × UInt32) := do
  let opcode ← paging.byte memory eip
  if opcode = 0xC6 then
    let modRm ← paging.byte memory (eip + 1)
    if modRm = 0x05 then
      let address ← paging.load memory (eip + 2)
      let value ← paging.byte memory (eip + 6)
      some (.movByte address value, eip + 7)
    else none
  else if opcode = 0xEB then
    let offset ← paging.byte memory (eip + 1)
    some (.jmpShort offset, eip + 2)
  else none

def signExtend (offset : UInt8) : UInt32 := UInt32.ofBitVec (offset.toBitVec.signExtend 32)

/-- One instruction. A page fault has no result. -/
def execute (paging : Paging) (memory : Memory) (eip : UInt32) : Option (Memory × UInt32) := do
  let (instruction, next) ← decode paging memory eip
  match instruction with
  | .movByte address value =>
      let memory ← paging.storeByte memory address value
      some (memory, next)
  | .jmpShort offset => some (memory, next + signExtend offset)

/-! ## Store loops -/

/-- Bytes of the display are written, each at an address of its own, and then all over again. The
jump back spans 128 bytes at most. -/
structure StoreLoop where
  stores : List (UInt32 × UInt8)
  short : stores.length ≤ 18
  distinct : (stores.map Prod.fst).Nodup
  display : ∀ store ∈ stores, 0xB8000 ≤ store.1.toNat ∧ store.1.toNat < 0xB8FA0

/-- `mov byte [address], value` as machine code. -/
def movByteCode (store : UInt32 × UInt8) : List UInt8 :=
  [0xC6, 0x05] ++ Paging.wordBytes store.1 ++ [store.2]

namespace StoreLoop

def code (loop : StoreLoop) : List UInt8 :=
  loop.stores.flatMap movByteCode ++ [0xEB, UInt8.ofNat (254 - 7 * loop.stores.length)]

/-- Where the instruction with this number is; they are counted on through all rounds. -/
def address (loop : StoreLoop) (start : UInt32) (count : Nat) : UInt32 :=
  start + UInt32.ofNat (7 * (count % (loop.stores.length + 1)))

/-- What that instruction does; the last one of a round jumps. -/
def effect (loop : StoreLoop) (count : Nat) (memory : Memory) : Memory :=
  match loop.stores[count % (loop.stores.length + 1)]? with
  | some store => memory.store8 store.1.toNat store.2
  | none => memory

end StoreLoop

/-- A text at the left end of the first row, with its attributes. -/
def displayStores (text : List UInt8) (color : UInt8) : List (UInt32 × UInt8) :=
  text.zipIdx.flatMap fun cell =>
    [(UInt32.ofNat (0xB8000 + 2 * cell.2), cell.1),
      (UInt32.ofNat (0xB8000 + 2 * cell.2 + 1), color)]

theorem displayStores_display {text : List UInt8} (short : text.length ≤ 80) (color : UInt8) :
    ∀ store ∈ displayStores text color, 0xB8000 ≤ store.1.toNat ∧ store.1.toNat < 0xB8FA0 := by
  intro store member
  obtain ⟨cell, isCell, isStore⟩ := List.mem_flatMap.mp member
  have inside := (List.getElem?_eq_some_iff.mp (List.mem_zipIdx_iff_getElem?.mp isCell)).1
  rcases List.mem_pair.mp isStore with rfl | rfl
  · rw [UInt32.toNat_ofNat']
    omega
  · rw [UInt32.toNat_ofNat']
    omega

/-- prints IDLE -/
def idleLoop : StoreLoop where
  stores := displayStores [0x49, 0x44, 0x4C, 0x45] 0x07
  short := by decide
  distinct := by decide
  display := displayStores_display (by decide) _

/-- prints P1 -/
def processOneLoop : StoreLoop where
  stores := displayStores [0x50, 0x31] 0x0A
  short := by decide
  distinct := by decide
  display := displayStores_display (by decide) _

/-- prints P2 -/
def processTwoLoop : StoreLoop where
  stores := displayStores [0x50, 0x32] 0x0B
  short := by decide
  distinct := by decide
  display := displayStores_display (by decide) _

theorem programs_code : idleProcessCode = idleLoop.code ∧ processOneCode = processOneLoop.code ∧
    processTwoCode = processTwoLoop.code :=
  ⟨rfl, rfl, rfl⟩

/-! ## One instruction -/

variable {paging : Paging} {memory : Memory} {eip start : UInt32} {store : UInt32 × UInt8}
variable {loop : StoreLoop} {position : Nat}

theorem decode_movByte (placed : paging.BytesAt memory eip (movByteCode store)) :
    decode paging memory eip = some (.movByte store.1 store.2, eip + 7) := by
  rw [movByteCode, Paging.bytesAt_append, Paging.bytesAt_append] at placed
  obtain ⟨⟨⟨opcode, modRm, _⟩, address⟩, value, _⟩ := placed
  have isAddress : paging.load memory (eip + 2) = some store.1 := address.load
  have isValue : paging.byte memory (eip + 6) = some store.2 := value
  simp [decode, opcode, modRm, isAddress, isValue]

theorem decode_jmpShort {offset : UInt8} (placed : paging.BytesAt memory eip [0xEB, offset]) :
    decode paging memory eip = some (.jmpShort offset, eip + 2) := by
  obtain ⟨opcode, isOffset, _⟩ := placed
  simp [decode, opcode, isOffset]

/-! ## One round -/

theorem length_movByteCodes (stores : List (UInt32 × UInt8)) :
    (stores.flatMap movByteCode).length = 7 * stores.length := by
  induction stores with
  | nil => rfl
  | cons store stores ih =>
      rw [List.flatMap_cons, List.length_append, ih, List.length_cons, Nat.mul_succ, Nat.add_comm]
      rfl

/-- Back over a whole round. -/
theorem jump_back {count : Nat} (short : count ≤ 18) (start : UInt32) :
    start + UInt32.ofNat (7 * count) + 2 + signExtend (UInt8.ofNat (254 - 7 * count)) = start := by
  have every : ∀ count ≤ 18,
      UInt32.ofNat (7 * count) + 2 + signExtend (UInt8.ofNat (254 - 7 * count)) = 0 := by
    decide
  rw [UInt32.add_assoc, UInt32.add_assoc, ← UInt32.add_assoc (UInt32.ofNat _), every count short,
    UInt32.add_zero]

namespace StoreLoop

theorem bytesAt_store (placed : paging.BytesAt memory start loop.code)
    (found : loop.stores[position]? = some store) :
    paging.BytesAt memory (start + UInt32.ofNat (7 * position)) (movByteCode store) := by
  obtain ⟨inside, isStore⟩ := List.getElem?_eq_some_iff.mp found
  have split : loop.stores =
      loop.stores.take position ++ store :: loop.stores.drop (position + 1) := by
    rw [← isStore, ← List.drop_eq_getElem_cons inside, List.take_append_drop]
  rw [code, split, List.flatMap_append, List.flatMap_cons, Paging.bytesAt_append,
    Paging.bytesAt_append, length_movByteCodes, List.length_take,
    Nat.min_eq_left (Nat.le_of_lt inside), Paging.bytesAt_append] at placed
  exact placed.1.2.1

theorem bytesAt_jump (placed : paging.BytesAt memory start loop.code) :
    paging.BytesAt memory (start + UInt32.ofNat (7 * loop.stores.length))
      [0xEB, UInt8.ofNat (254 - 7 * loop.stores.length)] := by
  rw [code, Paging.bytesAt_append, length_movByteCodes] at placed
  exact placed.2

/-- In an address space that has the code at `start` and the display where it is. -/
theorem execute (loop : StoreLoop) (count : Nat)
    (placed : paging.BytesAt memory start loop.code)
    (display : ∀ store ∈ loop.stores, paging.locate store.1 = some store.1.toNat) :
    execute paging memory (loop.address start count) =
      some (loop.effect count memory, loop.address start (count + 1)) := by
  have inRound : count % (loop.stores.length + 1) < loop.stores.length + 1 :=
    Nat.mod_lt count (Nat.succ_pos _)
  by_cases inside : count % (loop.stores.length + 1) < loop.stores.length
  · have found := List.getElem?_eq_getElem inside
    have next : (count + 1) % (loop.stores.length + 1) = count % (loop.stores.length + 1) + 1 := by
      rw [← Nat.mod_add_mod, Nat.mod_eq_of_lt (Nat.succ_lt_succ inside)]
    have decoded := decode_movByte (loop.bytesAt_store placed found)
    have stored : paging.storeByte memory loop.stores[count % (loop.stores.length + 1)].1
        loop.stores[count % (loop.stores.length + 1)].2 = some (loop.effect count memory) := by
      rw [Paging.storeByte, display _ (List.getElem_mem inside), effect, found]
      rfl
    rw [Kernel.execute, address, decoded, address, next, Nat.mul_succ, UInt32.ofNat_add,
      ← UInt32.add_assoc]
    simp only [Option.bind_eq_bind, Option.bind_some, stored]
    rfl
  · have last : count % (loop.stores.length + 1) = loop.stores.length := by omega
    have next : (count + 1) % (loop.stores.length + 1) = 0 := by
      rw [← Nat.mod_add_mod, last, Nat.mod_self]
    have decoded := decode_jmpShort (loop.bytesAt_jump placed)
    have none : loop.stores[loop.stores.length]? = none := List.getElem?_eq_none (Nat.le_refl _)
    rw [Kernel.execute, address, last, decoded, address, next, effect, last, none]
    simp only [Option.bind_eq_bind, Option.bind_some, jump_back loop.short]
    exact congrArg (fun eip => some (memory, eip)) (UInt32.add_zero start).symm

end StoreLoop

/-! ## The display after a round -/

def writeStores (stores : List (UInt32 × UInt8)) (memory : Memory) : Memory :=
  stores.foldl (fun memory store => memory.store8 store.1.toNat store.2) memory

theorem writeStores_of_apart {stores : List (UInt32 × UInt8)} {place : Nat}
    (apart : ∀ store ∈ stores, store.1.toNat ≠ place) (memory : Memory) :
    writeStores stores memory place = memory place := by
  induction stores generalizing memory with
  | nil => rfl
  | cons store stores ih =>
      rw [writeStores, List.foldl_cons]
      refine (ih (fun other member => apart other (List.mem_cons_of_mem _ member)) _).trans ?_
      exact Memory.store8_of_ne (apart store List.mem_cons_self).symm

theorem writeStores_of_mem {stores : List (UInt32 × UInt8)}
    (distinct : (stores.map Prod.fst).Nodup) (member : store ∈ stores) (memory : Memory) :
    writeStores stores memory store.1.toNat = store.2 := by
  induction stores generalizing memory with
  | nil => cases member
  | cons first stores ih =>
      rw [List.map_cons, List.nodup_cons] at distinct
      rw [writeStores, List.foldl_cons]
      rcases List.mem_cons.mp member with rfl | later
      · refine (writeStores_of_apart (fun other isLater same => ?_) _).trans
          (Memory.store8_self _)
        exact distinct.1 (List.mem_map.mpr ⟨other, isLater, UInt32.toNat_inj.mp same⟩)
      · exact ih distinct.2 later _

namespace StoreLoop

/-- The effects of steps that stay within a round. -/
theorem effects_eq (loop : StoreLoop) {count times : Nat}
    (isPosition : count % (loop.stores.length + 1) = position)
    (within : position + times ≤ loop.stores.length) (memory : Memory) :
    effects loop.effect count times memory =
      writeStores ((loop.stores.drop position).take times) memory := by
  induction times generalizing count position memory with
  | zero => rfl
  | succ times ih =>
      have inside : position < loop.stores.length := by omega
      have next : (count + 1) % (loop.stores.length + 1) = position + 1 := by
        rw [← Nat.mod_add_mod, isPosition, Nat.mod_eq_of_lt (Nat.succ_lt_succ inside)]
      have found : loop.effect count memory = memory.store8 loop.stores[position].1.toNat
          loop.stores[position].2 := by
        rw [effect, isPosition, List.getElem?_eq_getElem inside]
      rw [effects, ih next (by omega), found, List.drop_eq_getElem_cons inside, List.take_succ_cons]
      rfl

theorem effects_round (loop : StoreLoop) {count : Nat}
    (begins : count % (loop.stores.length + 1) = 0) (memory : Memory) :
    effects loop.effect count loop.stores.length memory = writeStores loop.stores memory := by
  have round := loop.effects_eq begins (Nat.le_of_eq (Nat.zero_add _)) memory
  rw [List.drop_zero, List.take_length] at round
  exact round

end StoreLoop

end KdbOS.Kernel
