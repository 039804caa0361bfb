import KdbOS.Arch.Io
import KdbOS.Library.Runs
import Mathlib.Data.Nat.Bitwise

/-! `pic.c`, and the two interrupt controllers behind its ports: the master, and the slave at
the master's line 2. Lines 8 to 15 are those of the slave. -/

set_option autoImplicit false

namespace KdbOS.Arch

open Library

def pic1Command : Nat := 0x20

def pic1Data : Nat := 0x21

def pic2Command : Nat := 0xA0

def pic2Data : Nat := 0xA1

def icw1Init : Nat := 0x11

def icw48086 : Nat := 0x01

def picEoi : Nat := 0x20

/-- `io_wait`. -/
def ioWait : Nat × Nat := (0x80, 0)

/-- The writes of `pic_remap`; the arguments are what its two reads return. -/
def picRemap (mask1 mask2 : UInt8) : PortWrites :=
  [(pic1Command, icw1Init), ioWait, (pic2Command, icw1Init), ioWait,
    (pic1Data, 0x20), ioWait, (pic2Data, 0x28), ioWait,
    (pic1Data, 0x04), ioWait, (pic2Data, 0x02), ioWait,
    (pic1Data, icw48086), ioWait, (pic2Data, icw48086), ioWait,
    (pic1Data, mask1.toNat), (pic2Data, mask2.toNat)]

/-- The port that `pic_set_irq_mask` reads and writes. -/
def maskPort (irqLine : UInt8) : Nat := if irqLine < 8 then pic1Data else pic2Data

/-- `1 << irq_line`, as far as it fits the register. -/
def maskBit (irqLine : UInt8) : UInt8 :=
  ((1 : UInt32) <<< (if irqLine < 8 then irqLine else irqLine - 8).toUInt32).toUInt8

/-- The new value of the mask. -/
def changedMask (irqLine : UInt8) (masked : Bool) (value : UInt8) : UInt8 :=
  if masked then value ||| maskBit irqLine else value &&& ~~~maskBit irqLine

/-- The write of `pic_set_irq_mask`; `value` is what the read returns. -/
def picSetIrqMask (irqLine : UInt8) (masked : Bool) (value : UInt8) : PortWrites :=
  [(maskPort irqLine, (changedMask irqLine masked value).toNat)]

/-! ## The controllers -/

/-- The word that the data port expects. -/
inductive InitStep where
  | ready | icw2 | icw3 | icw4
  deriving DecidableEq, Repr

structure PicChip where
  initStep : InitStep
  needsIcw4 : Bool
  single : Bool
  vectorOffset : UInt8
  cascade : UInt8
  mode8086 : Bool
  mask : UInt8
  requests : UInt8
  inService : UInt8
  deriving DecidableEq, Repr

namespace PicChip

/-- After ICW1, a request has to be raised anew. -/
def startInit (value : UInt8) (chip : PicChip) : PicChip :=
  { chip with
    initStep := .icw2
    needsIcw4 := value &&& 0x01 ≠ 0
    single := value &&& 0x02 ≠ 0
    mode8086 := false
    mask := 0
    requests := 0 }

/-- The command port: ICW1, or the end of interrupt for the line of the highest priority in
service. The kernel sends no other command. -/
def command (value : UInt8) (chip : PicChip) : PicChip :=
  if value &&& 0x10 ≠ 0 then chip.startInit value
  else if value &&& 0xF8 = 0x20 then
    { chip with inService := chip.inService &&& (chip.inService - 1) }
  else chip

def data (value : UInt8) (chip : PicChip) : PicChip :=
  match chip.initStep with
  | .ready => { chip with mask := value }
  | .icw2 =>
      { chip with
        vectorOffset := value &&& 0xF8
        initStep := if chip.single then (if chip.needsIcw4 then .icw4 else .ready) else .icw3 }
  | .icw3 => { chip with cascade := value, initStep := if chip.needsIcw4 then .icw4 else .ready }
  | .icw4 => { chip with mode8086 := value &&& 0x01 ≠ 0, initStep := .ready }

end PicChip

structure Pics where
  master : PicChip
  slave : PicChip
  deriving DecidableEq, Repr

namespace Pics

def outb (pics : Pics) (write : Nat × Nat) : Pics :=
  if write.1 = pic1Command then
    { pics with master := pics.master.command (UInt8.ofNat write.2) }
  else if write.1 = pic1Data then { pics with master := pics.master.data (UInt8.ofNat write.2) }
  else if write.1 = pic2Command then
    { pics with slave := pics.slave.command (UInt8.ofNat write.2) }
  else if write.1 = pic2Data then { pics with slave := pics.slave.data (UInt8.ofNat write.2) }
  else pics

/-- A read of a data port. -/
def inb (pics : Pics) (port : Nat) : UInt8 :=
  if port = pic1Data then pics.master.mask else pics.slave.mask

def outbs (pics : Pics) (writes : PortWrites) : Pics := writes.foldl outb pics

/-- `pic_remap` with its reads. -/
def remap (pics : Pics) : Pics := pics.outbs (picRemap (pics.inb pic1Data) (pics.inb pic2Data))

/-- `pic_set_irq_mask` with its read. -/
def setIrqMask (pics : Pics) (irqLine : UInt8) (masked : Bool) : Pics :=
  pics.outbs (picSetIrqMask irqLine masked (pics.inb (maskPort irqLine)))

/-- The bit of a line in a register of its own controller. -/
def lineBit (master slave : UInt8) (line : Fin 16) : Bool :=
  if line.val < 8 then master.toNat.testBit line.val else slave.toNat.testBit (line.val - 8)

/-- Whether a line is masked at its own controller. -/
def masked (pics : Pics) (line : Fin 16) : Bool := lineBit pics.master.mask pics.slave.mask line

/-- The interrupt vector of a line. -/
def vector (pics : Pics) (line : Fin 16) : UInt8 :=
  if line.val < 8 then pics.master.vectorOffset + UInt8.ofNat line.val
  else pics.slave.vectorOffset + UInt8.ofNat (line.val - 8)

def setBit (value : UInt8) (index : Nat) : UInt8 := value ||| UInt8.ofNat (2 ^ index)

def clearBit (value : UInt8) (index : Nat) : UInt8 := value &&& ~~~UInt8.ofNat (2 ^ index)

/-- A device raises a line. -/
def raise (pics : Pics) (line : Fin 16) : Pics :=
  if line.val < 8 then
    { pics with master := { pics.master with requests := setBit pics.master.requests line.val } }
  else
    { pics with slave := { pics.slave with requests := setBit pics.slave.requests (line.val - 8) } }

def requested (pics : Pics) (line : Fin 16) : Bool :=
  lineBit pics.master.requests pics.slave.requests line

/-- The processor takes the interrupt: the line is in service, on both controllers if it is one
of the slave's. -/
def acknowledge (pics : Pics) (line : Fin 16) : Pics :=
  if line.val < 8 then
    { pics with
      master := { pics.master with
        requests := clearBit pics.master.requests line.val
        inService := setBit pics.master.inService line.val } }
  else
    { master := { pics.master with inService := setBit pics.master.inService 2 }
      slave := { pics.slave with
        requests := clearBit pics.slave.requests (line.val - 8)
        inService := setBit pics.slave.inService (line.val - 8) } }

/-! ## Bits -/

private theorem testBit_bit {index place : Nat} (small : index < 8) :
    (UInt8.ofNat (2 ^ index)).toNat.testBit place = decide (index = place) := by
  have bounded : 2 ^ index < 256 := Nat.pow_lt_pow_right (by decide : 1 < 2) small
  rw [UInt8.toNat_ofNat', Nat.mod_eq_of_lt bounded, Nat.testBit_two_pow]

theorem testBit_setBit {index : Nat} (small : index < 8) (value : UInt8) (place : Nat) :
    (setBit value index).toNat.testBit place =
      (value.toNat.testBit place || decide (index = place)) := by
  rw [setBit, UInt8.toNat_or, Nat.testBit_or, testBit_bit small]

theorem testBit_clearBit {index place : Nat} (small : index < 8) (inside : place < 8)
    (value : UInt8) :
    (clearBit value index).toNat.testBit place =
      (value.toNat.testBit place && !decide (index = place)) := by
  have flipped : (~~~UInt8.ofNat (2 ^ index)).toNat.testBit place = !decide (index = place) := by
    rw [← testBit_bit small, ← UInt8.toNat_toBitVec, ← UInt8.toNat_toBitVec, BitVec.testBit_toNat,
      BitVec.testBit_toNat, UInt8.toBitVec_not, BitVec.getLsbD_not, decide_eq_true inside,
      Bool.true_and]
  rw [clearBit, UInt8.toNat_and, Nat.testBit_and, flipped]

/-- Lines from 16 on have no bit. -/
theorem maskBit_eq (irqLine : UInt8) (few : irqLine.toNat < 39) :
    maskBit irqLine = if irqLine.toNat < 8 then UInt8.ofNat (2 ^ irqLine.toNat)
      else if irqLine.toNat < 16 then UInt8.ofNat (2 ^ (irqLine.toNat - 8)) else 0 := by
  have all : ∀ number : Fin 256, number.val < 39 → maskBit (UInt8.ofFin number) =
      if number.val < 8 then UInt8.ofNat (2 ^ number.val)
        else if number.val < 16 then UInt8.ofNat (2 ^ (number.val - 8)) else 0 := by
    decide +kernel
  exact all irqLine.toFin few

theorem testBit_changedMask {irqLine : UInt8} {place : Nat} (few : irqLine.toNat < 39)
    (inside : place < 8) (masked : Bool) (value : UInt8) :
    (changedMask irqLine masked value).toNat.testBit place =
      if irqLine.toNat = place ∨ irqLine.toNat = place + 8 then masked
      else value.toNat.testBit place := by
  have changed {index : Nat} (small : index < 8) (bit : maskBit irqLine = UInt8.ofNat (2 ^ index)) :
      (changedMask irqLine masked value).toNat.testBit place =
        if index = place then masked else value.toNat.testBit place := by
    unfold changedMask
    rw [bit]
    cases masked with
    | true =>
        rw [if_pos rfl]
        refine (testBit_setBit small value place).trans ?_
        by_cases same : index = place
        · rw [if_pos same, decide_eq_true same, Bool.or_true]
        · rw [if_neg same, decide_eq_false same, Bool.or_false]
    | false =>
        rw [if_neg Bool.false_ne_true]
        refine (testBit_clearBit small inside value).trans ?_
        by_cases same : index = place
        · rw [if_pos same, decide_eq_true same, Bool.not_true, Bool.and_false]
        · rw [if_neg same, decide_eq_false same, Bool.not_false, Bool.and_true]
  have bit := maskBit_eq irqLine few
  by_cases low : irqLine.toNat < 8
  · rw [if_pos low] at bit
    rw [changed low bit]
    exact if_congr (by omega) rfl rfl
  · rw [if_neg low] at bit
    by_cases high : irqLine.toNat < 16
    · rw [if_pos high] at bit
      rw [changed (by omega) bit]
      exact if_congr (by omega) rfl rfl
    · rw [if_neg high] at bit
      have same : changedMask irqLine masked value = value := by
        unfold changedMask
        rw [bit]
        cases masked with
        | true => exact UInt8.or_zero
        | false => exact UInt8.and_neg_one
      rw [same, if_neg (by omega)]

/-- A register of the master changes at most at one line. -/
theorem lineBit_master {master after slave : UInt8} {changed : Nat} {value : Bool}
    (bits : ∀ place < 8, after.toNat.testBit place =
      if changed = place then value else master.toNat.testBit place) (low : changed < 8)
    (line : Fin 16) :
    lineBit after slave line = if line.val = changed then value else lineBit master slave line := by
  unfold lineBit
  by_cases inside : line.val < 8
  · simp only [if_pos inside]
    rw [bits _ inside]
    exact if_congr eq_comm rfl rfl
  · simp only [if_neg inside]
    exact (if_neg (by omega)).symm

theorem lineBit_slave {master slave after : UInt8} {changed : Nat} {value : Bool}
    (bits : ∀ place < 8, after.toNat.testBit place =
      if changed = place + 8 then value else slave.toNat.testBit place) (high : 8 ≤ changed)
    (line : Fin 16) :
    lineBit master after line = if line.val = changed then value else lineBit master slave line := by
  have lineLt := line.isLt
  unfold lineBit
  by_cases inside : line.val < 8
  · simp only [if_pos inside]
    exact (if_neg (by omega)).symm
  · simp only [if_neg inside]
    rw [bits _ (by omega)]
    exact if_congr (by omega) rfl rfl

/-! ## The set-up -/

/-- The words that each controller gets. -/
theorem remap_words (pics : Pics) :
    pics.remap =
      ⟨((((pics.master.command 0x11).data 0x20).data 0x04).data 0x01).data
          (UInt8.ofNat pics.master.mask.toNat),
        ((((pics.slave.command 0x11).data 0x28).data 0x02).data 0x01).data
          (UInt8.ofNat pics.slave.mask.toNat)⟩ := rfl

/-- Whatever the controller was doing, an initialisation included. -/
theorem initialised (chip : PicChip) (vectorOffset cascade mask : UInt8) :
    ((((chip.command 0x11).data vectorOffset).data cascade).data 0x01).data mask =
      ⟨.ready, true, false, vectorOffset &&& 0xF8, cascade, true, mask, 0, chip.inService⟩ := rfl

theorem remap_eq (pics : Pics) :
    pics.remap =
      ⟨⟨.ready, true, false, 0x20, 0x04, true, pics.master.mask, 0, pics.master.inService⟩,
        ⟨.ready, true, false, 0x28, 0x02, true, pics.slave.mask, 0, pics.slave.inService⟩⟩ := by
  rw [remap_words, initialised, initialised, UInt8.ofNat_toNat, UInt8.ofNat_toNat]
  rfl

/-- Requested, not masked on the way, and not behind a line in service. -/
def deliverable (pics : Pics) (line : Fin 16) : Bool :=
  pics.requested line && !pics.masked line &&
    if line.val < 8 then pics.master.inService.toNat % 2 ^ (line.val + 1) == 0
    else !pics.masked 2 && pics.master.inService.toNat % 2 ^ 3 == 0 &&
      pics.slave.inService.toNat % 2 ^ (line.val - 8 + 1) == 0

end Pics

/-- What the kernel and the devices do to the controllers. A line in service gets its end of
interrupt from the handler, before anything else is in service. -/
inductive PicOp where
  | setIrqMask (irqLine : UInt8) (masked : Bool)
  /-- Both masks at once, as after `init_keyboard`. -/
  | writeMasks (mask1 mask2 : UInt8)
  | raise (line : Fin 16)
  | service (line : Fin 16)
  deriving DecidableEq, Repr

def PicOp.perform (pics : Pics) : PicOp → Pics
  | setIrqMask irqLine masked => pics.setIrqMask irqLine masked
  | writeMasks mask1 mask2 => pics.outbs [(pic1Data, mask1.toNat), (pic2Data, mask2.toNat)]
  | raise line => pics.raise line
  | service line => (pics.acknowledge line).outbs (picSendEoi line)

/-- The shift of the mask bit stays inside an `int`. -/
def PicOp.Allowed : PicOp → Prop
  | setIrqMask irqLine _ => irqLine.toNat < 39
  | _ => True

/-- The sixteen lines, with nothing in service. -/
structure Lines where
  masked : Fin 16 → Bool
  requested : Fin 16 → Bool

namespace Lines

def deliverable (lines : Lines) (line : Fin 16) : Bool :=
  lines.requested line && !lines.masked line && (decide (line.val < 8) || !lines.masked 2)

def perform (lines : Lines) : PicOp → Lines
  | .setIrqMask irqLine masked =>
      { lines with masked := fun line =>
          if line.val = irqLine.toNat then masked else lines.masked line }
  | .writeMasks mask1 mask2 => { lines with masked := Pics.lineBit mask1 mask2 }
  | .raise line => { lines with requested := Function.update lines.requested line true }
  | .service line => { lines with requested := Function.update lines.requested line false }

end Lines

/-- The controllers show sixteen independent lines to the processor. -/
structure ShowsLines (pics : Pics) (lines : Lines) : Prop where
  ready : pics.master.initStep = .ready ∧ pics.slave.initStep = .ready
  offsets : pics.master.vectorOffset = 0x20 ∧ pics.slave.vectorOffset = 0x28
  idle : pics.master.inService = 0 ∧ pics.slave.inService = 0
  masked : ∀ line, pics.masked line = lines.masked line
  requested : ∀ line, pics.requested line = lines.requested line

variable {pics : Pics} {lines : Lines}

theorem ShowsLines.vector (shows : ShowsLines pics lines) (line : Fin 16) :
    (pics.vector line).toNat = 32 + line.val := by
  have inside := line.isLt
  rw [Pics.vector, shows.offsets.1, shows.offsets.2]
  split
  case isTrue low =>
    rw [UInt8.toNat_add, UInt8.toNat_ofNat', show (0x20 : UInt8).toNat = 32 from rfl]
    omega
  case isFalse high =>
    rw [UInt8.toNat_add, UInt8.toNat_ofNat', show (0x28 : UInt8).toNat = 40 from rfl]
    omega

theorem ShowsLines.deliverable (shows : ShowsLines pics lines) (line : Fin 16) :
    pics.deliverable line = lines.deliverable line := by
  rw [Pics.deliverable, Lines.deliverable, shows.masked, shows.masked, shows.requested,
    shows.idle.1, shows.idle.2]
  by_cases low : line.val < 8
  · simp [low]
  · simp [low]

theorem PicChip.data_ready {chip : PicChip} (ready : chip.initStep = .ready) (value : UInt8) :
    chip.data value = { chip with mask := value } := by
  rw [PicChip.data, ready]

theorem Pics.setIrqMask_eq (ready : pics.master.initStep = .ready ∧ pics.slave.initStep = .ready)
    (irqLine : UInt8) (masked : Bool) :
    pics.setIrqMask irqLine masked =
      if irqLine < 8 then
        { pics with master := { pics.master with
          mask := changedMask irqLine masked pics.master.mask } }
      else
        { pics with slave := { pics.slave with
          mask := changedMask irqLine masked pics.slave.mask } } := by
  unfold Pics.setIrqMask picSetIrqMask maskPort
  split
  · have written : pics.outbs [(pic1Data, (changedMask irqLine masked (pics.inb pic1Data)).toNat)] =
        { pics with
          master := pics.master.data
            (UInt8.ofNat (changedMask irqLine masked pics.master.mask).toNat) } := rfl
    rw [written, PicChip.data_ready ready.1, UInt8.ofNat_toNat]
  · have written : pics.outbs [(pic2Data, (changedMask irqLine masked (pics.inb pic2Data)).toNat)] =
        { pics with
          slave := pics.slave.data
            (UInt8.ofNat (changedMask irqLine masked pics.slave.mask).toNat) } := rfl
    rw [written, PicChip.data_ready ready.2, UInt8.ofNat_toNat]

theorem ShowsLines.setIrqMask (shows : ShowsLines pics lines) {irqLine : UInt8} (masked : Bool)
    (few : irqLine.toNat < 39) :
    ShowsLines (pics.setIrqMask irqLine masked) (lines.perform (.setIrqMask irqLine masked)) := by
  have number : irqLine < 8 ↔ irqLine.toNat < 8 := UInt8.lt_iff_toNat_lt
  rw [Pics.setIrqMask_eq shows.ready]
  by_cases low : irqLine < 8
  · have lowNumber := number.mp low
    have bits (place : Nat) (inside : place < 8) :
        (changedMask irqLine masked pics.master.mask).toNat.testBit place =
          if irqLine.toNat = place then masked else pics.master.mask.toNat.testBit place := by
      rw [Pics.testBit_changedMask few inside]
      exact if_congr (by omega) rfl rfl
    rw [if_pos low]
    refine ⟨shows.ready, shows.offsets, shows.idle, fun line => ?_, shows.requested⟩
    exact (Pics.lineBit_master bits lowNumber line).trans (congrArg (ite _ _) (shows.masked line))
  · have highNumber : 8 ≤ irqLine.toNat := Nat.not_lt.mp fun below => low (number.mpr below)
    have bits (place : Nat) (inside : place < 8) :
        (changedMask irqLine masked pics.slave.mask).toNat.testBit place =
          if irqLine.toNat = place + 8 then masked else pics.slave.mask.toNat.testBit place := by
      rw [Pics.testBit_changedMask few inside]
      exact if_congr (by omega) rfl rfl
    rw [if_neg low]
    refine ⟨shows.ready, shows.offsets, shows.idle, fun line => ?_, shows.requested⟩
    exact (Pics.lineBit_slave bits highNumber line).trans (congrArg (ite _ _) (shows.masked line))

theorem ShowsLines.writeMasks (shows : ShowsLines pics lines) (mask1 mask2 : UInt8) :
    ShowsLines ((PicOp.writeMasks mask1 mask2).perform pics)
      (lines.perform (.writeMasks mask1 mask2)) := by
  have written : (PicOp.writeMasks mask1 mask2).perform pics =
      ⟨pics.master.data (UInt8.ofNat mask1.toNat), pics.slave.data (UInt8.ofNat mask2.toNat)⟩ := rfl
  rw [written, PicChip.data_ready shows.ready.1, PicChip.data_ready shows.ready.2,
    UInt8.ofNat_toNat, UInt8.ofNat_toNat]
  exact ⟨shows.ready, shows.offsets, shows.idle, fun _ => rfl, shows.requested⟩

private theorem update_line {value : Bool} {line other : Fin 16} {old : Bool}
    (before : old = lines.requested other) :
    (if other.val = line.val then value else old) =
      Function.update lines.requested line value other := by
  rw [Function.update_apply, before]
  exact if_congr Fin.val_inj rfl rfl

theorem ShowsLines.raise (shows : ShowsLines pics lines) (line : Fin 16) :
    ShowsLines (pics.raise line) (lines.perform (.raise line)) := by
  unfold Pics.raise
  split
  case isTrue low =>
    have bits (place : Nat) (_ : place < 8) :
        (Pics.setBit pics.master.requests line.val).toNat.testBit place =
          if line.val = place then true else pics.master.requests.toNat.testBit place := by
      rw [Pics.testBit_setBit low]
      by_cases same : line.val = place <;> simp [same]
    exact ⟨shows.ready, shows.offsets, shows.idle, shows.masked, fun other =>
      (Pics.lineBit_master bits low other).trans (update_line (shows.requested other))⟩
  case isFalse high =>
    have bits (place : Nat) (_ : place < 8) :
        (Pics.setBit pics.slave.requests (line.val - 8)).toNat.testBit place =
          if line.val = place + 8 then true else pics.slave.requests.toNat.testBit place := by
      rw [Pics.testBit_setBit (by omega)]
      by_cases same : line.val = place + 8
      · simp [same]
      · simp [same, show line.val - 8 ≠ place by omega]
    exact ⟨shows.ready, shows.offsets, shows.idle, shows.masked, fun other =>
      (Pics.lineBit_slave bits (Nat.not_lt.mp high) other).trans (update_line (shows.requested other))⟩

/-- The bit that the end of interrupt clears is the only one. -/
private theorem endOfInterrupt_single {index : Nat} (small : index < 8) :
    Pics.setBit 0 index &&& (Pics.setBit 0 index - 1) = 0 := by
  have all : ∀ index : Fin 8, Pics.setBit 0 index.val &&& (Pics.setBit 0 index.val - 1) = 0 := by
    decide
  exact all ⟨index, small⟩

theorem ShowsLines.service (shows : ShowsLines pics lines) (line : Fin 16) :
    ShowsLines ((PicOp.service line).perform pics) (lines.perform (.service line)) := by
  have performed : (PicOp.service line).perform pics =
      (pics.acknowledge line).outbs (picSendEoi line.val) := rfl
  rw [performed]
  unfold Pics.acknowledge
  by_cases low : line.val < 8
  · have bits (place : Nat) (inside : place < 8) :
        (Pics.clearBit pics.master.requests line.val).toNat.testBit place =
          if line.val = place then false else pics.master.requests.toNat.testBit place := by
      rw [Pics.testBit_clearBit low inside]
      by_cases same : line.val = place <;> simp [same]
    have eoi : picSendEoi line.val = [(0x20, 0x20)] := by
      rw [picSendEoi, if_neg (by omega)]
      rfl
    rw [if_pos low, eoi]
    refine ⟨shows.ready, shows.offsets, ⟨?_, shows.idle.2⟩, shows.masked, fun other =>
      (Pics.lineBit_master bits low other).trans (update_line (shows.requested other))⟩
    show Pics.setBit pics.master.inService line.val &&&
      (Pics.setBit pics.master.inService line.val - 1) = 0
    rw [shows.idle.1]
    exact endOfInterrupt_single low
  · have lineLt := line.isLt
    have bits (place : Nat) (inside : place < 8) :
        (Pics.clearBit pics.slave.requests (line.val - 8)).toNat.testBit place =
          if line.val = place + 8 then false else pics.slave.requests.toNat.testBit place := by
      rw [Pics.testBit_clearBit (by omega) inside]
      by_cases same : line.val = place + 8
      · simp [same]
      · simp [same, show line.val - 8 ≠ place by omega]
    have eoi : picSendEoi line.val = [(0xA0, 0x20), (0x20, 0x20)] := by
      rw [picSendEoi, if_pos (by omega)]
      rfl
    rw [if_neg low, eoi]
    refine ⟨shows.ready, shows.offsets, ⟨?_, ?_⟩, shows.masked, fun other =>
      (Pics.lineBit_slave bits (Nat.not_lt.mp low) other).trans (update_line (shows.requested other))⟩
    · show Pics.setBit pics.master.inService 2 &&& (Pics.setBit pics.master.inService 2 - 1) = 0
      rw [shows.idle.1]
      exact endOfInterrupt_single (by decide)
    · show Pics.setBit pics.slave.inService (line.val - 8) &&&
        (Pics.setBit pics.slave.inService (line.val - 8) - 1) = 0
      rw [shows.idle.2]
      exact endOfInterrupt_single (by omega)

theorem ShowsLines.perform (shows : ShowsLines pics lines) {op : PicOp} (allowed : op.Allowed) :
    ShowsLines (op.perform pics) (lines.perform op) := by
  cases op with
  | setIrqMask irqLine masked => exact shows.setIrqMask masked allowed
  | writeMasks mask1 mask2 => exact shows.writeMasks mask1 mask2
  | raise line => exact shows.raise line
  | service line => exact shows.service line

theorem ShowsLines.run {ops : List PicOp} (shows : ShowsLines pics lines)
    (allowed : ∀ op ∈ ops, op.Allowed) :
    ShowsLines (ops.foldl PicOp.perform pics) (ops.foldl Lines.perform lines) := by
  induction ops generalizing pics lines with
  | nil => exact shows
  | cons op ops ih =>
      exact ih (shows.perform (allowed op List.mem_cons_self))
        fun other member => allowed other (List.mem_cons_of_mem _ member)

/-- The masks of `_init_isr`, from a master that waits for a third word. -/
def samplePics : Pics :=
  ⟨⟨.icw3, true, false, 0x08, 0, false, 0xB8, 1, 0⟩, ⟨.ready, false, false, 0x70, 0, false, 0x8E, 0, 0⟩⟩

end KdbOS.Arch
