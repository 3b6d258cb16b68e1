import Mathlib.Algebra.Group.Nat.Defs
import M68000.Operand
import M68000.Proofs.Registers.Values

/-!
# Checked arithmetic

A machine word holds so many values and no more, and a table has so many entries. Here an operation
on words answers nothing if its result does not fit, if a divisor is zero or if an operand is
shifted by its whole width, and neither does a table for an index past its end. What is said of
operand sizes and registers elsewhere is computed again from these operations, and never fails.
-/

namespace M68000

/-- How a computation can fail. -/
inductive Failure where
  /-- A result does not fit. -/
  | overflow
  /-- An operand is shifted by its width or more. -/
  | shift
  /-- A divisor is zero, or a quotient does not fit. -/
  | division
  /-- A table has no such entry. -/
  | index
  /-- A sum in packed decimal cannot be corrected. -/
  | decimalSum (destination source : BitVec 8)
  deriving DecidableEq

/-- A value whose computation may fail. -/
abbrev Checked := Except Failure

namespace Checked

variable {α β : Type} {n : Nat}

@[simp]
theorem ok_bind (a : α) (rest : α → Checked β) : (Except.ok a >>= rest) = rest a :=
  rfl

@[simp]
theorem pure_eq_ok (a : α) : (pure a : Checked α) = .ok a :=
  rfl

/-! ## Counts and lengths -/

/-- The sum of two numbers of so many bits. -/
def sum (bits a b : Nat) : Checked Nat :=
  if a + b < 2 ^ bits then .ok (a + b) else .error .overflow

def difference (a b : Nat) : Checked Nat :=
  if b ≤ a then .ok (a - b) else .error .overflow

def remainder (a b : Nat) : Checked Nat :=
  if b = 0 then .error .division else .ok (a % b)

theorem sum_of_lt {bits a b : Nat} (h : a + b < 2 ^ bits) : sum bits a b = .ok (a + b) :=
  if_pos h

theorem difference_of_le {a b : Nat} (h : b ≤ a) : difference a b = .ok (a - b) :=
  if_pos h

theorem remainder_of_pos {a b : Nat} (h : 0 < b) : remainder a b = .ok (a % b) :=
  if_neg (Nat.ne_of_gt h)

/-! ## Words -/

def add (a b : BitVec n) : Checked (BitVec n) :=
  if a.uaddOverflow b then .error .overflow else .ok (a + b)

def sub (a b : BitVec n) : Checked (BitVec n) :=
  if a.usubOverflow b then .error .overflow else .ok (a - b)

def mul (a b : BitVec n) : Checked (BitVec n) :=
  if a.umulOverflow b then .error .overflow else .ok (a * b)

/-- The product of two numbers with signs. -/
def signedMul (a b : BitVec n) : Checked (BitVec n) :=
  if a.smulOverflow b then .error .overflow else .ok (a * b)

def shiftLeft (value : BitVec n) (count : Nat) : Checked (BitVec n) :=
  if count < n then .ok (value <<< count) else .error .shift

def shiftRight (value : BitVec n) (count : Nat) : Checked (BitVec n) :=
  if count < n then .ok (value >>> count) else .error .shift

/-- The shift to the right that repeats the sign. -/
def signedShiftRight (value : BitVec n) (count : Nat) : Checked (BitVec n) :=
  if count < n then .ok (value.sshiftRight count) else .error .shift

theorem add_of_lt {a b : BitVec n} (h : a.toNat + b.toNat < 2 ^ n) : add a b = .ok (a + b) :=
  if_neg (by simpa [BitVec.uaddOverflow] using h)

theorem sub_of_le {a b : BitVec n} (h : b.toNat ≤ a.toNat) : sub a b = .ok (a - b) :=
  if_neg (by simpa [BitVec.usubOverflow] using h)

theorem mul_of_lt {a b : BitVec n} (h : a.toNat * b.toNat < 2 ^ n) : mul a b = .ok (a * b) :=
  if_neg (by simpa [BitVec.umulOverflow] using h)

theorem shiftLeft_of_lt {count : Nat} (h : count < n) (value : BitVec n) :
    shiftLeft value count = .ok (value <<< count) :=
  if_pos h

theorem shiftRight_of_lt {count : Nat} (h : count < n) (value : BitVec n) :
    shiftRight value count = .ok (value >>> count) :=
  if_pos h

theorem signedShiftRight_of_lt {count : Nat} (h : count < n) (value : BitVec n) :
    signedShiftRight value count = .ok (value.sshiftRight count) :=
  if_pos h

/-! ## Tables -/

/-- The entry of a table. -/
def entry (table : Vector α n) (index : Nat) : Checked α :=
  if h : index < n then .ok table[index] else .error .index

/-- Replaces an entry of a table. -/
def setEntry (table : Vector α n) (index : Nat) (value : α) : Checked (Vector α n) :=
  if h : index < n then .ok (table.set index value h) else .error .index

@[simp]
theorem entry_fin (table : Vector α n) (index : Fin n) :
    entry table index = .ok (table.get index) :=
  dif_pos index.isLt

@[simp]
theorem setEntry_fin (table : Vector α n) (index : Fin n) (value : α) :
    setEntry table index value = .ok (table.set index value) :=
  dif_pos index.isLt

/-! ## Operand sizes -/

/-- A word with ones in its low bits only. -/
def mask (width : Nat) : Checked (BitVec 32) := do
  shiftRight (BitVec.allOnes 32) (← difference 32 width)

theorem mask_of_pos {width : Nat} (hpos : 0 < width) (hle : width ≤ 32) :
    mask width = .ok (BitVec.allOnes 32 >>> (32 - width)) := by
  rw [mask, difference_of_le hle, ok_bind, shiftRight_of_lt (by omega)]

namespace Size

variable (size : Size)

/-- Bytes on the stack: those in memory, rounded up to words. -/
def alignedBytes : Checked Nat := do
  let rounded ← sum 32 (size.bits / 8) 1
  return rounded / 2 * 2

/-- The low part of a register. -/
def low (register : BitVec 32) : Checked size.Value := do
  let mask ← mask size.bits
  return (register &&& mask).setWidth size.bits

/-- Extends the sign by a shift to the top of a word and back. -/
def signExtend (value : size.Value) : Checked (BitVec 32) := do
  let unused ← difference 32 size.bits
  signedShiftRight (← shiftLeft (value.setWidth 32) unused) unused

def msb (value : size.Value) : Checked Bool := do
  let top ← shiftLeft (1 : BitVec 32) (← difference size.bits 1)
  return value.setWidth 32 &&& top != 0

def replaceLow (register : BitVec 32) (value : size.Value) : Checked (BitVec 32) := do
  let mask ← mask size.bits
  return register &&& ~~~mask ||| value.setWidth 32 &&& mask

@[simp]
theorem alignedBytes_eq : alignedBytes size = .ok size.alignedBytes := by
  cases size <;> rfl

theorem mask_bits : mask size.bits = .ok size.mask := by
  rw [mask_of_pos size.bits_pos size.bits_le]
  cases size <;> rfl

@[simp]
theorem low_eq (register : BitVec 32) : low size register = .ok (size.low register) := by
  rw [low, mask_bits]
  refine congrArg Except.ok (BitVec.eq_of_getLsbD_eq fun i hi ↦ ?_)
  have := size.bits_le
  simp [M68000.Size.low, Size.mask, hi, show i < 32 by omega]

@[simp]
theorem signExtend_eq (value : size.Value) :
    signExtend size value = .ok (value.signExtend 32) := by
  have hle := size.bits_le
  have hpos := size.bits_pos
  rw [signExtend, difference_of_le hle, ok_bind, shiftLeft_of_lt (by omega), ok_bind,
    signedShiftRight_of_lt (by omega)]
  refine congrArg Except.ok (BitVec.eq_of_getLsbD_eq fun i hi ↦ ?_)
  -- Below the width the shifts take a bit there and back, and above it the sign comes back.
  by_cases h : i < size.bits
  · simp [BitVec.getElem_sshiftRight, BitVec.getElem_signExtend, hi, h,
      show 32 - size.bits + i < 32 by omega]
  · have htop : 32 - size.bits + size.bits - 32 = 0 := by omega
    simp [BitVec.getElem_sshiftRight, BitVec.getElem_signExtend, hi, h, htop, BitVec.msb,
      show ¬32 - size.bits + i < 32 by omega]

@[simp]
theorem msb_eq (value : size.Value) : msb size value = .ok value.msb := by
  have hle := size.bits_le
  have hpos := size.bits_pos
  rw [msb, difference_of_le hpos, ok_bind, shiftLeft_of_lt (by omega), ok_bind, pure_eq_ok]
  have htop : (1 : BitVec 32) <<< (size.bits - 1) = .twoPow 32 (size.bits - 1) := rfl
  have htest := and_twoPow_beq_zero (value.setWidth 32) (show size.bits - 1 < 32 by omega)
  rw [htop, bne, htest, Bool.not_not, BitVec.msb_eq_getLsbD_last]
  simp [show size.bits - 1 < 32 by omega]

@[simp]
theorem replaceLow_eq (register : BitVec 32) (value : size.Value) :
    replaceLow size register value = .ok (size.replaceLow register value) := by
  rw [replaceLow, mask_bits]
  refine congrArg Except.ok (BitVec.eq_of_getLsbD_eq fun i hi ↦ ?_)
  by_cases h : i < size.bits
  · simp [M68000.Size.replaceLow, Size.mask, hi, h]
  · simp [M68000.Size.replaceLow, Size.mask, hi, Nat.le_of_not_lt h]

end Size

/-! ## Register numbers -/

/-- The register with a number, of which those from 8 on are address registers. -/
def register (number : Nat) : Checked Register :=
  if h : number < 8 then .ok (.data ⟨number, h⟩)
  else do
    let rest ← difference number 8
    if h : rest < 8 then .ok (.address ⟨rest, h⟩) else .error .index

@[simp]
theorem register_eq (number : Fin 16) : register number = .ok (.ofNumber number) := by
  unfold register Register.ofNumber
  split
  next => rfl
  next h =>
    rw [difference_of_le (Nat.le_of_not_lt h), ok_bind, dif_pos (by omega)]

end Checked

end M68000
