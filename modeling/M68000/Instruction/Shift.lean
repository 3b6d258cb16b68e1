import M68000.Operand

/-!
# Shifts and rotations

Arithmetic and logical shifts, rotations, and rotations through X, to the left and to the right.
A shift records its operand and count for the flags; a count of zero only sets N and Z. A
rotation through X goes round one bit more than the operand has, and always tells its flags.
-/

namespace M68000

inductive ShiftKind where
  | arithmetic
  | logical
  | rotateExtend
  | rotate
  deriving DecidableEq

inductive Direction where
  | right
  | left
  deriving DecidableEq

/-- Where a shift of a register takes its count from. -/
inductive CountSource where
  | immediate
  | register
  deriving DecidableEq

namespace ShiftKind

/-- Rotates an operand and X one bit further. -/
def rotateExtendOnce (direction : Direction) (value : BitVec n) (extend : Bool) :
    BitVec n × Bool :=
  match direction with
  | .left => (value <<< 1 ||| (BitVec.ofBool extend).setWidth n, value.msb)
  | .right => (value >>> 1 ||| (BitVec.ofBool extend).setWidth n <<< (n - 1), value.getLsbD 0)

def rotateExtendBy (direction : Direction) (value : BitVec n) (extend : Bool) :
    Nat → BitVec n × Bool
  | 0 => (value, extend)
  | count + 1 =>
    let (value, extend) := rotateExtendOnce direction value extend
    rotateExtendBy direction value extend count

/-- The shifted operand. -/
def result (kind : ShiftKind) (direction : Direction) (value : BitVec n) (extend : Bool)
    (count : Nat) : BitVec n :=
  match kind, direction with
  | arithmetic, .left | logical, .left => value <<< count
  | arithmetic, .right => value.sshiftRight count
  | logical, .right => value >>> count
  | rotate, .left => value.rotateLeft count
  | rotate, .right => value.rotateRight count
  | rotateExtend, direction => (rotateExtendBy direction value extend (count % (n + 1))).1

/-- Records the shift for the flags. -/
def record (kind : ShiftKind) (direction : Direction) (value : BitVec n) (count : Nat)
    (flags : Flags) : Flags :=
  let result := kind.result direction value flags.extend count
  let r := result.signExtend 32
  if kind = rotateExtend then
    let extend := (rotateExtendBy direction value flags.extend (count % (n + 1))).2
    .ofCcr ⟨extend, result.msb, result == 0, false, extend⟩
  else if count = 0 then flags.setResult r
  else
    let shift := fun kind ↦ .ofShift kind n r (value.signExtend 32) (BitVec.ofNat 32 count)
    match kind, direction with
    | arithmetic, .left => shift .asl
    | arithmetic, .right => shift .asr
    | logical, .left => shift .lsl
    | logical, .right => shift .lsr
    | _, .left => flags.setRotateLeft r
    | _, .right => flags.setRotateRight r

end ShiftKind

namespace Instruction

open Exec

/-- Records a shift for the flags and answers the shifted operand. -/
def shift (kind : ShiftKind) (direction : Direction) (value : BitVec n) (count : Nat) :
    Exec (BitVec n) := do
  let extend := (← flags).extend
  modifyFlags (kind.record direction value count)
  return kind.result direction value extend count

/-- The count is one to eight, or a register modulo 64. -/
def shiftRegister (kind : ShiftKind) (direction : Direction) (source : CountSource) (size : Size)
    (opcode : Opcode) : Exec Unit := do
  let count ←
    match source with
    | .immediate => pure opcode.quickValue
    | .register => pure ((← getD opcode.highRegister).toNat % 64)
  let register ← getD opcode.lowRegister
  let result ← shift kind direction (size.low register) count
  setD opcode.lowRegister (size.replaceLow register result)
  advancePc 2

/-- A word in memory is shifted by one. -/
def shiftMemory (kind : ShiftKind) (direction : Direction) (opcode : Opcode) : Exec Unit := do
  let operand ← Operand.ofField .word opcode.operandField 2
  operand.put (← shift kind direction (← operand.get) 1)
  operand.finish
  advancePc (2 + operand.extensionBytes)

end Instruction

end M68000
