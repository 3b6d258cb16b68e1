import M68000.Operand

/-!
# Single bits

BTST, BCHG, BCLR and BSET test a bit before they change it, and TAS a whole byte. A data
register is a long word here and memory a byte, and a bit number counts modulo the width.
-/

namespace M68000

inductive BitOperation where
  | test
  | change
  | clear
  | set
  deriving DecidableEq

/-- What is written for an operand and the mask of its bit, if anything. -/
def BitOperation.result? (operation : BitOperation) (value mask : BitVec n) :
    Option (BitVec n) :=
  match operation with
  | test => none
  | change => some (value ^^^ mask)
  | clear => some (value &&& ~~~mask)
  | set => some (value ||| mask)

namespace Instruction

open Exec

/-- Works on a bit of an operand of the given size, and answers the instruction's length. -/
def modifyBit (operation : BitOperation) (size : Size) (number : Nat) (field : BitVec 6)
    (offset : Nat) : Exec Nat := do
  let operand ← Operand.ofField size field offset
  let mask := BitVec.twoPow size.bits (number % size.bits)
  let value ← operand.get
  modifyFlags (·.setZero (value &&& mask == 0))
  if let some result := operation.result? value mask then
    operand.put result
  operand.finish
  return offset + operand.extensionBytes

/-- The bit number is in a data register, or is immediate. -/
def bit (operation : BitOperation) (inRegister : Bool) (opcode : Opcode) : Exec Unit := do
  let (number, offset) ←
    if inRegister then pure ((← getD opcode.highRegister).toNat, 2)
    else pure ((← fetch .byte 2).toNat, 4)
  let field := opcode.operandField
  let length ←
    match Mode.ofField? field with
    | some (.dataRegister _) => modifyBit operation .long number field offset
    | _ => modifyBit operation .byte number field offset
  advancePc length

/-- TAS. -/
def testAndSet (opcode : Opcode) : Exec Unit := do
  let operand ← Operand.ofField .byte opcode.operandField 2
  let value ← operand.get
  modifyFlags (·.setResult (value.signExtend 32))
  operand.put (value ||| BitVec.twoPow Size.byte.bits 7)
  operand.finish
  advancePc (2 + operand.extensionBytes)

end Instruction

end M68000
