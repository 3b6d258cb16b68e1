import M68000.Operand

/-!
# Multiplication and division

Word operands with a long product, and long dividends with a word quotient and remainder. A
quotient that does not fit leaves the register alone and sets V; a divisor of zero is an
exception, and so is a value that CHK finds out of its bounds.
-/

namespace M68000

/-- Whether operands are read as numbers with a sign. -/
inductive Signedness where
  | unsigned
  | signed
  deriving DecidableEq

namespace Signedness

def product (signedness : Signedness) (a b : BitVec 16) : BitVec 32 :=
  match signedness with
  | unsigned => a.setWidth 32 * b.setWidth 32
  | signed => a.signExtend 32 * b.signExtend 32

/-- The quotient, rounded toward zero, and the remainder, if the quotient fits in a word. -/
def divide? (signedness : Signedness) (dividend : BitVec 32) (divisor : BitVec 16) :
    Option (BitVec 16 × BitVec 16) :=
  match signedness with
  | unsigned =>
    let quotient := dividend.toNat / divisor.toNat
    let word := BitVec.ofNat 16 quotient
    if word.toNat = quotient then
      some (word, BitVec.ofNat 16 (dividend.toNat % divisor.toNat))
    else none
  | signed =>
    let quotient := dividend.toInt.tdiv divisor.toInt
    let word := BitVec.ofInt 16 quotient
    if word.toInt = quotient then
      some (word, BitVec.ofInt 16 (dividend.toInt.tmod divisor.toInt))
    else none

end Signedness

namespace Instruction

open Exec

/-- MULU and MULS. -/
def multiply (signedness : Signedness) (opcode : Opcode) : Exec Unit := do
  let operand ← Operand.ofField .word opcode.operandField 2
  let source ← operand.get
  operand.finish
  let product := signedness.product (Size.word.low (← getD opcode.highRegister)) source
  setD opcode.highRegister product
  modifyFlags (·.setResult product)
  advancePc (2 + operand.extensionBytes)

/-- DIVU and DIVS. -/
def divide (signedness : Signedness) (opcode : Opcode) : Exec Unit := do
  let operand ← Operand.ofField .word opcode.operandField 2
  let divisor ← operand.get
  operand.finish
  let length := 2 + operand.extensionBytes
  if divisor = 0 then
    enterException 5 ((← pc) + BitVec.ofNat 32 length)
  else
    match signedness.divide? (← getD opcode.highRegister) divisor with
    | some (quotient, remainder) =>
      setD opcode.highRegister (remainder ++ quotient)
      modifyFlags (·.setResult (quotient.signExtend 32))
    | none => modifyFlags fun flags ↦ flags.setCodes flags.negative flags.zero true false
    advancePc length

/-- CHK of a register against zero and a bound. N tells which of them was passed. -/
def checkBounds (opcode : Opcode) : Exec Unit := do
  let operand ← Operand.ofField .word opcode.operandField 2
  let bound ← operand.get
  operand.finish
  let length := 2 + operand.extensionBytes
  let value := Size.word.low (← getD opcode.highRegister)
  if value.slt 0 || bound.slt value then
    setCcr { (← flags).ccr with negative := value.slt 0 }
    enterException 6 ((← pc) + BitVec.ofNat 32 length)
  else
    advancePc length

end Instruction

end M68000
