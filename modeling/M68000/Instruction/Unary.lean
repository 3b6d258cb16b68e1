import M68000.Instruction.Chained

/-!
# One-operand arithmetic and logic

NEG, NEGX, CLR, NOT and TST. All of them read their operand, also the one that only clears it.
-/

namespace M68000

inductive Unary where
  | neg
  | negx
  | clr
  | not
  | tst
  deriving DecidableEq

namespace Unary

/-- What is written, if anything. -/
def result? (operation : Unary) (value : BitVec n) (extend : Bool) : Option (BitVec n) :=
  match operation with
  | neg => some (0 - value)
  | negx => some (ChainedResult.neg value extend).value
  | clr => some 0
  | not => some (~~~value)
  | tst => none

/-- Records the operation for the flags. -/
def record (operation : Unary) (value : BitVec n) (flags : Flags) : Flags :=
  match operation with
  | neg => .ofSub ((0 - value).signExtend 32) 0 (value.signExtend 32)
  | negx => .ofCcr ((ChainedResult.neg value flags.extend).ccr flags)
  | clr => flags.setResult 0
  | not => flags.setResult ((~~~value).signExtend 32)
  | tst => flags.setResult (value.signExtend 32)

end Unary

namespace Instruction

open Exec

def unary (operation : Unary) (size : Size) (opcode : Opcode) : Exec Unit := do
  let operand ← Operand.ofField size opcode.operandField 2
  let value ← operand.get
  let extend := (← flags).extend
  modifyFlags (operation.record value)
  if let some result := operation.result? value extend then
    operand.put result
  operand.finish
  advancePc (2 + operand.extensionBytes)

end Instruction

end M68000
