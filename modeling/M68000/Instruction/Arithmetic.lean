import M68000.Operand

/-!
# Two-operand arithmetic and logic

The six operations on a destination and a source, in each of their forms. A comparison is a
subtraction that writes nothing and leaves X alone.
-/

namespace M68000

inductive Binary where
  | add
  | sub
  | and
  | or
  | eor
  | cmp
  deriving DecidableEq

namespace Binary

def result (operation : Binary) (destination source : BitVec n) : BitVec n :=
  match operation with
  | add => destination + source
  | sub | cmp => destination - source
  | and => destination &&& source
  | or => destination ||| source
  | eor => destination ^^^ source

/-- Records the operation for the flags. -/
def record (operation : Binary) (destination source : BitVec n) (flags : Flags) : Flags :=
  let r := (operation.result destination source).signExtend 32
  let d := destination.signExtend 32
  let s := source.signExtend 32
  match operation with
  | add => .ofAdd r d s
  | sub => .ofSub r d s
  | cmp => flags.setCompare r d s
  | and | or | eor => flags.setResult r

end Binary

/-- The operations on a whole address register. -/
inductive AddressOperation where
  | add
  | sub
  | cmp
  deriving DecidableEq

namespace Instruction

open Exec

/-- Sets the flags and answers what is to be written, if anything. -/
def compute (operation : Binary) (destination source : BitVec n) : Exec (Option (BitVec n)) := do
  modifyFlags (operation.record destination source)
  return if operation = .cmp then none else some (operation.result destination source)

/-- Performs an operation on an operand with a source that is already known. -/
def update (operation : Binary) (operand : Operand size) (source : size.Value) : Exec Unit := do
  if let some result ← compute operation (← operand.get) source then
    operand.put result
  operand.finish

/-- The form with a data register as its destination. -/
def toRegister (operation : Binary) (size : Size) (opcode : Opcode) : Exec Unit := do
  let operand ← Operand.ofField size opcode.operandField 2
  let source ← operand.get
  operand.finish
  let register ← getD opcode.highRegister
  if let some result ← compute operation (size.low register) source then
    setD opcode.highRegister (size.replaceLow register result)
  advancePc (2 + operand.extensionBytes)

/-- The form with a data register as its source. -/
def fromRegister (operation : Binary) (size : Size) (opcode : Opcode) : Exec Unit := do
  let operand ← Operand.ofField size opcode.operandField 2
  update operation operand (size.low (← getD opcode.highRegister))
  advancePc (2 + operand.extensionBytes)

/-- The form with an immediate source. -/
def withImmediate (operation : Binary) (size : Size) (opcode : Opcode) : Exec Unit := do
  let source ← fetch size 2
  let operand ← Operand.ofField size opcode.operandField (2 + size.alignedBytes)
  update operation operand source
  advancePc (2 + size.alignedBytes + operand.extensionBytes)

/-- ADDQ and SUBQ. An address register is changed as a whole and without a flag. -/
def quick (operation : Binary) (size : Size) (opcode : Opcode) : Exec Unit := do
  let operand ← Operand.ofField size opcode.operandField 2
  match operand.mode with
  | .addressRegister number =>
    setA number (operation.result (← getA number) (BitVec.ofNat 32 opcode.quickValue))
  | _ => update operation operand (BitVec.ofNat size.bits opcode.quickValue)
  advancePc (2 + operand.extensionBytes)

/-- ADDA, SUBA and CMPA. The source is sign-extended, and the address register is read after the
source's side effect. -/
def withAddress (operation : AddressOperation) (size : Size) (opcode : Opcode) : Exec Unit := do
  let operand ← Operand.ofField size opcode.operandField 2
  let source := (← operand.get).signExtend 32
  operand.finish
  let address ← getA opcode.highRegister
  match operation with
  | .add => setA opcode.highRegister (address + source)
  | .sub => setA opcode.highRegister (address - source)
  | .cmp => modifyFlags (·.setCompare (address - source) address source)
  advancePc (2 + operand.extensionBytes)

/-- CMPM. -/
def compareMemory (size : Size) (opcode : Opcode) : Exec Unit := do
  let source : Operand size := ⟨.postIncrement opcode.lowRegister, 2⟩
  let sourceValue ← source.get
  source.finish
  let destination : Operand size := ⟨.postIncrement opcode.highRegister, 2⟩
  let destinationValue ← destination.get
  destination.finish
  let _ ← compute .cmp destinationValue sourceValue
  advancePc 2

end Instruction

end M68000
