import M68000.Operand

/-!
# Moving single operands

MOVE and its relatives, which copy an operand or an address, exchange registers, or widen a
value in place. Those that move data to a data operand set N and Z from it and clear V and C.
-/

namespace M68000.Instruction

open Exec

/-- MOVE. The source is finished before the destination is resolved. -/
def move (size : Size) (opcode : Opcode) : Exec Unit := do
  let source ← Operand.ofField size opcode.operandField 2
  let value ← source.get
  source.finish
  let destination ← Operand.ofField size opcode.destinationField (2 + source.extensionBytes)
  destination.put value
  destination.finish
  modifyFlags (·.setResult (value.signExtend 32))
  advancePc (2 + source.extensionBytes + destination.extensionBytes)

/-- MOVEA. -/
def moveAddress (size : Size) (opcode : Opcode) : Exec Unit := do
  let source ← Operand.ofField size opcode.operandField 2
  let value ← source.get
  source.finish
  setA opcode.highRegister (value.signExtend 32)
  advancePc (2 + source.extensionBytes)

/-- MOVEQ. -/
def moveQuick (opcode : Opcode) : Exec Unit := do
  let value := opcode.lowByte.signExtend 32
  setD opcode.highRegister value
  modifyFlags (·.setResult value)
  advancePc 2

/-- LEA. -/
def loadAddress (opcode : Opcode) : Exec Unit := do
  let operand ← Operand.ofField .long opcode.operandField 2
  setA opcode.highRegister (← operand.address)
  advancePc (2 + operand.extensionBytes)

/-- PEA. -/
def pushAddress (opcode : Opcode) : Exec Unit := do
  let operand ← Operand.ofField .long opcode.operandField 2
  push .long (← operand.address)
  advancePc (2 + operand.extensionBytes)

/-- EXG of two registers. -/
def exchange (first second : Register) : Exec Unit := do
  let before ← registers
  modifyRegisters fun registers ↦
    (registers.set first (before.get second)).set second (before.get first)
  advancePc 2

/-- SWAP of the two words of a data register. -/
def swapWords (opcode : Opcode) : Exec Unit := do
  let value := (← getD opcode.lowRegister).rotateLeft 16
  setD opcode.lowRegister value
  modifyFlags (·.setResult value)
  advancePc 2

/-- EXT, from the next smaller size to the given one. -/
def extendSign (size : Size) (opcode : Opcode) : Exec Unit := do
  let register ← getD opcode.lowRegister
  let value : BitVec 32 :=
    match size with
    | .long => (Size.word.low register).signExtend 32
    | _ => (Size.byte.low register).signExtend 32
  setD opcode.lowRegister (size.replaceLow register (size.low value))
  modifyFlags (·.setResult value)
  advancePc 2

end M68000.Instruction
