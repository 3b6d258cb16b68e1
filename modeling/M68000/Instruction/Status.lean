import M68000.Operand

/-!
# Status register and exceptions

Access to the status register and its low byte, the traps, and what is reserved to the
supervisor. Reading the status register is open to all; writing it may leave supervisor state,
and only changes the state after everything else is done.
-/

namespace M68000

/-- The logical operations on the status register. -/
inductive LogicalOperation where
  | or
  | and
  | eor
  deriving DecidableEq

def LogicalOperation.apply (operation : LogicalOperation) (value source : BitVec n) :
    BitVec n :=
  match operation with
  | or => value ||| source
  | and => value &&& source
  | eor => value ^^^ source

/-- The direction of MOVE USP. -/
inductive UserStackMove where
  | toUserStack
  | fromUserStack
  deriving DecidableEq

namespace Instruction

open Exec

def statusRegister : Exec (BitVec 16) := do
  return (← registers).statusRegister

def setStatusRegister (value : BitVec 16) : Exec Unit :=
  modify (·.setStatusRegister value)

/-- ORI, ANDI and EORI to CCR. -/
def logicalToCcr (operation : LogicalOperation) : Exec Unit := do
  let source ← fetch .byte 2
  setCcr (.ofByte (operation.apply (← flags).ccr.toByte source))
  advancePc 4

/-- ORI, ANDI and EORI to SR. -/
def logicalToStatus (operation : LogicalOperation) : Exec Unit := do
  requireSupervisor
  let source ← fetch .word 2
  let value := operation.apply (← statusRegister) source
  advancePc 4
  setStatusRegister value

/-- MOVE from SR. -/
def moveFromStatus (opcode : Opcode) : Exec Unit := do
  let operand ← Operand.ofField .word opcode.operandField 2
  operand.put (← statusRegister)
  operand.finish
  advancePc (2 + operand.extensionBytes)

/-- MOVE to CCR. -/
def moveToCcr (opcode : Opcode) : Exec Unit := do
  let operand ← Operand.ofField .word opcode.operandField 2
  let value ← operand.get
  operand.finish
  setCcr (.ofByte (value.setWidth 8))
  advancePc (2 + operand.extensionBytes)

/-- MOVE to SR. -/
def moveToStatus (opcode : Opcode) : Exec Unit := do
  requireSupervisor
  let operand ← Operand.ofField .word opcode.operandField 2
  let value ← operand.get
  operand.finish
  advancePc (2 + operand.extensionBytes)
  setStatusRegister value

/-- MOVE USP. -/
def moveUserStack (direction : UserStackMove) (opcode : Opcode) : Exec Unit := do
  requireSupervisor
  match direction with
  | .toUserStack =>
    let value ← getA opcode.lowRegister
    modifyRegisters (·.setUserStack value)
  | .fromUserStack => setA opcode.lowRegister (← registers).userStack
  advancePc 2

/-- RESET, which no device answers. -/
def resetDevices : Exec Unit := do
  requireSupervisor
  advancePc 2

/-- TRAP. -/
def trap (opcode : Opcode) : Exec Unit := do
  enterException (32 + (opcode.extractLsb' 0 4).setWidth 8) ((← pc) + 2)

/-- TRAPV. -/
def trapOnOverflow : Exec Unit := do
  let next := (← pc) + 2
  if (← flags).overflow then enterException 7 next
  else setPc next

/-- RTE. -/
def returnFromException : Exec Unit := do
  requireSupervisor
  let status ← pop .word
  setPc (← pop .long)
  setStatusRegister status

end Instruction

end M68000
