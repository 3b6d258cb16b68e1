import M68000.Operand

/-!
# Branches, calls and returns

Branches are relative to the word after the opcode. A displacement of zero in the opcode stands
for one in an extension word. Calls stack the address of the instruction after them.
-/

namespace M68000.Instruction

open Exec

/-- A branch's displacement and the length of the instruction. -/
def branchDisplacement (opcode : Opcode) : Exec (Address × Nat) :=
  if opcode.lowByte = 0 then return ((← fetchWord 2).signExtend 32, 4)
  else return (opcode.lowByte.signExtend 32, 2)

def branchTo (displacement : Address) : Exec Unit := do
  setPc ((← pc) + 2 + displacement)

/-- Bcc and BRA. -/
def branch (opcode : Opcode) : Exec Unit := do
  let (displacement, length) ← branchDisplacement opcode
  if (← flags).holds (.ofOpcode opcode) then branchTo displacement
  else advancePc length

/-- BSR. -/
def branchToSubroutine (opcode : Opcode) : Exec Unit := do
  let (displacement, length) ← branchDisplacement opcode
  push .long ((← pc) + BitVec.ofNat 32 length)
  branchTo displacement

/-- DBcc. Neither a condition that holds nor a counter that runs out asks for the
displacement. -/
def decrementAndBranch (opcode : Opcode) : Exec Unit := do
  if (← flags).holds (.ofOpcode opcode) then advancePc 4
  else
    let register ← getD opcode.lowRegister
    let count := Size.word.low register - 1
    setD opcode.lowRegister (Size.word.replaceLow register count)
    if count = 0xFFFF then advancePc 4
    else branchTo ((← fetchWord 2).signExtend 32)

/-- Scc. -/
def setConditionally (opcode : Opcode) : Exec Unit := do
  let operand ← Operand.ofField .byte opcode.operandField 2
  operand.put (if (← flags).holds (.ofOpcode opcode) then BitVec.allOnes _ else 0)
  operand.finish
  advancePc (2 + operand.extensionBytes)

/-- JMP. -/
def jump (opcode : Opcode) : Exec Unit := do
  let operand ← Operand.ofField .long opcode.operandField 2
  setPc (← operand.address)

/-- JSR. -/
def jumpToSubroutine (opcode : Opcode) : Exec Unit := do
  let operand ← Operand.ofField .long opcode.operandField 2
  let target ← operand.address
  push .long ((← pc) + BitVec.ofNat 32 (2 + operand.extensionBytes))
  setPc target

/-- RTS. -/
def returnFromSubroutine : Exec Unit := do
  setPc (← pop .long)

/-- RTR. -/
def returnAndRestore : Exec Unit := do
  let codes ← pop .word
  let target ← pop .long
  setCcr (.ofByte (codes.setWidth 8))
  setPc target

/-- LINK. A frame pointer that is the stack pointer itself is stored as it is after the push. -/
def link (opcode : Opcode) : Exec Unit := do
  let displacement := (← fetchWord 2).signExtend 32
  let frame := (← getA stackPointer) - 4
  let saved ← if opcode.lowRegister = stackPointer then pure frame else getA opcode.lowRegister
  write .long frame saved
  setA opcode.lowRegister frame
  setA stackPointer (frame + displacement)
  advancePc 4

/-- UNLK. -/
def unlink (opcode : Opcode) : Exec Unit := do
  setA stackPointer (← getA opcode.lowRegister)
  setA opcode.lowRegister (← pop .long)
  advancePc 2

/-- NOP. -/
def noOperation : Exec Unit :=
  advancePc 2

end M68000.Instruction
