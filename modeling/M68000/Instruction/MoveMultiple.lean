import M68000.Operand

/-!
# Moving several registers

MOVEM stores or loads the registers of a list, a word with a bit for each of the sixteen
registers. Registers with lower numbers lie at lower addresses. In pre-decrement mode the list is
reversed and worked off downward; the address register is renewed after the last access.
-/

namespace M68000.Instruction

open Exec

/-- The numbers of the bits that are set in a register list, in ascending order. -/
def listed (list : BitVec 16) : List (Fin 16) :=
  (List.finRange 16).filter fun number ↦ list.getLsbD number

/-- Stores registers at falling addresses and answers the last one. -/
def storeDownward (size : Size) : Address → List Register → Exec Address
  | address, [] => return address
  | address, register :: rest => do
    let address := address - BitVec.ofNat 32 size.bytes
    write size address (size.low ((← registers).get register))
    storeDownward size address rest

/-- Stores registers at rising addresses. -/
def storeUpward (size : Size) : Address → List Register → Exec Unit
  | _, [] => return ()
  | address, register :: rest => do
    write size address (size.low ((← registers).get register))
    storeUpward size (address + BitVec.ofNat 32 size.bytes) rest

/-- Loads registers from rising addresses, a word sign-extended, and answers the address after
the last one. -/
def loadUpward (size : Size) (program : Bool) : Address → List Register → Exec Address
  | address, [] => return address
  | address, register :: rest => do
    let value ← if program then readProgram size address else read size address
    modifyRegisters (·.set register (value.signExtend 32))
    loadUpward size program (address + BitVec.ofNat 32 size.bytes) rest

/-- MOVEM to memory. -/
def storeMultiple (size : Size) (opcode : Opcode) : Exec Unit := do
  let list ← fetchWord 2
  let operand ← Operand.ofField size opcode.operandField 4
  match operand.mode with
  | .preDecrement number =>
    let chosen := (listed list).map fun number ↦ Register.ofNumber number.rev
    setA number (← storeDownward size (← getA number) chosen)
  | _ => storeUpward size (← operand.address) ((listed list).map Register.ofNumber)
  advancePc (4 + operand.extensionBytes)

/-- MOVEM to registers. -/
def loadMultiple (size : Size) (opcode : Opcode) : Exec Unit := do
  let list ← fetchWord 2
  let operand ← Operand.ofField size opcode.operandField 4
  let chosen := (listed list).map Register.ofNumber
  match operand.mode with
  | .postIncrement number =>
    setA number (← loadUpward size false (← getA number) chosen)
  | mode =>
    let _ ← loadUpward size mode.isPcRelative (← operand.address) chosen
  advancePc (4 + operand.extensionBytes)

end M68000.Instruction
