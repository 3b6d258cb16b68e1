import M68000.Exec
import M68000.Mode

/-!
# Operands

An operand is an addressing mode together with a size and the place of its extension words,
counted from the opcode. Reading and writing it leave the address registers alone, so that both
use one address; the step of a post-increment or pre-decrement mode is taken when the
instruction is done with the operand.
-/

namespace M68000

structure Operand (size : Size) where
  mode : Mode
  /-- Bytes from the opcode to the operand's extension words. -/
  offset : Nat
  deriving DecidableEq

/-- Bytes that an address register moves by. The stack pointer stays even. -/
def Size.step (size : Size) (number : Fin 8) : Nat :=
  if number = stackPointer then size.alignedBytes else size.bytes

namespace Operand

variable {size : Size} (operand : Operand size)

/-- The operand that an opcode encodes. -/
def ofField (size : Size) (field : BitVec 6) (offset : Nat) : Exec (Operand size) :=
  match Mode.ofField? field with
  | some mode => return ⟨mode, offset⟩
  | none => Exec.illegal

def extensionBytes : Nat :=
  operand.mode.extensionBytes size

/-- The base plus the index register and the displacement that an extension word names. -/
def indexedAddress (base : Address) (offset : Nat) : Exec Address := do
  let extension ← Exec.fetchWord offset
  let index := (← Exec.registers).get (.ofNumber (extension.extractLsb' 12 4).toFin)
  let index := if extension.getLsbD 11 then index else (index.setWidth 16).signExtend 32
  return base + (extension.setWidth 8).signExtend 32 + index

/-- The address of an operand in memory. -/
def address : Exec Address :=
  match operand.mode with
  | .indirect number | .postIncrement number => Exec.getA number
  | .preDecrement number => return (← Exec.getA number) - BitVec.ofNat 32 (size.step number)
  | .displacement number => do
    let base ← Exec.getA number
    return base + (← Exec.fetchWord operand.offset).signExtend 32
  | .indexed number => do indexedAddress (← Exec.getA number) operand.offset
  | .absoluteShort => return (← Exec.fetchWord operand.offset).signExtend 32
  | .absoluteLong => Exec.fetch .long operand.offset
  | .pcDisplacement => do
    let base := (← Exec.pc) + BitVec.ofNat 32 operand.offset
    return base + (← Exec.fetchWord operand.offset).signExtend 32
  | .pcIndexed => do
    indexedAddress ((← Exec.pc) + BitVec.ofNat 32 operand.offset) operand.offset
  | .dataRegister _ | .addressRegister _ | .immediate => Exec.illegal

def get : Exec size.Value :=
  match operand.mode with
  | .dataRegister number => return size.low (← Exec.getD number)
  | .addressRegister number => return size.low (← Exec.getA number)
  | .immediate => Exec.fetch size operand.offset
  | .pcDisplacement | .pcIndexed => do Exec.readProgram size (← operand.address)
  | _ => do Exec.read size (← operand.address)

/-- An address register always receives the value sign-extended. -/
def put (value : size.Value) : Exec Unit :=
  match operand.mode with
  | .dataRegister number => do Exec.setD number (size.replaceLow (← Exec.getD number) value)
  | .addressRegister number => Exec.setA number (value.signExtend 32)
  | .immediate | .pcDisplacement | .pcIndexed => Exec.illegal
  | _ => do Exec.write size (← operand.address) value

/-- Takes the step of a post-increment or pre-decrement mode. -/
def finish : Exec Unit :=
  match operand.mode with
  | .postIncrement number => do
    Exec.setA number ((← Exec.getA number) + BitVec.ofNat 32 (size.step number))
  | .preDecrement number => do
    Exec.setA number ((← Exec.getA number) - BitVec.ofNat 32 (size.step number))
  | _ => pure ()

end Operand

end M68000
