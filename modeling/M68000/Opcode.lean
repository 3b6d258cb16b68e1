import M68000.Memory.Access

/-!
# Opcode fields

The first word of an instruction. Its bits 0 to 2 and 9 to 11 number registers, its bits 0 to 5
hold the addressing mode of an operand, and MOVE puts that of its destination, with the two
halves exchanged, into bits 6 to 11.
-/

namespace M68000

abbrev Opcode := BitVec 16

namespace Opcode

variable (opcode : Opcode)

/-- The register numbered in bits 0 to 2. -/
def lowRegister : Fin 8 :=
  (opcode.extractLsb' 0 3).toFin

/-- The register numbered in bits 9 to 11. -/
def highRegister : Fin 8 :=
  (opcode.extractLsb' 9 3).toFin

/-- The number in bits 9 to 11, where zero means eight. -/
def quickValue : Nat :=
  if opcode.highRegister.val = 0 then 8 else opcode.highRegister.val

theorem quickValue_le : opcode.quickValue ≤ 8 := by
  unfold quickValue
  split <;> omega

/-- The mode and register numbers of an operand. -/
def operandField : BitVec 6 :=
  opcode.extractLsb' 0 6

/-- The mode and register numbers of the destination of MOVE. -/
def destinationField : BitVec 6 :=
  opcode.extractLsb' 6 3 ++ opcode.extractLsb' 9 3

/-- The data in the low byte. -/
def lowByte : Byte :=
  opcode.extractLsb' 0 8

end Opcode

end M68000
