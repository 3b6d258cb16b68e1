import M68000.Opcode
import M68000.Size

/-!
# Addressing modes

The twelve ways to name an operand. A mode is encoded in six bits, a mode number and a register
number; mode number 7 uses the register number to tell the modes without a register apart, and
leaves three of its values reserved.
-/

namespace M68000

inductive Mode where
  | dataRegister (number : Fin 8)
  | addressRegister (number : Fin 8)
  | indirect (number : Fin 8)
  | postIncrement (number : Fin 8)
  | preDecrement (number : Fin 8)
  | displacement (number : Fin 8)
  | indexed (number : Fin 8)
  | absoluteShort
  | absoluteLong
  | pcDisplacement
  | pcIndexed
  | immediate
  deriving DecidableEq

namespace Mode

/-- The modes without a register, by the register number that selects them. -/
def ofExtendedNumber? : Fin 8 → Option Mode
  | 0 => some absoluteShort
  | 1 => some absoluteLong
  | 2 => some pcDisplacement
  | 3 => some pcIndexed
  | 4 => some immediate
  | _ => none

def ofNumbers? (mode register : Fin 8) : Option Mode :=
  match mode with
  | 0 => some (dataRegister register)
  | 1 => some (addressRegister register)
  | 2 => some (indirect register)
  | 3 => some (postIncrement register)
  | 4 => some (preDecrement register)
  | 5 => some (displacement register)
  | 6 => some (indexed register)
  | 7 => ofExtendedNumber? register

/-- The mode encoded in six bits, mode number above register number. -/
def ofField? (field : BitVec 6) : Option Mode :=
  ofNumbers? (field.extractLsb' 3 3).toFin (field.extractLsb' 0 3).toFin

/-- The operand is addressed relative to the program counter and is read as part of the program. -/
def isPcRelative : Mode → Bool
  | pcDisplacement | pcIndexed => true
  | _ => false

/-- Bytes of extension words that an operand of the mode takes. -/
def extensionBytes (size : Size) : Mode → Nat
  | displacement _ | indexed _ | absoluteShort | pcDisplacement | pcIndexed => 2
  | absoluteLong => 4
  | immediate => size.alignedBytes
  | _ => 0

end Mode

end M68000
