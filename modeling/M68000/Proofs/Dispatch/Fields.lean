import M68000.Opcode
import Mathlib.Algebra.Group.Nat.Defs

/-!
# Numbers in an opcode

Three bits of an opcode number a register, or are a number that the instruction works with. Here
they are what is left of the opcode when it is divided by powers of two.
-/

namespace M68000

namespace Opcode

variable (opcode : Opcode)

/-- The number in three bits of an opcode, from the given one up. -/
def numberFrom (bit : Nat) : Fin 8 :=
  ⟨opcode.toNat / 2 ^ bit % 8, Nat.mod_lt _ (by decide)⟩

theorem toFin_extractLsb' (bit : Nat) :
    (opcode.extractLsb' bit 3).toFin = opcode.numberFrom bit := by
  apply Fin.ext
  calc
    (opcode.extractLsb' bit 3).toNat = opcode.toNat >>> bit % 2 ^ 3 := BitVec.extractLsb'_toNat ..
    _ = opcode.toNat / 2 ^ bit % 8 := by rw [Nat.shiftRight_eq_div_pow]

theorem lowRegister_eq_numberFrom : opcode.lowRegister = opcode.numberFrom 0 :=
  opcode.toFin_extractLsb' 0

theorem highRegister_eq_numberFrom : opcode.highRegister = opcode.numberFrom 9 :=
  opcode.toFin_extractLsb' 9

/-- The number that an instruction carries in bits 9 to 11, where zero stands for eight. -/
def quickNumber : Nat :=
  let number := opcode.toNat / 2 ^ 9 % 8
  if number = 0 then 8 else number

theorem quickValue_eq_quickNumber : opcode.quickValue = opcode.quickNumber := by
  have hnumber : opcode.highRegister.val = opcode.toNat / 2 ^ 9 % 8 :=
    congrArg Fin.val opcode.highRegister_eq_numberFrom
  rw [quickValue, hnumber, quickNumber]

/-- ADDQ.W #1,D0 and ADDQ.W #8,D0. -/
example : quickNumber 0x5240 = 1 ∧ quickNumber 0x5040 = 8 := by decide

end Opcode

end M68000
