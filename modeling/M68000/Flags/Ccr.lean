/-!
# The condition code register

The five flags as they appear in the low byte of the status register. Reading a byte keeps
its low five bits, and these determine the flags.
-/

namespace M68000

structure Ccr where
  extend : Bool
  negative : Bool
  zero : Bool
  overflow : Bool
  carry : Bool
  deriving DecidableEq

namespace Ccr

/-- All flags clear. -/
def clear : Ccr := ⟨false, false, false, false, false⟩

/-- From bit 4 down to bit 0 the register holds X, N, Z, V and C. -/
def toByte (ccr : Ccr) : BitVec 8 :=
  0#3 ++ BitVec.ofBool ccr.extend ++ BitVec.ofBool ccr.negative ++ BitVec.ofBool ccr.zero ++
    BitVec.ofBool ccr.overflow ++ BitVec.ofBool ccr.carry

def ofByte (byte : BitVec 8) : Ccr where
  extend := byte.getLsbD 4
  negative := byte.getLsbD 3
  zero := byte.getLsbD 2
  overflow := byte.getLsbD 1
  carry := byte.getLsbD 0

@[simp]
theorem ofByte_toByte (ccr : Ccr) : ofByte ccr.toByte = ccr := by
  rcases ccr with ⟨_ | _, _ | _, _ | _, _ | _, _ | _⟩ <;> rfl

@[simp]
theorem toByte_ofByte (byte : BitVec 8) : (ofByte byte).toByte = byte &&& 0x1F := by
  revert byte
  decide +kernel

end Ccr

end M68000
