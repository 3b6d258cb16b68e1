import M68000.Memory.Access

/-!
# Read-only memory

A fixed image from a base address on. Writes are always refused, and a data-only image, such as
a font, refuses to be read as a program too.
-/

namespace M68000

structure Rom where
  image : Array Byte
  base : Address := 0
  dataOnly : Bool := false

namespace Rom

variable (rom : Rom)

/-- The offset of a read of `length` bytes, if it is allowed. -/
def offset (code : FunctionCode) (address : Address) (length : Nat) : Except BusError Nat :=
  let offset := (address - rom.base).toNat
  if rom.image.size < offset + length ∨ (rom.dataOnly ∧ code.program) then
    .error ⟨address, code, .read⟩
  else .ok offset

/-- The byte at an offset from the base. -/
def byteAt (offset : Nat) : Byte :=
  rom.image.getD offset 0

def getByte (code : FunctionCode) (address : Address) : Except BusError Byte := do
  let offset ← rom.offset code address 1
  return rom.byteAt offset

def getWord (code : FunctionCode) (address : Address) : Except BusError (BitVec 16) := do
  let offset ← rom.offset code address 2
  return rom.byteAt offset ++ rom.byteAt (offset + 1)

end Rom

end M68000
