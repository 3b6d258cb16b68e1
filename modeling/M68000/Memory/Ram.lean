import M68000.Memory.Access
import Std.Data.TreeMap

/-!
# Random-access memory

Bytes at consecutive addresses from a base, all zero at first and kept sparsely: only the bytes
that were written are stored. Words and long words are read and written whole, high byte first:
either all their bytes are inside and the access is done, or it is refused at its first address
and nothing changes. The supervisor area at the bottom can be written in supervisor state only.
-/

namespace M68000

structure Ram where
  size : Nat
  base : Address := 0
  /-- Bytes from the base on that user accesses may not write. -/
  supervisorArea : Nat := 0
  written : Std.TreeMap Nat Byte := {}

namespace Ram

variable (ram : Ram)

/-! ## Contents -/

/-- The byte at an offset from the base. -/
def byteAt (offset : Nat) : Byte :=
  ram.written.getD offset 0

def setByteAt (offset : Nat) (value : Byte) : Ram :=
  { ram with written := ram.written.insert offset value }

@[simp]
theorem byteAt_setByteAt (offset other : Nat) (value : Byte) :
    (ram.setByteAt offset value).byteAt other =
      if offset = other then value else ram.byteAt other := by
  simp [byteAt, setByteAt, Std.TreeMap.getD_insert]

/-! ## Accesses -/

/-- The offset of an access to `length` bytes, if it is allowed. -/
def offset (kind : AccessKind) (code : FunctionCode) (address : Address) (length : Nat) :
    Except BusError Nat :=
  let offset := (address - ram.base).toNat
  if ram.size < offset + length then .error ⟨address, code, kind⟩
  else if kind = .write ∧ code.supervisor = false ∧ offset < ram.supervisorArea then
    .error ⟨address, code, kind⟩
  else .ok offset

def getByte (code : FunctionCode) (address : Address) : Except BusError Byte := do
  let offset ← ram.offset .read code address 1
  return ram.byteAt offset

def getWord (code : FunctionCode) (address : Address) : Except BusError (BitVec 16) := do
  let offset ← ram.offset .read code address 2
  return ram.byteAt offset ++ ram.byteAt (offset + 1)

def getLong (code : FunctionCode) (address : Address) : Except BusError (BitVec 32) := do
  let offset ← ram.offset .read code address 4
  return ram.byteAt offset ++ ram.byteAt (offset + 1) ++ ram.byteAt (offset + 2) ++
    ram.byteAt (offset + 3)

def putByte (code : FunctionCode) (address : Address) (value : Byte) : Except BusError Ram := do
  let offset ← ram.offset .write code address 1
  return ram.setByteAt offset value

def putWord (code : FunctionCode) (address : Address) (value : BitVec 16) :
    Except BusError Ram := do
  let offset ← ram.offset .write code address 2
  return (ram.setByteAt offset (value.extractLsb' 8 8)).setByteAt (offset + 1)
    (value.extractLsb' 0 8)

def putLong (code : FunctionCode) (address : Address) (value : BitVec 32) :
    Except BusError Ram := do
  let offset ← ram.offset .write code address 4
  return (((ram.setByteAt offset (value.extractLsb' 24 8)).setByteAt (offset + 1)
    (value.extractLsb' 16 8)).setByteAt (offset + 2) (value.extractLsb' 8 8)).setByteAt
      (offset + 3) (value.extractLsb' 0 8)

end Ram

end M68000
