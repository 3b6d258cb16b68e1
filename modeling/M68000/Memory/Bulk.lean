import M68000.Memory.Space

/-!
# Blocks and strings

Blocks of bytes and strings that end with a zero byte are moved one byte at a time, upward from
their first address and round the top of the address space. A refused byte ends the move, and
the bytes written before it stay.
-/

namespace M68000.Space

/-- Reads `length` bytes. -/
def readBytes (code : FunctionCode) (space : Space) :
    Address → Nat → Except BusError (List Byte)
  | _, 0 => .ok []
  | address, length + 1 => do
    let byte ← space.getByte code address
    let rest ← readBytes code space (address + 1) length
    return byte :: rest

def writeBytes (code : FunctionCode) (space : Space) : Address → List Byte → Written Space
  | _, [] => .ok () space
  | address, byte :: rest =>
    match space.putByte code address byte with
    | .ok () space => writeBytes code space (address + 1) rest
    | .error refusal space => .error refusal space

/-- The bytes before the first zero byte. After `limit` bytes without one the search is given
up: `none`. -/
def readStringWithin (code : FunctionCode) (space : Space) :
    Nat → Address → Option (Except BusError (List Byte))
  | 0, _ => none
  | limit + 1, address =>
    match space.getByte code address with
    | .error refusal => some (.error refusal)
    | .ok byte =>
      if byte = 0 then some (.ok [])
      else (readStringWithin code space limit (address + 1)).map (·.map (byte :: ·))

/-- The number of addresses. -/
def addressCount : Nat := 0x100000000

/-- The bytes before the first zero byte. If no address holds one the string has no end:
`none`. -/
def readString (code : FunctionCode) (space : Space) (address : Address) :
    Option (Except BusError (List Byte)) :=
  space.readStringWithin code addressCount address

/-- Writes the bytes and a zero byte after them. -/
def writeString (code : FunctionCode) (space : Space) (address : Address) (bytes : List Byte) :
    Written Space :=
  space.writeBytes code address (bytes ++ [0])

end M68000.Space
