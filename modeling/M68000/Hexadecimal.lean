/-!
# Hexadecimal notation

Addresses and opcodes in messages are written with a leading `0x`, in lower case, and filled
with zeros up to a least number of digits.
-/

namespace M68000

def hexadecimal (digits value : Nat) : String :=
  "0x" ++ String.ofList ((Nat.toDigits 16 value).leftpad digits '0')

end M68000
