import M68000.Memory.Access

/-!
# Address bus width and pages

A bus has between 13 and 32 address lines, and the bits of an address above them are ignored.
Memory is mapped in pages of 8 KiB, so the narrowest bus has a single page.
-/

namespace M68000

/-- Address bits within a page. -/
def pageBits : Nat := 13

/-- The page that an address lies in. -/
def Address.page (address : Address) : Nat :=
  address.toNat >>> pageBits

structure BusWidth where
  bits : Nat
  pageBits_le : pageBits ≤ bits
  le : bits ≤ 32

namespace BusWidth

/-- The nearest width that a bus can have. -/
def clamp (bits : Nat) : BusWidth where
  bits := max pageBits (min bits 32)
  pageBits_le := Nat.le_max_left ..
  le := Nat.max_le.2 ⟨by decide, Nat.min_le_right ..⟩

variable (width : BusWidth)

/-- The address bits that the bus carries. -/
def mask : Address :=
  BitVec.allOnes 32 >>> (32 - width.bits)

/-- The address that an access is made at. -/
def truncate (address : Address) : Address :=
  address &&& width.mask

/-- Whether an address and the one after it lie in one page. -/
def samePage (address : Address) : Bool :=
  (width.truncate address).page == (width.truncate (address + 1)).page

end BusWidth

/-- Consecutive pages, both ends included. -/
structure PageRange where
  first : Nat
  last : Nat
  deriving DecidableEq

namespace PageRange

def contains (range : PageRange) (page : Nat) : Bool :=
  range.first ≤ page && page ≤ range.last

/-- The pages touched by `length` bytes from an address on. A range that runs past the top of
the bus ends there, and one without a byte touches no page. -/
def touching? (width : BusWidth) (start : Address) (length : Nat) : Option PageRange :=
  if length = 0 then none
  else
    let start := (width.truncate start).toNat
    let last := min (start + length - 1) width.mask.toNat
    some ⟨start >>> pageBits, last >>> pageBits⟩

end PageRange

end M68000
