/-!
# Operand sizes

Registers are thirty-two bits wide, and an instruction works on the low byte, the low word or
the whole of one. A value of a size is a bit vector of exactly its width, so arithmetic on it
wraps where the processor's does.
-/

namespace M68000

/-- A byte, word or long-word operand. -/
inductive Size where
  | byte
  | word
  | long
  deriving DecidableEq

namespace Size

def bits : Size → Nat
  | byte => 8
  | word => 16
  | long => 32

/-- Bytes that an operand takes in memory. -/
def bytes : Size → Nat
  | byte => 1
  | word => 2
  | long => 4

/-- Bytes on the stack and in the instruction stream, where a byte fills a word. -/
def alignedBytes : Size → Nat
  | byte => 2
  | word => 2
  | long => 4

/-- The suffix of an instruction's name that selects the size. -/
def suffix : Size → String
  | byte => "b"
  | word => "w"
  | long => "l"

theorem bits_pos (size : Size) : 0 < size.bits := by
  cases size <;> decide

theorem bits_le (size : Size) : size.bits ≤ 32 := by
  cases size <;> decide

/-- An operand of a size. -/
abbrev Value (size : Size) := BitVec size.bits

/-- The part of a register that an operand of this size occupies. -/
def low (size : Size) (register : BitVec 32) : size.Value :=
  register.setWidth size.bits

/-- The register bits that an operand of this size occupies. -/
def mask (size : Size) : BitVec 32 :=
  (BitVec.allOnes size.bits).setWidth 32

/-- Replaces the low part of a register and keeps the bits above it. -/
def replaceLow (size : Size) (register : BitVec 32) (value : size.Value) : BitVec 32 :=
  register &&& ~~~size.mask ||| value.setWidth 32

@[simp]
theorem low_replaceLow (size : Size) (register : BitVec 32) (value : size.Value) :
    size.low (size.replaceLow register value) = value := by
  ext i hi
  have := size.bits_le
  simp [low, replaceLow, mask, hi, show i < 32 by omega]

/-- The bits above the operand are kept. -/
theorem getLsbD_replaceLow_of_le (size : Size) (register : BitVec 32) (value : size.Value)
    {i : Nat} (hi : size.bits ≤ i) :
    (size.replaceLow register value).getLsbD i = register.getLsbD i := by
  by_cases h : i < 32
  · simp [replaceLow, mask, h, BitVec.getLsbD_of_ge value i hi, show ¬ i < size.bits by omega]
  · simp [BitVec.getLsbD_of_ge _ i (Nat.le_of_not_lt h)]

end Size

end M68000
