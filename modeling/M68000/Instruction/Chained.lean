import M68000.Operand

/-!
# Arithmetic in chains

Operations that take X in and give it out, so that a number of any length is worked on part by
part, in binary or in packed decimal. A part that is not zero clears Z, and a zero one leaves it,
so that in the end Z tells of the whole number.
-/

namespace M68000

/-- Whether parts are added or subtracted. -/
inductive ChainedOperation where
  | add
  | sub
  deriving DecidableEq

/-- The outcome for one part. -/
structure ChainedResult (n : Nat) where
  value : BitVec n
  overflow : Bool
  carry : Bool
  deriving DecidableEq

namespace ChainedResult

/-! ## Binary -/

def add (destination source : BitVec n) (extend : Bool) : ChainedResult n :=
  let result := destination + source + (BitVec.ofBool extend).setWidth n
  { value := result
    overflow := ((source ^^^ result) &&& (destination ^^^ result)).msb
    carry := ((source &&& destination) ||| (~~~result &&& (source ||| destination))).msb }

def sub (destination source : BitVec n) (extend : Bool) : ChainedResult n :=
  let result := destination - source - (BitVec.ofBool extend).setWidth n
  { value := result
    overflow := ((source ^^^ destination) &&& (result ^^^ destination)).msb
    carry :=
      ((source &&& ~~~destination) ||| (result &&& ~~~destination) ||| (source &&& result)).msb }

/-- Subtraction from zero, whose flags need less. -/
def neg (source : BitVec n) (extend : Bool) : ChainedResult n :=
  let result := 0 - source - (BitVec.ofBool extend).setWidth n
  { value := result
    overflow := (source &&& result).msb
    carry := (source ||| result).msb }

/-! ## Packed decimal -/

/-- Adds the low digits, then the high ones, and corrects each sum above nine. -/
def addDecimal (destination source : Byte) (extend : Bool) : ChainedResult 8 :=
  let d := destination.setWidth 32
  let s := source.setWidth 32
  let low := (s &&& 0x0F) + (d &&& 0x0F) + (BitVec.ofBool extend).setWidth 32
  let low := if 9 < low then low + 6 else low
  let sum := low + (s &&& 0xF0) + (d &&& 0xF0)
  let carry : Bool := 0x99 < sum
  { value := (if carry then sum - 0xA0 else sum).setWidth 8
    overflow := false
    carry }

/-- Subtracts the low digits, then the high ones, and corrects each difference below zero. -/
def subDecimal (destination source : Byte) (extend : Bool) : ChainedResult 8 :=
  let d := destination.setWidth 32
  let s := source.setWidth 32
  let low := (d &&& 0x0F) - (s &&& 0x0F) - (BitVec.ofBool extend).setWidth 32
  let low := if 9 < low then low - 6 else low
  let difference := low + (d &&& 0xF0) - (s &&& 0xF0)
  let carry : Bool := 0x99 < difference
  { value := (if carry then difference + 0xA0 else difference).setWidth 8
    overflow := false
    carry }

/-- The flags after a part: Z can only be cleared, and X is the carry. -/
def ccr (result : ChainedResult n) (flags : Flags) : Ccr where
  extend := result.carry
  negative := result.value.msb
  zero := result.value == 0 && flags.zero
  overflow := result.overflow
  carry := result.carry

end ChainedResult

namespace Instruction

open Exec

/-- The operands of an operation on two parts: data registers, or memory below two address
registers. -/
def chainedOperand (size : Size) (inMemory : Bool) (number : Fin 8) : Operand size :=
  ⟨if inMemory then .preDecrement number else .dataRegister number, 2⟩

/-- Works on one part of two numbers. -/
def chained (size : Size) (combine : size.Value → size.Value → Bool → ChainedResult size.bits)
    (inMemory : Bool) (opcode : Opcode) : Exec Unit := do
  let source := chainedOperand size inMemory opcode.lowRegister
  let destination := chainedOperand size inMemory opcode.highRegister
  let sourceValue ← source.get
  source.finish
  let destinationValue ← destination.get
  let result := combine destinationValue sourceValue (← flags).extend
  destination.put result.value
  destination.finish
  setCcr (result.ccr (← flags))
  advancePc 2

/-- ADDX and SUBX. -/
def chainedBinary (operation : ChainedOperation) (size : Size) (inMemory : Bool)
    (opcode : Opcode) : Exec Unit :=
  match operation with
  | .add => chained size ChainedResult.add inMemory opcode
  | .sub => chained size ChainedResult.sub inMemory opcode

/-- ABCD and SBCD. -/
def chainedDecimal (operation : ChainedOperation) (inMemory : Bool) (opcode : Opcode) :
    Exec Unit :=
  match operation with
  | .add => chained .byte ChainedResult.addDecimal inMemory opcode
  | .sub => chained .byte ChainedResult.subDecimal inMemory opcode

/-- NBCD. -/
def negateDecimal (opcode : Opcode) : Exec Unit := do
  let operand ← Operand.ofField .byte opcode.operandField 2
  let value ← operand.get
  let result := ChainedResult.subDecimal 0 value (← flags).extend
  operand.put result.value
  operand.finish
  setCcr (result.ccr (← flags))
  advancePc (2 + operand.extensionBytes)

end Instruction

end M68000
