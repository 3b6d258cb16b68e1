import M68000.Flags.Deferred

/-!
# Flags

The flags in effect are two deferred records: one decides N, Z, V and C, the other X, because
many instructions set the first four and leave X alone. Reading them all gives the condition
code register, and writing that register back changes none of them.
-/

namespace M68000

/-- The records from which the five flags are read. -/
structure Flags where
  codes : Deferred := .ofCcr .clear
  extension : Deferred := .ofCcr .clear
  deriving DecidableEq

namespace Flags

variable (flags : Flags)

/-! ## Reading -/

def negative : Bool := flags.codes.negative

def zero : Bool := flags.codes.zero

def overflow : Bool := flags.codes.overflow

def carry : Bool := flags.codes.carry

def extend : Bool := flags.extension.extend

def ccr : Ccr where
  extend := flags.extend
  negative := flags.negative
  zero := flags.zero
  overflow := flags.overflow
  carry := flags.carry

/-! ## Recording -/

/-- The record decides N, Z, V and C, and X stays. -/
def record (codes : Deferred) : Flags :=
  { flags with codes }

/-- The record decides all five flags. -/
def ofRecord (codes : Deferred) : Flags :=
  ⟨codes, codes⟩

/-- N and Z follow the result, V and C are clear, X stays. -/
def setResult (result : BitVec 32) : Flags :=
  flags.record (.ofResult result)

def ofAdd (result destination source : BitVec 32) : Flags :=
  ofRecord ⟨.add, result, destination, source, 32⟩

def ofSub (result destination source : BitVec 32) : Flags :=
  ofRecord ⟨.sub, result, destination, source, 32⟩

/-- As for a difference, but X stays. -/
def setCompare (result destination source : BitVec 32) : Flags :=
  flags.record ⟨.sub, result, destination, source, 32⟩

/-- A shift by a count that is not zero. -/
def ofShift (kind : Deferred.Kind) (width : Nat) (result shifted count : BitVec 32) : Flags :=
  ofRecord ⟨kind, result, shifted, count, width⟩

/-- A rotation to the left by a count that is not zero: C is the bit that came round last. -/
def setRotateLeft (result : BitVec 32) : Flags :=
  flags.record ⟨.rol, result, 0, 0, 32⟩

/-- A rotation to the right by a count that is not zero. -/
def setRotateRight (result : BitVec 32) : Flags :=
  flags.record ⟨.ror, result, 0, 0, 32⟩

/-- The four flags are given and X stays. -/
def setCodes (negative zero overflow carry : Bool) : Flags :=
  flags.record (.ofCcr ⟨false, negative, zero, overflow, carry⟩)

/-- Only Z changes. -/
def setZero (zero : Bool) : Flags :=
  flags.record (.ofCcr { flags.ccr with zero })

def ofCcr (ccr : Ccr) : Flags :=
  ofRecord (.ofCcr ccr)

@[simp]
theorem ccr_ofCcr (ccr : Ccr) : (ofCcr ccr).ccr = ccr := by
  simp [Flags.ccr, ofCcr, ofRecord, negative, zero, overflow, carry, extend]

@[simp]
theorem ccr_setZero (zero : Bool) : (flags.setZero zero).ccr = { flags.ccr with zero } := by
  simp [Flags.ccr, setZero, record, negative, Flags.zero, overflow, carry, extend]

@[simp]
theorem ccr_setCodes (n z v c : Bool) :
    (flags.setCodes n z v c).ccr = ⟨flags.extend, n, z, v, c⟩ := by
  simp [Flags.ccr, setCodes, record, negative, zero, overflow, carry, extend]

end Flags

end M68000
