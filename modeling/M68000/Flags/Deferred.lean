import M68000.Flags.Ccr

/-!
# Deferred flags

An instruction records the operation that it performed and its operands; a flag is computed
from that record when something asks for it. Operands narrower than a long word are recorded
sign-extended, which puts their sign where that of a long word is, so that one rule serves all
widths. Only the shifts record a width too, because the bit they move out last depends on it.
-/

namespace M68000

namespace Deferred

/-- The rule by which flags follow from recorded operands. -/
inductive Kind where
  | result
  | add
  | sub
  | asl
  | asr
  | lsl
  | lsr
  | rol
  | ror
  | explicit
  deriving DecidableEq

end Deferred

/-- An operation with its operands, from which the flags follow. -/
structure Deferred where
  kind : Deferred.Kind
  /-- The result, or the flags themselves in an explicit record. -/
  result : BitVec 32
  /-- The first operand: what was added to, subtracted from or shifted. -/
  destination : BitVec 32
  /-- The second operand: what was added or subtracted, or the shift count. -/
  source : BitVec 32
  /-- The width of a shifted operand. -/
  width : Nat
  deriving DecidableEq

namespace Deferred

/-- A record of the flags themselves, in the layout of the condition code register. -/
def ofCcr (ccr : Ccr) : Deferred :=
  ⟨.explicit, ccr.toByte.setWidth 32, 0, 0, 32⟩

/-- A result that alone decides N and Z, with V and C clear. -/
def ofResult (result : BitVec 32) : Deferred :=
  ⟨.result, result, 0, 0, 32⟩

def negative (record : Deferred) : Bool :=
  match record.kind with
  | .explicit => record.result.getLsbD 3
  | _ => record.result.msb

def zero (record : Deferred) : Bool :=
  match record.kind with
  | .explicit => record.result.getLsbD 2
  | _ => record.result == 0

/-- A sum overflows when both operands have the sign that the result lacks, a difference when
the operands differ in sign and the result has not that of the first. A left shift overflows
when one of the bits that pass through the sign position differs from the sign. -/
def overflow (record : Deferred) : Bool :=
  let ⟨kind, r, d, s, width⟩ := record
  match kind with
  | .add => ((s ^^^ r) &&& (d ^^^ r)).msb
  | .sub => ((s ^^^ d) &&& (r ^^^ d)).msb
  | .asl =>
    if width ≤ s.toNat then d != 0
    else
      let top := d.sshiftRight (width - 1 - s.toNat)
      top != 0 && top != -1
  | .explicit => r.getLsbD 1
  | _ => false

/-- The carry out of a sum, the borrow of a difference, or the bit that a shift or rotation
moved out last. -/
def carry (record : Deferred) : Bool :=
  let ⟨kind, r, d, s, width⟩ := record
  match kind with
  | .result => false
  | .add => ((s &&& d) ||| (~~~r &&& d) ||| (s &&& ~~~r)).msb
  | .sub => ((s &&& ~~~d) ||| (r &&& ~~~d) ||| (s &&& r)).msb
  | .asl | .lsl => s.toNat ≤ width && (d.setWidth width).getLsbD (width - s.toNat)
  | .asr => if width < s.toNat then d.msb else d.getLsbD (s.toNat - 1)
  | .lsr => s.toNat ≤ width && (d.setWidth width).getLsbD (s.toNat - 1)
  | .rol => r.getLsbD 0
  | .ror => r.msb
  | .explicit => r.getLsbD 0

/-- The extend flag of a record that decides it: X follows C except where the flags were
given. -/
def extend (record : Deferred) : Bool :=
  match record.kind with
  | .explicit => record.result.getLsbD 4
  | _ => record.carry

section Explicit

variable (ccr : Ccr)

@[simp]
theorem negative_ofCcr : (ofCcr ccr).negative = ccr.negative := by
  rcases ccr with ⟨_ | _, _ | _, _ | _, _ | _, _ | _⟩ <;> rfl

@[simp]
theorem zero_ofCcr : (ofCcr ccr).zero = ccr.zero := by
  rcases ccr with ⟨_ | _, _ | _, _ | _, _ | _, _ | _⟩ <;> rfl

@[simp]
theorem overflow_ofCcr : (ofCcr ccr).overflow = ccr.overflow := by
  rcases ccr with ⟨_ | _, _ | _, _ | _, _ | _, _ | _⟩ <;> rfl

@[simp]
theorem carry_ofCcr : (ofCcr ccr).carry = ccr.carry := by
  rcases ccr with ⟨_ | _, _ | _, _ | _, _ | _, _ | _⟩ <;> rfl

@[simp]
theorem extend_ofCcr : (ofCcr ccr).extend = ccr.extend := by
  rcases ccr with ⟨_ | _, _ | _, _ | _, _ | _, _ | _⟩ <;> rfl

end Explicit

end Deferred

end M68000
