import M68000.Flags
import Mathlib.Algebra.Group.Int.Defs
import Mathlib.Algebra.Group.Nat.Defs

/-!
# Flags of sums and differences

Flags that are read off the signs of recorded operands tell whether the exact result fits: C is
set when the unsigned result is out of range, V when the signed one is. Recording an operand
sign-extended changes neither its sign nor whether it is zero, so this holds at every width.
-/

namespace M68000

/-! ## Exact results -/

/-- The result is no number that `n` bits hold without a sign. -/
def unsignedOutOfRange (n : Nat) (result : Int) : Bool :=
  result < 0 || 2 ^ n ≤ result

/-- The result is no number that `n` bits hold with a sign. -/
def signedOutOfRange (n : Nat) (result : Int) : Bool :=
  result < -2 ^ (n - 1) || 2 ^ (n - 1) ≤ result

/-! ## Sign extension -/

section SignExtension

variable {m n : Nat} (h : n ≤ m) (value : BitVec n)

include h

theorem msb_signExtend_of_le : (value.signExtend m).msb = value.msb := by
  rw [BitVec.msb_signExtend]
  rcases Nat.eq_zero_or_pos n with rfl | hn
  · simp [BitVec.of_length_zero]
  · rcases Nat.eq_or_lt_of_le h with rfl | hlt
    · simp [hn, BitVec.msb]
    · simp [Nat.not_le.2 hlt, Nat.zero_lt_of_lt hlt]

theorem setWidth_signExtend_of_le : (value.signExtend m).setWidth n = value := by
  apply BitVec.eq_of_getLsbD_eq
  intro i hi
  have him : i < m := by omega
  simp [BitVec.getElem_signExtend, hi, him]

theorem signExtend_inj_of_le (other : BitVec n) :
    value.signExtend m = other.signExtend m ↔ value = other := by
  constructor
  · intro heq
    rw [← setWidth_signExtend_of_le h value, heq, setWidth_signExtend_of_le h]
  · rintro rfl
    rfl

theorem signExtend_beq_zero_of_le : (value.signExtend m == 0) = (value == 0) := by
  have hzero : (0 : BitVec n).signExtend m = 0 := by
    simp [BitVec.signExtend]
  rw [Bool.eq_iff_iff, beq_iff_eq, beq_iff_eq, ← hzero, signExtend_inj_of_le h]

end SignExtension

/-! ## Sums -/

section Sum

variable {n : Nat} (destination source : BitVec n)

theorem msb_carry_add :
    ((source &&& destination) ||| (~~~(destination + source) &&& destination) |||
        (source &&& ~~~(destination + source))).msb =
      unsignedOutOfRange n (destination.toNat + source.toNat) := by
  have hexact : unsignedOutOfRange n (destination.toNat + source.toNat) =
      BitVec.carry n destination source false := by
    rw [BitVec.carry_width, unsignedOutOfRange]
    norm_cast
  rw [hexact]
  cases n with
  | zero => simp [BitVec.of_length_zero]
  | succ n =>
    rw [BitVec.msb_or, BitVec.msb_or, BitVec.msb_and, BitVec.msb_and, BitVec.msb_and,
      BitVec.msb_not, BitVec.msb_add, BitVec.carry_succ]
    rw [BitVec.msb_eq_getLsbD_last destination, BitVec.msb_eq_getLsbD_last source,
      Nat.add_sub_cancel]
    cases destination.getLsbD n <;> cases source.getLsbD n <;>
      cases BitVec.carry n destination source false <;> rfl

theorem msb_overflow_add :
    ((source ^^^ (destination + source)) &&& (destination ^^^ (destination + source))).msb =
      signedOutOfRange n (destination.toInt + source.toInt) := by
  have hexact : signedOutOfRange n (destination.toInt + source.toInt) =
      BitVec.saddOverflow destination source := by
    rw [BitVec.saddOverflow, signedOutOfRange, Bool.or_comm]
  rw [hexact, BitVec.saddOverflow_eq, BitVec.msb_and, BitVec.msb_xor, BitVec.msb_xor]
  cases destination.msb <;> cases source.msb <;> cases (destination + source).msb <;> rfl

theorem msb_carry_sub :
    ((source &&& ~~~destination) ||| (destination - source &&& ~~~destination) |||
        (source &&& (destination - source))).msb =
      unsignedOutOfRange n (destination.toNat - source.toNat) := by
  -- The destination is the sum of the difference and the source.
  have hsum := msb_carry_add (destination - source) source
  rw [BitVec.sub_add_cancel] at hsum
  have hexact : unsignedOutOfRange n ((destination - source).toNat + source.toNat) =
      unsignedOutOfRange n (destination.toNat - source.toNat) := by
    have hd := destination.isLt
    have hs := source.isLt
    have hpow : (2 ^ n : Int) = (2 ^ n : Nat) := (Int.natCast_pow 2 n).symm
    rw [unsignedOutOfRange, unsignedOutOfRange, hpow, Bool.eq_iff_iff]
    simp only [Bool.or_eq_true, decide_eq_true_eq]
    rcases Nat.lt_or_ge destination.toNat source.toNat with hlt | hle
    · have hborrow : (destination - source).toNat = 2 ^ n - source.toNat + destination.toNat := by
        rw [BitVec.toNat_sub]
        exact Nat.mod_eq_of_lt (by omega)
      omega
    · have hfits : (destination - source).toNat = destination.toNat - source.toNat :=
        BitVec.toNat_sub_of_le (BitVec.le_def.2 hle)
      omega
  rw [← hexact, ← hsum]
  congr 1
  ac_rfl

theorem msb_overflow_sub :
    ((source ^^^ destination) &&& ((destination - source) ^^^ destination)).msb =
      signedOutOfRange n (destination.toInt - source.toInt) := by
  have hexact : signedOutOfRange n (destination.toInt - source.toInt) =
      BitVec.ssubOverflow destination source := by
    rw [BitVec.ssubOverflow, signedOutOfRange, Bool.or_comm]
  rw [hexact, BitVec.ssubOverflow_eq, BitVec.msb_and, BitVec.msb_xor, BitVec.msb_xor]
  cases destination.msb <;> cases source.msb <;> cases (destination - source).msb <;> rfl

end Sum

/-! ## Recorded operands -/

section Record

variable {n : Nat} (hle : n ≤ 32) (destination source : BitVec n)

include hle

theorem negative_record {kind : Deferred.Kind} (hkind : kind ≠ .explicit) (result : BitVec n)
    (d s : BitVec 32) (width : Nat) :
    (Deferred.mk kind (result.signExtend 32) d s width).negative = result.msb := by
  rw [← msb_signExtend_of_le hle]
  cases kind <;> first | rfl | exact absurd rfl hkind

theorem zero_record {kind : Deferred.Kind} (hkind : kind ≠ .explicit) (result : BitVec n)
    (d s : BitVec 32) (width : Nat) :
    (Deferred.mk kind (result.signExtend 32) d s width).zero = (result == 0) := by
  rw [← signExtend_beq_zero_of_le hle]
  cases kind <;> first | rfl | exact absurd rfl hkind

theorem overflow_record_add :
    (Deferred.mk .add ((destination + source).signExtend 32) (destination.signExtend 32)
        (source.signExtend 32) 32).overflow =
      signedOutOfRange n (destination.toInt + source.toInt) := by
  rw [← msb_overflow_add]
  simp only [Deferred.overflow, BitVec.msb_and, BitVec.msb_xor, msb_signExtend_of_le hle]

theorem overflow_record_sub :
    (Deferred.mk .sub ((destination - source).signExtend 32) (destination.signExtend 32)
        (source.signExtend 32) 32).overflow =
      signedOutOfRange n (destination.toInt - source.toInt) := by
  rw [← msb_overflow_sub]
  simp only [Deferred.overflow, BitVec.msb_and, BitVec.msb_xor, msb_signExtend_of_le hle]

variable (hn : 0 < n)

include hn

theorem carry_record_add :
    (Deferred.mk .add ((destination + source).signExtend 32) (destination.signExtend 32)
        (source.signExtend 32) 32).carry =
      unsignedOutOfRange n (destination.toNat + source.toNat) := by
  rw [← msb_carry_add]
  simp only [Deferred.carry, BitVec.msb_or, BitVec.msb_and, BitVec.msb_not,
    msb_signExtend_of_le hle, decide_eq_true hn, Nat.zero_lt_succ, decide_true]

theorem carry_record_sub :
    (Deferred.mk .sub ((destination - source).signExtend 32) (destination.signExtend 32)
        (source.signExtend 32) 32).carry =
      unsignedOutOfRange n (destination.toNat - source.toNat) := by
  rw [← msb_carry_sub]
  simp only [Deferred.carry, BitVec.msb_or, BitVec.msb_and, BitVec.msb_not,
    msb_signExtend_of_le hle, decide_eq_true hn, Nat.zero_lt_succ, decide_true]

end Record

namespace Flags

theorem ccr_record (flags : Flags) (codes : Deferred) :
    (flags.record codes).ccr =
      ⟨flags.extend, codes.negative, codes.zero, codes.overflow, codes.carry⟩ :=
  rfl

theorem ccr_ofRecord (codes : Deferred) :
    (ofRecord codes).ccr =
      ⟨codes.extend, codes.negative, codes.zero, codes.overflow, codes.carry⟩ :=
  rfl

variable {n : Nat} (hle : n ≤ 32) (destination source : BitVec n) (flags : Flags)

include hle

theorem ccr_setResult (result : BitVec n) :
    (flags.setResult (result.signExtend 32)).ccr =
      { extend := flags.extend
        negative := result.msb
        zero := result == 0
        overflow := false
        carry := false } := by
  rw [setResult, ccr_record, Deferred.ofResult, negative_record hle (by decide),
    zero_record hle (by decide)]
  rfl

variable (hn : 0 < n)

include hn

theorem ccr_ofAdd :
    (ofAdd ((destination + source).signExtend 32) (destination.signExtend 32)
        (source.signExtend 32)).ccr =
      { extend := unsignedOutOfRange n (destination.toNat + source.toNat)
        negative := (destination + source).msb
        zero := destination + source == 0
        overflow := signedOutOfRange n (destination.toInt + source.toInt)
        carry := unsignedOutOfRange n (destination.toNat + source.toNat) } := by
  rw [ofAdd, ccr_ofRecord, Deferred.extend, negative_record hle (by decide),
    zero_record hle (by decide), overflow_record_add hle, carry_record_add hle _ _ hn]

theorem ccr_ofSub :
    (ofSub ((destination - source).signExtend 32) (destination.signExtend 32)
        (source.signExtend 32)).ccr =
      { extend := unsignedOutOfRange n (destination.toNat - source.toNat)
        negative := (destination - source).msb
        zero := destination - source == 0
        overflow := signedOutOfRange n (destination.toInt - source.toInt)
        carry := unsignedOutOfRange n (destination.toNat - source.toNat) } := by
  rw [ofSub, ccr_ofRecord, Deferred.extend, negative_record hle (by decide),
    zero_record hle (by decide), overflow_record_sub hle, carry_record_sub hle _ _ hn]

/-- A comparison has the flags of the difference and leaves X alone. -/
theorem ccr_setCompare :
    (flags.setCompare ((destination - source).signExtend 32) (destination.signExtend 32)
        (source.signExtend 32)).ccr =
      { extend := flags.extend
        negative := (destination - source).msb
        zero := destination - source == 0
        overflow := signedOutOfRange n (destination.toInt - source.toInt)
        carry := unsignedOutOfRange n (destination.toNat - source.toNat) } := by
  rw [setCompare, ccr_record, negative_record hle (by decide), zero_record hle (by decide),
    overflow_record_sub hle, carry_record_sub hle _ _ hn]

end Flags

end M68000
