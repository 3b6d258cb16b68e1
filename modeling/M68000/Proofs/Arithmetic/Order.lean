import M68000.Condition
import M68000.Proofs.Flags.Arithmetic

/-!
# Conditions after a comparison

The flags of a difference tell how its operands are ordered, as numbers without a sign and as
numbers with one, also where the difference itself is out of range. So each condition stands for one
relation between the two numbers that have been compared.
-/

namespace M68000

/-! ## The order of the operands -/

section Order

variable {n : Nat} (destination source : BitVec n)

/-- A difference borrows if it is negative, since it cannot be too large. -/
theorem unsignedOutOfRange_sub :
    unsignedOutOfRange n (destination.toNat - source.toNat) =
      decide (destination.toNat < source.toNat) := by
  have hlt := destination.isLt
  have hpow : (2 ^ n : Int) = (2 ^ n : Nat) := (Int.natCast_pow 2 n).symm
  rw [unsignedOutOfRange, hpow, Bool.eq_iff_iff]
  simp only [Bool.or_eq_true, decide_eq_true_eq]
  omega

/-- Whether the signs differ, and whether the numbers without a sign are in order, decides how the
numbers with a sign are ordered. -/
theorem msb_sub_bne_signedOutOfRange (hn : 0 < n) :
    ((destination - source).msb != signedOutOfRange n (destination.toInt - source.toInt)) =
      decide (destination.toInt < source.toInt) := by
  have hunsigned : destination.ult source = _ :=
    (unsignedOutOfRange_sub destination source).symm.trans (msb_carry_sub destination source).symm
  have hsigned : decide (destination.toInt < source.toInt) =
      ((destination.msb != source.msb) ^^ destination.ult source) :=
    BitVec.slt_eq_ult
  rw [hsigned, hunsigned, ← msb_overflow_sub, BitVec.msb_or, BitVec.msb_or, BitVec.msb_and,
    BitVec.msb_and, BitVec.msb_and, BitVec.msb_and, BitVec.msb_xor, BitVec.msb_xor, BitVec.msb_not,
    decide_eq_true hn]
  cases destination.msb <;> cases source.msb <;> cases (destination - source).msb <;> rfl

end Order

/-! ## Conditions -/

/-- The flags N, Z, V and C are those of a difference. -/
structure Ccr.Differs (ccr : Ccr) {n : Nat} (destination source : BitVec n) : Prop where
  negative : ccr.negative = (destination - source).msb
  zero : ccr.zero = (destination - source == 0)
  overflow : ccr.overflow = signedOutOfRange n (destination.toInt - source.toInt)
  carry : ccr.carry = unsignedOutOfRange n (destination.toNat - source.toNat)

namespace Condition

/-- What a condition says about two numbers that have been compared. -/
def Compares {n : Nat} (destination source : BitVec n) : Condition → Prop
  | always => True
  | never => False
  | higher => destination.toNat > source.toNat
  | lowerOrSame => destination.toNat ≤ source.toNat
  | carryClear => destination.toNat ≥ source.toNat
  | carrySet => destination.toNat < source.toNat
  | notEqual => destination ≠ source
  | equal => destination = source
  | overflowClear =>
    -2 ^ (n - 1) ≤ destination.toInt - source.toInt ∧
      destination.toInt - source.toInt < 2 ^ (n - 1)
  | overflowSet =>
    destination.toInt - source.toInt < -2 ^ (n - 1) ∨
      2 ^ (n - 1) ≤ destination.toInt - source.toInt
  | plus => (destination - source).getLsbD (n - 1) = false
  | minus => (destination - source).getLsbD (n - 1) = true
  | greaterOrEqual => destination.toInt ≥ source.toInt
  | less => destination.toInt < source.toInt
  | greater => destination.toInt > source.toInt
  | lessOrEqual => destination.toInt ≤ source.toInt

variable {n : Nat} {destination source : BitVec n} {ccr : Ccr}

/-- On the flags of a difference every condition holds exactly if the operands are in its
relation. -/
theorem eval_iff_compares (hn : 0 < n) (h : ccr.Differs destination source)
    (condition : Condition) :
    condition.eval ccr = true ↔ condition.Compares destination source := by
  have hcarry : ccr.carry = true ↔ destination.toNat < source.toNat := by
    rw [h.carry, unsignedOutOfRange_sub, decide_eq_true_iff]
  have hzero : ccr.zero = true ↔ destination = source := by
    rw [h.zero, beq_iff_eq, BitVec.sub_eq_iff_eq_add]
    exact (BitVec.zero_add source).symm ▸ Iff.rfl
  have hless : (ccr.negative != ccr.overflow) = true ↔ destination.toInt < source.toInt := by
    rw [h.negative, h.overflow, msb_sub_bne_signedOutOfRange _ _ hn, decide_eq_true_iff]
  have hoverflow : ccr.overflow = true ↔ destination.toInt - source.toInt < -2 ^ (n - 1) ∨
      2 ^ (n - 1) ≤ destination.toInt - source.toInt := by
    rw [h.overflow, signedOutOfRange, Bool.or_eq_true, decide_eq_true_iff, decide_eq_true_iff]
  have hnat : destination = source ↔ destination.toNat = source.toNat := BitVec.toNat_inj.symm
  have hint : destination = source ↔ destination.toInt = source.toInt := BitVec.toInt_inj.symm
  have hsame (a b : Bool) : (a == b) = !(a != b) := by
    cases a <;> cases b <;> rfl
  cases condition with
  | always => exact iff_of_true rfl trivial
  | never => exact iff_of_false (fun heq ↦ Bool.noConfusion heq) id
  | carrySet => exact hcarry
  | equal => exact hzero
  | overflowSet => exact hoverflow
  | less => exact hless
  | minus => rw [eval, h.negative, Compares, BitVec.msb_eq_getLsbD_last]
  | plus =>
    rw [eval, h.negative, Compares, BitVec.msb_eq_getLsbD_last, Bool.not_eq_true']
  | carryClear =>
    rw [eval, Bool.not_eq_true', ← Bool.not_eq_true, hcarry, Compares]
    exact Nat.not_lt
  | notEqual => rw [eval, Bool.not_eq_true', ← Bool.not_eq_true, hzero, Compares]
  | overflowClear =>
    rw [eval, Bool.not_eq_true', ← Bool.not_eq_true, hoverflow, Compares, not_or, Int.not_lt,
      Int.not_le]
  | greaterOrEqual =>
    rw [eval, hsame, Bool.not_eq_true', ← Bool.not_eq_true, hless, Compares]
    exact Int.not_lt
  | higher =>
    rw [eval, Bool.and_eq_true, Bool.not_eq_true', Bool.not_eq_true', ← Bool.not_eq_true,
      ← Bool.not_eq_true, hcarry, hzero, hnat, Compares]
    omega
  | lowerOrSame =>
    rw [eval, Bool.or_eq_true, hcarry, hzero, hnat, Compares]
    omega
  | greater =>
    rw [eval, hsame, Bool.and_eq_true, Bool.not_eq_true', Bool.not_eq_true', ← Bool.not_eq_true,
      ← Bool.not_eq_true, hless, hzero, hint, Compares]
    omega
  | lessOrEqual =>
    rw [eval, Bool.or_eq_true, hless, hzero, hint, Compares]
    omega

end Condition

end M68000
