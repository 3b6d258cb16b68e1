import M68000.Instruction.Chained
import M68000.Proofs.Flags.Arithmetic

/-!
# Arithmetic part by part

A number that is split into a high and a low part is added or subtracted by working on the low
part first and passing its carry to the high part. The carry that the processor reads off three
sign bits is the exact one, subtraction is addition of the complement, and negation is subtraction
from zero.
-/

namespace M68000

namespace ChainedResult

variable {m n : Nat}

/-- The flags that the outcome for a part leaves behind. -/
def codesAfter (result : ChainedResult n) (before : Ccr) : Ccr where
  extend := result.carry
  negative := result.value.msb
  zero := result.value == 0 && before.zero
  overflow := result.overflow
  carry := result.carry

theorem toNat_append (high : BitVec m) (low : BitVec n) :
    (high ++ low).toNat = 2 ^ n * high.toNat + low.toNat := by
  rw [BitVec.toNat_append, ← Nat.shiftLeft_add_eq_or_of_lt low.isLt, Nat.shiftLeft_eq,
    Nat.mul_comm]

theorem append_beq_zero (high : BitVec m) (low : BitVec n) :
    (high ++ low == 0) = (low == 0 && high == 0) := by
  have hpow := Nat.two_pow_pos n
  rw [Bool.eq_iff_iff, Bool.and_eq_true, beq_iff_eq, beq_iff_eq, beq_iff_eq, ← BitVec.toNat_inj,
    ← BitVec.toNat_inj, ← BitVec.toNat_inj, toNat_append]
  change 2 ^ n * high.toNat + low.toNat = 0 ↔ low.toNat = 0 ∧ high.toNat = 0
  rw [Nat.add_eq_zero_iff, Nat.mul_eq_zero, or_iff_right (Nat.ne_of_gt hpow), and_comm]

theorem setWidth_ofBool (extend : Bool) :
    (BitVec.ofBool extend).setWidth n = BitVec.ofNat n extend.toNat := by
  rw [← BitVec.toNat_inj, BitVec.toNat_setWidth, BitVec.toNat_ofBool, BitVec.toNat_ofNat]

/-! ## Sums -/

/-- The carry out of a sum. A number of no bits passes it on. -/
def carryOut (destination source : BitVec n) (extend : Bool) : Bool :=
  2 ^ n ≤ destination.toNat + source.toNat + extend.toNat

theorem carry_add (hn : 0 < n) (destination source : BitVec n) (extend : Bool) :
    (add destination source extend).carry = carryOut destination source extend := by
  have hexact : carryOut destination source extend = BitVec.carry n destination source extend := by
    rw [carryOut, BitVec.carry_width]
  have hresult : (destination + source + (BitVec.ofBool extend).setWidth n).msb =
      (destination.msb ^^ (source.msb ^^ BitVec.carry (n - 1) destination source extend)) := by
    rw [BitVec.msb_eq_getLsbD_last, BitVec.msb_eq_getLsbD_last, BitVec.msb_eq_getLsbD_last]
    exact BitVec.getLsbD_add_add_bool (Nat.sub_lt hn Nat.one_pos) destination source extend
  have hcarry : BitVec.carry n destination source extend =
      Bool.atLeastTwo destination.msb source.msb
        (BitVec.carry (n - 1) destination source extend) := by
    rw [BitVec.msb_eq_getLsbD_last, BitVec.msb_eq_getLsbD_last, ← BitVec.carry_succ,
      Nat.sub_add_cancel hn]
  rw [hexact, hcarry]
  change ((source &&& destination) ||| (~~~(destination + source +
    (BitVec.ofBool extend).setWidth n) &&& (source ||| destination))).msb = _
  rw [BitVec.msb_or, BitVec.msb_and, BitVec.msb_and, BitVec.msb_not, BitVec.msb_or, hresult,
    decide_eq_true hn]
  cases destination.msb <;> cases source.msb <;>
    cases BitVec.carry (n - 1) destination source extend <;> rfl

/-- The sum of the low parts divided by their number of values is their carry. -/
theorem div_eq_carryOut (low low' : BitVec n) (extend : Bool) :
    (low.toNat + low'.toNat + extend.toNat) / 2 ^ n = (carryOut low low' extend).toNat := by
  have hlow := low.isLt
  have hlow' := low'.isLt
  have hextend := extend.toNat_le
  by_cases hle : 2 ^ n ≤ low.toNat + low'.toNat + extend.toNat
  · rw [carryOut, decide_eq_true hle, Bool.toNat_true]
    exact Nat.div_eq_of_lt_le (by omega) (by omega)
  · rw [carryOut, decide_eq_false hle, Bool.toNat_false]
    exact Nat.div_eq_of_lt (by omega)

theorem sum_append (high high' : BitVec m) (low low' : BitVec n) (extend : Bool) :
    (high ++ low).toNat + (high' ++ low').toNat + extend.toNat =
      2 ^ n * (high.toNat + high'.toNat) + (low.toNat + low'.toNat + extend.toNat) := by
  rw [toNat_append, toNat_append, Nat.mul_add]
  omega

theorem carryOut_append (high high' : BitVec m) (low low' : BitVec n) (extend : Bool) :
    carryOut (high ++ low) (high' ++ low') extend =
      carryOut high high' (carryOut low low' extend) := by
  rw [carryOut, carryOut, sum_append, ← div_eq_carryOut, decide_eq_decide, Nat.pow_add,
    ← Nat.le_div_iff_mul_le (Nat.two_pow_pos n), Nat.mul_add_div (Nat.two_pow_pos n)]

theorem value_add_append (high high' : BitVec m) (low low' : BitVec n) (extend : Bool) :
    (add (high ++ low) (high' ++ low') extend).value =
      (add high high' (carryOut low low' extend)).value ++ (add low low' extend).value := by
  have hvalue {w : Nat} (destination source : BitVec w) (extend : Bool) :
      (add destination source extend).value.toNat =
        (destination.toNat + source.toNat + extend.toNat) % 2 ^ w := by
    rw [add, BitVec.toNat_add, BitVec.toNat_add, setWidth_ofBool, BitVec.toNat_ofNat,
      Nat.mod_add_mod, Nat.add_mod_mod]
  rw [← BitVec.toNat_inj, toNat_append, hvalue, hvalue, hvalue, sum_append, ← div_eq_carryOut,
    Nat.add_comm m n, Nat.pow_add, Nat.mod_mul, Nat.mul_add_mod_self_left,
    Nat.mul_add_div (Nat.two_pow_pos n), Nat.add_comm]

/-! ## Differences -/

section Difference

variable (destination source : BitVec n) (extend : Bool)

/-- A difference is the sum with the complement. -/
theorem value_sub_eq_add :
    (sub destination source extend).value = (add destination (~~~source) !extend).value := by
  change destination - source - (BitVec.ofBool extend).setWidth n =
    destination + ~~~source + (BitVec.ofBool !extend).setWidth n
  rw [BitVec.sub_eq_add_neg destination, BitVec.neg_eq_not_add, setWidth_ofBool, setWidth_ofBool]
  cases extend with
  | false =>
    rw [Bool.toNat_false, BitVec.sub_zero, BitVec.add_assoc, Bool.not_false, Bool.toNat_true]
  | true =>
    rw [Bool.not_true, Bool.toNat_true, Bool.toNat_false, BitVec.add_zero, ← BitVec.add_assoc,
      BitVec.add_sub_cancel]

/-- It overflows where that sum does. -/
theorem overflow_sub_eq_add :
    (sub destination source extend).overflow = (add destination (~~~source) !extend).overflow := by
  obtain rfl | hn := Nat.eq_zero_or_pos n
  · simp [sub, add, BitVec.of_length_zero]
  change ((source ^^^ destination) &&&
      ((sub destination source extend).value ^^^ destination)).msb =
    ((~~~source ^^^ (add destination (~~~source) !extend).value) &&&
      (destination ^^^ (add destination (~~~source) !extend).value)).msb
  rw [value_sub_eq_add]
  simp only [BitVec.msb_and, BitVec.msb_xor, BitVec.msb_not, decide_eq_true hn]
  cases destination.msb <;> cases source.msb <;>
    cases (add destination (~~~source) !extend).value.msb <;> rfl

/-- It borrows where that sum does not carry. -/
theorem carry_sub_eq_add (hn : 0 < n) :
    (sub destination source extend).carry = !(add destination (~~~source) !extend).carry := by
  change ((source &&& ~~~destination) |||
      ((sub destination source extend).value &&& ~~~destination) |||
      (source &&& (sub destination source extend).value)).msb =
    !((~~~source &&& destination) ||| (~~~(add destination (~~~source) !extend).value &&&
      (~~~source ||| destination))).msb
  rw [value_sub_eq_add]
  simp only [BitVec.msb_or, BitVec.msb_and, BitVec.msb_not, decide_eq_true hn]
  cases destination.msb <;> cases source.msb <;>
    cases (add destination (~~~source) !extend).value.msb <;> rfl

end Difference

/-- Negation is subtraction from zero. -/
theorem neg_eq_sub (source : BitVec n) (extend : Bool) :
    neg source extend = sub 0#n source extend := by
  have hoverflow (result : BitVec n) :
      source &&& result = (source ^^^ 0#n) &&& (result ^^^ 0#n) := by
    rw [BitVec.xor_zero, BitVec.xor_zero]
  have hcarry (result : BitVec n) :
      source ||| result = (source &&& ~~~0#n) ||| (result &&& ~~~0#n) ||| (source &&& result) := by
    ext i hi
    simp only [BitVec.getElem_or, BitVec.getElem_and, BitVec.getElem_not, BitVec.getElem_zero]
    cases source[i] <;> cases result[i] <;> rfl
  rw [neg, sub]
  exact congrArg₂ _ (congrArg _ (hoverflow _)) (congrArg _ (hcarry _))

theorem overflow_add_append (high high' : BitVec m) (low low' : BitVec n) (extend : Bool) :
    (add (high ++ low) (high' ++ low') extend).overflow =
      if m = 0 then (add low low' extend).overflow
      else (add high high' (carryOut low low' extend)).overflow := by
  have hoverflow {w : Nat} (destination source : BitVec w) (extend : Bool) :
      (add destination source extend).overflow =
        ((source.msb ^^ (add destination source extend).value.msb) &&
          (destination.msb ^^ (add destination source extend).value.msb)) := by
    rw [← BitVec.msb_xor, ← BitVec.msb_xor, ← BitVec.msb_and]
    rfl
  rw [hoverflow, hoverflow, hoverflow, value_add_append, BitVec.msb_append, BitVec.msb_append,
    BitVec.msb_append]
  split <;> rfl

end ChainedResult

/-! ## The operations on numbers of any length -/

/-- What is done to each part of a number: ADDX and SUBX with a part of another one, NEGX with
nothing else. -/
inductive LimbOperation where
  | binary (operation : ChainedOperation)
  | negate

namespace LimbOperation

variable {m n : Nat} (operation : LimbOperation)

def combine (destination source : BitVec n) (extend : Bool) : ChainedResult n :=
  match operation with
  | binary .add => .add destination source extend
  | binary .sub => .sub destination source extend
  | negate => .neg destination extend

/-! ### As sums -/

/-- The numbers whose sum is the result. -/
def addends (destination source : BitVec n) : BitVec n × BitVec n :=
  match operation with
  | binary .add => (destination, source)
  | binary .sub => (destination, ~~~source)
  | negate => (0#n, ~~~destination)

/-- What is passed on is a borrow, the opposite of the carry of the sum. -/
def borrows : Bool :=
  match operation with
  | binary .add => false
  | binary .sub | negate => true

/-- The exact carry or borrow, which a number of no bits passes on. -/
def carryOut (destination source : BitVec n) (extend : Bool) : Bool :=
  (ChainedResult.carryOut (operation.addends destination source).1
    (operation.addends destination source).2 (extend ^^ operation.borrows)) ^^ operation.borrows

theorem addends_append (high high' : BitVec m) (low low' : BitVec n) :
    operation.addends (high ++ low) (high' ++ low') =
      ((operation.addends high high').1 ++ (operation.addends low low').1,
        (operation.addends high high').2 ++ (operation.addends low low').2) := by
  match operation with
  | binary .add => rfl
  | binary .sub => rw [addends, addends, addends, BitVec.not_append]
  | negate => rw [addends, addends, addends, BitVec.not_append, BitVec.zero_append_zero]

section Combine

variable (destination source : BitVec n) (extend : Bool)

theorem value_combine :
    (operation.combine destination source extend).value =
      (ChainedResult.add (operation.addends destination source).1
        (operation.addends destination source).2 (extend ^^ operation.borrows)).value := by
  match operation with
  | binary .add => rw [borrows, Bool.xor_false, combine, addends]
  | binary .sub => rw [borrows, Bool.xor_true, combine, ChainedResult.value_sub_eq_add, addends]
  | negate =>
    rw [borrows, Bool.xor_true, combine, ChainedResult.neg_eq_sub, ChainedResult.value_sub_eq_add,
      addends]

theorem overflow_combine :
    (operation.combine destination source extend).overflow =
      (ChainedResult.add (operation.addends destination source).1
        (operation.addends destination source).2 (extend ^^ operation.borrows)).overflow := by
  match operation with
  | binary .add => rw [borrows, Bool.xor_false, combine, addends]
  | binary .sub => rw [borrows, Bool.xor_true, combine, ChainedResult.overflow_sub_eq_add, addends]
  | negate =>
    rw [borrows, Bool.xor_true, combine, ChainedResult.neg_eq_sub,
      ChainedResult.overflow_sub_eq_add, addends]

theorem carry_combine (hn : 0 < n) :
    (operation.combine destination source extend).carry =
      operation.carryOut destination source extend := by
  rw [carryOut, ← ChainedResult.carry_add hn]
  match operation with
  | binary .add => rw [borrows, Bool.xor_false, Bool.xor_false, combine, addends]
  | binary .sub =>
    rw [borrows, Bool.xor_true, Bool.xor_true, combine, ChainedResult.carry_sub_eq_add _ _ _ hn,
      addends]
  | negate =>
    rw [borrows, Bool.xor_true, Bool.xor_true, combine, ChainedResult.neg_eq_sub,
      ChainedResult.carry_sub_eq_add _ _ _ hn, addends]

end Combine

theorem carryOut_zero (destination source : BitVec 0) (extend : Bool) :
    operation.carryOut destination source extend = extend := by
  rw [carryOut, BitVec.eq_nil (operation.addends destination source).1,
    BitVec.eq_nil (operation.addends destination source).2]
  cases extend <;> cases operation.borrows <;> rfl

/-! ### In two parts -/

section Append

variable (high high' : BitVec m) (low low' : BitVec n) (extend : Bool)

/-- The high part takes in the carry of the sum of the low parts. -/
theorem carryOut_xor_borrows :
    (operation.carryOut low low' extend ^^ operation.borrows) =
      ChainedResult.carryOut (operation.addends low low').1 (operation.addends low low').2
        (extend ^^ operation.borrows) := by
  rw [carryOut, Bool.xor_assoc, Bool.xor_self, Bool.xor_false]

theorem carryOut_append :
    operation.carryOut (high ++ low) (high' ++ low') extend =
      operation.carryOut high high' (operation.carryOut low low' extend) := by
  rw [carryOut, addends_append]
  dsimp only
  rw [ChainedResult.carryOut_append, ← carryOut_xor_borrows, ← carryOut]

theorem value_append :
    (operation.combine (high ++ low) (high' ++ low') extend).value =
      (operation.combine high high' (operation.carryOut low low' extend)).value ++
        (operation.combine low low' extend).value := by
  rw [value_combine, value_combine, value_combine, addends_append, carryOut_xor_borrows]
  exact ChainedResult.value_add_append _ _ _ _ _

theorem overflow_append :
    (operation.combine (high ++ low) (high' ++ low') extend).overflow =
      if m = 0 then (operation.combine low low' extend).overflow
      else (operation.combine high high' (operation.carryOut low low' extend)).overflow := by
  rw [overflow_combine, overflow_combine, overflow_combine, addends_append, carryOut_xor_borrows]
  exact ChainedResult.overflow_add_append _ _ _ _ _

end Append

/-! ### Condition codes -/

/-- The condition codes after an operation on numbers of any length. Numbers of no bits change
none, and other ones change Z only to clear it. -/
def codesAfter (destination source : BitVec n) (before : Ccr) : Ccr :=
  let result := operation.combine destination source before.extend
  let carry := operation.carryOut destination source before.extend
  if n = 0 then before
  else
    { extend := carry
      negative := result.value.msb
      zero := result.value == 0 && before.zero
      overflow := result.overflow
      carry := carry }

theorem codesAfter_of_pos (hn : 0 < n) (destination source : BitVec n) (before : Ccr) :
    operation.codesAfter destination source before =
      (operation.combine destination source before.extend).codesAfter before := by
  rw [codesAfter, if_neg (Nat.ne_of_gt hn), ChainedResult.codesAfter, carry_combine _ _ _ _ hn]

/-- Numbers in two parts are worked on part by part, the low part first. -/
theorem codesAfter_append (hn : 0 < n) (high high' : BitVec m) (low low' : BitVec n)
    (before : Ccr) :
    operation.codesAfter (high ++ low) (high' ++ low') before =
      operation.codesAfter high high' (operation.codesAfter low low' before) := by
  have hlow : operation.codesAfter low low' before =
      { extend := operation.carryOut low low' before.extend
        negative := (operation.combine low low' before.extend).value.msb
        zero := (operation.combine low low' before.extend).value == 0 && before.zero
        overflow := (operation.combine low low' before.extend).overflow
        carry := operation.carryOut low low' before.extend } :=
    if_neg (Nat.ne_of_gt hn)
  rw [hlow, codesAfter, codesAfter, if_neg (by omega), carryOut_append, value_append,
    overflow_append, BitVec.msb_append, ChainedResult.append_beq_zero]
  by_cases hm : m = 0
  · subst hm
    simp [carryOut_zero, BitVec.of_length_zero]
  · simp [hm, Bool.and_comm, Bool.and_left_comm]

/-! ### Whole numbers -/

section Whole

variable (destination source : BitVec n)

theorem value_add :
    ((binary .add).combine destination source false).value = destination + source := by
  change destination + source + (BitVec.ofBool false).setWidth n = destination + source
  rw [ChainedResult.setWidth_ofBool]
  exact BitVec.add_zero (destination + source)

theorem value_sub :
    ((binary .sub).combine destination source false).value = destination - source := by
  change destination - source - (BitVec.ofBool false).setWidth n = destination - source
  rw [ChainedResult.setWidth_ofBool]
  exact BitVec.sub_zero (destination - source)

theorem negate_eq_sub :
    negate.combine destination source false = (binary .sub).combine 0#n destination false :=
  ChainedResult.neg_eq_sub destination false

theorem value_negate : (negate.combine destination source false).value = -destination := by
  rw [negate_eq_sub, value_sub, BitVec.zero_sub]

theorem carryOut_add :
    (binary .add).carryOut destination source false =
      unsignedOutOfRange n (destination.toNat + source.toNat) := by
  rw [carryOut, borrows, Bool.xor_false, ChainedResult.carryOut, unsignedOutOfRange,
    Bool.eq_iff_iff, Bool.or_eq_true, decide_eq_true_iff, decide_eq_true_iff, decide_eq_true_iff]
  norm_cast
  exact (or_iff_right (Nat.not_lt_zero _)).symm

/-- A difference borrows if less is there than is taken. -/
theorem carryOut_sub_eq_lt :
    (binary .sub).carryOut destination source false =
      decide (destination.toNat < source.toNat) := by
  have hd := destination.isLt
  have hs := source.isLt
  change (ChainedResult.carryOut destination (~~~source) true ^^ true) = _
  rw [Bool.xor_true, ChainedResult.carryOut, BitVec.toNat_not, Bool.toNat_true, ← decide_not,
    decide_eq_decide]
  omega

theorem carryOut_sub :
    (binary .sub).carryOut destination source false =
      unsignedOutOfRange n (destination.toNat - source.toNat) := by
  have hd := destination.isLt
  have hpow : (2 ^ n : Int) = (2 ^ n : Nat) := (Int.natCast_pow 2 n).symm
  rw [carryOut_sub_eq_lt, unsignedOutOfRange, hpow, Bool.eq_iff_iff, Bool.or_eq_true,
    decide_eq_true_iff, decide_eq_true_iff, decide_eq_true_iff]
  omega

theorem carryOut_negate :
    negate.carryOut destination source false = (destination != 0) := by
  have hsub : negate.carryOut destination source false =
      (binary .sub).carryOut 0#n destination false := rfl
  rw [hsub, carryOut_sub_eq_lt, Bool.eq_iff_iff, decide_eq_true_iff, bne_iff_ne, ne_eq,
    ← BitVec.toNat_inj, BitVec.toNat_zero, ← Nat.ne_zero_iff_zero_lt]
  rfl

theorem overflow_add :
    ((binary .add).combine destination source false).overflow =
      signedOutOfRange n (destination.toInt + source.toInt) := by
  rw [← msb_overflow_add, ← value_add]
  rfl

theorem overflow_sub :
    ((binary .sub).combine destination source false).overflow =
      signedOutOfRange n (destination.toInt - source.toInt) := by
  rw [← msb_overflow_sub, ← value_sub]
  rfl

theorem overflow_negate :
    (negate.combine destination source false).overflow =
      signedOutOfRange n (-destination.toInt) := by
  rw [negate_eq_sub, overflow_sub, BitVec.toInt_zero, Int.zero_sub]

variable (hn : 0 < n) {before : Ccr} (hextend : before.extend = false) (hzero : before.zero = true)

include hn hextend hzero

/-- From X clear and Z set on, the flags tell of the whole number. -/
theorem codesAfter_of_clear (operation : LimbOperation) :
    operation.codesAfter destination source before =
      { extend := operation.carryOut destination source false
        negative := (operation.combine destination source false).value.msb
        zero := (operation.combine destination source false).value == 0
        overflow := (operation.combine destination source false).overflow
        carry := operation.carryOut destination source false } := by
  rw [codesAfter, if_neg (Nat.ne_of_gt hn), hextend, hzero, Bool.and_true]

theorem codesAfter_add :
    (binary .add).codesAfter destination source before =
      { extend := unsignedOutOfRange n (destination.toNat + source.toNat)
        negative := (destination + source).msb
        zero := destination + source == 0
        overflow := signedOutOfRange n (destination.toInt + source.toInt)
        carry := unsignedOutOfRange n (destination.toNat + source.toNat) } := by
  rw [codesAfter_of_clear _ _ hn hextend hzero, value_add, carryOut_add, overflow_add]

theorem codesAfter_sub :
    (binary .sub).codesAfter destination source before =
      { extend := unsignedOutOfRange n (destination.toNat - source.toNat)
        negative := (destination - source).msb
        zero := destination - source == 0
        overflow := signedOutOfRange n (destination.toInt - source.toInt)
        carry := unsignedOutOfRange n (destination.toNat - source.toNat) } := by
  rw [codesAfter_of_clear _ _ hn hextend hzero, value_sub, carryOut_sub, overflow_sub]

theorem codesAfter_negate :
    negate.codesAfter destination source before =
      { extend := destination != 0
        negative := (-destination).msb
        zero := -destination == 0
        overflow := signedOutOfRange n (-destination.toInt)
        carry := destination != 0 } := by
  rw [codesAfter_of_clear _ _ hn hextend hzero, value_negate, carryOut_negate, overflow_negate]

end Whole

end LimbOperation

end M68000
