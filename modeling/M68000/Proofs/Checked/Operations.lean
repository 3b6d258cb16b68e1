import M68000.Instruction.Bit
import M68000.Proofs.Arithmetic.Quotient
import M68000.Proofs.Checked.Flags
import M68000.Proofs.Chained.Decimal
import M68000.Proofs.Flags.Arithmetic
import M68000.Proofs.Shift.Serial

/-!
# Checked operations of instructions

Operands travel in words of 32 bits, and what instructions compute from them stays within these
words: shifts and rotations by any count, products of words, quotients by any divisor but zero, and
masks of single bits. Sums and differences wrap and are taken as they are. A sum in packed decimal
alone may take too much away when it is corrected, and only if one of the bytes does not hold two
decimal digits.
-/

namespace M68000.Checked

/-! ## Shifts and rotations -/

namespace ShiftKind

variable {size : Size}

/-- Joins the operand shifted to the left with what came out at the top. -/
def rotateLeft (value : size.Value) (count : Nat) : Checked size.Value :=
  if count = 0 then return value
  else do
    let high ← shiftLeft (value.setWidth 32) count
    let low ← shiftRight (value.setWidth 32) (← difference size.bits count)
    Size.low size (high ||| low)

def rotateExtendOnce (direction : Direction) (value : size.Value) (extend : Bool) :
    Checked (size.Value × Bool) := do
  let entering := (BitVec.ofBool extend).setWidth 32
  match direction with
  | .left =>
    let moved ← shiftLeft (value.setWidth 32) 1
    return (← Size.low size (moved ||| entering), ← Size.msb size value)
  | .right =>
    let moved ← shiftRight (value.setWidth 32) 1
    let entering ← shiftLeft entering (← difference size.bits 1)
    return ((moved ||| entering).setWidth size.bits, value.getLsbD 0)

def rotateExtendBy (direction : Direction) (value : size.Value) (extend : Bool) :
    Nat → Checked (size.Value × Bool)
  | 0 => return (value, extend)
  | count + 1 => do
    let (value, extend) ← rotateExtendOnce direction value extend
    rotateExtendBy direction value extend count

/-- The operand after a shift or a rotation that leaves X out. -/
def shifted (kind : ShiftKind) (direction : Direction) (value : size.Value) (count : Nat) :
    Checked size.Value :=
  match kind, direction with
  | .arithmetic, .right => do
    Size.low size (← signedShiftRight (← Size.signExtend size value) (min count 31))
  | .logical, .right =>
    if size.bits ≤ count then return 0
    else return (← shiftRight (value.setWidth 32) count).setWidth size.bits
  | .arithmetic, .left | .logical, .left =>
    if size.bits ≤ count then return 0
    else do Size.low size (← shiftLeft (value.setWidth 32) count)
  | _, .left => do rotateLeft value (← remainder count size.bits)
  | _, .right => do
    let back ← difference size.bits (← remainder count size.bits)
    rotateLeft value (← remainder back size.bits)

/-- The outcome of a shift, with the flags as they are recorded. -/
def perform (kind : ShiftKind) (direction : Direction) (value : size.Value) (count : Nat)
    (flags : Flags) : Checked (size.Value × Flags) := do
  if kind = .rotateExtend then
    let count ← remainder count (← sum 32 size.bits 1)
    let (result, extend) ← rotateExtendBy direction value (← Flags.extend flags) count
    return (result, .ofCcr ⟨extend, ← Size.msb size result, result == 0, false, extend⟩)
  else if count = 0 then
    return (value, flags.setResult (← Size.signExtend size value))
  else
    let result ← shifted kind direction value count
    let r ← Size.signExtend size result
    let v ← Size.signExtend size value
    let shift := fun kind ↦ .ofShift kind size.bits r v (BitVec.ofNat 32 count)
    return (result,
      match kind, direction with
      | .arithmetic, .left => shift .asl
      | .arithmetic, .right => shift .asr
      | .logical, .left => shift .lsl
      | .logical, .right => shift .lsr
      | _, .left => flags.setRotateLeft r
      | _, .right => flags.setRotateRight r)

/-! ### No shift fails -/

section Words

variable (value : size.Value) (count : Nat)

theorem setWidth_word : (value.setWidth 32).setWidth size.bits = value := by
  rw [BitVec.setWidth_setWidth_of_le _ size.bits_le, BitVec.setWidth_eq]

theorem low_shiftLeft_word : size.low (value.setWidth 32 <<< count) = value <<< count := by
  rw [M68000.Size.low, BitVec.setWidth_shiftLeft_of_le size.bits_le, setWidth_word]

theorem low_shiftRight_word : size.low (value.setWidth 32 >>> count) = value >>> count := by
  refine BitVec.eq_of_getLsbD_eq fun i hi ↦ ?_
  have hle := size.bits_le
  by_cases h : count + i < 32
  · simp [M68000.Size.low, hi, h]
  · simp [M68000.Size.low, hi, h, BitVec.getLsbD_of_ge value (count + i) (by omega)]

end Words

theorem rotateLeft_eq (value : size.Value) {count : Nat} (hcount : count < size.bits) :
    rotateLeft value count = .ok (value.rotateLeft count) := by
  have hle := size.bits_le
  unfold rotateLeft
  split
  next hzero =>
    subst hzero
    exact congrArg Except.ok (Direction.rotate_zero value .left).symm
  next hzero =>
    rw [shiftLeft_of_lt (by omega), ok_bind, difference_of_le hcount.le, ok_bind,
      shiftRight_of_lt (by omega), ok_bind, Size.low_eq, M68000.Size.low, BitVec.setWidth_or]
    have hhigh := low_shiftLeft_word value count
    have hlow := low_shiftRight_word value (size.bits - count)
    rw [BitVec.rotateLeft_def, Nat.mod_eq_of_lt hcount, ← hhigh, ← hlow]
    rfl

/-- A rotation to the right is one to the left by what it lacks to the width. -/
theorem rotateLeft_back (value : size.Value) (count : Nat) :
    value.rotateLeft ((size.bits - count % size.bits) % size.bits) = value.rotateRight count := by
  refine BitVec.eq_of_getLsbD_eq fun i hi ↦ ?_
  have hlt := Nat.mod_lt count size.bits_pos
  rw [getLsbD_rotateLeft_eq _ _ hi, getLsbD_rotateRight_eq _ _ hi, Nat.mod_mod]
  congr 1
  by_cases hzero : count % size.bits = 0
  · rw [hzero, Nat.sub_zero, Nat.mod_self, if_neg (Nat.not_lt_zero i), if_pos hi, Nat.zero_add,
      Nat.sub_zero]
  · rw [Nat.mod_eq_of_lt (by omega)]
    split <;> omega

/-- The sign is repeated above the operand, so that no more than 31 places are needed. -/
theorem low_sshiftRight_word (value : size.Value) (count : Nat) :
    size.low ((value.signExtend 32).sshiftRight (min count 31)) = value.sshiftRight count := by
  refine BitVec.eq_of_getLsbD_eq fun i hi ↦ ?_
  have hle := size.bits_le
  have hmsb : (value.signExtend 32).msb = value.msb := msb_signExtend_of_le hle value
  rw [M68000.Size.low, BitVec.getLsbD_setWidth, BitVec.getLsbD_sshiftRight,
    BitVec.getLsbD_sshiftRight, BitVec.getLsbD_signExtend, hmsb]
  simp only [hi, show ¬32 ≤ i by omega, show ¬size.bits ≤ i by omega, decide_true, decide_false,
    Bool.not_false, Bool.true_and]
  by_cases hin : count + i < size.bits
  · simp [hin, show min count 31 = count by omega, show count + i < 32 by omega]
  · rw [if_neg hin]
    split
    next hword =>
      rw [decide_eq_true hword, Bool.true_and]
      split
      next hlast =>
        -- Only the sign of a long word is left.
        rw [BitVec.msb_eq_getLsbD_last, show min count 31 + i = size.bits - 1 by omega]
      next => rfl
    next => rfl

theorem rotateExtendOnce_eq (direction : Direction) (value : size.Value) (extend : Bool) :
    rotateExtendOnce direction value extend =
      .ok (M68000.ShiftKind.rotateExtendOnce direction value extend) := by
  have hle := size.bits_le
  have hentering : ((BitVec.ofBool extend).setWidth 32).setWidth size.bits =
      (BitVec.ofBool extend).setWidth size.bits := BitVec.setWidth_setWidth_of_le _ hle
  cases direction with
  | left =>
    rw [rotateExtendOnce, shiftLeft_of_lt (by decide), ok_bind, Size.low_eq, ok_bind, Size.msb_eq,
      ok_bind, M68000.Size.low, BitVec.setWidth_or, hentering]
    exact congrArg (fun moved ↦ Except.ok (moved ||| _, _)) (low_shiftLeft_word value 1)
  | right =>
    rw [rotateExtendOnce, shiftRight_of_lt (by decide), ok_bind,
      difference_of_le size.bits_pos, ok_bind, shiftLeft_of_lt (by omega), ok_bind,
      BitVec.setWidth_or, BitVec.setWidth_shiftLeft_of_le hle, hentering]
    exact congrArg (fun moved ↦ Except.ok (moved ||| _, _)) (low_shiftRight_word value 1)

theorem rotateExtendBy_eq (direction : Direction) (value : size.Value) (extend : Bool)
    (count : Nat) :
    rotateExtendBy direction value extend count =
      .ok (M68000.ShiftKind.rotateExtendBy direction value extend count) := by
  induction count generalizing value extend with
  | zero => rfl
  | succ count ih =>
    rw [rotateExtendBy, rotateExtendOnce_eq, ok_bind]
    exact ih ..

theorem shifted_eq {kind : ShiftKind} (hkind : kind ≠ .rotateExtend) (direction : Direction)
    (value : size.Value) (count : Nat) (extend : Bool) :
    shifted kind direction value count = .ok (kind.result direction value extend count) := by
  have hle := size.bits_le
  have hpos := size.bits_pos
  have hleft : (if size.bits ≤ count then pure 0
      else do Size.low size (← shiftLeft (value.setWidth 32) count)) =
        (.ok (value <<< count) : Checked size.Value) := by
    split
    next hall => rw [pure_eq_ok, BitVec.shiftLeft_eq_zero hall]; rfl
    next hsome =>
      rw [shiftLeft_of_lt (by omega), ok_bind, Size.low_eq, low_shiftLeft_word]
  cases kind with
  | arithmetic =>
    cases direction with
    | left => exact hleft
    | right =>
      rw [shifted, Size.signExtend_eq, ok_bind, signedShiftRight_of_lt (by omega), ok_bind,
        Size.low_eq, low_sshiftRight_word]
      rfl
  | logical =>
    cases direction with
    | left => exact hleft
    | right =>
      simp only [shifted]
      split
      next hall => exact congrArg Except.ok (BitVec.ushiftRight_eq_zero hall).symm
      next hsome =>
        rw [shiftRight_of_lt (by omega)]
        exact congrArg Except.ok (low_shiftRight_word value count)
  | rotateExtend => exact absurd rfl hkind
  | rotate =>
    cases direction with
    | left =>
      simp only [shifted, remainder_of_pos hpos, ok_bind, rotateLeft_eq _ (Nat.mod_lt count hpos)]
      exact congrArg Except.ok (Direction.rotate_mod value count .left)
    | right =>
      have hlt := Nat.mod_lt count hpos
      simp only [shifted, remainder_of_pos hpos, ok_bind, difference_of_le hlt.le,
        rotateLeft_eq _ (Nat.mod_lt _ hpos), rotateLeft_back]
      rfl

theorem perform_eq (kind : ShiftKind) (direction : Direction) (value : size.Value) (count : Nat)
    {flags : Flags} (h : flags.Sound) :
    perform kind direction value count flags =
      .ok (kind.result direction value flags.extend count,
        kind.record direction value count flags) := by
  unfold perform M68000.ShiftKind.record
  dsimp only
  split
  next hkind =>
    subst hkind
    rw [sum_of_lt (by cases size <;> decide), ok_bind, remainder_of_pos (Nat.succ_pos _), ok_bind,
      Flags.extend_eq h, ok_bind, rotateExtendBy_eq, ok_bind, Size.msb_eq, ok_bind]
    rfl
  next hkind =>
    split
    next hzero =>
      subst hzero
      rw [Size.signExtend_eq, ok_bind]
      have hresult : kind.result direction value flags.extend 0 = value := by
        cases kind with
        | arithmetic | logical => cases direction <;> simp [ShiftKind.result]
        | rotateExtend => exact absurd rfl hkind
        | rotate =>
          cases direction with
          | left => exact Direction.rotate_zero value .left
          | right => exact Direction.rotate_zero value .right
      rw [hresult]
      rfl
    next hzero =>
      rw [shifted_eq hkind direction value count flags.extend, ok_bind, Size.signExtend_eq, ok_bind,
        Size.signExtend_eq, ok_bind]
      rfl

end ShiftKind

/-! ## Products and quotients -/

namespace Signedness

variable {n : Nat}

def product (signedness : Signedness) (a b : BitVec 16) : Checked (BitVec 32) :=
  match signedness with
  | .unsigned => mul (a.setWidth 32) (b.setWidth 32)
  | .signed => do signedMul (← Size.signExtend .word a) (← Size.signExtend .word b)

/-- The lowest number with a sign has no quotient by minus one. -/
def divides (signedness : Signedness) (dividend divisor : BitVec n) : Checked Unit :=
  if divisor = 0 ∨ signedness = .signed ∧ dividend.sdivOverflow divisor = true then
    .error .division
  else return ()

/-- Brings a divisor to the width at which is divided. -/
def widen (signedness : Signedness) (divisor : BitVec 16) : Checked (BitVec signedness.width) :=
  match signedness with
  | .unsigned => return divisor.setWidth 32
  | .signed => do return (← Size.signExtend .word divisor).signExtend 64

def divide? (signedness : Signedness) (dividend : BitVec 32) (divisor : BitVec 16) :
    Checked (Option (BitVec 16 × BitVec 16)) := do
  let dividend := signedness.widen dividend
  let divisor ← widen signedness divisor
  divides signedness dividend divisor
  let quotient := signedness.number (signedness.quotient dividend divisor)
  if signedness.number (BitVec.ofInt 16 quotient) = quotient then
    divides signedness dividend divisor
    let remainder := signedness.number (signedness.remainder dividend divisor)
    return some (BitVec.ofInt 16 quotient, BitVec.ofInt 16 remainder)
  else return none

/-- A product of words is far from the ends of long words. -/
theorem smulOverflow_words (a b : BitVec 16) :
    (a.signExtend 32).smulOverflow (b.signExtend 32) = false := by
  have ha : (a.signExtend 32).toInt = a.toInt := BitVec.toInt_signExtend_of_le (by decide)
  have hb : (b.signExtend 32).toInt = b.toInt := BitVec.toInt_signExtend_of_le (by decide)
  have hbound (word : BitVec 16) : word.toInt.natAbs ≤ 32768 := by
    have hle := word.le_toInt
    have hlt := word.toInt_lt
    omega
  have hproduct : (a.toInt * b.toInt).natAbs ≤ 32768 * 32768 := by
    rw [Int.natAbs_mul]
    exact Nat.mul_le_mul (hbound a) (hbound b)
  rw [BitVec.smulOverflow, ha, hb, Bool.or_eq_false_iff, decide_eq_false_iff_not,
    decide_eq_false_iff_not]
  omega

theorem product_eq (signedness : Signedness) (a b : BitVec 16) :
    product signedness a b = .ok (signedness.product a b) := by
  cases signedness with
  | unsigned =>
    refine mul_of_lt ?_
    rw [BitVec.toNat_setWidth_of_le (by decide), BitVec.toNat_setWidth_of_le (by decide)]
    exact Nat.lt_of_lt_of_le (Nat.mul_lt_mul'' a.isLt b.isLt) (by decide)
  | signed =>
    have ha : Size.signExtend .word a = .ok (a.signExtend 32) := Size.signExtend_eq .word a
    have hb : Size.signExtend .word b = .ok (b.signExtend 32) := Size.signExtend_eq .word b
    rw [product, ha, ok_bind, hb, ok_bind, signedMul, smulOverflow_words]
    rfl

theorem widen_eq (signedness : Signedness) (divisor : BitVec 16) :
    widen signedness divisor = .ok (signedness.widen divisor) := by
  cases signedness with
  | unsigned => rfl
  | signed =>
    have hword : Size.signExtend .word divisor = .ok (divisor.signExtend 32) :=
      Size.signExtend_eq .word divisor
    rw [widen, hword, ok_bind]
    refine congrArg Except.ok (BitVec.eq_of_toInt_eq ?_)
    rw [M68000.Signedness.widen, BitVec.toInt_signExtend_of_le (by decide),
      BitVec.toInt_signExtend_of_le (by decide), BitVec.toInt_signExtend_of_le (by decide)]

/-- At the width at which is divided there is a quotient by every divisor but zero. -/
theorem divides_widen (signedness : Signedness) (dividend : BitVec 32) {divisor : BitVec 16}
    (hdivisor : divisor ≠ 0) :
    divides signedness (signedness.widen dividend) (signedness.widen divisor) = .ok () := by
  have hexact := signedness.dividesExactly dividend divisor
  refine if_neg ?_
  rintro (hzero | ⟨hsigned, hoverflow⟩)
  · refine signedness.number_ne_zero hdivisor ?_
    rw [← hexact.operands.2, hzero]
    cases signedness <;> rfl
  · exact absurd (hoverflow.symm.trans (hexact.overflow hsigned)) Bool.true_eq_false.mp

theorem divide?_eq (signedness : Signedness) (dividend : BitVec 32) {divisor : BitVec 16}
    (hdivisor : divisor ≠ 0) :
    divide? signedness dividend divisor = .ok (signedness.divide? dividend divisor) := by
  have hexact := signedness.dividesExactly dividend divisor
  have hdivides := divides_widen signedness dividend hdivisor
  rw [divide?, widen_eq, ok_bind, hdivides, ok_bind, hexact.quotient, hexact.remainder,
    signedness.divide?_eq]
  dsimp only
  split <;> rfl

end Signedness

/-! ## Packed decimal -/

namespace ChainedResult

open M68000.ChainedResult (digitSum toNat_lowDigit toNat_highDigit toNat_extend
  exists_toNat_digitSum)

def correctDigit (digit : BitVec 32) : Checked (BitVec 32) :=
  if 9 < digit then add digit 6 else return digit

/-- The sum of two bytes, with the low digit corrected. -/
def byteSum (destination source : Byte) (extend : Bool) : Checked (BitVec 32) := do
  let d := destination.setWidth 32
  let s := source.setWidth 32
  let low ← add (← add (s &&& 0x0F) (d &&& 0x0F)) ((BitVec.ofBool extend).setWidth 32)
  let low ← correctDigit low
  add low (← add (s &&& 0xF0) (d &&& 0xF0))

/-- The correction of the high digit takes away ten of them. -/
def correctSum (sum : BitVec 32) : Checked (ChainedResult 8) := do
  let carry : Bool := 0x99 < sum
  let corrected ← if carry then sub sum 0xA0 else pure sum
  return { value := corrected.setWidth 8, overflow := false, carry }

def addDecimal (destination source : Byte) (extend : Bool) : Checked (ChainedResult 8) :=
  let result := do correctSum (← byteSum destination source extend)
  result.mapError fun _ ↦ .decimalSum destination source

/-- Both bytes and X together are far from the end of a word. -/
theorem byteSum_eq (destination source : Byte) (extend : Bool) :
    byteSum destination source extend =
      .ok (digitSum (destination.setWidth 32 &&& 0x0F) (source.setWidth 32 &&& 0x0F)
        ((BitVec.ofBool extend).setWidth 32) + (source.setWidth 32 &&& 0xF0) +
          (destination.setWidth 32 &&& 0xF0)) := by
  have hlow := toNat_lowDigit destination
  have hlow' := toNat_lowDigit source
  have hhigh := toNat_highDigit destination
  have hhigh' := toNat_highDigit source
  have hextend := toNat_extend extend
  have hdestination := destination.isLt
  have hsource := source.isLt
  have hle := extend.toNat_le
  unfold byteSum
  dsimp only
  generalize destination.setWidth 32 &&& 0x0F = low at *
  generalize source.setWidth 32 &&& 0x0F = low' at *
  generalize destination.setWidth 32 &&& 0xF0 = high at *
  generalize source.setWidth 32 &&& 0xF0 = high' at *
  generalize (BitVec.ofBool extend).setWidth 32 = x at *
  have hdigit : correctDigit (low' + low + x) = .ok (digitSum low low' x) := by
    unfold correctDigit digitSum
    split
    next => exact add_of_lt (by bv_omega)
    next => rfl
  have hsum : (digitSum low low' x).toNat ≤ 37 := by
    unfold digitSum
    split <;> bv_omega
  rw [add_of_lt (by omega), ok_bind, add_of_lt (by bv_omega), ok_bind, hdigit, ok_bind,
    add_of_lt (by omega), ok_bind, add_of_lt (by bv_omega), BitVec.add_assoc]

/-- A sum that is too large for a byte can be corrected unless its last digit is not decimal. -/
theorem correctSum_of_not_between {sum : BitVec 32}
    (h : ¬(0x99 < sum.toNat ∧ sum.toNat < 0xA0)) :
    correctSum sum = .ok
      { value := (if decide (0x99 < sum) then sum - 0xA0 else sum).setWidth 8
        overflow := false
        carry := decide (0x99 < sum) } := by
  unfold correctSum
  dsimp only
  by_cases hcarry : 0x99 < sum
  · rw [decide_eq_true hcarry, if_pos rfl, if_pos rfl, sub_of_le (by bv_omega), ok_bind]
    rfl
  · rw [decide_eq_false hcarry]
    rfl

theorem correctSum_of_between {sum : BitVec 32} (h : 0x99 < sum.toNat ∧ sum.toNat < 0xA0) :
    correctSum sum = .error .overflow := by
  have hcarry : 0x99 < sum := by bv_omega
  have hless : sum.usubOverflow 0xA0 = true := by simpa [BitVec.usubOverflow] using h.2
  unfold correctSum
  dsimp only
  rw [decide_eq_true hcarry, if_pos rfl, sub, hless]
  rfl

/-- The last digit of a sum of decimal bytes is decimal. -/
theorem not_between_of_isDecimal {destination source : Byte} (hdestination : destination.IsDecimal)
    (hsource : source.IsDecimal) {extend : Bool} {sum : BitVec 32}
    (hsum : byteSum destination source extend = .ok sum) :
    ¬(0x99 < sum.toNat ∧ sum.toNat < 0xA0) := by
  rw [BitVec.isDecimal_byte] at hdestination hsource
  obtain ⟨digit, carry, hdigit, hcarry, -, hword⟩ := exists_toNat_digitSum
    ((toNat_lowDigit destination).trans_le hdestination.1)
    ((toNat_lowDigit source).trans_le hsource.1) ((toNat_extend extend).trans_le extend.toNat_le)
  rw [byteSum_eq, Except.ok.injEq] at hsum
  rw [← hsum, BitVec.toNat_add, BitVec.toNat_add, hword, toNat_highDigit, toNat_highDigit]
  omega

/-- Only the correction can fail, and not for decimal bytes. -/
theorem addDecimal_eq_or (destination source : Byte) (extend : Bool) :
    addDecimal destination source extend = .ok (.addDecimal destination source extend) ∨
      ¬(destination.IsDecimal ∧ source.IsDecimal) ∧
        addDecimal destination source extend = .error (.decimalSum destination source) := by
  obtain ⟨sum, hsum, hadd⟩ : ∃ sum, byteSum destination source extend = .ok sum ∧
      M68000.ChainedResult.addDecimal destination source extend =
        { value := (if decide (0x99 < sum) then sum - 0xA0 else sum).setWidth 8
          overflow := false
          carry := decide (0x99 < sum) } := ⟨_, byteSum_eq destination source extend, rfl⟩
  rw [addDecimal, hsum, ok_bind]
  by_cases hbetween : 0x99 < sum.toNat ∧ sum.toNat < 0xA0
  · refine .inr ⟨fun ⟨hdestination, hsource⟩ ↦ ?_, ?_⟩
    · exact not_between_of_isDecimal hdestination hsource hsum hbetween
    · exact congrArg (Except.mapError _) (correctSum_of_between hbetween)
  · refine .inl ?_
    rw [hadd]
    exact congrArg (Except.mapError _) (correctSum_of_not_between hbetween)

example : addDecimal 0x8A 0x0A false = .error (.decimalSum 0x8A 0x0A) := by
  decide

end ChainedResult

/-! ## Sums and differences -/

/-- The operation itself wraps, and its operands and result are recorded with their signs. -/
def Binary.record {size : Size} (operation : Binary) (destination source : size.Value)
    (flags : Flags) : Checked Flags := do
  let r ← Size.signExtend size (operation.result destination source)
  let d ← Size.signExtend size destination
  let s ← Size.signExtend size source
  match operation with
  | .add => return .ofAdd r d s
  | .sub => return .ofSub r d s
  | .cmp => return flags.setCompare r d s
  | .and | .or | .eor => return flags.setResult r

theorem Binary.record_eq {size : Size} (operation : Binary) (destination source : size.Value)
    (flags : Flags) : record operation destination source flags =
      .ok (operation.record destination source flags) := by
  cases operation <;> simp [record, M68000.Binary.record]

namespace ChainedResult

variable {size : Size}

def add (destination source : size.Value) (extend : Bool) : Checked (ChainedResult size.bits) := do
  let result := destination + source + (BitVec.ofBool extend).setWidth size.bits
  return {
    value := result
    overflow := ← Size.msb size ((source ^^^ result) &&& (destination ^^^ result))
    carry := ← Size.msb size
      ((source &&& destination) ||| (~~~result &&& (source ||| destination))) }

def sub (destination source : size.Value) (extend : Bool) : Checked (ChainedResult size.bits) := do
  let result := destination - source - (BitVec.ofBool extend).setWidth size.bits
  return {
    value := result
    overflow := ← Size.msb size ((source ^^^ destination) &&& (result ^^^ destination))
    carry := ← Size.msb size
      ((source &&& ~~~destination) ||| (result &&& ~~~destination) ||| (source &&& result)) }

def neg (source : size.Value) (extend : Bool) : Checked (ChainedResult size.bits) := do
  let result := 0 - source - (BitVec.ofBool extend).setWidth size.bits
  return {
    value := result
    overflow := ← Size.msb size (source &&& result)
    carry := ← Size.msb size (source ||| result) }

def ccr (result : ChainedResult size.bits) (flags : Flags) : Checked Ccr := do
  return {
    extend := result.carry
    negative := ← Size.msb size result.value
    zero := result.value == 0 && flags.zero
    overflow := result.overflow
    carry := result.carry }

theorem add_eq (destination source : size.Value) (extend : Bool) :
    add destination source extend = .ok (.add destination source extend) := by
  simp [add, M68000.ChainedResult.add]

theorem sub_eq (destination source : size.Value) (extend : Bool) :
    sub destination source extend = .ok (.sub destination source extend) := by
  simp [sub, M68000.ChainedResult.sub]

theorem neg_eq (source : size.Value) (extend : Bool) :
    neg source extend = .ok (.neg source extend) := by
  simp [neg, M68000.ChainedResult.neg]

@[simp]
theorem ccr_eq (result : ChainedResult size.bits) (flags : Flags) :
    ccr result flags = .ok (result.ccr flags) := by
  simp [ccr, M68000.ChainedResult.ccr]

end ChainedResult

def Unary.record {size : Size} (operation : Unary) (value : size.Value) (flags : Flags) :
    Checked Flags := do
  match operation with
  | .neg => return .ofSub (← Size.signExtend size (0 - value)) 0 (← Size.signExtend size value)
  | .negx =>
    let result ← ChainedResult.neg value (← Flags.extend flags)
    return .ofCcr (← ChainedResult.ccr result flags)
  | .clr => return flags.setResult 0
  | .not => return flags.setResult (← Size.signExtend size (~~~value))
  | .tst => return flags.setResult (← Size.signExtend size value)

theorem Unary.record_eq {size : Size} (operation : Unary) (value : size.Value) {flags : Flags}
    (h : flags.Sound) :
    record operation value flags = .ok (operation.record value flags) := by
  cases operation with
  | negx => simp [record, M68000.Unary.record, Flags.extend_eq h, ChainedResult.neg_eq]
  | _ => simp [record, M68000.Unary.record]

/-! ## Single bits -/

/-- The mask of a bit, whose number counts modulo the width. -/
def bitMask (size : Size) (number : Nat) : Checked size.Value := do
  return (← shiftLeft (1 : BitVec 32) (← remainder number size.bits)).setWidth size.bits

theorem bitMask_eq (size : Size) (number : Nat) :
    bitMask size number = .ok (.twoPow size.bits (number % size.bits)) := by
  have hlt := Nat.mod_lt number size.bits_pos
  have hle := size.bits_le
  rw [bitMask, remainder_of_pos size.bits_pos, ok_bind, shiftLeft_of_lt (by omega), ok_bind]
  refine congrArg Except.ok (BitVec.eq_of_getLsbD_eq fun i hi ↦ ?_)
  have hword : (1 : BitVec 32) <<< (number % size.bits) = .twoPow 32 (number % size.bits) := rfl
  rw [hword]
  simp [BitVec.getLsbD_twoPow, hi, show number % size.bits < 32 by omega, eq_comm]

end M68000.Checked
