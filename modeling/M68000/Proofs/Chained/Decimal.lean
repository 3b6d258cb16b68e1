import M68000.Proofs.Chained.Parts
import Mathlib.Data.Nat.Digits.Defs

/-!
# Packed decimal arithmetic

A number in packed decimal has a digit in every four bits. The corrections of ABCD, SBCD and NBCD
keep the digits of a byte decimal and make its carry the exact decimal one, so that a chain of them
works on numbers of any length.
-/

namespace BitVec

variable {m n : Nat}

/-- The digits of a packed number, the lowest first. -/
def packedDigits (number : BitVec n) : List Nat :=
  (List.range (n / 4)).map fun i ↦ (number.extractLsb' (4 * i) 4).toNat

/-- All digits are decimal. -/
def IsDecimal (number : BitVec n) : Prop := ∀ digit ∈ number.packedDigits, digit ≤ 9

/-- The value of the digits in decimal. -/
def decimalValue (number : BitVec n) : Nat := Nat.ofDigits 10 number.packedDigits

section Append

variable (high : BitVec m) (low : BitVec n) (hn : n % 4 = 0)

include hn

theorem packedDigits_append :
    (high ++ low).packedDigits = low.packedDigits ++ high.packedDigits := by
  have hlength : (m + n) / 4 = n / 4 + m / 4 := by omega
  rw [packedDigits, hlength, List.range_add, List.map_append, List.map_map]
  congr 1
  · refine List.map_congr_left fun i hi ↦ ?_
    have hi := List.mem_range.1 hi
    rw [extractLsb'_append_eq_of_add_le (by omega)]
  · refine List.map_congr_left fun i _ ↦ ?_
    have hstart : 4 * (n / 4 + i) - n = 4 * i := by omega
    rw [Function.comp, extractLsb'_append_eq_of_le (by omega), hstart]

theorem isDecimal_append : (high ++ low).IsDecimal ↔ high.IsDecimal ∧ low.IsDecimal := by
  rw [IsDecimal, packedDigits_append high low hn, List.forall_mem_append]
  exact And.comm

theorem decimalValue_append :
    (high ++ low).decimalValue = low.decimalValue + 10 ^ (n / 4) * high.decimalValue := by
  rw [decimalValue, packedDigits_append high low hn, Nat.ofDigits_append, packedDigits,
    List.length_map, List.length_range]
  rfl

end Append

/-! ## Bytes -/

theorem packedDigits_byte (byte : BitVec 8) :
    byte.packedDigits = [byte.toNat % 16, byte.toNat / 16] := by
  have hlt := byte.isLt
  change [(byte.extractLsb' 0 4).toNat, (byte.extractLsb' 4 4).toNat] = _
  rw [extractLsb'_toNat, extractLsb'_toNat, Nat.shiftRight_eq_div_pow, Nat.shiftRight_eq_div_pow]
  congr 2 <;> omega

theorem isDecimal_byte (byte : BitVec 8) :
    byte.IsDecimal ↔ byte.toNat % 16 ≤ 9 ∧ byte.toNat / 16 ≤ 9 := by
  rw [IsDecimal, packedDigits_byte]
  simp

theorem decimalValue_byte (byte : BitVec 8) :
    byte.decimalValue = byte.toNat % 16 + 10 * (byte.toNat / 16) := by
  rw [decimalValue, packedDigits_byte]
  simp [Nat.ofDigits]

theorem IsDecimal.decimalValue_lt {number : BitVec n} (h : number.IsDecimal) :
    number.decimalValue < 10 ^ (n / 4) := by
  have hlt := Nat.ofDigits_lt_base_pow_length (by decide : 1 < 10)
    fun digit hdigit ↦ Nat.lt_succ_of_le (h digit hdigit)
  rwa [packedDigits, List.length_map, List.length_range] at hlt

end BitVec

namespace M68000

namespace ChainedResult

/-! ## One byte -/

theorem toNat_lowDigit (byte : Byte) : (byte.setWidth 32 &&& 0x0F).toNat = byte.toNat % 16 := by
  decide +kernel +revert

theorem toNat_highDigit (byte : Byte) :
    (byte.setWidth 32 &&& 0xF0).toNat = 16 * (byte.toNat / 16) := by
  decide +kernel +revert

theorem toNat_extend (extend : Bool) :
    ((BitVec.ofBool extend).setWidth 32).toNat = extend.toNat := by
  cases extend <;> rfl

/-! ### Digits in words -/

/-- The sum of two digits, with the carry in the digit above. -/
def digitSum (low low' extend : BitVec 32) : BitVec 32 :=
  if 9 < low' + low + extend then low' + low + extend + 6 else low' + low + extend

/-- The difference of two digits, with the borrow in the digits above. -/
def digitDifference (low low' extend : BitVec 32) : BitVec 32 :=
  if 9 < low - low' - extend then low - low' - extend - 6 else low - low' - extend

section Words

variable {low low' extend : BitVec 32} (hlow : low.toNat ≤ 9) (hlow' : low'.toNat ≤ 9)
  (hextend : extend.toNat ≤ 1)

include hlow hlow' hextend

theorem exists_toNat_digitSum :
    ∃ digit carry, digit ≤ 9 ∧ carry ≤ 1 ∧
      low.toNat + low'.toNat + extend.toNat = digit + 10 * carry ∧
      (digitSum low low' extend).toNat = digit + 16 * carry := by
  have hsum : (low' + low + extend).toNat = low.toNat + low'.toNat + extend.toNat := by bv_omega
  by_cases hcarry : 9 < low' + low + extend
  · refine ⟨low.toNat + low'.toNat + extend.toNat - 10, 1, by omega, le_rfl, by bv_omega, ?_⟩
    rw [digitSum, if_pos hcarry]
    bv_omega
  · refine ⟨low.toNat + low'.toNat + extend.toNat, 0, by bv_omega, Nat.zero_le 1, rfl, ?_⟩
    rw [digitSum, if_neg hcarry]
    exact hsum

theorem exists_toNat_digitDifference :
    ∃ digit borrow, digit ≤ 9 ∧ borrow ≤ 1 ∧
      low.toNat + 10 * borrow = digit + low'.toNat + extend.toNat ∧
      (digitDifference low low' extend).toNat + 16 * borrow = digit + 2 ^ 32 * borrow := by
  by_cases hborrow : low.toNat < low'.toNat + extend.toNat
  · have hwrapped : (low - low' - extend).toNat =
        2 ^ 32 + low.toNat - low'.toNat - extend.toNat := by bv_omega
    refine ⟨low.toNat + 10 - low'.toNat - extend.toNat, 1, by omega, le_rfl, by omega, ?_⟩
    rw [digitDifference, if_pos (by bv_omega)]
    bv_omega
  · have hexact : (low - low' - extend).toNat = low.toNat - low'.toNat - extend.toNat := by bv_omega
    refine ⟨low.toNat - low'.toNat - extend.toNat, 0, by omega, Nat.zero_le 1, by omega, ?_⟩
    rw [digitDifference, if_neg (by bv_omega), hexact]
    rfl

end Words

/-- From a hundred on a sum leaves the byte. -/
theorem exists_toNat_byteSum (sum : BitVec 32) {digit high : Nat} (hdigit : digit ≤ 9)
    (hhigh : high ≤ 19) (hsum : sum.toNat = digit + 16 * high) :
    ∃ digit', digit' ≤ 9 ∧ high = digit' + 10 * (decide (0x99 < sum)).toNat ∧
      ((if decide (0x99 < sum) then sum - 0xA0 else sum).setWidth 8).toNat =
        digit + 16 * digit' := by
  by_cases hcarry : 0x99 < sum
  · rw [decide_eq_true hcarry, if_pos rfl]
    exact ⟨high - 10, by omega, by bv_omega, by bv_omega⟩
  · rw [decide_eq_false hcarry, if_neg Bool.false_ne_true]
    exact ⟨high, by bv_omega, rfl, by bv_omega⟩

/-- Below zero a difference comes back into the byte. -/
theorem exists_toNat_byteDifference (difference : BitVec 32) {digit high taken : Nat}
    (hdigit : digit ≤ 9) (hhigh : high ≤ 9) (htaken : taken ≤ 10)
    (hdifference : difference.toNat = (digit + 16 * high + 2 ^ 32 - 16 * taken) % 2 ^ 32) :
    ∃ digit', digit' ≤ 9 ∧ high + 10 * (decide (0x99 < difference)).toNat = digit' + taken ∧
      ((if decide (0x99 < difference) then difference + 0xA0 else difference).setWidth 8).toNat =
        digit + 16 * digit' := by
  by_cases hless : high < taken
  · have hwrapped : difference.toNat = digit + 16 * high + 2 ^ 32 - 16 * taken := by omega
    have hborrow : 0x99 < difference := by bv_omega
    rw [decide_eq_true hborrow, if_pos rfl, Bool.toNat_true]
    exact ⟨high + 10 - taken, by omega, by omega, by bv_omega⟩
  · have hexact : difference.toNat = digit + 16 * (high - taken) := by omega
    have hborrow : ¬0x99 < difference := by bv_omega
    rw [decide_eq_false hborrow, if_neg Bool.false_ne_true, Bool.toNat_false]
    exact ⟨high - taken, by omega, by omega, by bv_omega⟩

/-! ### Decimal bytes -/

section Bytes

variable {destination source : Byte} (hdestination : destination.IsDecimal)
  (hsource : source.IsDecimal) (extend : Bool)

include hdestination hsource

/-- The sum of two decimal bytes is a decimal byte, with the exact decimal carry. -/
theorem addDecimal_spec :
    (addDecimal destination source extend).value.IsDecimal ∧
      destination.decimalValue + source.decimalValue + extend.toNat =
        (addDecimal destination source extend).value.decimalValue +
          100 * (addDecimal destination source extend).carry.toNat := by
  rw [BitVec.isDecimal_byte] at hdestination hsource ⊢
  rw [BitVec.decimalValue_byte, BitVec.decimalValue_byte, BitVec.decimalValue_byte]
  obtain ⟨digit, carry, hdigit, hcarry, hlow, hword⟩ := exists_toNat_digitSum
    ((toNat_lowDigit destination).trans_le hdestination.1)
    ((toNat_lowDigit source).trans_le hsource.1) ((toNat_extend extend).trans_le extend.toNat_le)
  rw [toNat_lowDigit, toNat_lowDigit, toNat_extend] at hlow
  let sum := digitSum (destination.setWidth 32 &&& 0x0F) (source.setWidth 32 &&& 0x0F)
    ((BitVec.ofBool extend).setWidth 32) + (source.setWidth 32 &&& 0xF0) +
      (destination.setWidth 32 &&& 0xF0)
  have hsum : sum.toNat =
      digit + 16 * (carry + source.toNat / 16 + destination.toNat / 16) := by
    rw [BitVec.toNat_add, BitVec.toNat_add, hword, toNat_highDigit, toNat_highDigit]
    omega
  obtain ⟨digit', hdigit', hhigh, hvalue⟩ :=
    exists_toNat_byteSum sum hdigit (by omega) hsum
  change (addDecimal destination source extend).value.toNat = _ at hvalue
  change _ = digit' + 10 * (addDecimal destination source extend).carry.toNat at hhigh
  omega

/-- The difference of two decimal bytes is a decimal byte, with the exact decimal borrow. -/
theorem subDecimal_spec :
    (subDecimal destination source extend).value.IsDecimal ∧
      destination.decimalValue + 100 * (subDecimal destination source extend).carry.toNat =
        (subDecimal destination source extend).value.decimalValue + source.decimalValue +
          extend.toNat := by
  rw [BitVec.isDecimal_byte] at hdestination hsource ⊢
  rw [BitVec.decimalValue_byte, BitVec.decimalValue_byte, BitVec.decimalValue_byte]
  obtain ⟨digit, borrow, hdigit, hborrow, hlow, hword⟩ := exists_toNat_digitDifference
    ((toNat_lowDigit destination).trans_le hdestination.1)
    ((toNat_lowDigit source).trans_le hsource.1) ((toNat_extend extend).trans_le extend.toNat_le)
  rw [toNat_lowDigit, toNat_lowDigit, toNat_extend] at hlow
  let difference := digitDifference (destination.setWidth 32 &&& 0x0F)
    (source.setWidth 32 &&& 0x0F) ((BitVec.ofBool extend).setWidth 32) +
      (destination.setWidth 32 &&& 0xF0) - (source.setWidth 32 &&& 0xF0)
  have hdifference : difference.toNat =
      (digit + 16 * (destination.toNat / 16) + 2 ^ 32 - 16 * (source.toNat / 16 + borrow)) %
        2 ^ 32 := by
    rw [BitVec.toNat_sub, BitVec.toNat_add, toNat_highDigit, toNat_highDigit]
    omega
  obtain ⟨digit', hdigit', hhigh, hvalue⟩ :=
    exists_toNat_byteDifference difference hdigit hdestination.2 (by omega) hdifference
  change (subDecimal destination source extend).value.toNat = _ at hvalue
  change _ + 10 * (subDecimal destination source extend).carry.toNat = _ at hhigh
  omega

end Bytes

end ChainedResult

/-! ## Whole numbers -/

namespace LimbOperation

/-- The operation in packed decimal, as ABCD, SBCD and NBCD do it. -/
def decimal : LimbOperation → PartOperation .byte
  | binary .add => ⟨ChainedResult.addDecimal, True, fun hnone ↦ absurd trivial hnone⟩
  | binary .sub => ⟨ChainedResult.subDecimal, True, fun hnone ↦ absurd trivial hnone⟩
  | negate => ⟨fun destination _ extend ↦ ChainedResult.subDecimal 0 destination extend, False,
      fun _ _ _ _ _ ↦ rfl⟩

/-- The values that an operation takes in and gives out, of which the carry stands for a modulus. -/
def Balances (operation : LimbOperation)
    (modulus destination source extend value carry : Nat) : Prop :=
  match operation with
  | binary .add => destination + source + extend = value + modulus * carry
  | binary .sub => destination + modulus * carry = value + source + extend
  | negate => modulus * carry = value + destination + extend

variable {operation : LimbOperation}

/-- Where there is no part, the carry is passed on. -/
theorem balances_zero (operation : LimbOperation) (extend : Nat) :
    operation.Balances 1 0 0 extend 0 extend := by
  match operation with
  | binary .add | binary .sub | negate =>
    change _ = _
    omega

/-- The carry of the low part goes into the high part. -/
theorem Balances.append {base modulus low low' high high' extend middle value value' carry : Nat}
    (hlow : operation.Balances base low low' extend value middle)
    (hhigh : operation.Balances modulus high high' middle value' carry) :
    operation.Balances (base * modulus) (low + base * high) (low' + base * high') extend
      (value + base * value') carry := by
  match operation with
  | binary .add =>
    have hscaled : base * (high + high' + middle) = base * (value' + modulus * carry) :=
      congrArg _ hhigh
    change low + low' + extend = value + base * middle at hlow
    change _ = _
    linarith
  | binary .sub =>
    have hscaled : base * (high + modulus * carry) = base * (value' + high' + middle) :=
      congrArg _ hhigh
    change low + base * middle = value + low' + extend at hlow
    change _ = _
    linarith
  | negate =>
    have hscaled : base * (modulus * carry) = base * (value' + high + middle) :=
      congrArg _ hhigh
    change base * middle = value + low + extend at hlow
    change _ = _
    linarith

section Exact

variable {modulus destination source value : Nat} {carry : Bool} (hvalue : value < modulus)

include hvalue

theorem eq_mod_of_balances_add
    (h : (binary .add).Balances modulus destination source 0 value carry.toNat) :
    value = (destination + source) % modulus ∧ carry = decide (modulus ≤ destination + source) := by
  change destination + source = value + modulus * carry.toNat at h
  refine ⟨?_, ?_⟩
  · rw [h, Nat.add_mul_mod_self_left, Nat.mod_eq_of_lt hvalue]
  · rw [h]
    cases carry with
    | false => exact (decide_eq_false (Nat.not_le_of_lt hvalue)).symm
    | true => exact (decide_eq_true (by rw [Bool.toNat_true]; omega)).symm

theorem eq_mod_of_balances_sub
    (h : (binary .sub).Balances modulus destination source 0 value carry.toNat)
    (hsource : source < modulus) :
    value = (destination + modulus - source) % modulus ∧
      carry = decide (destination < source) := by
  change destination + modulus * carry.toNat = value + source at h
  cases carry with
  | false =>
    rw [Bool.toNat_false, Nat.mul_zero] at h
    have hdifference : destination + modulus - source = value + modulus := by omega
    rw [hdifference, Nat.add_mod_right, Nat.mod_eq_of_lt hvalue]
    exact ⟨rfl, (decide_eq_false (by omega)).symm⟩
  | true =>
    rw [Bool.toNat_true, Nat.mul_one] at h
    have hdifference : destination + modulus - source = value := by omega
    rw [hdifference, Nat.mod_eq_of_lt hvalue]
    exact ⟨rfl, (decide_eq_true (by omega)).symm⟩

/-- A negation is a difference from zero. -/
theorem eq_mod_of_balances_negate
    (h : negate.Balances modulus destination source 0 value carry.toNat)
    (hdestination : destination < modulus) :
    value = (modulus - destination) % modulus ∧ carry = decide (destination ≠ 0) := by
  have hsub : (binary .sub).Balances modulus 0 destination 0 value carry.toNat :=
    (Nat.zero_add _).trans h
  obtain ⟨rfl, rfl⟩ := eq_mod_of_balances_sub hvalue hsub hdestination
  rw [Nat.zero_add, decide_eq_decide]
  exact ⟨rfl, Nat.pos_iff_ne_zero⟩

end Exact

/-- On decimal bytes the operation gives a decimal byte and the exact decimal carry. -/
theorem decimal_spec {destination source : Byte} (hdestination : destination.IsDecimal)
    (hsource : operation.decimal.TakesSource → source.IsDecimal) (extend : Bool) :
    (operation.decimal.combine destination source extend).value.IsDecimal ∧
      operation.Balances 100 destination.decimalValue source.decimalValue extend.toNat
        (operation.decimal.combine destination source extend).value.decimalValue
        (operation.decimal.combine destination source extend).carry.toNat := by
  match operation with
  | binary .add => exact ChainedResult.addDecimal_spec hdestination (hsource trivial) extend
  | binary .sub => exact ChainedResult.subDecimal_spec hdestination (hsource trivial) extend
  | negate =>
    have hzero : (0 : Byte).IsDecimal := (BitVec.isDecimal_byte 0).2 (by decide)
    obtain ⟨hvalue, hborrow⟩ := ChainedResult.subDecimal_spec hzero hdestination extend
    exact ⟨hvalue, (Nat.zero_add _).symm.trans hborrow⟩

/-- So it does on numbers of any length. -/
theorem decimal_of_partByPart {count : Nat}
    {destination source result : BitVec (Size.byte.bits * count)} {before after : Ccr}
    (h : PartByPart operation.decimal count destination source before result after)
    (hdestination : destination.IsDecimal)
    (hsource : operation.decimal.TakesSource → source.IsDecimal) :
    result.IsDecimal ∧
      operation.Balances (100 ^ count) destination.decimalValue source.decimalValue
        before.extend.toNat result.decimalValue after.extend.toNat := by
  induction h with
  | none destination source result codes =>
    exact ⟨nofun, operation.balances_zero codes.extend.toNat⟩
  | @cons count high high' result low low' before after rest ih =>
    obtain ⟨hhigh, hlow⟩ := (BitVec.isDecimal_append high low rfl).1 hdestination
    have hsources (htakes : operation.decimal.TakesSource) :=
      (BitVec.isDecimal_append high' low' rfl).1 (hsource htakes)
    obtain ⟨hlowResult, hlowBalance⟩ :=
      decimal_spec hlow (fun htakes ↦ (hsources htakes).2) before.extend
    obtain ⟨hhighResult, hhighBalance⟩ := ih hhigh fun htakes ↦ (hsources htakes).1
    refine ⟨(BitVec.isDecimal_append _ _ rfl).2 ⟨hhighResult, hlowResult⟩, ?_⟩
    rw [BitVec.decimalValue_append _ _ rfl, BitVec.decimalValue_append _ _ rfl,
      BitVec.decimalValue_append _ _ rfl, Nat.pow_succ']
    exact hlowBalance.append hhighBalance

end LimbOperation

end M68000
