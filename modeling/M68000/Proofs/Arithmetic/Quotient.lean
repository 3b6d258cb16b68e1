import M68000.Instruction.Multiply

/-!
# Quotients and remainders

Words are divided as the numbers that they stand for, and the quotient is rounded toward zero. It is
kept if it is a number of a word, and then the remainder is one as well. The numbers are the same as
those of a division at 32 bits without a sign and at 64 bits with one, which never overflows.
-/

namespace M68000

/-! ## Numbers -/

/-- The quotient of two numbers is rounded toward zero, so that the remainder has the sign of the
dividend. -/
structure IsDivision (dividend divisor quotient remainder : Int) : Prop where
  sum : dividend = quotient * divisor + remainder
  lt : remainder.natAbs < divisor.natAbs
  sign : remainder = 0 ∨ remainder.sign = dividend.sign

theorem isDivision_tdiv (dividend : Int) {divisor : Int} (hdivisor : divisor ≠ 0) :
    IsDivision dividend divisor (dividend.tdiv divisor) (dividend.tmod divisor) where
  sum := (Int.tdiv_mul_add_tmod dividend divisor).symm
  lt := by
    rw [Int.natAbs_tmod]
    exact Nat.mod_lt _ (Int.natAbs_pos.2 hdivisor)
  sign := by
    rw [Int.sign_tmod]
    by_cases hdvd : divisor ∣ dividend
    · exact .inl (Int.tmod_eq_zero_of_dvd hdvd)
    · exact .inr (if_neg hdvd)

/-! ## Words -/

namespace Signedness

/-- The number that the bits stand for. -/
def number {n : Nat} (signedness : Signedness) (value : BitVec n) : Int :=
  match signedness with
  | unsigned => value.toNat
  | signed => value.toInt

/-- A word stands for the number. -/
def FitsWord (signedness : Signedness) (number : Int) : Prop :=
  match signedness with
  | unsigned => 0 ≤ number ∧ number ≤ 65535
  | signed => -32768 ≤ number ∧ number ≤ 32767

variable {signedness : Signedness}

theorem fitsWord_number (signedness : Signedness) (word : BitVec 16) :
    signedness.FitsWord (signedness.number word) := by
  cases signedness with
  | unsigned =>
    have hlt := word.isLt
    simp only [FitsWord, number]
    omega
  | signed =>
    have hle := word.le_toInt
    have hlt := word.toInt_lt
    simp only [FitsWord, number]
    omega

theorem number_ofInt {number : Int} (hfits : signedness.FitsWord number) :
    signedness.number (BitVec.ofInt 16 number) = number := by
  cases signedness with
  | unsigned =>
    obtain ⟨hle, hlt⟩ := hfits
    rw [Signedness.number, BitVec.toNat_ofInt]
    omega
  | signed =>
    obtain ⟨hle, hlt⟩ := hfits
    exact BitVec.toInt_ofInt_eq_self (by decide) (by omega) (by omega)

theorem number_ne_zero (signedness : Signedness) {n : Nat} {value : BitVec n} (h : value ≠ 0) :
    signedness.number value ≠ 0 := by
  cases signedness with
  | unsigned =>
    intro hzero
    exact h (BitVec.eq_of_toNat_eq (Int.ofNat.inj hzero))
  | signed =>
    intro hzero
    exact h (BitVec.eq_of_toInt_eq (hzero.trans BitVec.toInt_zero.symm))

/-! ## Division -/

variable {dividend : BitVec 32} {divisor : BitVec 16}

/-- Both kinds of words are divided in the same way. -/
theorem divide?_eq (signedness : Signedness) (dividend : BitVec 32) (divisor : BitVec 16) :
    signedness.divide? dividend divisor =
      let quotient := (signedness.number dividend).tdiv (signedness.number divisor)
      if signedness.number (BitVec.ofInt 16 quotient) = quotient then
        some (BitVec.ofInt 16 quotient,
          BitVec.ofInt 16 ((signedness.number dividend).tmod (signedness.number divisor)))
      else none := by
  cases signedness with
  | unsigned =>
    simp only [divide?, number, ← Int.ofNat_tdiv, ← Int.ofNat_tmod, BitVec.ofInt_natCast,
      Int.natCast_inj]
  | signed => rfl

/-- A remainder is smaller than the divisor, which is a word. -/
theorem fitsWord_tmod (signedness : Signedness) (dividend : BitVec 32) (hdivisor : divisor ≠ 0) :
    signedness.FitsWord ((signedness.number dividend).tmod (signedness.number divisor)) := by
  have hlt := (isDivision_tdiv (signedness.number dividend)
    (signedness.number_ne_zero hdivisor)).lt
  have hfits := signedness.fitsWord_number divisor
  cases signedness with
  | unsigned =>
    have hnonneg := Int.tmod_nonneg (divisor.toNat : Int) (Int.natCast_nonneg dividend.toNat)
    simp only [FitsWord, number] at hlt hfits ⊢
    omega
  | signed =>
    simp only [FitsWord, number] at hlt hfits ⊢
    omega

theorem exists_of_fitsWord (hdivisor : divisor ≠ 0)
    (hfits : signedness.FitsWord
      ((signedness.number dividend).tdiv (signedness.number divisor))) :
    ∃ quotient remainder, signedness.divide? dividend divisor = some (quotient, remainder) ∧
      IsDivision (signedness.number dividend) (signedness.number divisor)
        (signedness.number quotient) (signedness.number remainder) := by
  have hquotient := number_ofInt hfits
  have hremainder := number_ofInt (signedness.fitsWord_tmod dividend hdivisor)
  refine ⟨_, _, (signedness.divide?_eq dividend divisor).trans (if_pos hquotient), ?_⟩
  rw [hquotient, hremainder]
  exact isDivision_tdiv _ (signedness.number_ne_zero hdivisor)

theorem divide?_of_not_fitsWord
    (hfits : ¬signedness.FitsWord
      ((signedness.number dividend).tdiv (signedness.number divisor))) :
    signedness.divide? dividend divisor = none := by
  refine (signedness.divide?_eq dividend divisor).trans (if_neg fun hquotient ↦ hfits ?_)
  rw [← hquotient]
  exact signedness.fitsWord_number _

/-! ## Division at a fixed width -/

/-- The width at which operands are divided. -/
def width : Signedness → Nat
  | unsigned => 32
  | signed => 64

def widen {n : Nat} (signedness : Signedness) (value : BitVec n) : BitVec signedness.width :=
  match signedness with
  | unsigned => value.setWidth 32
  | signed => value.signExtend 64

def quotient {n : Nat} (signedness : Signedness) (dividend divisor : BitVec n) : BitVec n :=
  match signedness with
  | unsigned => dividend / divisor
  | signed => dividend.sdiv divisor

def remainder {n : Nat} (signedness : Signedness) (dividend divisor : BitVec n) : BitVec n :=
  match signedness with
  | unsigned => dividend % divisor
  | signed => dividend.srem divisor

/-- The operands are the same numbers at the width at which they are divided, and quotient and
remainder are the exact ones. -/
structure DividesExactly (signedness : Signedness) (dividend : BitVec 32) (divisor : BitVec 16) :
    Prop where
  operands : signedness.number (signedness.widen dividend) = signedness.number dividend ∧
    signedness.number (signedness.widen divisor) = signedness.number divisor
  quotient : signedness.number (signedness.quotient (signedness.widen dividend)
    (signedness.widen divisor)) = (signedness.number dividend).tdiv (signedness.number divisor)
  remainder : signedness.number (signedness.remainder (signedness.widen dividend)
    (signedness.widen divisor)) = (signedness.number dividend).tmod (signedness.number divisor)
  /-- The one quotient of numbers with a sign that can overflow is not asked for. -/
  overflow : signedness = .signed →
    (signedness.widen dividend).sdivOverflow (signedness.widen divisor) = false

theorem dividesExactly (signedness : Signedness) (dividend : BitVec 32) (divisor : BitVec 16) :
    signedness.DividesExactly dividend divisor := by
  cases signedness with
  | unsigned =>
    have hdividend : (dividend.setWidth 32).toNat = dividend.toNat :=
      BitVec.toNat_setWidth_of_le (Nat.le_refl 32)
    have hdivisor : (divisor.setWidth 32).toNat = divisor.toNat :=
      BitVec.toNat_setWidth_of_le (by decide)
    have hquotient : (dividend.setWidth 32 / divisor.setWidth 32).toNat =
        dividend.toNat / divisor.toNat := by
      rw [BitVec.toNat_udiv, hdividend, hdivisor]
    have hremainder : (dividend.setWidth 32 % divisor.setWidth 32).toNat =
        dividend.toNat % divisor.toNat := by
      rw [BitVec.toNat_umod, hdividend, hdivisor]
    exact ⟨⟨congrArg Int.ofNat hdividend, congrArg Int.ofNat hdivisor⟩,
      (congrArg Int.ofNat hquotient).trans (Int.ofNat_tdiv _ _),
      (congrArg Int.ofNat hremainder).trans (Int.ofNat_tmod _ _), nofun⟩
  | signed =>
    have hdividend : (dividend.signExtend 64).toInt = dividend.toInt :=
      BitVec.toInt_signExtend_of_le (by decide)
    have hdivisor : (divisor.signExtend 64).toInt = divisor.toInt :=
      BitVec.toInt_signExtend_of_le (by decide)
    -- Only the lowest number of the wider width has a quotient that overflows.
    have hne : dividend.signExtend 64 ≠ BitVec.intMin 64 := by
      intro heq
      have hle := dividend.le_toInt
      rw [← hdividend, heq] at hle
      exact absurd hle (by decide)
    have hquotient := BitVec.toInt_sdiv_of_ne_or_ne _ (divisor.signExtend 64) (.inl hne)
    have hremainder := BitVec.toInt_srem (dividend.signExtend 64) (divisor.signExtend 64)
    have hoverflow : (dividend.signExtend 64).sdivOverflow (divisor.signExtend 64) = false := by
      rw [BitVec.sdivOverflow_eq, decide_eq_false hne, Bool.and_false, Bool.false_and]
    rw [hdividend, hdivisor] at hquotient hremainder
    exact ⟨⟨hdividend, hdivisor⟩, hquotient, hremainder, fun _ ↦ hoverflow⟩

end Signedness

end M68000
