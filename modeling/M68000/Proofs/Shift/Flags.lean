import M68000.Proofs.Flags.Arithmetic
import M68000.Proofs.Shift.Serial

/-!
# Flags of shifts

The flags that follow from the record of a shift are those of shifting place by place: C is the
bit that left the operand last, and V tells whether the sign changed on the way, even when the
count is at the width of the operand or beyond it.
-/

namespace M68000

/-- All bits of a word are alike if they are as its sign is. -/
theorem eq_zero_or_eq_neg_one_iff {n : Nat} (hn : 0 < n) (value : BitVec n) :
    value = 0 ∨ value = -1 ↔ ∀ i < n, value.getLsbD i = value.msb := by
  constructor
  · rintro (rfl | rfl) i hi
    · simp
    · simp [BitVec.neg_one_eq_allOnes, BitVec.msb_allOnes hn, hi]
  · intro hall
    cases hmsb : value.msb with
    | false =>
      left
      apply BitVec.eq_of_getLsbD_eq
      intro i hi
      simp [hall i hi, hmsb]
    | true =>
      right
      apply BitVec.eq_of_getLsbD_eq
      intro i hi
      simp [hall i hi, hmsb, BitVec.neg_one_eq_allOnes, hi]

section Sign

variable {n : Nat} (value : BitVec n) {count : Nat}

/-- A shift to the left by the whole width brings a clear bit to the sign position. -/
theorem forall_getMsbD_eq_msb_of_le (h : n ≤ count) :
    (∀ i ≤ count, value.getMsbD i = value.msb) ↔ value = 0 := by
  constructor
  · intro hall
    have hmsb : value.msb = false := by
      rw [← hall n h]
      simp [BitVec.getMsbD]
    apply BitVec.eq_of_getMsbD_eq
    intro i hi
    rw [hall i (by omega), hmsb]
    simp
  · rintro rfl i _
    simp

/-- A narrower shift brings the bits to the sign position that a shift to the right leaves. -/
theorem forall_getMsbD_eq_msb_of_lt (hle : n ≤ 32) (h : count < n) :
    (∀ i ≤ count, value.getMsbD i = value.msb) ↔
      ∀ i < 32, ((value.signExtend 32).sshiftRight (n - 1 - count)).getLsbD i = value.msb := by
  have hbit (i : Nat) (hi : i < 32) :
      ((value.signExtend 32).sshiftRight (n - 1 - count)).getLsbD i =
        if n - 1 - count + i < n then value.getLsbD (n - 1 - count + i) else value.msb := by
    have hin : ¬ 32 ≤ i := by omega
    rw [BitVec.getLsbD_sshiftRight, BitVec.getLsbD_signExtend, msb_signExtend_of_le hle]
    by_cases h32 : n - 1 - count + i < 32
    · simp [hin, h32]
    · have hout : ¬ n - 1 - count + i < n := by omega
      simp [hin, h32, hout]
  constructor
  · intro hall i hi
    rw [hbit i hi]
    split
    next hlt =>
      rw [← hall (count - i) (by omega), BitVec.getMsbD, decide_eq_true (by omega),
        Bool.true_and]
      congr 1
      omega
    next => rfl
  · intro hall i hi
    have hplace := hall (count - i) (by omega)
    rw [hbit _ (by omega), if_pos (by omega)] at hplace
    rw [← hplace, BitVec.getMsbD, decide_eq_true (by omega), Bool.true_and]
    congr 1
    omega

end Sign

section Record

variable {n : Nat} (value : BitVec n) {count : Nat} (hlt : count + 1 < 2 ^ 32)
  (result : BitVec 32)

include hlt

theorem toNat_ofNat_count : (BitVec.ofNat 32 (count + 1)).toNat = count + 1 := by
  rw [BitVec.toNat_ofNat, Nat.mod_eq_of_lt hlt]

variable (hle : n ≤ 32)

include hle

theorem carry_record_shiftLeft {kind : Deferred.Kind} (hkind : kind = .asl ∨ kind = .lsl) :
    (Deferred.mk kind result (value.signExtend 32) (BitVec.ofNat 32 (count + 1)) n).carry =
      (value <<< count).msb := by
  have hcarry :
      (Deferred.mk kind result (value.signExtend 32) (BitVec.ofNat 32 (count + 1)) n).carry =
        (decide (count + 1 ≤ n) && value.getLsbD (n - (count + 1))) := by
    rcases hkind with rfl | rfl <;>
      rw [Deferred.carry, setWidth_signExtend_of_le hle, toNat_ofNat_count hlt]
  rw [hcarry, BitVec.msb_shiftLeft, BitVec.getMsbD, Nat.sub_sub, Nat.add_comm 1 count]
  rfl

theorem carry_record_lsr :
    (Deferred.mk .lsr result (value.signExtend 32) (BitVec.ofNat 32 (count + 1)) n).carry =
      (value >>> count).getLsbD 0 := by
  rw [Deferred.carry, setWidth_signExtend_of_le hle, toNat_ofNat_count hlt,
    BitVec.getLsbD_ushiftRight]
  by_cases h : count < n
  · simp [Nat.succ_le_of_lt h]
  · have hnot : ¬ count + 1 ≤ n := by omega
    simp [hnot, BitVec.getLsbD_of_ge value count (Nat.le_of_not_lt h)]

theorem carry_record_asr (hn : 0 < n) :
    (Deferred.mk .asr result (value.signExtend 32) (BitVec.ofNat 32 (count + 1)) n).carry =
      (value.sshiftRight count).getLsbD 0 := by
  have hne : n ≠ 0 := Nat.pos_iff_ne_zero.1 hn
  rw [Deferred.carry, toNat_ofNat_count hlt, BitVec.getLsbD_sshiftRight]
  simp only [msb_signExtend_of_le hle, BitVec.getLsbD_signExtend]
  by_cases h : count < n
  · have hlt32 : count < 32 := by omega
    simp [h, hlt32, hne, Nat.not_lt.2 (Nat.succ_le_of_lt h)]
  · simp [h, hne, Nat.lt_succ_of_le (Nat.le_of_not_lt h)]

theorem overflow_record_asl :
    (Deferred.mk .asl result (value.signExtend 32) (BitVec.ofNat 32 (count + 1)) n).overflow =
        false ↔
      ∀ i ≤ count + 1, value.getMsbD i = value.msb := by
  simp only [Deferred.overflow, toNat_ofNat_count hlt]
  by_cases h : n ≤ count + 1
  · rw [if_pos h, bne, Bool.not_eq_false', signExtend_beq_zero_of_le hle, beq_iff_eq,
      forall_getMsbD_eq_msb_of_le value h]
  · rw [if_neg h]
    have hbool (a b : Bool) : (!a && !b) = false ↔ a = true ∨ b = true := by
      cases a <;> cases b <;> decide
    rw [bne, bne, hbool, beq_iff_eq, beq_iff_eq, eq_zero_or_eq_neg_one_iff (by decide),
      forall_getMsbD_eq_msb_of_lt value hle (Nat.lt_of_not_le h), BitVec.msb_sshiftRight,
      msb_signExtend_of_le hle]

end Record

namespace ShiftKind

variable {n : Nat} (hn : 0 < n) (hle : n ≤ 32) (direction : Direction) (value : BitVec n)
  {count : Nat} (flags : Flags)

include hn

theorem ccr_record_rotateExtend :
    (rotateExtend.record direction value count flags).ccr =
      (Shifter.serial .rotateExtend direction value flags.extend count).ccr := by
  rw [record, if_pos rfl, Flags.ccr_ofCcr, Shifter.serial_rotateExtend, result,
    rotateExtendBy_mod _ _ _ _ hn]
  rfl

include hle

/-- A count of zero leaves the operand and X alone and clears V and C. -/
theorem ccr_record_zero {kind : ShiftKind} (hkind : kind ≠ .rotateExtend) :
    (kind.record direction value 0 flags).ccr =
      (Shifter.serial kind direction value flags.extend 0).ccr := by
  have hresult : kind.result direction value flags.extend 0 = value := by
    rw [← Shifter.serial_value _ _ _ _ _ hn]
    rfl
  rw [record, if_neg hkind, if_pos rfl, hresult, Flags.ccr_setResult hle, Shifter.ccr]
  simp [Shifter.serial, Shifter.start, hkind]

/-- A shift that gives X its carry has the flags of the places it was shifted by if its record
has the same C and V. -/
theorem ccr_ofShift {kind : ShiftKind} (hkind : kind ≠ .rotate) {codes : Deferred.Kind}
    (hcodes : codes ≠ .explicit) {d s : BitVec 32}
    (hcarry : (Deferred.mk codes ((kind.result direction value flags.extend (count + 1)).signExtend
        32) d s n).carry =
      direction.leaving (kind.result direction value flags.extend count))
    (hoverflow : (Deferred.mk codes ((kind.result direction value flags.extend
        (count + 1)).signExtend 32) d s n).overflow =
      (Shifter.serial kind direction value flags.extend (count + 1)).overflow) :
    (Flags.ofShift codes n ((kind.result direction value flags.extend (count + 1)).signExtend 32)
        d s).ccr =
      (Shifter.serial kind direction value flags.extend (count + 1)).ccr := by
  have hextend : (Deferred.mk codes ((kind.result direction value flags.extend
      (count + 1)).signExtend 32) d s n).extend =
        direction.leaving (kind.result direction value flags.extend count) := by
    rw [← hcarry]
    cases codes <;> first | rfl | exact absurd rfl hcodes
  rw [Flags.ofShift, Flags.ccr_ofRecord, hextend, hcarry, hoverflow, negative_record hle hcodes,
    zero_record hle hcodes, Shifter.ccr, Shifter.serial_succ_extend _ _ _ _ hkind,
    Shifter.serial_succ_carry _ _ _ _ _ hn, Shifter.serial_value _ _ _ _ _ hn]

theorem ccr_record_arithmetic (hlt : count + 1 < 2 ^ 32) :
    (arithmetic.record direction value (count + 1) flags).ccr =
      (Shifter.serial .arithmetic direction value flags.extend (count + 1)).ccr := by
  cases direction with
  | left =>
    refine ccr_ofShift hn hle .left value flags (by decide) (by decide)
      (carry_record_shiftLeft value hlt _ hle (.inl rfl)) ?_
    rw [Bool.eq_iff_iff, ← not_iff_not, Bool.not_eq_true, Bool.not_eq_true,
      overflow_record_asl value hlt _ hle, Shifter.serial_overflow_eq_false_iff _ _ _ hn]
  | right =>
    refine ccr_ofShift hn hle .right value flags (by decide) (by decide)
      (carry_record_asr value hlt _ hle hn) ?_
    exact (Shifter.serial_overflow_eq_false _ _ _ fun _ ↦ rfl).symm

theorem ccr_record_logical (hlt : count + 1 < 2 ^ 32) :
    (logical.record direction value (count + 1) flags).ccr =
      (Shifter.serial .logical direction value flags.extend (count + 1)).ccr := by
  have hoverflow :
      (Shifter.serial .logical direction value flags.extend (count + 1)).overflow = false :=
    Shifter.serial_overflow_eq_false _ _ _ nofun
  cases direction with
  | left =>
    exact ccr_ofShift hn hle .left value flags (by decide) (by decide)
      (carry_record_shiftLeft value hlt _ hle (.inr rfl)) hoverflow.symm
  | right =>
    exact ccr_ofShift hn hle .right value flags (by decide) (by decide)
      (carry_record_lsr value hlt _ hle) hoverflow.symm

/-- The bit that a rotation moved last is the one at the end where it came in. -/
theorem ccr_record_rotate :
    (rotate.record direction value (count + 1) flags).ccr =
      (Shifter.serial .rotate direction value flags.extend (count + 1)).ccr := by
  have hoverflow :
      (Shifter.serial .rotate direction value flags.extend (count + 1)).overflow = false :=
    Shifter.serial_overflow_eq_false _ _ _ nofun
  rw [Shifter.ccr, Shifter.serial_rotate_extend, Shifter.serial_succ_carry _ _ _ _ _ hn,
    Shifter.serial_value _ _ _ _ _ hn, hoverflow]
  cases direction with
  | left =>
    have hcarry : ((value.rotateLeft (count + 1)).signExtend 32).getLsbD 0 =
        (value.rotateLeft count).msb := by
      rw [BitVec.getLsbD_signExtend, if_pos hn, getLsbD_rotateLeft_succ _ _ hn, if_pos rfl,
        ← BitVec.msb_eq_getLsbD_last]
      rfl
    rw [record, if_neg (by decide), if_neg (Nat.succ_ne_zero count)]
    change (flags.setRotateLeft ((value.rotateLeft (count + 1)).signExtend 32)).ccr = _
    rw [Flags.setRotateLeft, Flags.ccr_record, negative_record hle (by decide),
      zero_record hle (by decide), Deferred.carry, hcarry]
    rfl
  | right =>
    have hcarry : ((value.rotateRight (count + 1)).signExtend 32).msb =
        (value.rotateRight count).getLsbD 0 := by
      rw [msb_signExtend_of_le hle, BitVec.msb_eq_getLsbD_last,
        getLsbD_rotateRight_succ _ _ (by omega), if_pos (by omega)]
    rw [record, if_neg (by decide), if_neg (Nat.succ_ne_zero count)]
    change (flags.setRotateRight ((value.rotateRight (count + 1)).signExtend 32)).ccr = _
    rw [Flags.setRotateRight, Flags.ccr_record, negative_record hle (by decide),
      zero_record hle (by decide), Deferred.carry, hcarry]
    rfl

/-- The flags recorded for a shift are those of shifting place by place. -/
theorem ccr_record (kind : ShiftKind) (hlt : count < 2 ^ 32) :
    (kind.record direction value count flags).ccr =
      (Shifter.serial kind direction value flags.extend count).ccr := by
  by_cases hkind : kind = .rotateExtend
  · subst hkind
    exact ccr_record_rotateExtend hn direction value flags
  · cases count with
    | zero => exact ccr_record_zero hn hle direction value flags hkind
    | succ count =>
      cases kind with
      | arithmetic => exact ccr_record_arithmetic hn hle direction value flags hlt
      | logical => exact ccr_record_logical hn hle direction value flags hlt
      | rotate => exact ccr_record_rotate hn hle direction value flags
      | rotateExtend => exact absurd rfl hkind

end ShiftKind

end M68000
