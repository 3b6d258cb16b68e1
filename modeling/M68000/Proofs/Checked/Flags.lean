import M68000.Instruction.Arithmetic
import M68000.Instruction.Shift
import M68000.Instruction.Unary
import M68000.Proofs.Checked.Arithmetic

/-!
# Flags computed from sound records

The flags of a recorded shift are found by further shifts, by amounts that the count and the width
of the operand give. They exist if the width is that of an operand and the count is between 1 and
63. All records that instructions make of shifts are sound in this sense: a count of zero is never
recorded, and others are counted modulo 64.
-/

namespace M68000

/-! ## Sound records -/

namespace Deferred

/-- The flags depend on the width of the operand. -/
def Kind.isShift : Kind → Bool
  | asl | asr | lsl | lsr => true
  | _ => false

/-- A record of a shift has the width of an operand and a count from 1 to 63. -/
def Sound (record : Deferred) : Prop :=
  record.kind.isShift = true →
    (record.width = 8 ∨ record.width = 16 ∨ record.width = 32) ∧
      1 ≤ record.source.toNat ∧ record.source.toNat ≤ 63

theorem sound_of_isShift_eq_false {record : Deferred} (h : record.kind.isShift = false) :
    record.Sound :=
  fun hshift ↦ absurd (h.symm.trans hshift) Bool.false_ne_true

theorem Sound.bounds {kind : Kind} {r d s : BitVec 32} {width : Nat}
    (h : Sound ⟨kind, r, d, s, width⟩) (hshift : kind.isShift = true) :
    0 < width ∧ width ≤ 32 ∧ 1 ≤ s.toNat := by
  obtain ⟨hwidth, hcount, -⟩ := h hshift
  dsimp only at hwidth hcount
  omega

end Deferred

/-- The record that decides N, Z, V and C is sound, and so is the one that decides X. -/
structure Flags.Sound (flags : Flags) : Prop where
  codes : flags.codes.Sound
  extension : flags.extension.Sound

/-! ## Recording -/

namespace Flags

variable {flags : Flags}

theorem sound_ofRecord {codes : Deferred} (h : codes.Sound) : (ofRecord codes).Sound :=
  ⟨h, h⟩

theorem Sound.record (h : flags.Sound) {codes : Deferred} (hcodes : codes.Sound) :
    (flags.record codes).Sound :=
  ⟨hcodes, h.extension⟩

theorem sound_ofCcr (ccr : Ccr) : (ofCcr ccr).Sound :=
  sound_ofRecord (Deferred.sound_of_isShift_eq_false rfl)

theorem Sound.setResult (h : flags.Sound) (result : BitVec 32) : (flags.setResult result).Sound :=
  h.record (Deferred.sound_of_isShift_eq_false rfl)

theorem Sound.setCompare (h : flags.Sound) (result destination source : BitVec 32) :
    (flags.setCompare result destination source).Sound :=
  h.record (Deferred.sound_of_isShift_eq_false rfl)

theorem Sound.setCodes (h : flags.Sound) (negative zero overflow carry : Bool) :
    (flags.setCodes negative zero overflow carry).Sound :=
  h.record (Deferred.sound_of_isShift_eq_false rfl)

theorem Sound.setZero (h : flags.Sound) (zero : Bool) : (flags.setZero zero).Sound :=
  h.record (Deferred.sound_of_isShift_eq_false rfl)

end Flags

theorem Binary.sound_record (operation : Binary) {n : Nat} (destination source : BitVec n)
    {flags : Flags} (h : flags.Sound) : (operation.record destination source flags).Sound := by
  cases operation with
  | add | sub => exact Flags.sound_ofRecord (Deferred.sound_of_isShift_eq_false rfl)
  | and | or | eor => exact h.setResult _
  | cmp => exact h.setCompare _ _ _

theorem Unary.sound_record (operation : Unary) {n : Nat} (value : BitVec n) {flags : Flags}
    (h : flags.Sound) : (operation.record value flags).Sound := by
  cases operation with
  | neg => exact Flags.sound_ofRecord (Deferred.sound_of_isShift_eq_false rfl)
  | negx => exact Flags.sound_ofCcr _
  | clr | not | tst => exact h.setResult _

/-- A count of zero is not recorded. -/
theorem ShiftKind.sound_record (kind : ShiftKind) (direction : Direction) {size : Size}
    (value : size.Value) {count : Nat} (hcount : count < 64) {flags : Flags} (h : flags.Sound) :
    (kind.record direction value count flags).Sound := by
  have hshift (codes : Deferred.Kind) (r v : BitVec 32) (hzero : count ≠ 0) :
      (Flags.ofShift codes size.bits r v (BitVec.ofNat 32 count)).Sound := by
    refine Flags.sound_ofRecord fun _ ↦ ⟨?_, ?_⟩
    · cases size <;> simp [Size.bits]
    · simp only [BitVec.toNat_ofNat]
      omega
  have hrotate (codes : Deferred.Kind) (r : BitVec 32) (hkind : codes.isShift = false) :
      (flags.record ⟨codes, r, 0, 0, 32⟩).Sound :=
    h.record (Deferred.sound_of_isShift_eq_false hkind)
  unfold record
  dsimp only
  split
  next => exact Flags.sound_ofCcr _
  next hkind =>
    split
    next => exact h.setResult _
    next hzero =>
      cases kind with
      | arithmetic | logical => cases direction <;> exact hshift _ _ _ hzero
      | rotateExtend => exact absurd rfl hkind
      | rotate => cases direction <;> exact hrotate _ _ rfl

/-! ## Reading -/

namespace Checked

namespace Deferred

variable (record : Deferred)

/-- A left shift moves the bits that pass through the sign position down to the end. -/
def overflow : Checked Bool :=
  match record.kind with
  | .asl =>
    let count := record.source.toNat
    if record.width ≤ count then return record.destination != 0
    else do
      let unmoved ← difference (← difference record.width 1) count
      let top ← signedShiftRight record.destination unmoved
      return top != 0 && top != -1
  | _ => return record.overflow

/-- The bit that a shift moved out last is moved down to the end. -/
def carry : Checked Bool :=
  let count := record.source.toNat
  match record.kind with
  | .asl | .lsl =>
    if count ≤ record.width then do
      let operand := record.destination &&& (← mask record.width)
      return (← shiftRight operand (← difference record.width count)).getLsbD 0
    else return false
  | .asr =>
    if record.width < count then return record.destination.msb
    else do
      return (← signedShiftRight record.destination (← difference count 1)).getLsbD 0
  | .lsr =>
    if count ≤ record.width then do
      let operand := record.destination &&& (← mask record.width)
      return (← shiftRight operand (← difference count 1)).getLsbD 0
    else return false
  | _ => return record.carry

def extend : Checked Bool :=
  match record.kind with
  | .explicit => return record.extend
  | _ => carry record

variable {record}

theorem overflow_eq (h : record.Sound) : overflow record = .ok record.overflow := by
  obtain ⟨kind, result, destination, source, width⟩ := record
  cases kind with
  | asl =>
    obtain ⟨hpos, hle, hcount⟩ := h.bounds rfl
    simp only [overflow, M68000.Deferred.overflow]
    split
    next => rfl
    next hlt =>
      rw [difference_of_le (by omega), ok_bind, difference_of_le (by omega), ok_bind,
        signedShiftRight_of_lt (by omega)]
      rfl
  | _ => rfl

theorem getLsbD_and_mask (value : BitVec 32) {width i : Nat} (hle : width ≤ 32) (hi : i < width) :
    ((value &&& BitVec.allOnes 32 >>> (32 - width)) >>> i).getLsbD 0 =
      (value.setWidth width).getLsbD i := by
  rw [BitVec.getLsbD_ushiftRight, BitVec.getLsbD_and, BitVec.getLsbD_ushiftRight,
    BitVec.getLsbD_allOnes, BitVec.getLsbD_setWidth]
  simp [hi, show 32 - width + i < 32 by omega]

theorem carry_eq (h : record.Sound) : carry record = .ok record.carry := by
  obtain ⟨kind, result, destination, source, width⟩ := record
  cases kind with
  | asl | lsl =>
    obtain ⟨hpos, hle, hcount⟩ := h.bounds rfl
    simp only [carry, M68000.Deferred.carry]
    split
    next hle' =>
      rw [mask_of_pos hpos hle, ok_bind, difference_of_le hle', ok_bind,
        shiftRight_of_lt (by omega), ok_bind, getLsbD_and_mask _ hle (by omega)]
      simp [hle']
    next hlt => simp [hlt]
  | asr =>
    obtain ⟨hpos, hle, hcount⟩ := h.bounds rfl
    simp only [carry, M68000.Deferred.carry]
    split
    next => rfl
    next hlt =>
      rw [difference_of_le hcount, ok_bind, signedShiftRight_of_lt (by omega), ok_bind,
        BitVec.getLsbD_sshiftRight]
      simp [show source.toNat - 1 < 32 by omega]
  | lsr =>
    obtain ⟨hpos, hle, hcount⟩ := h.bounds rfl
    simp only [carry, M68000.Deferred.carry]
    split
    next hle' =>
      rw [mask_of_pos hpos hle, ok_bind, difference_of_le hcount, ok_bind,
        shiftRight_of_lt (by omega), ok_bind, getLsbD_and_mask _ hle (by omega)]
      simp [hle']
    next hlt => simp [hlt]
  | _ => rfl

theorem extend_eq (h : record.Sound) : extend record = .ok record.extend := by
  have hcarry := carry_eq h
  obtain ⟨kind, result, destination, source, width⟩ := record
  cases kind <;> first | rfl | exact hcarry

end Deferred

namespace Flags

variable (flags : Flags)

def extend : Checked Bool :=
  Deferred.extend flags.extension

def overflow : Checked Bool :=
  Deferred.overflow flags.codes

def carry : Checked Bool :=
  Deferred.carry flags.codes

def ccr : Checked Ccr := do
  return {
    extend := ← extend flags
    negative := flags.negative
    zero := flags.zero
    overflow := ← overflow flags
    carry := ← carry flags }

/-- Z alone changes, but all others are computed. -/
def setZero (zero : Bool) : Checked Flags := do
  return flags.record (.ofCcr { ← ccr flags with zero })

def holds (condition : Condition) : Checked Bool := do
  match condition with
  | .always => return true
  | .never => return false
  | .higher => return !((← carry flags) || flags.zero)
  | .lowerOrSame => return (← carry flags) || flags.zero
  | .carryClear => return !(← carry flags)
  | .carrySet => carry flags
  | .notEqual => return !flags.zero
  | .equal => return flags.zero
  | .overflowClear => return !(← overflow flags)
  | .overflowSet => overflow flags
  | .plus => return !flags.negative
  | .minus => return flags.negative
  | .greaterOrEqual => return !(flags.negative != (← overflow flags))
  | .less => return flags.negative != (← overflow flags)
  | .greater => return !(flags.zero || flags.negative != (← overflow flags))
  | .lessOrEqual => return flags.zero || flags.negative != (← overflow flags)

variable {flags} (h : flags.Sound)

include h

theorem extend_eq : extend flags = .ok flags.extend :=
  Deferred.extend_eq h.extension

theorem overflow_eq : overflow flags = .ok flags.overflow :=
  Deferred.overflow_eq h.codes

theorem carry_eq : carry flags = .ok flags.carry :=
  Deferred.carry_eq h.codes

theorem ccr_eq : ccr flags = .ok flags.ccr := by
  rw [ccr, extend_eq h, ok_bind, overflow_eq h, ok_bind, carry_eq h, ok_bind]
  rfl

theorem setZero_eq (zero : Bool) : setZero flags zero = .ok (flags.setZero zero) := by
  rw [setZero, ccr_eq h, ok_bind]
  rfl

theorem holds_eq (condition : Condition) :
    holds flags condition = .ok (flags.holds condition) := by
  cases condition <;> simp [holds, M68000.Flags.holds, overflow_eq h, carry_eq h]

end Flags

end Checked

end M68000
