import M68000.Condition
import M68000.Proofs.Shift.Flags

/-!
# Deferred flags and eager flags

A processor may also compute all flags at once whenever an instruction sets some of them: the
carry and the overflow of a sum or difference from its exact value, those of a shift while it
goes from place to place. After any number of updates the deferred flags read as these eager ones
do, and so does every condition.
-/

namespace M68000

/-- A shift that is not by zero is by less than 64 places. -/
structure ShiftCount where
  places : Nat
  pos : 0 < places
  lt : places < 64

/-- An update of the flags with operands of one size. -/
inductive Update where
  /-- N and Z from a result. -/
  | result (size : Size) (value : size.Value)
  | add (size : Size) (destination source : size.Value)
  | sub (size : Size) (destination source : size.Value)
  | compare (size : Size) (destination source : size.Value)
  | arithmeticShift (direction : Direction) (size : Size) (value : size.Value)
    (count : ShiftCount)
  | logicalShift (direction : Direction) (size : Size) (value : size.Value) (count : ShiftCount)
  | rotation (direction : Direction) (size : Size) (value : size.Value) (count : Nat)
    (pos : 0 < count)
  /-- The four flags but X. -/
  | codes (negative zero overflow carry : Bool)
  | onlyZero (flag : Bool)
  | all (ccr : Ccr)

namespace Update

/-! ## The deferred flags -/

/-- Records the update. The operands are sign-extended. -/
def record (flags : Flags) : Update → Flags
  | result _ value => flags.setResult (value.signExtend 32)
  | add _ destination source =>
    .ofAdd ((destination + source).signExtend 32) (destination.signExtend 32)
      (source.signExtend 32)
  | sub _ destination source =>
    .ofSub ((destination - source).signExtend 32) (destination.signExtend 32)
      (source.signExtend 32)
  | compare _ destination source =>
    flags.setCompare ((destination - source).signExtend 32) (destination.signExtend 32)
      (source.signExtend 32)
  | arithmeticShift .left size value count =>
    .ofShift .asl size.bits ((value <<< count.places).signExtend 32) (value.signExtend 32)
      (BitVec.ofNat 32 count.places)
  | arithmeticShift .right size value count =>
    .ofShift .asr size.bits ((value.sshiftRight count.places).signExtend 32)
      (value.signExtend 32) (BitVec.ofNat 32 count.places)
  | logicalShift .left size value count =>
    .ofShift .lsl size.bits ((value <<< count.places).signExtend 32) (value.signExtend 32)
      (BitVec.ofNat 32 count.places)
  | logicalShift .right size value count =>
    .ofShift .lsr size.bits ((value >>> count.places).signExtend 32) (value.signExtend 32)
      (BitVec.ofNat 32 count.places)
  | rotation .left _ value count _ =>
    flags.setRotateLeft ((value.rotateLeft count).signExtend 32)
  | rotation .right _ value count _ =>
    flags.setRotateRight ((value.rotateRight count).signExtend 32)
  | codes negative zero overflow carry => flags.setCodes negative zero overflow carry
  | onlyZero flag => flags.setZero flag
  | all ccr => .ofCcr ccr

/-- The deferred flags after updates from cleared ones. -/
def recordAll (updates : List Update) : Flags :=
  updates.foldl record {}

/-! ## The eager flags -/

/-- Computes the flags that the update changes. -/
def apply (before : Ccr) : Update → Ccr
  | result _ value =>
    { before with negative := value.msb, zero := value == 0, overflow := false, carry := false }
  | add size destination source =>
    let carry := unsignedOutOfRange size.bits (destination.toNat + source.toNat)
    { extend := carry
      negative := (destination + source).msb
      zero := destination + source == 0
      overflow := signedOutOfRange size.bits (destination.toInt + source.toInt)
      carry }
  | sub size destination source =>
    let carry := unsignedOutOfRange size.bits (destination.toNat - source.toNat)
    { extend := carry
      negative := (destination - source).msb
      zero := destination - source == 0
      overflow := signedOutOfRange size.bits (destination.toInt - source.toInt)
      carry }
  | compare size destination source =>
    { before with
      negative := (destination - source).msb
      zero := destination - source == 0
      overflow := signedOutOfRange size.bits (destination.toInt - source.toInt)
      carry := unsignedOutOfRange size.bits (destination.toNat - source.toNat) }
  | arithmeticShift direction _ value count =>
    (Shifter.serial .arithmetic direction value before.extend count.places).ccr
  | logicalShift direction _ value count =>
    (Shifter.serial .logical direction value before.extend count.places).ccr
  | rotation direction _ value count _ =>
    (Shifter.serial .rotate direction value before.extend count).ccr
  | codes negative zero overflow carry => { before with negative, zero, overflow, carry }
  | onlyZero flag => { before with zero := flag }
  | all ccr => ccr

/-- The eager flags after updates from cleared ones. -/
def applyAll (updates : List Update) : Ccr :=
  updates.foldl apply .clear

/-! ## Agreement -/

section Shifts

variable (flags : Flags) (size : Size) (value : size.Value)

theorem ccr_record_arithmeticShift (direction : Direction) (count : ShiftCount) :
    (record flags (arithmeticShift direction size value count)).ccr =
      apply flags.ccr (arithmeticShift direction size value count) := by
  obtain ⟨places, pos, lt⟩ := count
  obtain ⟨places, rfl⟩ := Nat.exists_eq_add_one_of_ne_zero (Nat.ne_of_gt pos)
  have hrecord := ShiftKind.ccr_record_arithmetic size.bits_pos size.bits_le direction value flags
    (Nat.lt_trans lt (by decide))
  cases direction <;> exact hrecord

theorem ccr_record_logicalShift (direction : Direction) (count : ShiftCount) :
    (record flags (logicalShift direction size value count)).ccr =
      apply flags.ccr (logicalShift direction size value count) := by
  obtain ⟨places, pos, lt⟩ := count
  obtain ⟨places, rfl⟩ := Nat.exists_eq_add_one_of_ne_zero (Nat.ne_of_gt pos)
  have hrecord := ShiftKind.ccr_record_logical size.bits_pos size.bits_le direction value flags
    (Nat.lt_trans lt (by decide))
  cases direction <;> exact hrecord

theorem ccr_record_rotation (direction : Direction) (count : Nat) (pos : 0 < count) :
    (record flags (rotation direction size value count pos)).ccr =
      apply flags.ccr (rotation direction size value count pos) := by
  obtain ⟨count, rfl⟩ := Nat.exists_eq_add_one_of_ne_zero (Nat.ne_of_gt pos)
  have hrecord : (ShiftKind.rotate.record direction value (count + 1) flags).ccr =
      (Shifter.serial .rotate direction value flags.extend (count + 1)).ccr :=
    ShiftKind.ccr_record_rotate size.bits_pos size.bits_le direction value flags
  cases direction <;> exact hrecord

end Shifts

/-- One update of the deferred flags is one of the eager flags. -/
theorem ccr_record (flags : Flags) (update : Update) :
    (record flags update).ccr = apply flags.ccr update := by
  cases update with
  | result size value => exact Flags.ccr_setResult size.bits_le flags value
  | add size destination source =>
    exact Flags.ccr_ofAdd size.bits_le destination source size.bits_pos
  | sub size destination source =>
    exact Flags.ccr_ofSub size.bits_le destination source size.bits_pos
  | compare size destination source =>
    exact Flags.ccr_setCompare size.bits_le destination source flags size.bits_pos
  | arithmeticShift direction size value count =>
    exact ccr_record_arithmeticShift flags size value direction count
  | logicalShift direction size value count =>
    exact ccr_record_logicalShift flags size value direction count
  | rotation direction size value count pos =>
    exact ccr_record_rotation flags size value direction count pos
  | codes negative zero overflow carry => exact Flags.ccr_setCodes flags ..
  | onlyZero flag => exact Flags.ccr_setZero flags flag
  | all ccr => exact Flags.ccr_ofCcr ccr

theorem ccr_foldl_record (flags : Flags) (updates : List Update) :
    (updates.foldl record flags).ccr = updates.foldl apply flags.ccr := by
  induction updates generalizing flags with
  | nil => rfl
  | cons update updates ih => rw [List.foldl_cons, List.foldl_cons, ih, ccr_record]

theorem ccr_recordAll (updates : List Update) : (recordAll updates).ccr = applyAll updates :=
  ccr_foldl_record {} updates

/-- At every point of a sequence of updates the deferred flags and all conditions on them are as
the eager flags have them. -/
theorem recordAll_refines_applyAll (updates : List Update) (count : Nat) :
    (recordAll (updates.take count)).ccr = applyAll (updates.take count) ∧
      ∀ condition, (recordAll (updates.take count)).holds condition =
        condition.eval (applyAll (updates.take count)) := by
  have hccr := ccr_recordAll (updates.take count)
  refine ⟨hccr, fun condition ↦ ?_⟩
  rw [Flags.holds_eq_eval, hccr]

end Update

end M68000
