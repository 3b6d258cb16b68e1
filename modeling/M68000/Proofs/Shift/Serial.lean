import M68000.Instruction.Shift
import Mathlib.Logic.Function.Iterate

/-!
# Shifting place by place

A shift by many places is a shift by one place, done many times. Each time a bit leaves the
operand at one end and another enters at the other end; the kinds of shifts differ in which bit
enters, and in whether X takes the bit that left. The closed forms by which operands are shifted
agree with this for every count, also beyond the width of the operand.
-/

namespace M68000

namespace Direction

/-- The bit that leaves an operand when it is moved by one place. -/
def leaving (direction : Direction) (value : BitVec n) : Bool :=
  match direction with
  | left => value.msb
  | right => value.getLsbD 0

/-- Moves an operand by one place and fills the place that becomes free. -/
def move (direction : Direction) (value : BitVec n) (entering : Bool) : BitVec n :=
  match direction with
  | left => value <<< 1 ||| (BitVec.ofBool entering).setWidth n
  | right => value >>> 1 ||| (BitVec.ofBool entering).setWidth n <<< (n - 1)

def rotate (direction : Direction) (value : BitVec n) (count : Nat) : BitVec n :=
  match direction with
  | left => value.rotateLeft count
  | right => value.rotateRight count

end Direction

/-- The bit that fills the free place. -/
def ShiftKind.entering (kind : ShiftKind) (direction : Direction) (value : BitVec n)
    (extend : Bool) : Bool :=
  match kind, direction with
  | arithmetic, .right => value.msb
  | arithmetic, .left | logical, _ => false
  | rotate, direction => direction.leaving value
  | rotateExtend, _ => extend

/-- An operand while it is shifted, with the flags that do not follow from it. -/
structure Shifter (n : Nat) where
  value : BitVec n
  extend : Bool
  /-- The bit that left the operand last. -/
  carry : Bool
  /-- The sign has changed on the way. -/
  overflow : Bool
  deriving DecidableEq

namespace Shifter

/-- Before the first place C is clear, except that a rotation through X starts with X in C. -/
def start (kind : ShiftKind) (value : BitVec n) (extend : Bool) : Shifter n where
  value
  extend
  carry := kind = .rotateExtend && extend
  overflow := false

/-- The shift by one place. -/
def step (kind : ShiftKind) (direction : Direction) (shifter : Shifter n) : Shifter n :=
  let leaving := direction.leaving shifter.value
  let moved := direction.move shifter.value (kind.entering direction shifter.value shifter.extend)
  { value := moved
    extend := if kind = .rotate then shifter.extend else leaving
    carry := leaving
    overflow := shifter.overflow ||
      (kind = .arithmetic && direction = .left && moved.msb != shifter.value.msb) }

/-- The shift by one place, done `count` times. -/
def serial (kind : ShiftKind) (direction : Direction) (value : BitVec n) (extend : Bool)
    (count : Nat) : Shifter n :=
  (step kind direction)^[count] (start kind value extend)

def ccr (shifter : Shifter n) : Ccr where
  extend := shifter.extend
  negative := shifter.value.msb
  zero := shifter.value == 0
  overflow := shifter.overflow
  carry := shifter.carry

theorem serial_succ (kind : ShiftKind) (direction : Direction) (value : BitVec n) (extend : Bool)
    (count : Nat) :
    serial kind direction value extend (count + 1) =
      step kind direction (serial kind direction value extend count) :=
  Function.iterate_succ_apply' ..

end Shifter

/-! ## Bits after a move by one place -/

namespace Direction

theorem getLsbD_move_left (value : BitVec n) (entering : Bool) {i : Nat} (hi : i < n) :
    (left.move value entering).getLsbD i = if i = 0 then entering else value.getLsbD (i - 1) := by
  cases i with
  | zero => simp [move, hi]
  | succ i =>
    have hlt : i < n := by omega
    simp [move, hi, BitVec.getLsbD_eq_getElem hlt]

theorem getLsbD_move_right (value : BitVec n) (entering : Bool) {i : Nat} (hi : i < n) :
    (right.move value entering).getLsbD i =
      if i + 1 = n then entering else value.getLsbD (i + 1) := by
  split
  next h =>
    obtain rfl : i = n - 1 := by omega
    have hn : 1 + (n - 1) = n := by omega
    simp [move, hi, hn]
  next h =>
    have hlt : i < n - 1 := by omega
    simp [move, hi, hlt, Nat.add_comm 1 i]

theorem move_left_false (value : BitVec n) : left.move value false = value <<< 1 := by
  simp [move]

theorem move_right_false (value : BitVec n) : right.move value false = value >>> 1 := by
  simp [move]

theorem move_right_msb (value : BitVec n) : right.move value value.msb = value.sshiftRight 1 := by
  apply BitVec.eq_of_getLsbD_eq
  intro i hi
  rw [getLsbD_move_right _ _ hi, BitVec.getLsbD_sshiftRight]
  by_cases h : i + 1 = n
  · have hge : ¬ 1 + i < n := by omega
    simp [h, hge, hi]
  · have hlt : i + 1 < n := by omega
    simp [h, hlt, hi, Nat.add_comm 1 i]

end Direction

/-! ## Rotations -/

section Rotation

theorem succ_mod_eq_ite (k : Nat) {n : Nat} (hn : 0 < n) :
    (k + 1) % n = if k % n + 1 = n then 0 else k % n + 1 := by
  have hk := Nat.mod_lt k hn
  rw [← Nat.mod_add_mod]
  split
  next h => rw [h, Nat.mod_self]
  next h => exact Nat.mod_eq_of_lt (by omega)

variable (value : BitVec n) (count : Nat) {i : Nat}

theorem getLsbD_rotateLeft_eq (hi : i < n) :
    (value.rotateLeft count).getLsbD i =
      value.getLsbD (if i < count % n then n - count % n + i else i - count % n) := by
  rw [BitVec.getLsbD_rotateLeft, Bool.cond_eq_ite]
  simp only [hi, decide_true, Bool.true_and, decide_eq_true_eq]
  split <;> rfl

theorem getLsbD_rotateRight_eq (hi : i < n) :
    (value.rotateRight count).getLsbD i =
      value.getLsbD (if i < n - count % n then count % n + i else i - (n - count % n)) := by
  rw [BitVec.getLsbD_rotateRight, Bool.cond_eq_ite]
  simp only [hi, decide_true, Bool.true_and, decide_eq_true_eq]
  split <;> rfl

theorem getLsbD_rotateLeft_succ (hi : i < n) :
    (value.rotateLeft (count + 1)).getLsbD i =
      (value.rotateLeft count).getLsbD (if i = 0 then n - 1 else i - 1) := by
  have hn : 0 < n := by omega
  have hlt := Nat.mod_lt count hn
  rw [getLsbD_rotateLeft_eq _ _ hi, getLsbD_rotateLeft_eq _ _ (by split <;> omega),
    succ_mod_eq_ite count hn]
  congr 1
  grind

theorem getLsbD_rotateRight_succ (hi : i < n) :
    (value.rotateRight (count + 1)).getLsbD i =
      (value.rotateRight count).getLsbD (if i + 1 = n then 0 else i + 1) := by
  have hn : 0 < n := by omega
  have hlt := Nat.mod_lt count hn
  rw [getLsbD_rotateRight_eq _ _ hi, getLsbD_rotateRight_eq _ _ (by split <;> omega),
    succ_mod_eq_ite count hn]
  congr 1
  grind

/-- A rotation goes on by moving the bit that leaves to the other end. -/
theorem Direction.move_leaving_rotate (direction : Direction) :
    direction.move (direction.rotate value count)
        (direction.leaving (direction.rotate value count)) =
      direction.rotate value (count + 1) := by
  apply BitVec.eq_of_getLsbD_eq
  intro i hi
  cases direction with
  | left =>
    rw [getLsbD_move_left _ _ hi, rotate, rotate, getLsbD_rotateLeft_succ _ _ hi, leaving,
      BitVec.msb_eq_getLsbD_last]
    split <;> rfl
  | right =>
    rw [getLsbD_move_right _ _ hi, rotate, rotate, getLsbD_rotateRight_succ _ _ hi, leaving]
    split <;> rfl

theorem Direction.rotate_zero (direction : Direction) : direction.rotate value 0 = value := by
  apply BitVec.eq_of_getLsbD_eq
  intro i hi
  cases direction with
  | left => rw [rotate, getLsbD_rotateLeft_eq _ _ hi, Nat.zero_mod, if_neg (by omega), Nat.sub_zero]
  | right =>
    rw [rotate, getLsbD_rotateRight_eq _ _ hi, Nat.zero_mod, Nat.sub_zero, if_pos hi, Nat.zero_add]

theorem Direction.rotate_mod (direction : Direction) :
    direction.rotate value (count % n) = direction.rotate value count := by
  cases direction <;> simp [rotate]

end Rotation

/-! ## Rotations through X -/

namespace Direction

variable (direction : Direction)

/-- A rotation through X of an operand is a rotation of the operand with X on top. -/
theorem cons_move (hn : 0 < n) (value : BitVec n) (extend : Bool) :
    BitVec.cons (direction.leaving value) (direction.move value extend) =
      direction.move (BitVec.cons extend value)
        (direction.leaving (BitVec.cons extend value)) := by
  apply BitVec.eq_of_getLsbD_eq
  intro i hi
  rw [BitVec.getLsbD_cons]
  cases direction with
  | left =>
    rw [getLsbD_move_left _ _ hi]
    by_cases hlast : i = n
    · have hne : n ≠ 0 := by omega
      have hlt : n - 1 ≠ n := by omega
      rw [if_pos hlast, hlast, if_neg hne, BitVec.getLsbD_cons, if_neg hlt]
      exact BitVec.msb_eq_getLsbD_last _
    · have hlt : i - 1 ≠ n := by omega
      rw [if_neg hlast, getLsbD_move_left _ _ (by omega), BitVec.getLsbD_cons, if_neg hlt, leaving,
        BitVec.msb_cons]
  | right =>
    have hne : 0 ≠ n := by omega
    rw [getLsbD_move_right _ _ hi, leaving, leaving, BitVec.getLsbD_cons, if_neg hne]
    by_cases hlast : i = n
    · rw [if_pos hlast, if_pos (by omega)]
    · rw [if_neg hlast, if_neg (by omega), getLsbD_move_right _ _ (by omega),
        BitVec.getLsbD_cons]

end Direction

namespace ShiftKind

variable (direction : Direction) (value : BitVec n) (extend : Bool) (count : Nat)

theorem rotateExtendOnce_eq :
    rotateExtendOnce direction value extend =
      (direction.move value extend, direction.leaving value) := by
  cases direction <;> rfl

theorem rotateExtendBy_succ :
    rotateExtendBy direction value extend (count + 1) =
      rotateExtendOnce direction (rotateExtendBy direction value extend count).1
        (rotateExtendBy direction value extend count).2 := by
  induction count generalizing value extend with
  | zero => rfl
  | succ count ih =>
    rw [rotateExtendBy]
    exact ih ..

theorem cons_rotateExtendBy (hn : 0 < n) :
    BitVec.cons (rotateExtendBy direction value extend count).2
        (rotateExtendBy direction value extend count).1 =
      direction.rotate (BitVec.cons extend value) count := by
  induction count with
  | zero => exact (Direction.rotate_zero _ _).symm
  | succ count ih =>
    rw [rotateExtendBy_succ, rotateExtendOnce_eq, direction.cons_move hn, ih,
      Direction.move_leaving_rotate]

/-- A rotation through X comes round after one place more than the operand has. -/
theorem rotateExtendBy_mod (hn : 0 < n) :
    rotateExtendBy direction value extend (count % (n + 1)) =
      rotateExtendBy direction value extend count := by
  have h := cons_rotateExtendBy direction value extend (count % (n + 1)) hn
  rw [Direction.rotate_mod, ← cons_rotateExtendBy _ _ _ _ hn] at h
  have hextend := congrArg BitVec.msb h
  have hvalue := congrArg (BitVec.setWidth n) h
  rw [BitVec.msb_cons, BitVec.msb_cons] at hextend
  rw [BitVec.setWidth_cons, BitVec.setWidth_cons] at hvalue
  exact Prod.ext hvalue hextend

/-! ## Shifts by one place more -/

theorem result_rotate :
    rotate.result direction value extend count = direction.rotate value count := by
  cases direction <;> rfl

theorem result_zero (kind : ShiftKind) : kind.result direction value extend 0 = value := by
  cases kind with
  | arithmetic | logical => cases direction <;> simp [result]
  | rotate => rw [result_rotate, Direction.rotate_zero]
  | rotateExtend => rfl

/-- A shift by one place more moves the operand once more. -/
theorem result_succ {kind : ShiftKind} (hkind : kind ≠ rotateExtend) (bit : Bool) :
    kind.result direction value extend (count + 1) =
      let shifted := kind.result direction value extend count
      direction.move shifted (kind.entering direction shifted bit) := by
  cases kind with
  | arithmetic =>
    cases direction with
    | left => exact (BitVec.shiftLeft_add ..).trans (Direction.move_left_false _).symm
    | right => exact (BitVec.sshiftRight_add ..).trans (Direction.move_right_msb _).symm
  | logical =>
    cases direction with
    | left => exact (BitVec.shiftLeft_add ..).trans (Direction.move_left_false _).symm
    | right => exact (BitVec.shiftRight_add ..).trans (Direction.move_right_false _).symm
  | rotate =>
    rw [result_rotate, result_rotate]
    exact (direction.move_leaving_rotate _ _).symm
  | rotateExtend => exact absurd rfl hkind

end ShiftKind

/-! ## Closed forms -/

namespace Shifter

variable (direction : Direction) (value : BitVec n) (extend : Bool) (count : Nat)

/-- A rotation through X has X in C at every place. -/
theorem serial_rotateExtend :
    serial .rotateExtend direction value extend count =
      let (value, extend) := ShiftKind.rotateExtendBy direction value extend count
      { value, extend, carry := extend, overflow := false } := by
  induction count with
  | zero => rfl
  | succ count ih =>
    rw [serial_succ, ih, ShiftKind.rotateExtendBy_succ, ShiftKind.rotateExtendOnce_eq]
    rfl

/-- The operand after `count` places is the one that is shifted by `count`. -/
theorem serial_value (kind : ShiftKind) (hn : 0 < n) :
    (serial kind direction value extend count).value =
      kind.result direction value extend count := by
  by_cases hkind : kind = .rotateExtend
  · rw [hkind, serial_rotateExtend, ShiftKind.result, ShiftKind.rotateExtendBy_mod _ _ _ _ hn]
  · induction count with
    | zero => exact (ShiftKind.result_zero ..).symm
    | succ count ih =>
      rw [serial_succ, step, ih, ShiftKind.result_succ _ _ _ _ hkind]

/-- Rotations leave X alone. -/
theorem serial_rotate_extend :
    (serial .rotate direction value extend count).extend = extend := by
  induction count with
  | zero => rfl
  | succ count ih => rw [serial_succ, step, if_pos rfl, ih]

/-- The other shifts give X the bit that left last. -/
theorem serial_succ_extend {kind : ShiftKind} (hkind : kind ≠ .rotate) :
    (serial kind direction value extend (count + 1)).extend =
      (serial kind direction value extend (count + 1)).carry := by
  rw [serial_succ, step, if_neg hkind]

theorem serial_succ_carry (kind : ShiftKind) (hn : 0 < n) :
    (serial kind direction value extend (count + 1)).carry =
      direction.leaving (kind.result direction value extend count) := by
  rw [serial_succ, step, serial_value _ _ _ _ _ hn]

/-- Only an arithmetic shift to the left sets V. -/
theorem serial_overflow_eq_false {kind : ShiftKind} {direction : Direction}
    (h : kind = .arithmetic → direction = .right) :
    (serial kind direction value extend count).overflow = false := by
  induction count with
  | zero => rfl
  | succ count ih =>
    rw [serial_succ, step, ih]
    cases kind <;> cases direction <;> simp_all

/-- V stays clear as long as the bits that come to the sign position are as the sign was. -/
theorem serial_overflow_eq_false_iff (hn : 0 < n) :
    (serial .arithmetic .left value extend count).overflow = false ↔
      ∀ i ≤ count, value.getMsbD i = value.msb := by
  induction count with
  | zero => simp [serial, start, BitVec.msb]
  | succ count ih =>
    have hvalue := serial_value .left value extend count .arithmetic hn
    rw [ShiftKind.result] at hvalue
    have hmoved : Direction.left.move (value <<< count) false = value <<< (count + 1) := by
      rw [Direction.move_left_false, BitVec.shiftLeft_add]
    rw [serial_succ, step, hvalue, ShiftKind.entering, hmoved, BitVec.msb_shiftLeft,
      BitVec.msb_shiftLeft]
    simp only [decide_true, Bool.true_and, Bool.or_eq_false_iff, bne_eq_false_iff_eq, ih]
    constructor
    · rintro ⟨hbefore, hlast⟩ i hi
      rcases Nat.lt_or_eq_of_le hi with hlt | rfl
      · exact hbefore i (Nat.le_of_lt_succ hlt)
      · exact hlast.trans (hbefore count (Nat.le_refl count))
    · intro hall
      have hbefore := fun i (hi : i ≤ count) ↦ hall i (Nat.le_succ_of_le hi)
      exact ⟨hbefore, (hall _ (Nat.le_refl _)).trans (hbefore count (Nat.le_refl count)).symm⟩

/-! ## What the flags say -/

section Rules

variable (kind : ShiftKind)

end Rules

end Shifter

end M68000
