import M68000.Operation

/-!
# Which flags an instruction may change

A scope is a set of flags to which the changes of an instruction are confined. Scopes are about the
flags as they read, so it makes no difference to them how flags have been recorded: an instruction
that changes a single flag records all of them anew.
-/

namespace M68000

inductive FlagScope where
  | none
  /-- Only N. -/
  | negative
  /-- Only Z. -/
  | zero
  /-- All flags but X. -/
  | codes
  | all
  deriving DecidableEq

namespace FlagScope

/-- The flags outside the scope read as before. -/
def Keeps (scope : FlagScope) (before after : Ccr) : Prop :=
  match scope with
  | none => after = before
  | negative => after = { before with negative := after.negative }
  | zero => after = { before with zero := after.zero }
  | codes => after.extend = before.extend
  | all => True

variable {scope : FlagScope} {before middle after : Ccr}

theorem keeps_refl (scope : FlagScope) (ccr : Ccr) : scope.Keeps ccr ccr := by
  cases scope with
  | all => trivial
  | _ => rfl

theorem Keeps.trans (hfirst : scope.Keeps before middle) (hrest : scope.Keeps middle after) :
    scope.Keeps before after := by
  cases scope with
  | none => exact Eq.trans hrest hfirst
  | negative =>
    rw [Keeps] at hfirst hrest ⊢
    rw [hrest, hfirst]
  | zero =>
    rw [Keeps] at hfirst hrest ⊢
    rw [hrest, hfirst]
  | codes => exact Eq.trans hrest hfirst
  | all => trivial

/-- X is in no scope but that of all flags. -/
theorem Keeps.extend (h : scope.Keeps before after) (hscope : scope ≠ all) :
    after.extend = before.extend := by
  cases scope with
  | all => exact absurd rfl hscope
  | codes => exact h
  | _ =>
    rw [Keeps] at h
    rw [h]

/-! ## Records -/

theorem keeps_record (flags : Flags) (record : Deferred) :
    codes.Keeps flags.ccr (flags.record record).ccr :=
  rfl

theorem keeps_setZero (flags : Flags) (flag : Bool) :
    zero.Keeps flags.ccr (flags.setZero flag).ccr := by
  rw [Flags.ccr_setZero]
  rfl

theorem keeps_setCcr_negative (flags : Flags) (flag : Bool) :
    negative.Keeps flags.ccr (Flags.ofCcr { flags.ccr with negative := flag }).ccr := by
  rw [Flags.ccr_ofCcr]
  rfl

end FlagScope

/-! ## Operations -/

def Binary.scope : Binary → FlagScope
  | add | sub => .all
  | and | or | eor | cmp => .codes

theorem Binary.keeps_record (operation : Binary) (destination source : BitVec n) (flags : Flags) :
    operation.scope.Keeps flags.ccr (operation.record destination source flags).ccr := by
  cases operation with
  | add | sub => trivial
  | and | or | eor | cmp => exact FlagScope.keeps_record flags _

def AddressOperation.scope : AddressOperation → FlagScope
  | add | sub => .none
  | cmp => .codes

def Unary.scope : Unary → FlagScope
  | neg | negx => .all
  | clr | not | tst => .codes

theorem Unary.keeps_record (operation : Unary) (value : BitVec n) (flags : Flags) :
    operation.scope.Keeps flags.ccr (operation.record value flags).ccr := by
  cases operation with
  | neg | negx => trivial
  | clr | not | tst => exact FlagScope.keeps_record flags _

def ShiftKind.scope : ShiftKind → FlagScope
  | arithmetic | logical | rotateExtend => .all
  | rotate => .codes

theorem ShiftKind.keeps_record (kind : ShiftKind) (direction : Direction) (value : BitVec n)
    (count : Nat) (flags : Flags) :
    kind.scope.Keeps flags.ccr (kind.record direction value count flags).ccr := by
  cases kind with
  | arithmetic | logical | rotateExtend => trivial
  | rotate =>
    by_cases hcount : count = 0
    · rw [record, if_neg nofun, if_pos hcount]
      exact FlagScope.keeps_record flags _
    · rw [record, if_neg nofun, if_neg hcount]
      cases direction <;> exact FlagScope.keeps_record flags _

namespace Operation

/-- The flags that an instruction may change. ADDQ and SUBQ change none if their operand is an
address register. -/
def scope (operation : Operation) (opcode : Opcode) : FlagScope :=
  match operation with
  | moveAddress _ | storeMultiple _ | loadMultiple _ | loadAddress | pushAddress | exchange _
  | link | unlink | setConditionally | branch | branchToSubroutine | decrementAndBranch | jump
  | jumpToSubroutine | returnFromSubroutine | noOperation | trap | trapOnOverflow
  | moveFromStatus | moveUserStack _ | resetDevices => .none
  | checkBounds => .negative
  | bit _ _ => .zero
  | move _ | moveQuick | swapWords | extendSign _ | testAndSet | compareMemory _ | multiply _
  | divide _ => .codes
  | toRegister operation _ | fromRegister operation _ | withImmediate operation _ =>
    operation.scope
  | quick operation _ =>
    match Mode.ofField? opcode.operandField with
    | some (.addressRegister _) => .none
    | _ => operation.scope
  | withAddress operation _ => operation.scope
  | unary operation _ => operation.scope
  | shiftRegister kind _ _ _ | shiftMemory kind _ => kind.scope
  | chainedBinary _ _ _ | chainedDecimal _ _ | negateDecimal | returnAndRestore | logicalToCcr _
  | logicalToStatus _ | moveToCcr | moveToStatus | returnFromException => .all

end Operation

end M68000
