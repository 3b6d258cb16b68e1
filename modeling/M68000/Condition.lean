import M68000.Flags

/-!
# Conditions

The sixteen conditions that a conditional instruction names in bits 8 to 11 of its opcode. A
condition asks the deferred flags only for what it needs, and answers as its formula over the
condition code register does.
-/

namespace M68000

inductive Condition where
  | always
  | never
  | higher
  | lowerOrSame
  | carryClear
  | carrySet
  | notEqual
  | equal
  | overflowClear
  | overflowSet
  | plus
  | minus
  | greaterOrEqual
  | less
  | greater
  | lessOrEqual
  deriving DecidableEq

namespace Condition

/-- The conditions in the order of their numbers. -/
def all : Vector Condition 16 :=
  #v[always, never, higher, lowerOrSame, carryClear, carrySet, notEqual, equal, overflowClear,
    overflowSet, plus, minus, greaterOrEqual, less, greater, lessOrEqual]

def ofNumber (number : BitVec 4) : Condition :=
  all[number.toFin]

/-- The condition named by an opcode. -/
def ofOpcode (opcode : BitVec 16) : Condition :=
  ofNumber (opcode.extractLsb' 8 4)

/-- The condition as a formula over five given flags. -/
def eval (ccr : Ccr) : Condition → Bool
  | always => true
  | never => false
  | higher => !ccr.carry && !ccr.zero
  | lowerOrSame => ccr.carry || ccr.zero
  | carryClear => !ccr.carry
  | carrySet => ccr.carry
  | notEqual => !ccr.zero
  | equal => ccr.zero
  | overflowClear => !ccr.overflow
  | overflowSet => ccr.overflow
  | plus => !ccr.negative
  | minus => ccr.negative
  | greaterOrEqual => ccr.negative == ccr.overflow
  | less => ccr.negative != ccr.overflow
  | greater => !ccr.zero && ccr.negative == ccr.overflow
  | lessOrEqual => ccr.zero || ccr.negative != ccr.overflow

end Condition

/-- Whether a condition holds, computed from the records it depends on. -/
def Flags.holds (flags : Flags) : Condition → Bool
  | .always => true
  | .never => false
  | .higher => !(flags.carry || flags.zero)
  | .lowerOrSame => flags.carry || flags.zero
  | .carryClear => !flags.carry
  | .carrySet => flags.carry
  | .notEqual => !flags.zero
  | .equal => flags.zero
  | .overflowClear => !flags.overflow
  | .overflowSet => flags.overflow
  | .plus => !flags.negative
  | .minus => flags.negative
  | .greaterOrEqual => !(flags.negative != flags.overflow)
  | .less => flags.negative != flags.overflow
  | .greater => !(flags.zero || flags.negative != flags.overflow)
  | .lessOrEqual => flags.zero || flags.negative != flags.overflow

theorem Flags.holds_eq_eval (flags : Flags) (condition : Condition) :
    flags.holds condition = condition.eval flags.ccr := by
  cases condition <;> simp [holds, Condition.eval, ccr, bne]

end M68000
