import M68000.Memory.Access
import M68000.Opcode

/-!
# Faults

A fault stops the program, because nothing in it can deal with one: an access that no memory
answered, an opcode without a meaning, or one reserved to the supervisor. Traps and interrupts,
which the program handles itself, are no faults.
-/

namespace M68000

inductive Fault where
  | bus (error : BusError)
  | illegalInstruction (opcode : Opcode) (pc : Address)
  | privilegeViolation (opcode : Opcode) (pc : Address)
  deriving DecidableEq

namespace Fault

def message : Fault → String
  | bus error => error.message
  | illegalInstruction opcode pc =>
    s!"illegal instruction {hexadecimal 4 opcode.toNat} at {hexadecimal 6 pc.toNat}"
  | privilegeViolation opcode pc =>
    s!"privilege violation by {hexadecimal 4 opcode.toNat} at {hexadecimal 6 pc.toNat}"

/-- The number of the processor's exception vector for the fault. -/
def vector : Fault → Byte
  | bus _ => 2
  | illegalInstruction .. => 4
  | privilegeViolation .. => 8

/-- The exit status of a program that stops with the fault. -/
def exitStatus (fault : Fault) : BitVec 32 :=
  128 + fault.vector.setWidth 32

end Fault

end M68000
