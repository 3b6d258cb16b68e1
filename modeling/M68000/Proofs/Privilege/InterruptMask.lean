import M68000.Proofs.Run.Permanent

/-!
# The range of the interrupt mask

The mask is kept in a byte, but it is below eight after a reset, and whatever a step does, in any
state and whether it is done or ends in a fault, it stays below eight. So the mask fits into the
three bits that the status register has for it.
-/

namespace M68000

namespace Machine

/-- The mask is one of eight levels. -/
def MaskInRange (machine : Machine) : Prop :=
  machine.registers.interruptMask.toNat < 8

instance (machine : Machine) : Decidable machine.MaskInRange :=
  inferInstanceAs (Decidable (_ < 8))

theorem stable_maskInRange : StableInSteps MaskInRange where
  trace _ _ h := h
  registers _ _ _ _ _ h := h
  notes _ _ _ _ h := h
  write _ _ _ _ h := h

end Machine

open Machine Exec

theorem permanent_maskInRange : Permanent MaskInRange where
  toStable := stable_maskInRange.toStable
  setSupervisor machine supervisor h := by
    change (machine.registers.setSupervisor supervisor).interruptMask.toNat < 8
    rw [Registers.interruptMask_setSupervisor]
    exact h
  setStatusRegister machine value _ := machine.registers.interruptMask_setStatusRegister_lt value
  setUserStack machine value h := by
    unfold MaskInRange Registers.setUserStack
    split <;> exact h

/-! ## Steps -/

theorem lastingInSteps_maskInRange : LastingInSteps (.within .none) MaskInRange where
  toLasting := permanent_maskInRange.lasting _
  notes _ _ _ _ _ h := h
  setInterruptMask machine level _ := machine.registers.interruptMask_setInterruptMask_lt level

theorem maintains_step : Maintains MaskInRange (step handlers) :=
  fun _ hinv ↦ lastingInSteps_maskInRange.inv_after_step hinv fun opcode _ _ ↦
    permanent_maskInRange.maintains_perform opcode

end M68000
