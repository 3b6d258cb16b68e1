import M68000.Proofs.Run.Instruction

/-!
# Flags that steps leave alone

A step changes no flags but those in the scope of its instruction, whether it is done or ends in a
fault and whether or not it has entered an interrupt or an exception. X is in the scope of those
instructions alone that may change all flags, so it survives any number of steps without them. How
the flags were recorded makes no difference.
-/

namespace M68000

open Exec

variable {machine before next : Machine} {opcode : Opcode} {operation : Operation}

/-- The opcode with which a step begins is the one that it meets. -/
theorem exists_meets_of_run_beginStep (hbegin : beginStep.run machine = .ok opcode next)
    (hlookup : instructionSet.lookup opcode = some operation) :
    ∃ before, machine.Meets before opcode operation := by
  obtain ⟨_, _, hsync, hrun⟩ := run_bind_eq_ok.1 hbegin
  cases hsync
  obtain ⟨_, before, haccept, hfetch⟩ := run_bind_eq_ok.1 hrun
  obtain ⟨trace, hread, -⟩ := exists_of_run_fetchOpcode hfetch
  rw [Machine.programCode, busSupervisor_of_run_acceptInterrupt haccept] at hread
  exact ⟨before, haccept, hread, hlookup⟩

/-- What is known of the flags alone lasts if the changes of the flags keep it. -/
theorem lastingInSteps_of_flags {changes : Changes} (P : Flags → Prop)
    (h : ∀ f, changes.flags f → ∀ flags, P flags → P (f flags)) :
    LastingInSteps changes fun machine ↦ P machine.registers.flags where
  trace _ _ hflags := hflags
  values _ _ _ _ _ hflags := hflags
  write _ _ _ _ hflags := hflags
  flags f hf machine := h f hf machine.registers.flags
  setSupervisor machine supervisor hflags := by
    change P (machine.registers.setSupervisor supervisor).flags
    rw [Registers.flags_setSupervisor]
    exact hflags
  setStatusRegister hcodes machine value hflags := by
    change P (machine.registers.setStatusRegister value).flags
    rw [Registers.flags_setStatusRegister]
    exact h _ (hcodes _) machine.registers.flags hflags
  setUserStack _ machine value hflags := by
    unfold Registers.setUserStack
    split <;> exact hflags
  notes _ _ _ _ _ hflags := hflags
  setInterruptMask _ _ hflags := hflags

/-- One step. -/
theorem keeps_after_step (h : machine.Meets before opcode operation) :
    (operation.scope opcode).Keeps machine.registers.flags.ccr
      ((step handlers).after machine).registers.flags.ccr := by
  have lasting : LastingInSteps (.within (operation.scope opcode)) fun after ↦
      (operation.scope opcode).Keeps machine.registers.flags.ccr after.registers.flags.ccr :=
    lastingInSteps_of_flags (fun flags ↦ FlagScope.Keeps _ _ flags.ccr)
      fun _ hkeeps flags hflags ↦ hflags.trans (hkeeps flags)
  refine lasting.inv_after_step (FlagScope.keeps_refl _ _) fun found next hbegin ↦ ?_
  refine Lasting.maintains_perform fun other hlookup ↦ ?_
  obtain ⟨_, hmeets⟩ := exists_meets_of_run_beginStep hbegin hlookup
  obtain ⟨-, rfl, rfl⟩ := h.unique hmeets
  exact lasting.toLasting

/-- Steps that meet nothing with all flags in its scope leave X alone. -/
theorem extend_after_step
    (h : ∀ before opcode operation, machine.Meets before opcode operation →
      operation.scope opcode ≠ .all) :
    ((step handlers).after machine).registers.flags.extend = machine.registers.flags.extend := by
  have lasting (scope : FlagScope) (hscope : scope ≠ .all) : LastingInSteps (.within scope)
      fun after ↦ after.registers.flags.extend = machine.registers.flags.extend :=
    lastingInSteps_of_flags (fun flags ↦ flags.extend = _)
      fun _ hkeeps flags hflags ↦ ((hkeeps flags).extend hscope).trans hflags
  refine (lasting .codes nofun).inv_after_step rfl fun opcode next hbegin ↦ ?_
  refine Lasting.maintains_perform fun operation hlookup ↦ ?_
  obtain ⟨before, hmeets⟩ := exists_meets_of_run_beginStep hbegin hlookup
  exact (lasting _ (h before opcode operation hmeets)).toLasting

theorem extend_afterSteps {count : Nat}
    (h : ∀ k < count, ∀ before opcode operation,
      (machine.afterSteps k).Meets before opcode operation → operation.scope opcode ≠ .all) :
    (machine.afterSteps count).registers.flags.extend = machine.registers.flags.extend := by
  induction count with
  | zero => rfl
  | succ count ih =>
    calc ((step handlers).after (machine.afterSteps count)).registers.flags.extend
      _ = (machine.afterSteps count).registers.flags.extend :=
        extend_after_step (h count count.lt_succ_self)
      _ = machine.registers.flags.extend := ih fun k hk ↦ h k (Nat.lt_succ_of_lt hk)

/-- No step changes a flag outside the scope of its instruction, and no run without instructions
that may change all flags changes X. -/
theorem flags_confined_to_scope (machine : Machine) :
    (∀ before opcode operation, machine.Meets before opcode operation →
      (operation.scope opcode).Keeps machine.registers.flags.ccr
        ((step handlers).after machine).registers.flags.ccr) ∧
    ∀ count, (∀ k < count, ∀ before opcode operation,
      (machine.afterSteps k).Meets before opcode operation → operation.scope opcode ≠ .all) →
        (machine.afterSteps count).registers.flags.extend = machine.registers.flags.extend :=
  ⟨fun _ _ _ ↦ keeps_after_step, fun _ ↦ extend_afterSteps⟩

/-- Moves a constant and adds it to an address register, after a sum with a carry. -/
def carryingProgram : Machine where
  registers := { flags := .ofAdd 0 0xFFFFFFFF 1 }
  memory := .ram
    { size := 0x10
      written := .ofList [(0x00, (0x70 : Byte)), (0x01, 0x85), (0x02, 0xD1), (0x03, 0xC0)] }

/-- The constant decides N, the addition to the address register leaves it, and X stays as the sum
left it. -/
theorem flags_confined_to_scope_carryingProgram :
    ∃ middle final, (step handlers).run carryingProgram = .ok .next middle ∧
      (step handlers).run middle = .ok .next final ∧
      middle.registers.flags.negative = true ∧
      final.registers.flags.ccr = middle.registers.flags.ccr ∧
      final.registers.flags.extend = true := by
  have hmove : instructionSet.lookup 0x7085 = some .moveQuick := by
    rw [lookup_instructionSet]
    decide +kernel
  have hadd : instructionSet.lookup 0xD1C0 = some (.withAddress .add .long) := by
    rw [lookup_instructionSet]
    decide +kernel
  have hstart : carryingProgram.Meets carryingProgram 0x7085 .moveQuick := ⟨rfl, rfl, hmove⟩
  obtain ⟨middle, final, hfirst, hsecond, hmeets, hnegative⟩ : ∃ middle final,
      (step handlers).run carryingProgram = .ok .next middle ∧
        (step handlers).run middle = .ok .next final ∧
        middle.Meets middle 0xD1C0 (.withAddress .add .long) ∧
        middle.registers.flags.negative = true :=
    ⟨_, _, run_step_of_lookup hmove rfl rfl rfl, run_step_of_lookup hadd rfl rfl rfl,
      ⟨rfl, rfl, hadd⟩, rfl⟩
  have hmiddle : carryingProgram.afterSteps 1 = middle := after_of_run_eq_ok hfirst
  have hfinal : carryingProgram.afterSteps 2 = final := by
    rw [Machine.afterSteps, hmiddle]
    exact after_of_run_eq_ok hsecond
  have hkept : final.registers.flags.ccr = middle.registers.flags.ccr := by
    have hstep := (flags_confined_to_scope middle).1 _ _ _ hmeets
    rwa [after_of_run_eq_ok hsecond] at hstep
  have hscope : ∀ k < 2, ∀ before opcode operation,
      (carryingProgram.afterSteps k).Meets before opcode operation →
        operation.scope opcode ≠ .all :=
    hstart.of_two_steps hmiddle hmeets nofun nofun
  have hextend := (flags_confined_to_scope carryingProgram).2 2 hscope
  rw [hfinal] at hextend
  exact ⟨middle, final, hfirst, hsecond, hnegative, hkept, hextend.trans rfl⟩

end M68000
