import M68000.Proofs.Memory.Protected
import M68000.Proofs.Privilege.InterruptMask

/-!
# Confinement of user programs

While no exception is entered, a program in user state changes neither the privilege state, nor
the supervisor stack pointer, nor the interrupt mask, nor a byte of a supervisor area, whether
its instructions are done or end in a fault. The only way out of user state is an exception,
which keeps the stack pointer of the user and goes on where the vector says.
-/

namespace M68000

namespace Machine

variable {start machine : Machine}

/-- What a program in user state may not change is as it was at the start. -/
structure Confined (start machine : Machine) : Prop where
  supervisor : machine.registers.supervisor = false
  supervisorSlot : machine.registers.supervisorSlot = start.registers.supervisorSlot
  interruptMask : machine.registers.interruptMask = start.registers.interruptMask
  memory : SameProtected start.memory.rams machine.memory.rams

/-- A confined machine that announces its accesses as those of a user. -/
structure ConfinedOnBus (start machine : Machine) : Prop extends Confined start machine where
  busSupervisor : machine.busSupervisor = false

theorem Confined.refl (huser : start.registers.supervisor = false) : start.Confined start :=
  ⟨huser, rfl, rfl, .refl _⟩

theorem Confined.syncPrivilege (h : start.Confined machine) :
    start.ConfinedOnBus machine.syncPrivilege :=
  ⟨⟨h.supervisor, h.supervisorSlot, h.interruptMask, h.memory⟩, h.supervisor⟩

theorem stable_confinedOnBus (start : Machine) : StableInSteps start.ConfinedOnBus where
  trace _ _ h := ⟨⟨h.supervisor, h.supervisorSlot, h.interruptMask, h.memory⟩, h.busSupervisor⟩
  registers _ _ _ _ _ h :=
    ⟨⟨h.supervisor, h.supervisorSlot, h.interruptMask, h.memory⟩, h.busSupervisor⟩
  notes _ _ _ _ h :=
    ⟨⟨h.supervisor, h.supervisorSlot, h.interruptMask, h.memory⟩, h.busSupervisor⟩
  write machine size address value h := by
    have hcode : machine.dataCode.supervisor = false := h.busSupervisor
    have hwrite := Space.sameProtected_write hcode address machine.memory size value
    exact ⟨⟨h.supervisor, h.supervisorSlot, h.interruptMask, h.memory.trans hwrite⟩,
      h.busSupervisor⟩

/-- No exception is entered in the next step. -/
def Unexceptional (machine : Machine) : Prop :=
  machine.dueInterrupt? = none ∧ machine.raised? = none

/-- One step keeps a machine confined, also if it ends in a fault. -/
theorem Confined.after_step (h : start.Confined machine) (hquiet : machine.Unexceptional) :
    start.Confined ((step handlers).after machine) :=
  (start.stable_confinedOnBus.inv_after_step hquiet.1 h.syncPrivilege
    (fun _ hconfined ↦ hconfined.supervisor) hquiet.2).toConfined

theorem Confined.afterSteps (huser : start.registers.supervisor = false) (count : Nat)
    (hquiet : ∀ earlier < count, (start.afterSteps earlier).Unexceptional) :
    start.Confined (start.afterSteps count) := by
  induction count with
  | zero => exact .refl huser
  | succ count ih =>
    have hprevious := ih fun earlier hlt ↦ hquiet earlier (Nat.lt_succ_of_lt hlt)
    exact hprevious.after_step (hquiet count (Nat.lt_succ_self count))

theorem Confined.supervisorStack (huser : start.registers.supervisor = false)
    (h : start.Confined machine) :
    machine.registers.supervisorStack = start.registers.supervisorStack := by
  simp [Registers.supervisorStack, h.supervisor, huser, h.supervisorSlot]

end Machine

/-! ## User state -/

open Exec Machine

/-- A user program keeps the privilege state, the supervisor stack pointer, the interrupt mask
and the supervisor areas for as long as no exception is entered, and an exception that an
instruction of its enters leaves a frame that goes back to user state and keeps the stack pointer
of the user, after the step of the operand. -/
theorem user_state_confined (start : Machine) (huser : start.registers.supervisor = false) :
    (∀ count, (∀ earlier < count, (start.afterSteps earlier).Unexceptional) →
      let final := start.afterSteps count
      final.registers.supervisor = false ∧
        final.registers.supervisorStack = start.registers.supervisorStack ∧
        final.registers.interruptMask = start.registers.interruptMask ∧
        SameProtected start.memory.rams final.memory.rams) ∧
    (∀ trap progress final, start.MaskInRange →
      start.dueInterrupt? = none → start.raised? = some trap →
      (step handlers).run start = .ok progress final →
      let top := start.registers.supervisorStack - 6
      final.registers.supervisor = true ∧ final.registers.getA stackPointer = top ∧
        (∃ status : BitVec 16, final.memory.read .supervisorData top .word = .ok status ∧
          status.getLsbD 13 = false) ∧
        final.registers.userStack = trap.registers.getA stackPointer ∧
        final.memory.read .supervisorData (trap.vector.setWidth 32 * 4) .long =
          .ok final.registers.pc) := by
  refine ⟨fun count hquiet ↦ ?_, fun trap progress final hmask hdue hraised hrun ↦ ?_⟩
  · have hconfined := Confined.afterSteps huser count hquiet
    exact ⟨hconfined.supervisor, hconfined.supervisorStack huser, hconfined.interruptMask,
      hconfined.memory⟩
  · obtain ⟨before, entered, exitRequest, hbefore, hregisters, henters, rfl⟩ :=
      start.stable_confinedOnBus.exists_entersException_of_raised? hdue
        (Confined.refl huser).syncPrivilege hraised hrun
    have hstack := hbefore.supervisorStack huser
    have htop := henters.getA_stackPointer
    have hstatus := henters.read_status .supervisorData
    rw [hstack] at htop
    rw [htop] at hstatus
    refine ⟨henters.supervisor, htop, ⟨_, hstatus, ?_⟩, ?_, henters.handler⟩
    · rw [Registers.supervisor_of_statusRegister, hbefore.supervisor]
      rw [hbefore.interruptMask]
      exact hmask
    · rw [← hregisters, before.registers.getA_stackPointer, hbefore.supervisor]
      exact henters.userStack

theorem user_state_confined_userProgram :
    (userProgram 0x4E71).Unexceptional ∧
      ((userProgram 0x4E71).afterSteps 1).registers.supervisor = false ∧
      ∃ final, (step handlers).run (userProgram 0x4E40) = .ok .next final ∧
        final.registers.supervisor = true ∧ final.registers.getA stackPointer = 0x1FA ∧
        final.registers.userStack = 0x2000 ∧
        final.memory.read .supervisorData 0x80 .long = .ok final.registers.pc := by
  have hnop : beginStep.run (userProgram 0x4E71) =
      .ok 0x4E71 { userProgram 0x4E71 with busSupervisor := false, opcode := 0x4E71 } :=
    rfl
  have htrap : beginStep.run (userProgram 0x4E40) =
      .ok 0x4E40 { userProgram 0x4E40 with busSupervisor := false, opcode := 0x4E40 } :=
    rfl
  have hlookup : instructionSet.lookup 0x4E71 = some .noOperation ∧
      instructionSet.lookup 0x4E40 = some .trap := by
    rw [lookup_instructionSet, lookup_instructionSet]
    decide +kernel
  have hquiet : (userProgram 0x4E71).Unexceptional := by
    refine ⟨rfl, ?_⟩
    rw [raised?_eq_trap? hnop hlookup.1]
    rfl
  have hraised : (userProgram 0x4E40).raised? =
      some ⟨32, 0x402, (userProgram 0x4E40).registers⟩ := by
    rw [raised?_eq_trap? htrap hlookup.2]
    rfl
  have hrun : ∃ final, (step handlers).run (userProgram 0x4E40) = .ok .next final := by
    rw [step_eq, EStateM.run_bind, htrap]
    simp only [perform_of_lookup hlookup.2]
    exact ⟨_, rfl⟩
  obtain ⟨final, hrun⟩ := hrun
  have hconfined := (user_state_confined (userProgram 0x4E71) rfl).1 1 fun earlier hlt ↦ by
    obtain rfl : earlier = 0 := Nat.lt_one_iff.1 hlt
    exact hquiet
  have hleft := (user_state_confined (userProgram 0x4E40) rfl).2 _ _ final (by decide) rfl
    hraised hrun
  exact ⟨hquiet, hconfined.1, final, hrun, hleft.1, hleft.2.1, hleft.2.2.2.1, hleft.2.2.2.2⟩

end M68000
