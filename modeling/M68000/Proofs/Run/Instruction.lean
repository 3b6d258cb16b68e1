import M68000.Proofs.Run.Fetch

/-!
# The next instruction

Every step deals with the interrupts first and executes the operation of one opcode then. What the
operation sees differs from the machine in between in notes only, and a step that is done leaves
behind what the operation has.
-/

namespace M68000

open Exec

/-- The interrupts are dealt with, after which the machine is `before`, and what comes next is the
operation of the opcode. -/
structure Machine.Meets (machine before : Machine) (opcode : Opcode) (operation : Operation) :
    Prop where
  accepted : acceptInterrupt.run machine.syncPrivilege = .ok () before
  fetched : before.memory.read ⟨before.registers.supervisor, true⟩ before.registers.pc .word =
    .ok opcode
  lookup : instructionSet.lookup opcode = some operation

variable {machine before final : Machine} {progress : Progress}

/-- Accesses after the interrupts are announced with the privilege state of the status register. -/
theorem busSupervisor_of_run_acceptInterrupt
    (hrun : acceptInterrupt.run machine.syncPrivilege = .ok () before) :
    before.busSupervisor = before.registers.supervisor := by
  obtain ⟨interrupts, rfl⟩ | ⟨level, vector, entered, henters, rfl⟩ :=
    cases_of_run_acceptInterrupt hrun
  · rfl
  · exact henters.busSupervisor.trans henters.supervisor.symm

/-- A step that is done has executed an operation. -/
theorem exists_meets_of_run_step (hrun : (step handlers).run machine = .ok progress final) :
    ∃ before opcode operation trace performed exitRequest,
      machine.Meets before opcode operation ∧
      (operation.execute opcode).run { before with opcode, trace } = .ok () performed ∧
      final = { performed with exitRequest } := by
  obtain ⟨before, haccept, hexecutes⟩ := exists_of_run_step hrun
  have hsync := busSupervisor_of_run_acceptInterrupt haccept
  have hsynced : before.syncPrivilege = before := by
    rw [Machine.syncPrivilege, ← hsync]
  obtain ⟨opcode, hfetched, trace, performed, exitRequest, hperform, rfl⟩ := hexecutes hsync
  rw [hsynced] at hperform
  cases hlookup : instructionSet.lookup opcode with
  | none =>
    rw [perform_of_lookup_eq_none hlookup] at hperform
    cases hperform
  | some operation =>
    rw [perform_of_lookup hlookup] at hperform
    exact ⟨before, opcode, operation, trace, performed, exitRequest, ⟨haccept, hfetched, hlookup⟩,
      hperform, rfl⟩

/-- A machine meets one operation only. -/
theorem Machine.Meets.unique {before' : Machine} {opcode opcode' : Opcode}
    {operation operation' : Operation} (h : machine.Meets before opcode operation)
    (h' : machine.Meets before' opcode' operation') :
    before' = before ∧ opcode' = opcode ∧ operation' = operation := by
  obtain ⟨-, rfl⟩ := EStateM.Result.ok.inj (h'.accepted.symm.trans h.accepted)
  obtain rfl := Except.ok.inj (h'.fetched.symm.trans h.fetched)
  exact ⟨rfl, rfl, Option.some.inj (h'.lookup.symm.trans h.lookup)⟩

/-- Two steps meet nothing but the operations that their machines meet. -/
theorem Machine.Meets.of_two_steps {next before' : Machine} {opcode opcode' : Opcode}
    {operation operation' : Operation} {P : Machine → Opcode → Operation → Prop}
    (h : machine.Meets before opcode operation) (hstep : machine.afterSteps 1 = next)
    (h' : next.Meets before' opcode' operation') (hfirst : P before opcode operation)
    (hsecond : P before' opcode' operation') :
    ∀ count < 2, ∀ before opcode operation,
      (machine.afterSteps count).Meets before opcode operation → P before opcode operation := by
  intro count hlt other found performed hmeets
  obtain rfl | rfl : count = 0 ∨ count = 1 := by omega
  · obtain ⟨rfl, rfl, rfl⟩ := h.unique hmeets
    exact hfirst
  · rw [hstep] at hmeets
    obtain ⟨rfl, rfl, rfl⟩ := h'.unique hmeets
    exact hsecond

/-- A step begins with the opcode that it met. -/
theorem Machine.Meets.exists_run_beginStep {opcode : Opcode} {operation : Operation}
    (h : machine.Meets before opcode operation) :
    ∃ trace, beginStep.run machine = .ok opcode { before with opcode, trace } := by
  have hread : before.memory.read before.programCode before.registers.pc .word = .ok opcode := by
    rw [Machine.programCode, busSupervisor_of_run_acceptInterrupt h.accepted]
    exact h.fetched
  obtain ⟨trace, hfetch⟩ := run_fetchOpcode_of_read hread
  exact ⟨trace, run_bind_eq_ok.2 ⟨(), _, EStateM.run_modify _ _,
    run_bind_eq_ok.2 ⟨(), before, h.accepted, hfetch⟩⟩⟩

/-- A step is the operation that it met, with the end of the run after it. -/
theorem Machine.Meets.exists_run_step_eq {opcode : Opcode} {operation : Operation}
    (h : machine.Meets before opcode operation) :
    ∃ trace, (step handlers).run machine = (do
      operation.execute opcode
      takeExit).run { before with opcode, trace } := by
  obtain ⟨trace, hbegin⟩ := h.exists_run_beginStep
  refine ⟨trace, ?_⟩
  rw [step_eq, EStateM.run_bind, hbegin]
  simp only [perform_of_lookup h.lookup]

/-- A step that is done has executed the operation that it met. -/
theorem Machine.Meets.exists_of_run_step {opcode : Opcode} {operation : Operation}
    (h : machine.Meets before opcode operation)
    (hrun : (step handlers).run machine = .ok progress final) :
    ∃ trace performed exitRequest,
      (operation.execute opcode).run { before with opcode, trace } = .ok () performed ∧
        final = { performed with exitRequest } := by
  obtain ⟨trace, hstep⟩ := h.exists_run_step_eq
  rw [hstep] at hrun
  obtain ⟨_, performed, hexecute, hexit⟩ := run_bind_eq_ok.1 hrun
  obtain ⟨exitRequest, rfl⟩ := exists_of_run_takeExit hexit
  exact ⟨trace, performed, exitRequest, hexecute, rfl⟩

/-- An operation that is done makes a step that is done. -/
theorem Machine.Meets.exists_run_step {opcode : Opcode} {operation : Operation}
    (h : machine.Meets before opcode operation) :
    ∃ trace, ∀ performed,
      (operation.execute opcode).run { before with opcode, trace } = .ok () performed →
        ∃ progress exitRequest,
          (step handlers).run machine = .ok progress { performed with exitRequest } := by
  obtain ⟨trace, hstep⟩ := h.exists_run_step_eq
  refine ⟨trace, fun performed hrun ↦ ?_⟩
  obtain ⟨progress, exitRequest, hexit⟩ := exists_run_takeExit performed
  exact ⟨progress, exitRequest, hstep.trans (run_bind_eq_ok.2 ⟨(), performed, hrun, hexit⟩)⟩

end M68000
