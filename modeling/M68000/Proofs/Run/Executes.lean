import M68000.Proofs.Run.Permanent

/-!
# The instruction of a step

A step that is done has executed one opcode, the one at the program counter, after the interrupt
that was due if there was one.
-/

namespace M68000

open Exec

/-- The opcode is the one at the program counter before, and the machine after is what executing it
leaves behind, apart from a request for the end of the run. -/
structure Executes (opcode : Opcode) (before after : Machine) : Prop where
  fetched : before.memory.read ⟨before.registers.supervisor, true⟩ before.registers.pc .word =
    .ok opcode
  performed : ∃ trace performed exitRequest,
    (perform handlers opcode).run { before.syncPrivilege with opcode, trace } = .ok () performed ∧
      after = { performed with exitRequest }

variable {machine next final : Machine} {progress : Progress}

theorem exists_of_run_fetchOpcode {opcode : Opcode}
    (hrun : fetchOpcode.run machine = .ok opcode next) :
    ∃ trace, machine.memory.read machine.programCode machine.registers.pc .word = .ok opcode ∧
      next = { machine with opcode, trace } := by
  obtain ⟨_, _, hfetch, hrun⟩ := run_bind_eq_ok.1 hrun
  obtain ⟨_, _, hpc, hfetch⟩ := run_bind_eq_ok.1 hfetch
  cases hpc
  obtain ⟨trace, hread, rfl⟩ := exists_of_run_readAs hfetch
  cases hrun
  rw [BitVec.add_zero] at hread
  exact ⟨trace, hread, rfl⟩

/-- A step that is done has dealt with the interrupts and then executed one opcode. -/
theorem exists_of_run_step (hrun : (step handlers).run machine = .ok progress final) :
    ∃ next, acceptInterrupt.run machine.syncPrivilege = .ok () next ∧
      (next.busSupervisor = next.registers.supervisor → ∃ opcode, Executes opcode next final) := by
  rw [step_eq] at hrun
  obtain ⟨opcode, fetched, hbegin, hrun⟩ := run_bind_eq_ok.1 hrun
  obtain ⟨_, performed, hperform, hrun⟩ := run_bind_eq_ok.1 hrun
  obtain ⟨exitRequest, rfl⟩ := exists_of_run_takeExit hrun
  obtain ⟨_, _, hmodify, hbegin⟩ := run_bind_eq_ok.1 hbegin
  cases hmodify
  obtain ⟨_, next, haccept, hfetch⟩ := run_bind_eq_ok.1 hbegin
  refine ⟨next, haccept, fun hsync ↦ ?_⟩
  obtain ⟨trace, hread, rfl⟩ := exists_of_run_fetchOpcode hfetch
  have hsynced : next.syncPrivilege = next := by
    rw [Machine.syncPrivilege, ← hsync]
  rw [Machine.programCode, hsync] at hread
  refine ⟨opcode, hread, trace, performed, exitRequest, ?_, rfl⟩
  rw [hsynced]
  exact hperform

/-- No instruction changes the requests. -/
theorem permanent_interrupts (interrupts : Interrupts) : Permanent (·.interrupts = interrupts) where
  trace _ _ h := h
  registers _ _ _ _ _ h := h
  write _ _ _ _ h := h
  setSupervisor _ _ h := h
  setStatusRegister _ _ h := h
  setUserStack _ _ h := h

theorem Executes.interrupts {opcode : Opcode} (h : Executes opcode machine final) :
    final.interrupts = machine.interrupts := by
  obtain ⟨trace, performed, exitRequest, hperform, rfl⟩ := h.performed
  have hperformed := (permanent_interrupts machine.interrupts).maintains_perform opcode
    { machine.syncPrivilege with opcode, trace } rfl
  rw [after_of_run_eq_ok hperform] at hperformed
  exact hperformed

/-- Where no interrupt is due, a step executes the opcode at the program counter. -/
theorem exists_executes_of_run_step (hdue : machine.dueInterrupt? = none)
    (hrun : (step handlers).run machine = .ok progress final) :
    ∃ interrupts opcode, Executes opcode { machine with interrupts } final ∧
      (interrupts = machine.interrupts ∨ interrupts = machine.interrupts.refresh) := by
  obtain ⟨next, haccept, hexecutes⟩ := exists_of_run_step hrun
  have hsynced : machine.syncPrivilege.dueInterrupt? = none := hdue
  obtain ⟨interrupts, rfl, hinterrupts⟩ :=
    exists_of_run_acceptInterrupt_of_not_due hsynced haccept
  obtain ⟨opcode, hopcode⟩ := hexecutes rfl
  exact ⟨interrupts, opcode, ⟨hopcode.fetched, hopcode.performed⟩, hinterrupts⟩

/-- Without a request, a step leaves it at that. -/
theorem interrupts_of_run_step (hpending : machine.interrupts.pending = false)
    (hrun : (step handlers).run machine = .ok progress final) :
    final.interrupts = machine.interrupts := by
  obtain ⟨next, haccept, hexecutes⟩ := exists_of_run_step hrun
  have hsynced : machine.syncPrivilege.interrupts.pending = false := hpending
  rw [run_acceptInterrupt_of_not_pending hsynced] at haccept
  cases haccept
  obtain ⟨opcode, hopcode⟩ := hexecutes rfl
  exact hopcode.interrupts

/-! ## Steps in a row -/

theorem runFor_succ_of_run (hrun : (step handlers).run machine = .ok .next next) (limit : Nat) :
    runFor handlers (limit + 1) machine = runFor handlers limit next := by
  have hstep : step handlers machine = .ok .next next := hrun
  rw [runFor, hstep]

/-- A run that has reached its limit has gone on after its first step. -/
theorem exists_run_of_runFor_succ {limit : Nat}
    (hrun : runFor handlers (limit + 1) machine = (none, final)) :
    ∃ next, (step handlers).run machine = .ok .next next ∧
      runFor handlers limit next = (none, final) := by
  rw [runFor] at hrun
  cases hstep : step handlers machine with
  | error fault next =>
    rw [hstep] at hrun
    cases hrun
  | ok progress next =>
    rw [hstep] at hrun
    cases progress with
    | exit status => cases hrun
    | next => exact ⟨next, hstep, hrun⟩

end M68000
