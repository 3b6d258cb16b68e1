import M68000.Proofs.Run.Executes

/-!
# The opcode of a step

Where no interrupt is due, a step fetches the opcode at the program counter and has then changed
nothing that a program can see. What follows is what a table holds for the opcode.
-/

namespace M68000

open Exec

/-- The machine with its opcode fetched, where no interrupt was due: accesses are announced with the
privilege state of the status register, and the flag for requests may have been brought up to
date. -/
def Machine.Fetched (machine : Machine) (opcode : Opcode) (fetched : Machine) : Prop :=
  ∃ interrupts trace,
    (interrupts = machine.interrupts ∨ interrupts = machine.interrupts.refresh) ∧
      fetched = { machine.syncPrivilege with opcode, interrupts, trace }

variable {machine fetched : Machine} {opcode : Opcode}

theorem Machine.Fetched.registers (h : machine.Fetched opcode fetched) :
    fetched.registers = machine.registers := by
  obtain ⟨interrupts, trace, -, rfl⟩ := h
  rfl

theorem Machine.Fetched.memory (h : machine.Fetched opcode fetched) :
    fetched.memory = machine.memory := by
  obtain ⟨interrupts, trace, -, rfl⟩ := h
  rfl

theorem run_fetchOpcode_of_read
    (hread : machine.memory.read machine.programCode machine.registers.pc .word = .ok opcode) :
    ∃ trace, fetchOpcode.run machine = .ok opcode { machine with opcode, trace } := by
  have hfetch : (fetchWord 0).run machine =
      (readAs machine.programCode .word machine.registers.pc).run machine := by
    rw [← BitVec.add_zero machine.registers.pc]
    rfl
  rw [run_readAs, hread] at hfetch
  rw [fetchOpcode, EStateM.run_bind, hfetch]
  exact ⟨_, rfl⟩

variable (hdue : machine.dueInterrupt? = none)

include hdue

/-- Without an interrupt that is due, what a step has done before its instruction is the fetch. -/
theorem fetched_of_run_beginStep (hrun : beginStep.run machine = .ok opcode fetched) :
    machine.Fetched opcode fetched := by
  have hsynced : machine.syncPrivilege.dueInterrupt? = none := hdue
  obtain ⟨interrupts, haccept, hinterrupts⟩ := run_acceptInterrupt_of_not_due hsynced
  rw [beginStep, EStateM.run_bind, EStateM.run_modify] at hrun
  simp only [EStateM.run_bind, haccept] at hrun
  obtain ⟨trace, -, rfl⟩ := exists_of_run_fetchOpcode hrun
  exact ⟨interrupts, trace, hinterrupts, rfl⟩

variable
  (hread : machine.memory.read ⟨machine.registers.supervisor, true⟩ machine.registers.pc .word =
    .ok opcode)

include hread

theorem exists_run_beginStep_of_read :
    ∃ fetched, beginStep.run machine = .ok opcode fetched ∧ machine.Fetched opcode fetched := by
  obtain ⟨interrupts, hbegin⟩ := run_beginStep_of_not_due hdue
  have hsynced : ({ machine.syncPrivilege with interrupts } : Machine).memory.read
      ({ machine.syncPrivilege with interrupts } : Machine).programCode machine.registers.pc .word =
        .ok opcode := hread
  obtain ⟨trace, hfetch⟩ := run_fetchOpcode_of_read hsynced
  have hrun := hbegin.trans hfetch
  exact ⟨_, hrun, fetched_of_run_beginStep hdue hrun⟩

/-- A step executes the handler that the table holds. -/
theorem exists_run_step_of_lookup {table : Table Handler} {handler : Handler}
    (hlookup : table.lookup opcode = some handler) :
    ∃ fetched, machine.Fetched opcode fetched ∧ (step table).run machine = (do
      handler opcode
      takeExit).run fetched := by
  obtain ⟨fetched, hbegin, hfetched⟩ := exists_run_beginStep_of_read hdue hread
  refine ⟨fetched, hfetched, ?_⟩
  rw [step_eq, EStateM.run_bind, hbegin]
  simp only [perform, hlookup]

/-- Where the table holds nothing the opcode is illegal. -/
theorem exists_run_step_of_not_installed {table : Table Handler}
    (hinstalled : table.isInstalled opcode = false) :
    ∃ fetched, machine.Fetched opcode fetched ∧ (step table).run machine =
      .error (.illegalInstruction opcode machine.registers.pc) fetched := by
  have hlookup : table.lookup opcode = none :=
    Option.isNone_iff_eq_none.1 (Option.isSome_eq_false_iff.1 hinstalled)
  obtain ⟨fetched, hbegin, interrupts, trace, hinterrupts, rfl⟩ :=
    exists_run_beginStep_of_read hdue hread
  refine ⟨_, ⟨interrupts, trace, hinterrupts, rfl⟩, ?_⟩
  rw [step_eq, EStateM.run_bind, hbegin]
  simp only [perform, hlookup, EStateM.run_bind, run_illegal]
  rfl

end M68000
