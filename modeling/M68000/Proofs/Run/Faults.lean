import M68000.Proofs.Exec.Precise
import M68000.Proofs.Run.Fetch

/-!
# Faults of steps

A step faults while it enters the interrupt that is due, while it fetches the opcode, or in the
instruction. Whichever it is, the program counter then is where the step fetched its opcode, or
tried to. Only an opcode that is not installed is illegal, and neither that nor an opcode reserved
to the supervisor has changed anything.
-/

namespace M68000

open Exec

/-! ## The parts of a step -/

variable {machine next fetched final : Machine} {opcode : Opcode} {fault : Fault}

theorem steady_fetchOpcode : Steady fetchOpcode := by
  refine steady_bind (steady_fetchWord 0) fun opcode ↦ ?_
  exact steady_bind (steady_modify fun _ ↦ rfl) fun _ ↦ steady_pure opcode

theorem infallible_takeExit : Infallible takeExit := by
  intro machine
  obtain ⟨progress, exitRequest, htake⟩ := exists_run_takeExit machine
  exact ⟨progress, _, htake⟩

/-- The opcode is fetched once the interrupts have been dealt with. -/
theorem run_beginStep_eq_ok :
    beginStep.run machine = .ok opcode fetched ↔
      ∃ next, acceptInterrupt.run machine.syncPrivilege = .ok () next ∧
        fetchOpcode.run next = .ok opcode fetched := by
  rw [beginStep, EStateM.run_bind, EStateM.run_modify]
  dsimp only
  rw [run_bind_eq_ok]
  constructor
  · rintro ⟨_, next, haccept, hfetch⟩
    exact ⟨next, haccept, hfetch⟩
  · rintro ⟨next, haccept, hfetch⟩
    exact ⟨(), next, haccept, hfetch⟩

theorem run_beginStep_eq_error :
    beginStep.run machine = .error fault final ↔
      acceptInterrupt.run machine.syncPrivilege = .error fault final ∨
        ∃ next, acceptInterrupt.run machine.syncPrivilege = .ok () next ∧
          fetchOpcode.run next = .error fault final := by
  rw [beginStep, EStateM.run_bind, EStateM.run_modify]
  dsimp only
  rw [run_bind_eq_error]
  refine or_congr_right ?_
  constructor
  · rintro ⟨_, next, haccept, hfetch⟩
    exact ⟨next, haccept, hfetch⟩
  · rintro ⟨next, haccept, hfetch⟩
    exact ⟨(), next, haccept, hfetch⟩

/-- A step faults before its instruction or in it, and not after it. -/
theorem run_step_eq_error {table : Table Handler} :
    (step table).run machine = .error fault final ↔
      beginStep.run machine = .error fault final ∨
        ∃ opcode fetched, beginStep.run machine = .ok opcode fetched ∧
          (perform table opcode).run fetched = .error fault final := by
  rw [step_eq, run_bind_eq_error]
  refine or_congr_right (exists_congr fun opcode ↦ exists_congr fun fetched ↦ ?_)
  refine and_congr_right fun _ ↦ ?_
  rw [run_bind_eq_error, or_iff_left]
  rintro ⟨_, performed, -, hexit⟩
  exact infallible_takeExit.run_ne_error performed fault final hexit

/-- An interrupt that cannot be entered ends the step. -/
theorem run_step_of_run_acceptInterrupt (table : Table Handler)
    (haccept : acceptInterrupt.run machine.syncPrivilege = .error fault final) :
    (step table).run machine = .error fault final :=
  run_step_eq_error.2 (.inl (run_beginStep_eq_error.2 (.inl haccept)))

/-! ## Legal opcodes -/

theorem exists_operation_of_lookup {handler : Handler}
    (hlookup : handlers.lookup opcode = some handler) :
    ∃ operation, instructionSet.lookup opcode = some operation ∧ operation.execute = handler := by
  rw [lookup_handlers] at hlookup
  exact Option.map_eq_some_iff.1 hlookup

theorem isInstalled_handlers (opcode : Opcode) :
    handlers.isInstalled opcode = (instructionSet.lookup opcode).isSome := by
  rw [Table.isInstalled, lookup_handlers, Option.isSome_map]

/-- The instruction at an opcode is illegal if it is not installed, or reserved to the supervisor,
and then it has done nothing, or an access was refused. -/
theorem fault_of_run_perform (hfetch : fetchOpcode.run next = .ok opcode fetched)
    (hrun : (perform handlers opcode).run fetched = .error fault final) :
    ((handlers.isInstalled opcode = false ∧
        fault = .illegalInstruction opcode next.registers.pc ∨
      fault = .privilegeViolation opcode next.registers.pc) ∧ final = fetched) ∨
    (∃ refusal, fault = .bus refusal) ∧ final.registers.pc = next.registers.pc := by
  obtain ⟨trace, -, rfl⟩ := exists_of_run_fetchOpcode hfetch
  cases hlookup : instructionSet.lookup opcode with
  | none =>
    rw [perform_of_lookup_eq_none hlookup, run_illegal] at hrun
    cases hrun
    refine .inl ⟨.inl ⟨?_, rfl⟩, rfl⟩
    rw [isInstalled_handlers, hlookup]
    rfl
  | some operation =>
    rw [perform_of_lookup hlookup] at hrun
    have hlegal := Operation.legal_of_lookup hlookup
    obtain ⟨hfault, hfinal⟩ | hbus := Operation.faultsPrecisely_execute hlegal _ fault final hrun
    · exact .inl ⟨.inr hfault, hfinal⟩
    · exact .inr hbus

theorem fault_of_run_beginStep (hrun : beginStep.run machine = .error fault final) :
    ∃ refusal, fault = .bus refusal := by
  obtain hrun | ⟨next, -, hrun⟩ := run_beginStep_eq_error.1 hrun
  · exact (faultsInPlace_acceptInterrupt _ fault final hrun).1
  · exact (steady_fetchOpcode.faultsInPlace next fault final hrun).1

/-- No handler ever finds its opcode illegal, whatever the machine holds, and a step ends with an
illegal instruction exactly when it has fetched an opcode that is not installed. -/
theorem illegal_iff_not_installed :
    (∀ opcode handler, handlers.lookup opcode = some handler → ∀ start code pc final,
      (handler opcode).run start ≠ .error (.illegalInstruction code pc) final) ∧
    ∀ machine,
      (∃ code pc final, (step handlers).run machine = .error (.illegalInstruction code pc) final) ↔
        ∃ opcode fetched, beginStep.run machine = .ok opcode fetched ∧
          handlers.isInstalled opcode = false := by
  constructor
  · intro opcode handler hlookup start code pc final hrun
    obtain ⟨operation, hoperation, rfl⟩ := exists_operation_of_lookup hlookup
    have hlegal := Operation.legal_of_lookup hoperation
    obtain ⟨hfault, -⟩ | ⟨⟨refusal, hfault⟩, -⟩ :=
      Operation.faultsPrecisely_execute hlegal start _ final hrun
    · cases hfault
    · cases hfault
  · intro machine
    constructor
    · rintro ⟨code, pc, final, hrun⟩
      obtain hbegin | ⟨opcode, fetched, hbegin, hperform⟩ := run_step_eq_error.1 hrun
      · obtain ⟨refusal, hfault⟩ := fault_of_run_beginStep hbegin
        cases hfault
      · obtain ⟨next, -, hfetch⟩ := run_beginStep_eq_ok.1 hbegin
        obtain ⟨⟨hinstalled, -⟩ | hfault, -⟩ | ⟨⟨refusal, hfault⟩, -⟩ :=
          fault_of_run_perform hfetch hperform
        · exact ⟨opcode, fetched, hbegin, hinstalled⟩
        · cases hfault
        · cases hfault
    · rintro ⟨opcode, fetched, hbegin, hinstalled⟩
      rw [isInstalled_handlers, Option.isSome_eq_false_iff, Option.isNone_iff_eq_none] at hinstalled
      have hperform : (perform handlers opcode).run fetched =
          .error (.illegalInstruction fetched.opcode fetched.registers.pc) fetched := by
        rw [perform_of_lookup_eq_none hinstalled, run_illegal]
      exact ⟨_, _, fetched, run_step_eq_error.2 (.inr ⟨opcode, fetched, hbegin, hperform⟩)⟩

theorem lookup_handlers_resetDevices :
    handlers.lookup 0x4E70 = some (Operation.execute .resetDevices) := by
  have hlookup : instructionSet.lookup 0x4E70 = some .resetDevices := by
    rw [lookup_instructionSet]
    decide +kernel
  rw [lookup_handlers, hlookup]
  rfl

/-- An opcode that the processor has a name for can stay illegal all the same, and one that is
reserved to the supervisor is not illegal for it. -/
theorem illegal_iff_not_installed_userProgram :
    (∃ code pc final, (step handlers).run (userProgram 0x4AFC) =
      .error (.illegalInstruction code pc) final) ∧
    ∀ start code pc final, (Operation.execute .resetDevices 0x4E70).run start ≠
      .error (.illegalInstruction code pc) final := by
  obtain ⟨hhandlers, hstep⟩ := illegal_iff_not_installed
  have hinstalled : handlers.isInstalled 0x4AFC = false := by
    rw [isInstalled_handlers, lookup_instructionSet]
    decide +kernel
  exact ⟨(hstep _).2 ⟨0x4AFC, _, rfl, hinstalled⟩, hhandlers _ _ lookup_handlers_resetDevices⟩

/-! ## Precise faults -/

section Accepted

variable (haccept : acceptInterrupt.run machine.syncPrivilege = .ok () next)

include haccept

/-- Without an interrupt the opcode is where the program was. -/
theorem pc_of_run_acceptInterrupt (hdue : machine.dueInterrupt? = none) :
    next.registers.pc = machine.registers.pc := by
  have hsynced : machine.syncPrivilege.dueInterrupt? = none := hdue
  obtain ⟨interrupts, rfl, -⟩ := exists_of_run_acceptInterrupt_of_not_due hsynced haccept
  rfl

/-- After an interrupt has been accepted, the opcode is where its handler begins. -/
theorem read_handler_of_run_acceptInterrupt {level : InterruptLevel} {vector : Byte}
    (hdue : machine.dueInterrupt? = some (level, vector)) :
    next.memory.read .supervisorData (vector.setWidth 32 * 4) .long = .ok next.registers.pc := by
  have hsynced : machine.syncPrivilege.dueInterrupt? = some (level, vector) := hdue
  obtain ⟨entered, hentered, rfl⟩ := exists_of_run_acceptInterrupt hsynced haccept
  exact hentered.handler

end Accepted

/-- Only the entry of an interrupt that is due can fail before the opcode is fetched. -/
theorem exists_due_of_run_acceptInterrupt
    (haccept : acceptInterrupt.run machine.syncPrivilege = .error fault final) :
    ∃ level vector, machine.dueInterrupt? = some (level, vector) := by
  cases hdue : machine.dueInterrupt? with
  | some request => exact ⟨request.1, request.2, rfl⟩
  | none =>
    have hsynced : machine.syncPrivilege.dueInterrupt? = none := hdue
    obtain ⟨interrupts, haccept', -⟩ := run_acceptInterrupt_of_not_due hsynced
    rw [haccept] at haccept'
    cases haccept'

/-- What a program can see of the machine is as it was, and so are the requests for interrupts. -/
structure Machine.Untouched (before after : Machine) : Prop where
  registers : after.registers = before.registers
  memory : after.memory = before.memory
  requests : after.interrupts.requests = before.interrupts.requests
  /-- The flag for requests is as it was if it was up to date. -/
  pending : before.interrupts.refresh = before.interrupts → after.interrupts = before.interrupts

theorem Machine.Fetched.untouched (h : machine.Fetched opcode fetched) :
    machine.Untouched fetched := by
  obtain ⟨interrupts, trace, hinterrupts, rfl⟩ := h
  obtain rfl | rfl := hinterrupts
  · exact ⟨rfl, rfl, rfl, fun _ ↦ rfl⟩
  · exact ⟨rfl, rfl, rfl, id⟩

/-- A fault leaves the program counter at the address from which the step fetched its opcode, or
tried to: where the program was, also if an interrupt could not be entered, or where the handler of
an interrupt begins. An illegal instruction and a privilege violation name that opcode and its
address, and without an interrupt nothing is changed. -/
theorem faults_precise (hrun : (step handlers).run machine = .error fault final) :
    (acceptInterrupt.run machine.syncPrivilege = .error fault final ∧
      (∃ level vector, machine.dueInterrupt? = some (level, vector)) ∧
      (∃ refusal, fault = .bus refusal) ∧ final.registers.pc = machine.registers.pc) ∨
    ∃ next, acceptInterrupt.run machine.syncPrivilege = .ok () next ∧
      final.registers.pc = next.registers.pc ∧
      (machine.dueInterrupt? = none → next.registers.pc = machine.registers.pc) ∧
      (∀ level vector, machine.dueInterrupt? = some (level, vector) →
        next.memory.read .supervisorData (vector.setWidth 32 * 4) .long =
          .ok next.registers.pc) ∧
      ∀ opcode pc, fault = .illegalInstruction opcode pc ∨ fault = .privilegeViolation opcode pc →
        next.memory.read next.programCode next.registers.pc .word = .ok opcode ∧
          pc = next.registers.pc ∧ (machine.dueInterrupt? = none → machine.Untouched final) := by
  obtain hbegin | ⟨opcode, fetched, hbegin, hperform⟩ := run_step_eq_error.1 hrun
  · obtain haccept | ⟨next, haccept, hfetch⟩ := run_beginStep_eq_error.1 hbegin
    · exact .inl ⟨haccept, exists_due_of_run_acceptInterrupt haccept,
        faultsInPlace_acceptInterrupt machine.syncPrivilege fault final haccept⟩
    · obtain ⟨⟨refusal, rfl⟩, hpc⟩ := steady_fetchOpcode.faultsInPlace next fault final hfetch
      refine .inr ⟨next, haccept, hpc, pc_of_run_acceptInterrupt haccept,
        fun level vector ↦ read_handler_of_run_acceptInterrupt haccept, ?_⟩
      rintro opcode pc (hfault | hfault)
      · cases hfault
      · cases hfault
  · obtain ⟨next, haccept, hfetch⟩ := run_beginStep_eq_ok.1 hbegin
    obtain ⟨trace, hread, -⟩ := exists_of_run_fetchOpcode hfetch
    refine .inr ⟨next, haccept, ?pc, pc_of_run_acceptInterrupt haccept,
      fun level vector ↦ read_handler_of_run_acceptInterrupt haccept, ?named⟩
    case pc =>
      obtain ⟨-, rfl⟩ | ⟨-, hpc⟩ := fault_of_run_perform hfetch hperform
      · exact steady_fetchOpcode.pc next opcode _ hfetch
      · exact hpc
    case named =>
      -- Both faults name what the fetch has read, and they come before anything is done.
      intro code pc hnamed
      obtain ⟨hfault, rfl⟩ | ⟨⟨refusal, rfl⟩, -⟩ := fault_of_run_perform hfetch hperform
      · have hsame : code = opcode ∧ pc = next.registers.pc := by
          obtain ⟨-, rfl⟩ | rfl := hfault
          · obtain hnamed | hnamed := hnamed
            · cases hnamed
              exact ⟨rfl, rfl⟩
            · cases hnamed
          · obtain hnamed | hnamed := hnamed
            · cases hnamed
            · cases hnamed
              exact ⟨rfl, rfl⟩
        obtain ⟨rfl, rfl⟩ := hsame
        exact ⟨hread, rfl, fun hdue ↦ (fetched_of_run_beginStep hdue hbegin).untouched⟩
      · obtain hnamed | hnamed := hnamed
        · cases hnamed
        · cases hnamed

/-- The user asks for a reset of the devices, and nothing happens. -/
theorem faults_precise_userProgram :
    ∃ final, (step handlers).run (userProgram 0x4E70) =
        .error (.privilegeViolation 0x4E70 0x400) final ∧
      (userProgram 0x4E70).Untouched final := by
  have hdue : (userProgram 0x4E70).dueInterrupt? = none := rfl
  obtain ⟨fetched, ⟨interrupts, trace, -, rfl⟩, hrun⟩ :=
    exists_run_step_of_lookup hdue rfl lookup_handlers_resetDevices
  have hfault : (step handlers).run (userProgram 0x4E70) =
      .error (.privilegeViolation 0x4E70 0x400) _ := hrun
  obtain ⟨haccept, -⟩ | ⟨next, haccept, -, -, -, hnamed⟩ := faults_precise hfault
  · cases haccept
  · exact ⟨_, hfault, (hnamed _ _ (.inr rfl)).2.2 rfl⟩

end M68000
