import M68000.Proofs.Bus.Execute
import M68000.Proofs.Run.Faults

/-!
# The accesses of steps

A step makes the accesses that enter an interrupt, if one is due, then fetches the opcode, and then
makes the accesses of the instruction. Which these are is known beforehand, and each of them is
announced as its purpose demands, whatever the machine announced its accesses with before the step.
-/

namespace M68000

open Exec

/-! ## The parts of a step -/

variable {machine next fetched final : Machine} {opcode : Opcode} {operation : Operation}

theorem issues_fetchOpcode : fetchOpcode.Issues [.instruction .word 0] (some 0) machine := by
  refine (issues_fetchWord 0).before fun opcode _ _ ↦ ?_
  exact (issues_modify_of_pc id rfl rfl).after fun _ _ _ ↦ issues_pure opcode

theorem issues_takeExit : takeExit.Issues [] (some 0) machine := by
  refine issues_get.after fun machine _ _ ↦ ?_
  cases machine.exitRequest with
  | some status => exact (issues_modify_of_pc id rfl rfl).after fun _ _ _ ↦ issues_pure _
  | none => exact issues_pure _

/-- An instruction with its opcode. -/
theorem issues_instruction (hfetch : fetchOpcode.run next = .ok opcode fetched)
    (hlookup : instructionSet.lookup opcode = some operation) :
    (do
      let opcode ← fetchOpcode
      perform handlers opcode
      takeExit).Issues (.instruction .word 0 :: operation.purposes opcode fetched)
        (operation.advance? opcode fetched) next := by
  refine issues_fetchOpcode.bind fun opcode' fetched' hfetch' ↦ ?_
  rw [hfetch] at hfetch'
  cases hfetch'
  rw [perform_of_lookup hlookup]
  exact (operation.issues_execute opcode fetched).settle fun _ _ _ ↦ issues_takeExit

/-- The accesses after the fetch of the opcode. -/
def Machine.instructionPurposes (machine : Machine) : List Purpose :=
  match fetchOpcode.run machine with
  | .ok opcode fetched => (instructionSet.lookup opcode).elim [] (·.purposes opcode fetched)
  | .error .. => []

theorem issues_instructionPurposes :
    (do
      let opcode ← fetchOpcode
      perform handlers opcode
      takeExit).Issues (.instruction .word 0 :: next.instructionPurposes) none next := by
  cases hfetch : fetchOpcode.run next with
  | ok opcode fetched =>
    cases hlookup : instructionSet.lookup opcode with
    | some operation =>
      have hpurposes : next.instructionPurposes = operation.purposes opcode fetched := by
        simp only [Machine.instructionPurposes, hfetch, hlookup]
        rfl
      rw [hpurposes]
      exact (issues_instruction hfetch hlookup).forget
    | none =>
      refine issues_fetchOpcode.bind fun opcode' fetched' hfetch' ↦ ?_
      rw [hfetch] at hfetch'
      cases hfetch'
      rw [perform_of_lookup_eq_none hlookup]
      exact (issues_illegal _ (some 0)).before fun _ _ hrun ↦ by cases hrun
  | error fault final =>
    refine issues_fetchOpcode.bind fun opcode' fetched' hfetch' ↦ ?_
    rw [hfetch] at hfetch'
    cases hfetch'

/-- The accesses of a step: the entry of an interrupt that is due, the opcode and the rest of the
instruction. -/
def Machine.stepPurposes (machine : Machine) : List Purpose :=
  (if machine.dueInterrupt?.isSome then Purpose.exceptionEntry else []) ++
    .instruction .word 0 :: (acceptInterrupt.after machine.syncPrivilege).instructionPurposes

theorem run_step_of_accepted (haccept : acceptInterrupt.run machine.syncPrivilege = .ok () next) :
    (step handlers).run machine = (do
      let opcode ← fetchOpcode
      perform handlers opcode
      takeExit).run next := by
  rw [step_eq, beginStep, bind_assoc, EStateM.run_bind, EStateM.run_modify]
  dsimp only
  rw [bind_assoc, EStateM.run_bind, haccept]

theorem isFetch_of_mem_entry (due : Bool) : ∀ purpose ∈
    (if due then Purpose.exceptionEntry else []), purpose.isFetch = false := by
  cases due <;> decide

/-- A step makes its accesses in their order, and all of them unless it faults. -/
theorem exists_saw_step (machine : Machine) :
    ∃ purposes, purposes <+: machine.stepPurposes ∧
      (∀ progress final, (step handlers).run machine = .ok progress final →
        purposes = machine.stepPurposes) ∧
      machine.syncPrivilege.Saw (acceptInterrupt.after machine.syncPrivilege).registers.pc purposes
        ((step handlers).after machine) := by
  have hsynced : machine.syncPrivilege.Synced := rfl
  have hdue : machine.syncPrivilege.dueInterrupt? = machine.dueInterrupt? := rfl
  have hissues : acceptInterrupt.Issues
      (if machine.dueInterrupt?.isSome then Purpose.exceptionEntry else []) none
        machine.syncPrivilege := by
    rw [← hdue]
    exact issues_acceptInterrupt
  have hno := isFetch_of_mem_entry machine.dueInterrupt?.isSome
  cases haccept : acceptInterrupt.run machine.syncPrivilege with
  | error fault final =>
    have hrun := run_step_of_run_acceptInterrupt handlers haccept
    obtain ⟨made, hmade, hsaw⟩ := hissues.fault fault final hsynced haccept
    refine ⟨made, hmade.trans (List.prefix_append _ _), fun progress final hdone ↦ ?_, ?_⟩
    · rw [hrun] at hdone
      cases hdone
    · rw [after_of_run_eq_error hrun]
      exact hsaw.rebase (fun purpose hpurpose ↦ hno purpose (hmade.subset hpurpose)) _
  | ok _ next =>
    have hrun := run_step_of_accepted haccept
    obtain ⟨hsaw, -⟩ := hissues.done () next hsynced haccept
    have hentered := hsaw.rebase hno next.registers.pc
    rw [Machine.stepPurposes, after_of_run_eq_ok haccept]
    cases hstep : (step handlers).run machine with
    | ok progress final =>
      rw [after_of_run_eq_ok hstep]
      obtain ⟨hrest, -⟩ := issues_instructionPurposes.done progress final hsaw.synced
        (hrun.symm.trans hstep)
      exact ⟨_, List.prefix_refl _, fun _ _ _ ↦ rfl, hentered.append hrest⟩
    | error fault final =>
      rw [after_of_run_eq_error hstep]
      obtain ⟨made, hmade, hrest⟩ :=
        issues_instructionPurposes.fault fault final hsaw.synced (hrun.symm.trans hstep)
      refine ⟨_, (List.prefix_append_right_inj _).2 hmade, fun _ _ hdone ↦ ?_,
        hentered.append hrest⟩
      cases hdone

/-! ## Function codes -/

/-- Every access of a step is announced with the privilege state of the status register at that
time, with a program code exactly if it fetches the opcode, an extension word or an immediate value
or reads an operand relative to the program counter, and in supervisor state if it enters an
exception. A step that does not fault makes all the accesses that are known beforehand, and one that
does makes the first of them. In the end accesses are announced with the privilege state of the
status register. -/
theorem accesses_announced (machine : Machine) (before : List BusAccess)
    (htrace : machine.trace = some before) :
    let pc := (acceptInterrupt.after machine.syncPrivilege).registers.pc
    let final := (step handlers).after machine
    final.dataCode = ⟨final.registers.supervisor, false⟩ ∧
      final.programCode = ⟨final.registers.supervisor, true⟩ ∧
      ∃ accesses purposes, final.trace = some (accesses.reverse ++ before) ∧
        List.Forall₂ (BusAccess.Serves pc) accesses purposes ∧ purposes <+: machine.stepPurposes ∧
        (∀ progress, (step handlers).run machine = .ok progress final →
          purposes = machine.stepPurposes) ∧
        ∀ access ∈ accesses, access.functionCode.supervisor = access.supervisor ∧
          (access.kind = .write → access.functionCode.program = false) := by
  intro pc final
  obtain ⟨purposes, hprefix, hdone, hsynced, hsaw⟩ := exists_saw_step machine
  obtain ⟨accesses, hfinal, hserves⟩ := hsaw before htrace
  refine ⟨?_, ?_, accesses, purposes, hfinal, hserves, hprefix, fun progress ↦ hdone progress final,
    ?_⟩
  · exact congrArg (FunctionCode.mk · false) hsynced
  · exact congrArg (FunctionCode.mk · true) hsynced
  · have hall := hserves.imp fun _ _ h ↦ And.intro (And.intro h.supervisor h.program_of_write) h
    exact ((List.forall₂_and_left accesses purposes).1 hall).1

/-- A user program that moves a word from a place relative to the program counter to one above the
stack pointer, while accesses would still be announced in supervisor state. -/
def movingProgram : Machine where
  registers :=
    { a := #v[0, 0, 0, 0, 0, 0, 0, 0x20]
      supervisor := false
      interruptMask := 0 }
  memory := .ram
    { size := 0x30
      written := .ofList [(0x00, (0x3F : Byte)), (0x01, 0x7A), (0x03, 0x06), (0x05, 0x04),
        (0x08, 0x12), (0x09, 0x34)] }
  trace := some []

theorem lookup_move : instructionSet.lookup 0x3F7A = some (.move .word) := by
  rw [lookup_instructionSet]
  decide +kernel

theorem exists_run_step_movingProgram :
    ∃ final, (step handlers).run movingProgram = .ok .next final :=
  ⟨_, run_step_of_lookup lookup_move rfl rfl rfl⟩

theorem stepPurposes_movingProgram : movingProgram.stepPurposes =
    [.instruction .word 0, .instruction .word 2, .programOperand .word, .instruction .word 4,
      .data .write .word] := by
  have haccept : acceptInterrupt.after movingProgram.syncPrivilege =
      movingProgram.syncPrivilege := rfl
  have hpurposes (trace : Option (List BusAccess)) :
      (Operation.move .word).purposes 0x3F7A { movingProgram.syncPrivilege with
        opcode := 0x3F7A
        trace } = [.instruction .word 2, .programOperand .word, .instruction .word 4,
          .data .write .word] := rfl
  obtain ⟨trace, hfetch⟩ : ∃ trace, fetchOpcode.run movingProgram.syncPrivilege =
      .ok 0x3F7A { movingProgram.syncPrivilege with opcode := 0x3F7A, trace } :=
    run_fetchOpcode_of_read rfl
  rw [Machine.stepPurposes, haccept, Machine.instructionPurposes, hfetch]
  simp only [lookup_move, Option.elim_some, hpurposes]
  rfl

/-- The whole trace of a step that began with stale function codes. -/
theorem accesses_announced_movingProgram :
    ∃ accesses, ((step handlers).after movingProgram).trace = some accesses.reverse ∧
      List.Forall₂ (BusAccess.Serves 0) accesses [.instruction .word 0, .instruction .word 2,
        .programOperand .word, .instruction .word 4, .data .write .word] ∧
      ((step handlers).after movingProgram).dataCode =
        ⟨((step handlers).after movingProgram).registers.supervisor, false⟩ := by
  have hpc : (acceptInterrupt.after movingProgram.syncPrivilege).registers.pc = 0 := rfl
  obtain ⟨final, hrun⟩ := exists_run_step_movingProgram
  obtain ⟨hdata, -, accesses, purposes, htrace, hserves, -, hdone, -⟩ :=
    accesses_announced movingProgram [] rfl
  have hall := hdone .next (by rw [after_of_run_eq_ok hrun, hrun])
  rw [List.append_nil] at htrace
  rw [hpc, hall, stepPurposes_movingProgram] at hserves
  exact ⟨accesses, htrace, hserves, hdata⟩

end M68000
