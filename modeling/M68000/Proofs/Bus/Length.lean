import M68000.Proofs.Bus.Step

/-!
# The length of instructions

An instruction that goes on at the next one moves the program counter by its length, and fetches
exactly the bytes that this passes over: each of its parts fetches its own bytes, and the parts of
the source come before those of the destination.
-/

namespace M68000

open Exec

/-- A step without an interrupt and without an exception, at an opcode that does not transfer
control, moves the program counter by the length that the opcode has. It fetches the opcode and then
the parts of the instruction in their order, each part exactly its own bytes and all of them exactly
the bytes of the instruction, and after that nothing more of the instruction stream. -/
theorem advances_by_length {machine final : Machine} {opcode : Opcode} {operation : Operation}
    {progress : Progress} (hdue : machine.dueInterrupt? = none) (hraised : machine.raised? = none)
    (hread : machine.memory.read ⟨machine.registers.supervisor, true⟩ machine.registers.pc .word =
      .ok opcode)
    (hlookup : instructionSet.lookup opcode = some operation)
    (hcontrol : operation.transfersControl = false)
    (hrun : (step handlers).run machine = .ok progress final) :
    final.registers.pc = machine.registers.pc + BitVec.ofNat 32 (operation.length opcode) ∧
      ∃ transfers : List Purpose, (∀ purpose ∈ transfers, purpose.isFetch = false) ∧
        (∀ before, machine.trace = some before →
          ∃ accesses, final.trace = some (accesses.reverse ++ before) ∧
            List.Forall₂ (BusAccess.Serves machine.registers.pc) accesses
              (.instruction .word 0 ::
                (Part.purposesFrom 2 (operation.parts opcode) ++ transfers))) ∧
        (∀ place part, (place, part) ∈ Part.placed 2 (operation.parts opcode) →
          Purpose.Cover (part.purposes place) place part.bytes) ∧
        Purpose.Cover (.instruction .word 0 ::
          (Part.purposesFrom 2 (operation.parts opcode) ++ transfers)) 0
            (operation.length opcode) := by
  obtain ⟨fetched, hbegin, -⟩ := exists_run_beginStep_of_read hdue hread
  obtain ⟨next, haccept, hfetch⟩ := run_beginStep_eq_ok.1 hbegin
  have hsynced : machine.syncPrivilege.dueInterrupt? = none := hdue
  obtain ⟨interrupts, hnext, -⟩ := exists_of_run_acceptInterrupt_of_not_due hsynced haccept
  have hne : operation ≠ .decrementAndBranch := by
    rintro rfl
    cases hcontrol
  have hadvance : operation.advance? opcode fetched = some (operation.length opcode) := by
    rw [Operation.advance?, hcontrol, ← Machine.raised?_eq_trap? hbegin hlookup, hraised]
    rfl
  have hissues := issues_instruction hfetch hlookup
  rw [hadvance, Operation.purposes_eq_append operation hne] at hissues
  rw [run_step_of_accepted haccept] at hrun
  subst hnext
  obtain ⟨hsaw, hpc⟩ := hissues.done progress final rfl hrun
  have hno : ∀ purpose ∈ operation.transfers opcode fetched, purpose.isFetch = false :=
    fun purpose ↦ operation.isFetch_of_mem_transfers opcode fetched
  exact ⟨hpc _ rfl, operation.transfers opcode fetched, hno, hsaw.trace,
    fun place part _ ↦ part.cover_purposes place, operation.cover_parts opcode hno⟩

theorem advances_by_length_movingProgram :
    ∃ final, (step handlers).run movingProgram = .ok .next final ∧ final.registers.pc = 6 := by
  obtain ⟨final, hrun⟩ := exists_run_step_movingProgram
  have hraised : movingProgram.raised? = none := Machine.raised?_eq_trap? rfl lookup_move
  obtain ⟨hpc, -⟩ := advances_by_length rfl hraised rfl lookup_move rfl hrun
  exact ⟨final, hrun, hpc⟩

end M68000
