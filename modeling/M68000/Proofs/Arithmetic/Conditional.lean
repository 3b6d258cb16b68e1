import M68000.Proofs.Arithmetic.Performed

/-!
# Conditional instructions

A conditional branch, a conditional set and a loop instruction ask one condition of the flags, and
what they do follows from the answer. Accepting an interrupt before them leaves the flags alone.
-/

namespace M68000

open Exec

/-- The displacement of a branch, which is in the opcode or in the word after it, and the length of
the instruction. -/
inductive Opcode.Displaces (opcode : Opcode) (machine : Machine) : Address → Nat → Prop
  | byte (hbyte : opcode.lowByte ≠ 0) :
    Displaces opcode machine (opcode.lowByte.signExtend 32) 2
  | word {word : BitVec 16} (hbyte : opcode.lowByte = 0)
      (hread : machine.memory.read machine.programCode (machine.registers.pc + 2) .word =
        .ok word) :
    Displaces opcode machine (word.signExtend 32) 4

namespace Operation

/-- A branch is taken if its condition holds. -/
structure Branches (opcode : Opcode) (holds : Prop) (before after : Machine) : Prop where
  memory : after.memory = before.memory
  registers : ∃ displacement length, opcode.Displaces before displacement length ∧
    (holds → after.registers =
      { before.registers with pc := before.registers.pc + 2 + displacement }) ∧
    (¬ holds → after.registers = before.registers.advancePc length)

/-- A byte is set if its condition holds, and cleared otherwise. -/
def Sets (opcode : Opcode) (holds : Prop) (before after : Machine) : Prop :=
  ∃ mode location, Mode.ofField? opcode.operandField = some mode ∧
    (⟨mode, 2⟩ : Operand .byte).LiesAt before location ∧
    (holds → ∀ code, location.Holds code after (BitVec.allOnes Size.byte.bits)) ∧
    (¬ holds → ∀ code, location.Holds code after (0 : Size.byte.Value))

/-- A loop ends if its condition holds. Otherwise it counts, and goes on unless the counter runs
out. -/
structure Counts (opcode : Opcode) (holds : Prop) (before after : Machine) : Prop where
  memory : after.memory = before.memory
  ends : holds → after.registers = before.registers.advancePc 4
  counts : ¬ holds →
    let register := before.registers.getD opcode.lowRegister
    let count := Size.word.low register - 1
    let counted := before.registers.setD opcode.lowRegister (Size.word.replaceLow register count)
    (count = 0xFFFF → after.registers = counted.advancePc 4) ∧
    (count ≠ 0xFFFF → ∃ displacement : BitVec 16,
      before.memory.read before.programCode (before.registers.pc + 2) .word = .ok displacement ∧
      after.registers =
        { counted with pc := before.registers.pc + 2 + displacement.signExtend 32 })

/-- A conditional instruction does what its condition asks for. -/
structure Obeys (operation : Operation) (opcode : Opcode) (holds : Prop) (before after : Machine) :
    Prop where
  branch : operation = .branch → Branches opcode holds before after
  set : operation = .setConditionally → Sets opcode holds before after
  count : operation = .decrementAndBranch → Counts opcode holds before after

end Operation

/-! ## The instructions -/

section Instructions

variable {machine final next : Machine} {opcode : Opcode}

theorem Opcode.displaces_of_run {displacement : Address} {length : Nat}
    (hrun : (Instruction.branchDisplacement opcode).run machine =
      .ok (displacement, length) next) :
    opcode.Displaces machine displacement length ∧ ∃ trace, next = { machine with trace } := by
  unfold Instruction.branchDisplacement at hrun
  by_cases hbyte : opcode.lowByte = 0
  · rw [if_pos hbyte] at hrun
    obtain ⟨word, _, hword, hrun⟩ := run_bind_eq_ok.1 hrun
    obtain ⟨trace, hread, rfl⟩ := exists_of_run_readAs hword
    cases hrun
    exact ⟨.word hbyte hread, trace, rfl⟩
  · rw [if_neg hbyte] at hrun
    cases hrun
    exact ⟨.byte hbyte, machine.trace, rfl⟩

theorem Operation.branches_of_run (hrun : (Instruction.branch opcode).run machine = .ok () final) :
    Branches opcode (machine.registers.flags.holds (.ofOpcode opcode) = true) machine final := by
  obtain ⟨⟨displacement, length⟩, middle, hdisplacement, hrun⟩ := run_bind_eq_ok.1 hrun
  obtain ⟨hdisplaces, trace, rfl⟩ := Opcode.displaces_of_run hdisplacement
  obtain ⟨_, _, hflags, hrun⟩ := run_bind_eq_ok.1 hrun
  cases hflags
  cases hholds : machine.registers.flags.holds (.ofOpcode opcode) with
  | true =>
    simp only [hholds, if_true] at hrun
    cases hrun
    exact ⟨rfl, displacement, length, hdisplaces, fun _ ↦ rfl, fun hnot ↦ absurd rfl hnot⟩
  | false =>
    simp only [hholds] at hrun
    cases hrun
    exact ⟨rfl, displacement, length, hdisplaces, fun heq ↦ Bool.noConfusion heq, fun _ ↦ rfl⟩

theorem Operation.counts_of_run
    (hrun : (Instruction.decrementAndBranch opcode).run machine = .ok () final) :
    Counts opcode (machine.registers.flags.holds (.ofOpcode opcode) = true) machine final := by
  obtain ⟨_, _, hflags, hrun⟩ := run_bind_eq_ok.1 hrun
  cases hflags
  cases hholds : machine.registers.flags.holds (.ofOpcode opcode) with
  | true =>
    simp only [hholds, if_true] at hrun
    cases hrun
    exact ⟨rfl, fun _ ↦ rfl, fun hnot ↦ absurd rfl hnot⟩
  | false =>
    simp only [hholds] at hrun
    obtain ⟨_, _, hregister, hrun⟩ := run_bind_eq_ok.1 hrun
    cases hregister
    obtain ⟨_, _, hcounted, hrun⟩ := run_bind_eq_ok.1 hrun
    cases hcounted
    dsimp only at hrun
    by_cases hout : Size.word.low (machine.registers.getD opcode.lowRegister) - 1 = 0xFFFF
    · rw [if_pos hout] at hrun
      cases hrun
      exact ⟨rfl, fun heq ↦ Bool.noConfusion heq, fun _ ↦ ⟨fun _ ↦ rfl, fun hne ↦ absurd hout hne⟩⟩
    · rw [if_neg hout] at hrun
      obtain ⟨displacement, _, hword, hrun⟩ := run_bind_eq_ok.1 hrun
      obtain ⟨trace, hread, rfl⟩ := exists_of_run_readAs hword
      cases hrun
      exact ⟨rfl, fun heq ↦ Bool.noConfusion heq,
        fun _ ↦ ⟨fun heq ↦ absurd heq hout, fun _ ↦ ⟨displacement, hread, rfl⟩⟩⟩

theorem Operation.sets_of_run
    (hlookup : instructionSet.lookup opcode = some .setConditionally)
    (hrun : (Instruction.setConditionally opcode).run machine = .ok () final) :
    Sets opcode (machine.registers.flags.holds (.ofOpcode opcode) = true) machine final := by
  obtain ⟨mode, hmode, halterable⟩ := exists_isDataAlterable hlookup rfl
  have hrun := Operand.run_of_ofField? hmode hrun
  obtain ⟨_, _, hflags, hrun⟩ := run_bind_eq_ok.1 hrun
  cases hflags
  obtain ⟨_, written, hput, hrun⟩ := run_bind_eq_ok.1 hrun
  obtain ⟨location, hlies⟩ := Operand.exists_location_of_run_put halterable hput
  have hmarked : ((⟨mode, 2⟩ : Operand .byte).put _).run
      (machine.marked machine.registers.flags machine.opcode machine.trace) = .ok () written := hput
  obtain ⟨registers, memory, trace, hstores, rfl⟩ :=
    Operand.exists_stores_of_run_put hlies hmarked
  obtain ⟨_, _, hfinish, hrun⟩ := run_bind_eq_ok.1 hrun
  rw [Operand.run_finish] at hfinish
  cases hfinish
  cases hrun
  refine ⟨mode, location, hmode, hlies, fun hholds code ↦ ?_, fun hnot code ↦ ?_⟩
  · rw [if_pos hholds] at hstores
    exact hstores.holds code (Operand.getD_finished _ _) rfl
  · rw [if_neg hnot] at hstores
    exact hstores.holds code (Operand.getD_finished _ _) rfl

/-- Accepting an interrupt leaves the flags alone. -/
theorem flags_of_run_acceptInterrupt
    (hrun : acceptInterrupt.run machine.syncPrivilege = .ok () next) :
    next.registers.flags = machine.registers.flags := by
  obtain ⟨interrupts, rfl⟩ | ⟨level, vector, entered, henters, rfl⟩ :=
    cases_of_run_acceptInterrupt hrun
  · rfl
  · calc entered.registers.flags
        = (machine.registers.setSupervisor true).flags := by rw [henters.registers]; rfl
      _ = machine.registers.flags := Registers.flags_setSupervisor _ _

end Instructions

/-! ## Steps -/

/-- A step with a conditional instruction obeys its condition on the flags from before the step. -/
theorem obeys_of_run_step {machine final : Machine} {progress : Progress}
    (hrun : (step handlers).run machine = .ok progress final) :
    ∃ before opcode operation, machine.Meets before opcode operation ∧
      operation.Obeys opcode (machine.registers.flags.holds (.ofOpcode opcode) = true) before
        final := by
  obtain ⟨before, opcode, operation, trace, performed, exitRequest, hmeets, hexecute, rfl⟩ :=
    exists_meets_of_run_step hrun
  refine ⟨before, opcode, operation, hmeets, ?_⟩
  rw [← flags_of_run_acceptInterrupt hmeets.accepted]
  refine ⟨?branch, ?set, ?count⟩
  case branch =>
    rintro rfl
    have h := Operation.branches_of_run hexecute
    obtain ⟨displacement, length, hdisplaces, htaken, hpassed⟩ := h.registers
    refine ⟨h.memory, displacement, length, ?_, htaken, hpassed⟩
    cases hdisplaces with
    | byte hbyte => exact .byte hbyte
    | word hbyte hread => exact .word hbyte hread
  case set =>
    rintro rfl
    obtain ⟨mode, location, hmode, hlies, hset, hclear⟩ :=
      Operation.sets_of_run hmeets.lookup hexecute
    exact ⟨mode, location, hmode, Operand.LiesAt.of_marked hlies,
      fun hholds code ↦ (hset hholds code).congr (fun _ ↦ rfl) rfl,
      fun hnot code ↦ (hclear hnot code).congr (fun _ ↦ rfl) rfl⟩
  case count =>
    rintro rfl
    have h := Operation.counts_of_run hexecute
    exact ⟨h.memory, h.ends, h.counts⟩

end M68000
