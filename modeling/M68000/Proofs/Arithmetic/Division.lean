import M68000.Proofs.Arithmetic.Quotient
import M68000.Proofs.Dispatch.Encoding
import M68000.Proofs.Exec.Location
import M68000.Proofs.Flags.Arithmetic
import M68000.Proofs.Run.Instruction

/-!
# Division

DIVU and DIVS keep quotient and remainder if the quotient fits in a word, and otherwise tell of the
overflow in the flags alone. What the divisor comes from makes no difference, nor how the flags were
recorded. A divisor of zero is an exception that returns to the next instruction.
-/

namespace M68000

open Exec

/-! ## Opcodes -/

namespace Signedness

/-- The bits of DIVU and DIVS outside the register and the operand field. -/
def divisionBase : Signedness → Opcode
  | unsigned => 0x80C0
  | signed => 0x81C0

/-- The opcode is one of DIVU or DIVS by an operand of the mode, which is no address register. -/
structure EncodesDivision (signedness : Signedness) (opcode : Opcode) (mode : Mode) : Prop where
  family : (InstructionSet.family signedness.divisionBase InstructionSet.highMask).covers opcode =
    true
  field : Mode.ofField? opcode.operandField = some mode
  data : ModeSet.data.contains mode = true

theorem apart_division (signedness : Signedness) :
    ∀ entry ∈ InstructionSet.entries, entry.2 ≠ .divide signedness →
      entry.1.Apart (InstructionSet.family signedness.divisionBase InstructionSet.highMask) := by
  cases signedness <;> decide +kernel

open InstructionSet in
/-- Every opcode of a division is in the instruction set. -/
theorem EncodesDivision.lookup {signedness : Signedness} {opcode : Opcode} {mode : Mode}
    (h : signedness.EncodesDivision opcode mode) :
    instructionSet.lookup opcode = some (.divide signedness) := by
  have hbase : FieldPlace.operand.Free signedness.divisionBase := by
    cases signedness <;> decide
  have hentries : withOperand signedness.divisionBase highMask .data (.divide signedness) ⊆
      entries := by
    intro entry hentry
    have hproducts : entry ∈ products := by
      cases signedness with
      | unsigned =>
        exact List.mem_append_left _ (List.mem_append_left _ (List.mem_append_right _ hentry))
      | signed => exact List.mem_append_left _ (List.mem_append_right _ hentry)
    unfold entries
    simp only [List.mem_append, hproducts, true_or, or_true]
  exact lookup_of_names hbase hentries signedness.apart_division h.family ⟨mode, h.field, h.data⟩

end Signedness

/-! ## What a division changes -/

variable {signedness : Signedness} {opcode : Opcode} {mode : Mode} {operand : Operand .word}
  {divisor : BitVec 16} {machine before after : Machine}

/-- The instruction is done with a divisor that is not zero. Whether the quotient rounded toward
zero is a number of a word decides what it has changed. -/
structure Signedness.Divided (signedness : Signedness) (opcode : Opcode) (operand : Operand .word)
    (divisor : BitVec 16) (before after : Machine) : Prop where
  memory : after.memory = before.memory
  fits : signedness.FitsWord ((signedness.number (before.registers.getD opcode.highRegister)).tdiv
      (signedness.number divisor)) → ∃ quotient remainder : BitVec 16,
    IsDivision (signedness.number (before.registers.getD opcode.highRegister))
      (signedness.number divisor) (signedness.number quotient) (signedness.number remainder) ∧
    after.registers = ({ (operand.finished before.registers).setD opcode.highRegister
        (remainder ++ quotient) with flags := after.registers.flags } : Registers).advancePc
      (2 + operand.extensionBytes) ∧
    after.registers.flags.ccr = { before.registers.flags.ccr with
      negative := quotient.msb
      zero := quotient == 0
      overflow := false
      carry := false }
  overflows : ¬signedness.FitsWord
      ((signedness.number (before.registers.getD opcode.highRegister)).tdiv
        (signedness.number divisor)) →
    after.registers = ({ operand.finished before.registers with
        flags := after.registers.flags } : Registers).advancePc (2 + operand.extensionBytes) ∧
    after.registers.flags.ccr =
      { before.registers.flags.ccr with overflow := true, carry := false }

/-- The step divides by zero. It is done if it can enter the exception, with the address of the next
instruction, and then it has done nothing else but be done with its operand. Data registers and
flags are kept in any case. -/
structure EntersZeroDivide (operand : Operand .word) (before machine : Machine) : Prop where
  done_iff : (∃ progress final, (step handlers).run machine = .ok progress final) ↔
    ({ before with registers := operand.finished before.registers } : Machine).CanEnter 5
      (before.registers.pc + BitVec.ofNat 32 (2 + operand.extensionBytes))
  entered : ∀ progress final, (step handlers).run machine = .ok progress final →
    ∃ entered exitRequest,
      EntersException 5 (before.registers.pc + BitVec.ofNat 32 (2 + operand.extensionBytes))
        { before with registers := operand.finished before.registers } entered ∧
      final = { entered with exitRequest }
  data : ((step handlers).after machine).registers.d = before.registers.d
  flags : ((step handlers).after machine).registers.flags = before.registers.flags

/-! ## The instruction -/

namespace Instruction

theorem run_divideBy_of_eq_some {quotient remainder : BitVec 16} (length : Nat)
    (hdivide : signedness.divide? (machine.registers.getD opcode.highRegister) divisor =
      some (quotient, remainder)) :
    (divideBy signedness opcode divisor length).run machine = .ok () { machine with
      registers := ({ machine.registers.setD opcode.highRegister (remainder ++ quotient) with
        flags := machine.registers.flags.setResult (quotient.signExtend 32) } :
          Registers).advancePc length } := by
  unfold divideBy
  simp only [EStateM.run_bind, run_getD, hdivide]
  rfl

theorem run_divideBy_of_eq_none (length : Nat)
    (hdivide : signedness.divide? (machine.registers.getD opcode.highRegister) divisor = none) :
    (divideBy signedness opcode divisor length).run machine = .ok () { machine with
      registers := ({ machine.registers with
        flags := machine.registers.flags.setCodes machine.registers.flags.negative
          machine.registers.flags.zero true false } : Registers).advancePc length } := by
  unfold divideBy
  simp only [EStateM.run_bind, run_getD, hdivide]
  rfl

/-- A division by a number that is not zero is done. -/
theorem exists_divided_of_ne_zero (hdivisor : divisor ≠ 0) (trace : Option (List BusAccess)) :
    ∃ final, (divideRest signedness opcode operand divisor).run { before with
        registers := operand.finished before.registers, opcode, trace } = .ok () final ∧
      ∀ exitRequest, signedness.Divided opcode operand divisor before
        { final with exitRequest } := by
  have hdividend := operand.getD_finished before.registers opcode.highRegister
  have hflags := operand.flags_finished before.registers
  rw [divideRest, if_neg hdivisor]
  by_cases hfits : signedness.FitsWord
      ((signedness.number (before.registers.getD opcode.highRegister)).tdiv
        (signedness.number divisor))
  · obtain ⟨quotient, remainder, hdivide, hdivision⟩ :=
      Signedness.exists_of_fitsWord hdivisor hfits
    rw [← hdividend] at hdivide
    refine ⟨_, run_divideBy_of_eq_some _ hdivide, fun exitRequest ↦
      ⟨rfl, fun _ ↦ ⟨quotient, remainder, hdivision, rfl, ?_⟩, fun hnot ↦ absurd hfits hnot⟩⟩
    refine (Flags.ccr_setResult (by decide) _ quotient).trans ?_
    rw [hflags]
    rfl
  · have hdivide := Signedness.divide?_of_not_fitsWord hfits
    rw [← hdividend] at hdivide
    refine ⟨_, run_divideBy_of_eq_none _ hdivide, fun exitRequest ↦
      ⟨rfl, fun h ↦ absurd h hfits, fun _ ↦ ⟨rfl, ?_⟩⟩⟩
    refine (Flags.ccr_setCodes ..).trans ?_
    rw [hflags]
    rfl

theorem run_divideRest_zero (machine : Machine) :
    (divideRest signedness opcode operand 0).run machine =
      (enterException 5 (machine.registers.pc +
        BitVec.ofNat 32 (2 + operand.extensionBytes))).run machine := by
  rw [divideRest, if_pos rfl]
  rfl

end Instruction

/-! ## The exception -/

/-- Data registers and flags are as given. -/
def Registers.HasData (d : Vector (BitVec 32) 8) (flags : Flags) (registers : Registers) : Prop :=
  registers.d = d ∧ registers.flags = flags

theorem Operand.hasData_finished (operand : Operand .word) (registers : Registers) :
    (operand.finished registers).HasData registers.d registers.flags := by
  obtain ⟨a, ha⟩ := operand.exists_finished registers
  rw [ha]
  exact ⟨rfl, rfl⟩

/-- Entering an exception changes neither data registers nor flags, even where it faults. -/
theorem Exec.maintains_enterException_hasData (d : Vector (BitVec 32) 8) (flags : Flags)
    (vector : Byte) (returnAddress : Address) :
    Maintains (fun machine ↦ machine.registers.HasData d flags)
      (enterException vector returnAddress) := by
  have ignores : IgnoresTrace fun machine ↦ machine.registers.HasData d flags :=
    ⟨fun _ _ hdata ↦ hdata⟩
  have hstate : Maintains (fun machine ↦ machine.registers.HasData d flags)
      (modify (·.setSupervisor true)) :=
    maintains_modify fun machine hdata ↦
      ⟨(machine.registers.d_setSupervisor true).trans hdata.1,
        (machine.registers.flags_setSupervisor true).trans hdata.2⟩
  have hwrite (size : Size) (address : Address) (value : size.Value) :
      Maintains (fun machine ↦ machine.registers.HasData d flags)
        (Exec.write size address value) := by
    intro machine hdata
    rw [after, run_write, run_writeAs]
    cases machine.memory.write machine.dataCode address size value <;> exact hdata
  have hpush (size : Size) (value : size.Value) :
      Maintains (fun machine ↦ machine.registers.HasData d flags) (push size value) :=
    maintains_bind (maintains_getA _) fun _ ↦ maintains_bind (hwrite size _ value) fun _ _ hdata ↦
      hdata
  refine maintains_bind maintains_registers fun before ↦ maintains_bind hstate fun _ ↦ ?_
  refine maintains_bind (hpush .long _) fun _ ↦ maintains_bind (hpush .word _) fun _ ↦ ?_
  exact maintains_bind (ignores.maintains_readAs _ .long _) fun _ _ hdata ↦ hdata

/-! ## Steps -/

theorem Operation.source?_of_reads (hmode : Mode.ofField? opcode.operandField = some mode)
    {value : BitVec 16} (hreads : (⟨mode, 2⟩ : Operand .word).Reads machine value) :
    source? opcode machine = some (⟨mode, 2⟩, value) := by
  obtain ⟨next, hget⟩ := hreads
  unfold source?
  rw [hmode]
  dsimp only
  rw [hget]

/-- A step that divides reads its operand and is done with it before the division. -/
theorem Machine.Meets.exists_run_step_divide (h : machine.Meets before opcode (.divide signedness))
    (hmode : Mode.ofField? opcode.operandField = some mode)
    (hreads : (⟨mode, 2⟩ : Operand .word).Reads before divisor) :
    ∃ trace, (step handlers).run machine = (do
      Instruction.divideRest signedness opcode (⟨mode, 2⟩ : Operand .word) divisor
      takeExit).run { before with
        registers := (⟨mode, 2⟩ : Operand .word).finished before.registers, opcode, trace } := by
  obtain ⟨trace, hstep⟩ := h.exists_run_step_eq
  have hsource : Operation.source? opcode { before with opcode, trace } =
      some (⟨mode, 2⟩, divisor) :=
    Operation.source?_of_reads hmode (hreads.marked before.registers.flags opcode trace)
  obtain ⟨trace', hrun⟩ := Instruction.run_withSource_of_source?
    (Instruction.divideRest signedness opcode) hsource
  refine ⟨trace', hstep.trans ?_⟩
  rw [EStateM.run_bind, EStateM.run_bind, Operation.execute, Instruction.divide_eq_withSource, hrun]

/-- The exception is entered from the machine on which the operand is done with. -/
theorem entersZeroDivide_of_run_step {trace : Option (List BusAccess)}
    (hstep : (step handlers).run machine = (do
      Instruction.divideRest signedness opcode operand 0
      takeExit).run { before with
        registers := operand.finished before.registers, opcode, trace }) :
    EntersZeroDivide operand before machine := by
  let returnAddress := before.registers.pc + BitVec.ofNat 32 (2 + operand.extensionBytes)
  let finished : Machine := { before with
    registers := operand.finished before.registers, opcode, trace }
  have hpc : finished.registers.pc = before.registers.pc := operand.pc_finished _
  have hstep : (step handlers).run machine = (do
      enterException 5 returnAddress
      takeExit).run finished := by
    rw [hstep, EStateM.run_bind, EStateM.run_bind, Instruction.run_divideRest_zero, hpc]
  have hkept : ((step handlers).after machine).registers.HasData before.registers.d
      before.registers.flags := by
    have hdone := maintains_bind (maintains_enterException_hasData _ _ 5 returnAddress)
      (fun _ ↦ maintains_takeExit_of_notes fun _ hdata ↦ hdata) finished
      (operand.hasData_finished before.registers)
    rw [after, hstep]
    exact hdone
  have hentered (progress : Progress) (final : Machine)
      (hrun : (step handlers).run machine = .ok progress final) :
      ∃ entered exitRequest, EntersException 5 returnAddress
          { before with registers := operand.finished before.registers } entered ∧
        final = { entered with exitRequest } := by
    rw [hstep] at hrun
    obtain ⟨_, entered, henter, hexit⟩ := run_bind_eq_ok.1 hrun
    obtain ⟨exitRequest, rfl⟩ := exists_of_run_takeExit hexit
    have henters := entersException_of_run henter
    exact ⟨entered, exitRequest, ⟨henters.registers, henters.busSupervisor, henters.stacked,
      henters.handler, henters.interrupts, henters.exitRequest⟩, rfl⟩
  refine ⟨⟨?can, fun hcan ↦ ?done⟩, hentered, hkept.1, hkept.2⟩
  case can =>
    rintro ⟨progress, final, hrun⟩
    obtain ⟨_, _, henters, -⟩ := hentered progress final hrun
    exact henters.canEnter
  case done =>
    have hcan : finished.CanEnter 5 returnAddress := hcan
    obtain ⟨entered, henter⟩ := exists_run_enterException hcan
    obtain ⟨progress, exitRequest, hexit⟩ := exists_run_takeExit entered
    exact ⟨progress, _, hstep.trans (run_bind_eq_ok.2 ⟨(), entered, henter, hexit⟩)⟩

/-- A division by an operand of any mode but an address register, with any divisor, dividend and
flags. If the divisor is not zero, quotient and remainder are kept exactly when the quotient rounded
toward zero fits in a word, and the overflow is told otherwise; no number overflows before. If it is
zero, the exception is entered with a return to the next instruction and nothing else happens. -/
theorem step_divides (haccepted : acceptInterrupt.run machine.syncPrivilege = .ok () before)
    (hfetched : before.memory.read ⟨before.registers.supervisor, true⟩ before.registers.pc .word =
      .ok opcode)
    (hencodes : signedness.EncodesDivision opcode mode)
    (hreads : (⟨mode, 2⟩ : Operand .word).Reads before divisor) :
    (divisor ≠ 0 →
      signedness.DividesExactly (before.registers.getD opcode.highRegister) divisor ∧
      ∃ progress final, (step handlers).run machine = .ok progress final ∧
        signedness.Divided opcode ⟨mode, 2⟩ divisor before final) ∧
    (divisor = 0 → EntersZeroDivide ⟨mode, 2⟩ before machine) := by
  have hmeets : machine.Meets before opcode (.divide signedness) :=
    ⟨haccepted, hfetched, hencodes.lookup⟩
  obtain ⟨trace, hstep⟩ := hmeets.exists_run_step_divide hencodes.field hreads
  refine ⟨fun hdivisor ↦ ⟨signedness.dividesExactly _ divisor, ?_⟩, ?_⟩
  · obtain ⟨performed, hrun, hdivided⟩ :=
      Instruction.exists_divided_of_ne_zero hdivisor trace
    obtain ⟨progress, exitRequest, hexit⟩ := exists_run_takeExit performed
    exact ⟨progress, _, hstep.trans (run_bind_eq_ok.2 ⟨(), performed, hrun, hexit⟩),
      hdivided exitRequest⟩
  · rintro rfl
    exact entersZeroDivide_of_run_step hstep

/-- Divides the lowest number with a sign, below the handler for divisions by zero. -/
def dividingProgram (divisor : BitVec 16) : Machine where
  registers := { d := #v[0x80000000, 0, 0, 0, 0, 0, 0, 0], a := #v[0, 0, 0, 0, 0, 0, 0, 0x40] }
  memory := .ram
    { size := 0x40
      written := .ofList [(0x00, (0x81 : Byte)), (0x01, 0xFC), (0x02, divisor.extractLsb' 8 8),
        (0x03, divisor.extractLsb' 0 8), (0x17, 0x20)] }

theorem step_divides_dividingProgram :
    (∃ progress final, (step handlers).run (dividingProgram 0xFFFF) = .ok progress final ∧
      final.registers.getD 0 = 0x80000000 ∧ final.registers.flags.overflow = true) ∧
    ∃ progress final, (step handlers).run (dividingProgram 0) = .ok progress final ∧
      ∃ entered exitRequest, EntersException 5 4 (dividingProgram 0) entered ∧
        final = { entered with exitRequest } := by
  have hencodes : Signedness.signed.EncodesDivision 0x81FC .immediate :=
    ⟨by decide, by decide, by decide⟩
  have haccepted (divisor : BitVec 16) :
      acceptInterrupt.run (dividingProgram divisor).syncPrivilege =
        .ok () (dividingProgram divisor) := rfl
  constructor
  · have hreads : (⟨.immediate, 2⟩ : Operand .word).Reads (dividingProgram 0xFFFF) 0xFFFF :=
      ⟨_, rfl⟩
    have hne : (0xFFFF : BitVec 16) ≠ 0 := by decide
    obtain ⟨-, progress, final, hrun, hdivided⟩ :=
      (step_divides (haccepted 0xFFFF) rfl hencodes hreads).1 hne
    obtain ⟨hregisters, hccr⟩ := hdivided.overflows (by unfold Signedness.FitsWord; decide)
    refine ⟨progress, final, hrun, ?_, congrArg Ccr.overflow hccr⟩
    rw [hregisters]
    rfl
  · have hreads : (⟨.immediate, 2⟩ : Operand .word).Reads (dividingProgram 0) 0 := ⟨_, rfl⟩
    have hzero := (step_divides (haccepted 0) rfl hencodes hreads).2 rfl
    obtain ⟨progress, final, hrun⟩ := hzero.done_iff.2 ⟨_, _, _, rfl, rfl, rfl⟩
    exact ⟨progress, final, hrun, hzero.entered progress final hrun⟩

end M68000
