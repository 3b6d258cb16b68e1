import M68000.Proofs.Arithmetic.Conditional
import M68000.Proofs.Arithmetic.Forms
import M68000.Proofs.Arithmetic.Order

/-!
# Comparisons

Comparing two operands, or subtracting one from the other, leaves flags on which every condition
tells how the operands were ordered, and a conditional instruction that comes later does what this
order asks for. An address register is compared as it is after the side effect of the source.
-/

namespace M68000

open Exec

namespace Operation

/-- The operation subtracts, whether it keeps the difference or only its flags. -/
def subtracts : Operation → Bool
  | toRegister binary _ | fromRegister binary _ | withImmediate binary _ | quick binary _ =>
    binary = .sub || binary = .cmp
  | withAddress .cmp _ | compareMemory _ => true
  | _ => false

/-- The operation subtracts for the flags only. -/
def compares : Operation → Bool
  | toRegister binary _ | fromRegister binary _ | withImmediate binary _ | quick binary _ =>
    binary = .cmp
  | withAddress .cmp _ | compareMemory _ => true
  | _ => false

/-- The operation of the opcode subtracts the second value from the first. Where both operands are
in memory, and where one is an address register, the source has its side effect before the
destination is read. -/
inductive Subtracts (opcode : Opcode) (machine : Machine) :
    Operation → (size : Size) → size.Value → size.Value → Prop
  | data {operation : Operation} {binary : Binary} {size : Size} {operand : Operand size}
      {location : Location} {destination source : size.Value}
      (hbinary : binary = .sub ∨ binary = .cmp)
      (hcombines :
        Combines opcode machine binary size operation operand location destination source) :
    Subtracts opcode machine operation size destination source
  | memory {size : Size} {destination source : size.Value}
      (hsource : (⟨.postIncrement (opcode.numberFrom 0), 2⟩ : Operand size).Reads machine source)
      (hdestination : machine.memory.read machine.dataCode
        (((⟨.postIncrement (opcode.numberFrom 0), 2⟩ : Operand size).finished
          machine.registers).getA (opcode.numberFrom 9)) size = .ok destination) :
    Subtracts opcode machine (.compareMemory size) size destination source
  | address {mode : Mode} {size : Size} {source : size.Value}
      (hmode : Mode.ofField? opcode.operandField = some mode)
      (hsource : (⟨mode, 2⟩ : Operand size).Reads machine source) :
    Subtracts opcode machine (.withAddress .cmp size) .long
      (((⟨mode, 2⟩ : Operand size).finished machine.registers).getA (opcode.numberFrom 9))
      (source.signExtend 32)

/-- The flags are those of a difference, and a comparison has left X alone. -/
structure Decides (operation : Operation) {size : Size} (destination source : size.Value)
    (before after : Machine) : Prop where
  differs : after.registers.flags.ccr.Differs destination source
  extend : operation.compares = true →
    after.registers.flags.extend = before.registers.flags.extend

/-- The operation has subtracted two values, and the flags are those of their difference. -/
def SubtractsTo (operation : Operation) (opcode : Opcode) (before after : Machine) : Prop :=
  ∃ (size : Size) (destination source : size.Value),
    operation.Subtracts opcode before size destination source ∧
      operation.Decides destination source before after

end Operation

/-! ## The flags of a difference -/

theorem Flags.differs_setCompare (flags : Flags) (destination source : BitVec n) (hle : n ≤ 32)
    (hn : 0 < n) :
    (flags.setCompare ((destination - source).signExtend 32) (destination.signExtend 32)
      (source.signExtend 32)).ccr.Differs destination source := by
  rw [ccr_setCompare hle _ _ _ hn]
  exact ⟨rfl, rfl, rfl, rfl⟩

theorem Binary.differs_ccr {operation : Binary} (h : operation = .sub ∨ operation = .cmp)
    (destination source : BitVec n) (before : Ccr) :
    (operation.ccr destination source before).Differs destination source := by
  simp only [Binary.ccr, ← operation.result_eq_outcome]
  obtain rfl | rfl := h <;> exact ⟨rfl, rfl, rfl, rfl⟩

namespace Operation

variable {operation : Operation} {opcode : Opcode} {machine final : Machine} {size : Size}

/-- A form of subtraction or comparison on a data operand. -/
theorem CombinesTo.subtractsTo {binary : Binary}
    (h : operation.CombinesTo opcode binary size machine final)
    (hbinary : binary = .sub ∨ binary = .cmp) (hcmp : operation.compares = true → binary = .cmp) :
    operation.SubtractsTo opcode machine final := by
  obtain ⟨operand, location, destination, source, hcombines, hperformed⟩ := h
  refine ⟨size, destination, source, .data hbinary hcombines, ?_, fun hcompares ↦ ?_⟩
  · rw [hperformed.ccr]
    exact Binary.differs_ccr hbinary _ _ _
  · have hccr := hperformed.ccr
    rw [hcmp hcompares] at hccr
    exact congrArg Ccr.extend hccr

/-- CMPM. -/
theorem subtractsTo_compareMemory
    (hrun : (Instruction.compareMemory size opcode).run machine = .ok () final) :
    (Operation.compareMemory size).SubtractsTo opcode machine final := by
  rw [Instruction.compareMemory, opcode.lowRegister_eq_numberFrom,
    opcode.highRegister_eq_numberFrom] at hrun
  obtain ⟨source, trace, hreads, hrun⟩ := Operand.exists_of_run_get_finish hrun
  obtain ⟨destination, _, hdestination, hrun⟩ := run_bind_eq_ok.1 hrun
  obtain ⟨_, hread, rfl⟩ := exists_of_run_readAs hdestination
  obtain ⟨_, _, hfinish, hrun⟩ := run_bind_eq_ok.1 hrun
  cases hfinish
  obtain ⟨_, _, hcompute, hrun⟩ := run_bind_eq_ok.1 hrun
  cases hcompute
  cases hrun
  refine ⟨size, destination, source, .memory hreads hread, ?_, fun _ ↦ rfl⟩
  exact Flags.differs_setCompare _ _ _ size.bits_le size.bits_pos

/-- CMPA. -/
theorem subtractsTo_compareAddress {mode : Mode} {source : size.Value}
    (h : AddressOperation.cmp.Performed opcode (⟨mode, 2⟩ : Operand size) source machine final) :
    (Operation.withAddress .cmp size).SubtractsTo opcode machine final := by
  let stepped := (⟨mode, 2⟩ : Operand size).finished machine.registers
  have hflags : stepped.flags = machine.registers.flags := Operand.flags_finished _ _
  have hdiffers := Flags.differs_setCompare stepped.flags (stepped.getA (opcode.numberFrom 9))
    (source.signExtend 32) (Nat.le_refl _) (by decide)
  simp only [BitVec.signExtend_eq] at hdiffers
  have hextend : final.registers.flags.extend = stepped.flags.extend := by
    rw [h.registers]
    rfl
  refine ⟨.long, _, _, .address h.mode h.reads, ?_, fun _ ↦ ?_⟩
  · rw [h.registers]
    exact hdiffers
  · rw [hextend, hflags]

theorem subtractsTo_of_run (hlookup : instructionSet.lookup opcode = some operation)
    (hsubtracts : operation.subtracts = true)
    (hrun : (operation.execute opcode).run machine = .ok () final) :
    operation.SubtractsTo opcode machine final ∨
      ∃ number binary size, operation = .quick binary size ∧
        Mode.ofField? opcode.operandField = some (.addressRegister number) := by
  have hdata {binary : Binary} {size : Size} (hbinary : operation.binary? = some (binary, size))
      (hsub : binary = .sub ∨ binary = .cmp) (hcmp : operation.compares = true → binary = .cmp) :
      operation.SubtractsTo opcode machine final ∨
        ∃ number binary size, operation = .quick binary size ∧
          Mode.ofField? opcode.operandField = some (.addressRegister number) := by
    obtain hcombines | ⟨number, hquick, hwhole⟩ :=
      combinesTo_or_changesAddress hlookup hbinary hrun
    · exact .inl (hcombines.subtractsTo hsub hcmp)
    · exact .inr ⟨number, binary, size, hquick, hwhole.mode⟩
  cases operation with
  | toRegister | fromRegister | withImmediate | quick =>
    refine hdata rfl ?_ of_decide_eq_true
    rwa [subtracts, Bool.or_eq_true, decide_eq_true_iff, decide_eq_true_iff] at hsubtracts
  | compareMemory => exact .inl (subtractsTo_compareMemory hrun)
  | withAddress address size =>
    cases address with
    | cmp =>
      have haddress : (Instruction.withAddress .cmp size opcode).run machine = .ok () final := hrun
      obtain ⟨mode, source, hperformed⟩ := AddressOperation.exists_performed_of_run haddress
      exact .inl (subtractsTo_compareAddress hperformed)
    | _ => cases hsubtracts
  | _ => cases hsubtracts

/-- What is subtracted does not depend on notes. -/
theorem SubtractsTo.of_marked {noted : Opcode} {trace : Option (List BusAccess)}
    (h : operation.SubtractsTo opcode (machine.marked machine.registers.flags noted trace) final)
    (exitRequest : Option (BitVec 32)) :
    operation.SubtractsTo opcode machine { final with exitRequest } := by
  obtain ⟨size, destination, source, hsubtracts, hdecides⟩ := h
  refine ⟨size, destination, source, ?_, hdecides.differs, hdecides.extend⟩
  cases hsubtracts with
  | data hbinary hcombines => exact .data hbinary hcombines.of_marked
  | memory hsource hdestination => exact .memory hsource.of_marked hdestination
  | address hmode hsource => exact .address hmode hsource.of_marked

end Operation

/-! ## Steps -/

section Steps

variable {machine final : Machine} {progress : Progress}

/-- A conditional instruction on the flags of a difference obeys the order of the operands. -/
theorem obeys_order_of_run_step {size : Size} {destination source : size.Value}
    (hdiffers : machine.registers.flags.ccr.Differs destination source)
    (hrun : (step handlers).run machine = .ok progress final) :
    ∃ before opcode operation, machine.Meets before opcode operation ∧
      operation.Obeys opcode ((Condition.ofOpcode opcode).Compares destination source) before
        final := by
  obtain ⟨before, opcode, operation, hmeets, hobeys⟩ := obeys_of_run_step hrun
  refine ⟨before, opcode, operation, hmeets, ?_⟩
  rw [← Condition.eval_iff_compares size.bits_pos hdiffers, ← Flags.holds_eq_eval]
  exact hobeys

/-- A step that subtracts or compares leaves flags on which every condition stands for one relation
between the operands. Whatever comes next, a conditional instruction on these flags obeys this
relation. -/
theorem comparison_of_run_step (hrun : (step handlers).run machine = .ok progress final) :
    ∃ before opcode operation, machine.Meets before opcode operation ∧
      (operation.subtracts = true →
        (∃ (size : Size) (destination source : size.Value),
          operation.Subtracts opcode before size destination source ∧
          (∀ condition, final.registers.flags.holds condition = true ↔
            condition.Compares destination source) ∧
          (operation.compares = true →
            final.registers.flags.extend = before.registers.flags.extend) ∧
          ∀ later after progress', later.registers.flags.ccr = final.registers.flags.ccr →
            (step handlers).run later = .ok progress' after →
            ∃ before' opcode' operation', later.Meets before' opcode' operation' ∧
              operation'.Obeys opcode'
                ((Condition.ofOpcode opcode').Compares destination source) before' after) ∨
        ∃ number binary size, operation = .quick binary size ∧
          Mode.ofField? opcode.operandField = some (.addressRegister number)) := by
  obtain ⟨before, opcode, operation, trace, performed, exitRequest, hmeets, hexecute, rfl⟩ :=
    exists_meets_of_run_step hrun
  refine ⟨before, opcode, operation, hmeets, fun hsubtracts ↦ ?_⟩
  obtain hdone | haddress := Operation.subtractsTo_of_run hmeets.lookup hsubtracts hexecute
  case inr => exact .inr haddress
  case inl =>
    obtain ⟨size, destination, source, hvalues, hdiffers, hextend⟩ :=
      Operation.SubtractsTo.of_marked hdone exitRequest
    refine .inl ⟨size, destination, source, hvalues, fun condition ↦ ?_, hextend, ?_⟩
    · rw [Flags.holds_eq_eval]
      exact Condition.eval_iff_compares size.bits_pos hdiffers condition
    · intro later after progress' hccr hlater
      rw [← hccr] at hdiffers
      exact obeys_order_of_run_step hdiffers hlater

/-- Compares two bytes whose difference is out of range, and branches if the first is less. -/
def comparingProgram : Machine where
  registers := { d := #v[0, 0x7F, 0x80, 0, 0, 0, 0, 0] }
  memory := .ram
    { size := 0x10
      written := .ofList [(0x00, (0xB4 : Byte)), (0x01, 0x01), (0x02, 0x6D), (0x03, 0x04)] }

/-- The branch obeys the order of the two bytes. -/
theorem comparison_of_run_step_comparingProgram :
    ∃ middle final, (step handlers).run comparingProgram = .ok .next middle ∧
      (step handlers).run middle = .ok .next final ∧ final.registers.pc = 8 ∧
      ∃ before opcode operation, middle.Meets before opcode operation ∧
        operation.Obeys opcode
          ((Condition.ofOpcode opcode).Compares (0x80 : BitVec 8) (0x7F : BitVec 8)) before
            final := by
  have hlookup : instructionSet.lookup 0xB401 = some (.toRegister .cmp .byte) := by
    rw [lookup_instructionSet]
    decide +kernel
  have hbranch : instructionSet.lookup 0x6D04 = some .branch := by
    rw [lookup_instructionSet]
    decide +kernel
  have hrun : (step handlers).run comparingProgram = .ok .next _ :=
    run_step_of_lookup hlookup rfl rfl rfl
  obtain ⟨before, opcode, operation, hmeets, h⟩ := comparison_of_run_step hrun
  have hfirst : comparingProgram.Meets comparingProgram 0xB401 _ := ⟨rfl, rfl, hlookup⟩
  obtain ⟨rfl, rfl, rfl⟩ := hfirst.unique hmeets
  obtain ⟨size, destination, source, hvalues, -, -, hlater⟩ | ⟨_, _, _, hquick, -⟩ := h rfl
  case inr => cases hquick
  obtain ⟨_, hcombines⟩ := hvalues
  obtain ⟨hmode, hsource⟩ := hcombines
  cases hmode
  obtain ⟨_, hget⟩ := hsource
  cases hget
  refine ⟨_, _, hrun, run_step_of_lookup hbranch rfl rfl rfl, rfl, ?_⟩
  exact hlater _ _ _ rfl (run_step_of_lookup hbranch rfl rfl rfl)

/-- Compares an address register with the word that it steps over. -/
def steppingProgram : Machine where
  registers := { a := #v[0x2000, 0, 0, 0, 0, 0, 0, 0] }
  memory := .ram
    { size := 0x2010
      written := .ofList [(0x00, (0xB0 : Byte)), (0x01, 0xD8), (0x2000, 0x20)] }

/-- The register was equal to the word before the instruction, and has been compared after it
stepped. -/
theorem equal_refused_steppingProgram :
    instructionSet.lookup 0xB0D8 = some (.withAddress .cmp .word) ∧
      steppingProgram.registers.getA 0 = 0x2000 ∧
      (⟨.postIncrement 0, 2⟩ : Operand .word).Reads steppingProgram 0x2000 ∧
      ∃ final, (step handlers).run steppingProgram = .ok .next final ∧
        final.registers.flags.holds .equal = false := by
  have hlookup : instructionSet.lookup 0xB0D8 = some (.withAddress .cmp .word) := by
    rw [lookup_instructionSet]
    decide +kernel
  exact ⟨hlookup, rfl, ⟨_, rfl⟩, _, run_step_of_lookup hlookup rfl rfl rfl, rfl⟩

end Steps

end M68000
