import M68000.Proofs.Arithmetic.Performed
import M68000.Proofs.Exec.Rewrite

/-!
# Two-operand arithmetic in all its forms

Whichever form an operation comes in and whatever mode its operand has, it combines the value of one
location with another value. The location then holds the result, the flags are those of the exact
result, and nothing else changes but the address register that the operand steps. On an address
register an operation works on all bits and changes no flag.
-/

namespace M68000

open Exec

/-! ## Forms -/

/-- The operations on a data operand, with the size they work on. -/
def Operation.binary? : Operation → Option (Binary × Size)
  | toRegister binary size | fromRegister binary size | withImmediate binary size
  | quick binary size => some (binary, size)
  | _ => none

/-- The operation of the opcode combines what a location holds with a source. The operand is the one
that the opcode names, and lies at the location unless that is the register of the opcode. -/
inductive Operation.Combines (opcode : Opcode) (machine : Machine) (binary : Binary) (size : Size) :
    Operation → Operand size → Location → size.Value → size.Value → Prop
  | toRegister {mode : Mode} {source : size.Value}
      (hmode : Mode.ofField? opcode.operandField = some mode)
      (hsource : (⟨mode, 2⟩ : Operand size).Reads machine source) :
    Combines opcode machine binary size (.toRegister binary size) ⟨mode, 2⟩
      (.register (opcode.numberFrom 9)) (size.low (machine.registers.getD (opcode.numberFrom 9)))
      source
  | fromRegister {mode : Mode} {location : Location} {destination : size.Value}
      (hmode : Mode.ofField? opcode.operandField = some mode)
      (hlies : (⟨mode, 2⟩ : Operand size).LiesAt machine location)
      (hholds : location.Holds machine.dataCode machine destination) :
    Combines opcode machine binary size (.fromRegister binary size) ⟨mode, 2⟩ location destination
      (size.low (machine.registers.getD (opcode.numberFrom 9)))
  | withImmediate {mode : Mode} {location : Location} {destination source : size.Value}
      (hmode : Mode.ofField? opcode.operandField = some mode)
      (hsource : (⟨.immediate, 2⟩ : Operand size).Reads machine source)
      (hlies : (⟨mode, 2 + size.alignedBytes⟩ : Operand size).LiesAt machine location)
      (hholds : location.Holds machine.dataCode machine destination) :
    Combines opcode machine binary size (.withImmediate binary size) ⟨mode, 2 + size.alignedBytes⟩
      location destination source
  | quick {mode : Mode} {location : Location} {destination : size.Value}
      (hmode : Mode.ofField? opcode.operandField = some mode)
      (hlies : (⟨mode, 2⟩ : Operand size).LiesAt machine location)
      (hholds : location.Holds machine.dataCode machine destination) :
    Combines opcode machine binary size (.quick binary size) ⟨mode, 2⟩ location destination
      (BitVec.ofNat size.bits opcode.quickNumber)

namespace Instruction

variable {operation : Binary} {size : Size} {opcode : Opcode} {machine final : Machine}

@[simp]
theorem run_compute (operation : Binary) (destination source : BitVec n) (machine : Machine) :
    (compute operation destination source).run machine =
      .ok (operation.result? destination source) { machine with
        registers := { machine.registers with
          flags := operation.record destination source machine.registers.flags } } := by
  rw [Binary.result?, ← operation.result_eq_outcome]
  rfl

theorem update_eq_modify (operation : Binary) (operand : Operand size) (source : size.Value) :
    update operation operand source =
      operand.modify (fun destination ↦ operation.record destination source)
        fun destination _ ↦ operation.result? destination source := by
  unfold update Operand.modify
  refine bind_congr fun destination ↦ ?_
  simp only [Binary.result?, ← operation.result_eq_outcome]
  funext machine
  rfl

/-- A data operand is combined with a source where it lies. -/
theorem exists_performed_of_run_update (operand : Operand size) {source : size.Value}
    (hmode : operand.mode.isDataAlterable = true)
    (hrun : (do
      update operation operand source
      advancePc (operand.offset + operand.extensionBytes)).run machine = .ok () final) :
    ∃ location destination, operand.LiesAt machine location ∧
      location.Holds machine.dataCode machine destination ∧
      operation.Performed operand location destination source machine final := by
  obtain ⟨_, middle, hupdate, hrun⟩ := run_bind_eq_ok.1 hrun
  rw [update_eq_modify] at hupdate
  obtain ⟨location, destination, registers, memory, trace, hlies, hholds, hstores, rfl⟩ :=
    Operand.exists_of_run_modify hmode hupdate
  cases hrun
  exact ⟨location, destination, hlies, hholds, Binary.performed_of_storesAny hstores rfl rfl⟩

/-- A data register is combined with what the operand reads. -/
theorem exists_performed_of_run_toRegister
    (hrun : (toRegister operation size opcode).run machine = .ok () final) :
    ∃ mode source, Mode.ofField? opcode.operandField = some mode ∧
      (⟨mode, 2⟩ : Operand size).Reads machine source ∧
      operation.Performed (⟨mode, 2⟩ : Operand size) (.register (opcode.numberFrom 9))
        (size.low (machine.registers.getD (opcode.numberFrom 9))) source machine final := by
  rw [← opcode.highRegister_eq_numberFrom]
  obtain ⟨mode, hmode, hrun⟩ := Operand.exists_mode_of_run hrun
  obtain ⟨source, trace, hreads, hrun⟩ := Operand.exists_of_run_get_finish hrun
  obtain ⟨_, _, hregister, hrun⟩ := run_bind_eq_ok.1 hrun
  rw [run_getD, Operand.getD_finished] at hregister
  cases hregister
  obtain ⟨_, _, hcompute, hrun⟩ := run_bind_eq_ok.1 hrun
  rw [run_compute, Operand.flags_finished] at hcompute
  cases hcompute
  refine ⟨mode, source, hmode, hreads, ?_⟩
  let before := machine.registers.getD opcode.highRegister
  cases hresult : operation.result? (size.low before) source with
  | none =>
    simp only [before, hresult] at hrun
    cases hrun
    have hstores : (Location.register opcode.highRegister).StoresAny machine
        (operation.result? (size.low before) source) machine.registers machine.memory := by
      rw [hresult]
      exact ⟨rfl, rfl⟩
    exact Binary.performed_of_storesAny hstores rfl rfl
  | some result =>
    simp only [before, hresult] at hrun
    cases hrun
    have hstores : (Location.register opcode.highRegister).StoresAny machine
        (operation.result? (size.low before) source)
        (machine.registers.setD opcode.highRegister (size.replaceLow before result))
        machine.memory := by
      rw [hresult]
      exact ⟨rfl, rfl⟩
    refine Binary.performed_of_storesAny hstores ?_ rfl
    rw [Operand.finished_setD]
    rfl

/-- ADDQ and SUBQ read and write the whole of an address register. -/
theorem run_quick_addressRegister {number : Fin 8}
    (hmode : Mode.ofField? opcode.operandField = some (.addressRegister number)) :
    (quick operation size opcode).run machine = .ok () { machine with
      registers := (machine.registers.setA number
        (operation.outcome (machine.registers.getA number)
          (BitVec.ofNat 32 opcode.quickNumber))).advancePc 2 } := by
  rw [← opcode.quickValue_eq_quickNumber, ← operation.result_eq_outcome, quick, ofField_bind hmode]
  rfl

/-- The machine after the words of an immediate operand have been read. -/
theorem exists_of_run_fetch {offset : Nat} {value : size.Value} {next : Machine}
    (hrun : (fetch size offset).run machine = .ok value next) :
    (⟨.immediate, offset⟩ : Operand size).Reads machine value ∧
      ∃ trace, next = machine.marked machine.registers.flags machine.opcode trace := by
  have hget : (⟨.immediate, offset⟩ : Operand size).get.run machine = .ok value next := hrun
  obtain ⟨trace, rfl⟩ := Operand.exists_trace_of_run_get hget
  exact ⟨⟨_, hget⟩, trace, rfl⟩

end Instruction

/-! ## Data operands -/

namespace Operation

variable {operation : Operation} {binary : Binary} {size : Size} {opcode : Opcode}
  {machine final : Machine}

/-- The operation of a form has been performed on the values that the form names. -/
def CombinesTo (operation : Operation) (opcode : Opcode) (binary : Binary) (size : Size)
    (machine final : Machine) : Prop :=
  ∃ (operand : Operand size) (location : Location) (destination source : size.Value),
    Combines opcode machine binary size operation operand location destination source ∧
      binary.Performed operand location destination source machine final

/-- What a form names does not depend on notes. -/
theorem Combines.of_marked {operand : Operand size} {location : Location}
    {destination source : size.Value} {noted : Opcode} {trace : Option (List BusAccess)}
    (h : Combines opcode (machine.marked machine.registers.flags noted trace) binary size operation
      operand location destination source) :
    Combines opcode machine binary size operation operand location destination source := by
  cases h with
  | toRegister hmode hsource => exact .toRegister hmode hsource.of_marked
  | fromRegister hmode hlies hholds =>
    exact .fromRegister hmode hlies.of_marked (hholds.congr (fun _ ↦ rfl) rfl)
  | withImmediate hmode hsource hlies hholds =>
    exact .withImmediate hmode hsource.of_marked hlies.of_marked (hholds.congr (fun _ ↦ rfl) rfl)
  | quick hmode hlies hholds =>
    exact .quick hmode hlies.of_marked (hholds.congr (fun _ ↦ rfl) rfl)

theorem CombinesTo.of_marked {noted : Opcode} {trace : Option (List BusAccess)}
    (h : CombinesTo operation opcode binary size
      (machine.marked machine.registers.flags noted trace) final)
    (exitRequest : Option (BitVec 32)) :
    CombinesTo operation opcode binary size machine { final with exitRequest } := by
  obtain ⟨operand, location, destination, source, hcombines, hperformed⟩ := h
  exact ⟨operand, location, destination, source, hcombines.of_marked,
    hperformed.congr rfl rfl rfl rfl⟩

theorem combinesTo_fromRegister
    (hlookup : instructionSet.lookup opcode = some (.fromRegister binary size))
    (hrun : (Instruction.fromRegister binary size opcode).run machine = .ok () final) :
    CombinesTo (.fromRegister binary size) opcode binary size machine final := by
  obtain ⟨mode, hmode, halterable⟩ := exists_isDataAlterable hlookup rfl
  have hrun := Operand.run_of_ofField? hmode hrun
  obtain ⟨_, _, hregister, hrun⟩ := run_bind_eq_ok.1 hrun
  cases hregister
  rw [opcode.highRegister_eq_numberFrom] at hrun
  obtain ⟨location, destination, hlies, hholds, hperformed⟩ :=
    Instruction.exists_performed_of_run_update ⟨mode, 2⟩ halterable hrun
  exact ⟨_, location, destination, _, .fromRegister hmode hlies hholds, hperformed⟩

theorem combinesTo_withImmediate
    (hlookup : instructionSet.lookup opcode = some (.withImmediate binary size))
    (hrun : (Instruction.withImmediate binary size opcode).run machine = .ok () final) :
    CombinesTo (.withImmediate binary size) opcode binary size machine final := by
  obtain ⟨mode, hmode, halterable⟩ := exists_isDataAlterable hlookup rfl
  obtain ⟨source, _, hsource, hrun⟩ := run_bind_eq_ok.1 hrun
  obtain ⟨hreads, trace, rfl⟩ := Instruction.exists_of_run_fetch hsource
  have hrun := Operand.run_of_ofField? hmode hrun
  obtain ⟨location, destination, hlies, hholds, hperformed⟩ :=
    Instruction.exists_performed_of_run_update ⟨mode, 2 + size.alignedBytes⟩ halterable hrun
  have hcombines : Combines opcode machine binary size (.withImmediate binary size) _ location
      destination source :=
    .withImmediate hmode hreads hlies.of_marked (hholds.congr (fun _ ↦ rfl) rfl)
  exact ⟨_, location, destination, source, hcombines, hperformed.congr rfl rfl rfl rfl⟩

/-- ADDQ and SUBQ on a data operand. -/
theorem combinesTo_quick {mode : Mode} (hmode : Mode.ofField? opcode.operandField = some mode)
    (hdata : mode.isDataAlterable = true)
    (hrun : (Instruction.quick binary size opcode).run machine = .ok () final) :
    CombinesTo (.quick binary size) opcode binary size machine final := by
  have hrun := Operand.run_of_ofField? hmode hrun
  have hupdate : (do
      Instruction.update binary (⟨mode, 2⟩ : Operand size)
        (BitVec.ofNat size.bits opcode.quickNumber)
      advancePc (2 + mode.extensionBytes size)).run machine = .ok () final := by
    rw [← opcode.quickValue_eq_quickNumber]
    cases mode with
    | addressRegister number => cases hdata
    | _ => exact hrun
  obtain ⟨location, destination, hlies, hholds, hperformed⟩ :=
    Instruction.exists_performed_of_run_update ⟨mode, 2⟩ hdata hupdate
  exact ⟨_, location, destination, _, .quick hmode hlies hholds, hperformed⟩

theorem combinesTo_toRegister
    (hrun : (Instruction.toRegister binary size opcode).run machine = .ok () final) :
    CombinesTo (.toRegister binary size) opcode binary size machine final := by
  obtain ⟨mode, source, hmode, hreads, hperformed⟩ :=
    Instruction.exists_performed_of_run_toRegister hrun
  exact ⟨_, _, _, source, .toRegister hmode hreads, hperformed⟩

/-! ## Address registers -/

/-- ADDQ and SUBQ work on a whole address register. -/
structure ChangesAddress (binary : Binary) (opcode : Opcode) (number : Fin 8)
    (before after : Machine) : Prop where
  mode : Mode.ofField? opcode.operandField = some (.addressRegister number)
  memory : after.memory = before.memory
  registers : after.registers = (before.registers.setA number
    (binary.outcome (before.registers.getA number)
      (BitVec.ofNat 32 opcode.quickNumber))).advancePc 2
  flags : after.registers.flags = before.registers.flags

theorem changesAddress_of_run {number : Fin 8}
    (hmode : Mode.ofField? opcode.operandField = some (.addressRegister number))
    (hrun : (Instruction.quick binary size opcode).run machine = .ok () final) :
    ChangesAddress binary opcode number machine final := by
  rw [Instruction.run_quick_addressRegister hmode] at hrun
  cases hrun
  exact ⟨hmode, rfl, rfl, rfl⟩

end Operation

/-- The registers after an operation on a whole address register. -/
def AddressOperation.applied (operation : AddressOperation) (number : Fin 8) (source : BitVec 32)
    (registers : Registers) : Registers :=
  let destination := registers.getA number
  match operation with
  | add => registers.setA number (destination + source)
  | sub => registers.setA number (destination - source)
  | cmp =>
    { registers with
      flags := registers.flags.setCompare (destination - source) destination source }

/-- The operation has been performed on a whole address register, as it was after the side effect of
its source, and on the source with its sign extended. -/
structure AddressOperation.Performed (operation : AddressOperation) {size : Size} (opcode : Opcode)
    (operand : Operand size) (source : size.Value) (before after : Machine) : Prop where
  mode : Mode.ofField? opcode.operandField = some operand.mode
  reads : operand.Reads before source
  memory : after.memory = before.memory
  registers : after.registers =
    (operation.applied (opcode.numberFrom 9) (source.signExtend 32)
      (operand.finished before.registers)).advancePc (operand.offset + operand.extensionBytes)
  flags : operation ≠ .cmp → after.registers.flags = before.registers.flags

theorem AddressOperation.exists_performed_of_run {operation : AddressOperation} {size : Size}
    {opcode : Opcode} {machine final : Machine}
    (hrun : (Instruction.withAddress operation size opcode).run machine = .ok () final) :
    ∃ mode source,
      operation.Performed opcode (⟨mode, 2⟩ : Operand size) source machine final := by
  obtain ⟨mode, hmode, hrun⟩ := Operand.exists_mode_of_run hrun
  obtain ⟨source, trace, hreads, hrun⟩ := Operand.exists_of_run_get_finish hrun
  obtain ⟨_, _, hregister, hrun⟩ := run_bind_eq_ok.1 hrun
  cases hregister
  rw [opcode.highRegister_eq_numberFrom] at hrun
  refine ⟨mode, source, ?_⟩
  have hflags := (⟨mode, 2⟩ : Operand size).flags_finished machine.registers
  cases operation with
  | add =>
    cases hrun
    exact ⟨hmode, hreads, rfl, rfl, fun _ ↦ hflags⟩
  | sub =>
    cases hrun
    exact ⟨hmode, hreads, rfl, rfl, fun _ ↦ hflags⟩
  | cmp =>
    cases hrun
    exact ⟨hmode, hreads, rfl, rfl, fun hne ↦ absurd rfl hne⟩

/-! ## Steps -/

section Steps

variable {machine final : Machine} {progress : Progress}

/-- An operation on a data operand is performed in the way of its form, unless it works on a whole
address register. -/
theorem Operation.combinesTo_or_changesAddress {operation : Operation} {binary : Binary}
    {size : Size} {opcode : Opcode} (hlookup : instructionSet.lookup opcode = some operation)
    (hbinary : operation.binary? = some (binary, size))
    (hrun : (operation.execute opcode).run machine = .ok () final) :
    operation.CombinesTo opcode binary size machine final ∨
      ∃ number, operation = .quick binary size ∧
        ChangesAddress binary opcode number machine final := by
  cases operation with
  | toRegister =>
    cases hbinary
    exact .inl (combinesTo_toRegister hrun)
  | fromRegister =>
    cases hbinary
    exact .inl (combinesTo_fromRegister hlookup hrun)
  | withImmediate =>
    cases hbinary
    exact .inl (combinesTo_withImmediate hlookup hrun)
  | quick =>
    cases hbinary
    obtain ⟨mode, hmode, halterable⟩ := (legal_of_lookup hlookup).operand _ rfl
    rw [ModeSet.contains_alterable] at halterable
    cases mode with
    | addressRegister number => exact .inr ⟨number, rfl, changesAddress_of_run hmode hrun⟩
    | _ => exact .inl (combinesTo_quick hmode halterable hrun)
  | _ => cases hbinary

/-- A step with an operation on two operands has performed it, in whatever form it comes and
whatever mode its operand has. -/
theorem arithmetic_of_run_step (hrun : (step handlers).run machine = .ok progress final) :
    ∃ before opcode operation, machine.Meets before opcode operation ∧
      (∀ binary size, operation.binary? = some (binary, size) →
        operation.CombinesTo opcode binary size before final ∨
        ∃ number, operation = .quick binary size ∧
          Operation.ChangesAddress binary opcode number before final) ∧
      ∀ binary size, operation = .withAddress binary size →
        ∃ mode source, binary.Performed opcode (⟨mode, 2⟩ : Operand size) source before final := by
  obtain ⟨before, opcode, operation, trace, performed, exitRequest, hmeets, hexecute, rfl⟩ :=
    exists_meets_of_run_step hrun
  refine ⟨before, opcode, operation, hmeets, fun binary size hbinary ↦ ?data, ?address⟩
  case data =>
    obtain hcombines | ⟨number, hquick, hwhole⟩ :=
      Operation.combinesTo_or_changesAddress hmeets.lookup hbinary hexecute
    · exact .inl (Operation.CombinesTo.of_marked hcombines exitRequest)
    · exact .inr ⟨number, hquick, hwhole.mode, hwhole.memory, hwhole.registers, hwhole.flags⟩
  case address =>
    rintro binary size rfl
    obtain ⟨mode, source, h⟩ := AddressOperation.exists_performed_of_run hexecute
    exact ⟨mode, source, h.mode, h.reads.of_marked, h.memory, h.registers, h.flags⟩

/-- Adds a byte of a data register to memory, with a carry, and steps over it. -/
def addingProgram : Machine where
  registers := { d := #v[0, 0x20, 0, 0, 0, 0, 0, 0], a := #v[8, 0, 0, 0, 0, 0, 0, 0] }
  memory := .ram
    { size := 0x10, written := .ofList [(0x00, (0xD3 : Byte)), (0x01, 0x18), (0x08, 0xF0)] }

theorem arithmetic_of_run_step_addingProgram :
    ∃ final, (step handlers).run addingProgram = .ok .next final ∧
      (∃ before, (Operation.fromRegister .add .byte).CombinesTo 0xD318 .add .byte before final) ∧
      (∀ code, final.memory.read code 8 .byte = .ok (0x10 : Byte)) ∧
      final.registers.flags.ccr = { Ccr.clear with extend := true, carry := true } ∧
      final.registers.getA 0 = 9 := by
  have hlookup : instructionSet.lookup 0xD318 = some (.fromRegister .add .byte) := by
    rw [lookup_instructionSet]
    decide +kernel
  obtain ⟨final, hrun⟩ : ∃ final, (step handlers).run addingProgram = .ok .next final :=
    ⟨_, run_step_of_lookup hlookup rfl rfl rfl⟩
  obtain ⟨before, opcode, operation, hmeets, hdata, -⟩ := arithmetic_of_run_step hrun
  have hfirst : addingProgram.Meets addingProgram 0xD318 _ := ⟨rfl, rfl, hlookup⟩
  obtain ⟨rfl, rfl, rfl⟩ := hfirst.unique hmeets
  obtain hcombines | ⟨_, hquick, -⟩ := hdata .add .byte rfl
  case inr => cases hquick
  case inl =>
    refine ⟨final, hrun, ⟨_, hcombines⟩, ?_⟩
    obtain ⟨_, location, _, _, hforms, hperformed⟩ := hcombines
    cases hforms with
    | fromRegister hmode hlies hholds =>
      cases hmode
      cases location with
      | register number => cases hlies
      | memory address =>
        obtain ⟨-, _, haddress⟩ := hlies
        cases haddress
        cases hholds
        exact ⟨hperformed.result nofun, hperformed.ccr.trans rfl, (hperformed.address 0).trans rfl⟩

end Steps

end M68000
