import M68000.Proofs.Exec.Blind

/-!
# Where operands are

An operand that can be read and written, and is no address register, is the low part of a data
register or lies in memory. Instructions that change such an operand read it, record the flags,
write the operand back and step its address register. The operand is written where it was read, and
the flags that were recorded in between make no difference.
-/

namespace M68000

open Exec

/-! ## Modes -/

namespace Mode

/-- The operand lies in memory and can be written. -/
def inMemory : Mode → Bool
  | dataRegister _ | addressRegister _ | pcDisplacement | pcIndexed | immediate => false
  | _ => true

/-- The operand is no address register and can be written. -/
def isDataAlterable : Mode → Bool
  | addressRegister _ | pcDisplacement | pcIndexed | immediate => false
  | _ => true

theorem cases_of_isDataAlterable {mode : Mode} (h : mode.isDataAlterable = true) :
    (∃ number, mode = .dataRegister number) ∨ mode.inMemory = true := by
  cases mode with
  | dataRegister number => exact .inl ⟨number, rfl⟩
  | _ => exact .inr h

end Mode

namespace Operand

variable {size : Size} {operand : Operand size}

section Fields

variable {field : BitVec 6} {offset : Nat} {mode : Mode} {rest : Operand size → Exec α}
  {machine final : Machine} {a : α}

theorem run_of_ofField? (hmode : Mode.ofField? field = some mode)
    (hrun : (ofField size field offset >>= rest).run machine = .ok a final) :
    (rest ⟨mode, offset⟩).run machine = .ok a final := by
  unfold ofField at hrun
  rw [hmode] at hrun
  exact hrun

/-- An instruction that is done has an operand. -/
theorem exists_mode_of_run
    (hrun : (ofField size field offset >>= rest).run machine = .ok a final) :
    ∃ mode, Mode.ofField? field = some mode ∧ (rest ⟨mode, offset⟩).run machine = .ok a final := by
  cases hmode : Mode.ofField? field with
  | none =>
    unfold ofField at hrun
    rw [hmode] at hrun
    cases hrun
  | some mode => exact ⟨mode, rfl, run_of_ofField? hmode hrun⟩

end Fields

theorem get_eq_of_inMemory (hmode : operand.mode.inMemory = true) :
    operand.get = (do Exec.read size (← operand.address)) := by
  obtain ⟨mode, offset⟩ := operand
  cases mode <;> first | rfl | cases hmode

theorem put_eq_of_inMemory (hmode : operand.mode.inMemory = true) (value : size.Value) :
    operand.put value = (do Exec.write size (← operand.address) value) := by
  obtain ⟨mode, offset⟩ := operand
  cases mode <;> first | rfl | cases hmode

/-- The value is the one that the operand has. -/
def Reads (operand : Operand size) (machine : Machine) (value : size.Value) : Prop :=
  ∃ next, operand.get.run machine = .ok value next

/-- A source is read, and its address register steps. -/
theorem exists_of_run_get_finish {rest : size.Value → Exec α} {machine final : Machine} {a : α}
    (hrun : (do
      let value ← operand.get
      operand.finish
      rest value).run machine = .ok a final) :
    ∃ value trace, operand.Reads machine value ∧
      (rest value).run { machine with registers := operand.finished machine.registers, trace } =
        .ok a final := by
  obtain ⟨value, middle, hget, hrun⟩ := run_bind_eq_ok.1 hrun
  obtain ⟨trace, rfl⟩ := exists_trace_of_run_get hget
  obtain ⟨_, _, hfinish, hrun⟩ := run_bind_eq_ok.1 hrun
  rw [run_finish] at hfinish
  cases hfinish
  exact ⟨value, trace, ⟨_, hget⟩, hrun⟩

theorem exists_trace_of_run_address {machine next : Machine} {address : Address}
    (hrun : operand.address.run machine = .ok address next) :
    ∃ trace, next = { machine with trace } :=
  exists_trace_of_run_eq_ok
    (fun start ↦ start.ignoresTrace_traced.maintains_address operand) hrun

end Operand

/-! ## Locations -/

/-- Where an operand is. -/
inductive Location where
  | register (number : Fin 8)
  | memory (address : Address)
  deriving DecidableEq

namespace Location

variable (location : Location) {size : Size}

/-- The location has the value, as it is read with a function code. -/
def Holds (code : FunctionCode) (machine : Machine) (value : size.Value) : Prop :=
  match location with
  | register number => size.low (machine.registers.getD number) = value
  | memory address => machine.memory.read code address size = .ok value

/-- The registers and the memory are those after a value is written to the location. -/
def Stores (machine : Machine) (value : size.Value) (registers : Registers) (memory : Space) :
    Prop :=
  match location with
  | register number =>
    registers = machine.registers.setD number
        (size.replaceLow (machine.registers.getD number) value) ∧
      memory = machine.memory
  | Location.memory address =>
    registers = machine.registers ∧
      machine.memory.write machine.dataCode address size value = .ok () memory

/-- The registers and the memory are those after a value, if there is one, is written. -/
def StoresAny (machine : Machine) (value? : Option size.Value) (registers : Registers)
    (memory : Space) : Prop :=
  match value? with
  | some value => location.Stores machine value registers memory
  | none => registers = machine.registers ∧ memory = machine.memory

/-- What a location has depends on the data registers and the memory. -/
theorem Holds.congr {location : Location} {code : FunctionCode} {machine other : Machine}
    {value : size.Value} (h : location.Holds code machine value)
    (hdata : ∀ number, other.registers.getD number = machine.registers.getD number)
    (hmemory : other.memory = machine.memory) : location.Holds code other value := by
  cases location with
  | register number => exact (congrArg size.low (hdata number)).trans h
  | memory address => rw [Holds, hmemory]; exact h

end Location

namespace Operand

variable {size : Size} {operand : Operand size} {machine next final : Machine}

/-- The operand of this mode is at the location. -/
def LiesAt (operand : Operand size) (machine : Machine) : Location → Prop
  | .register number => operand.mode = .dataRegister number
  | .memory address => operand.mode.inMemory = true ∧
      ∃ next, operand.address.run machine = .ok address next

/-- What has been read from memory is at the address where the operand was found. -/
theorem exists_address_of_run_get {value : size.Value} (hmemory : operand.mode.inMemory = true)
    (hrun : operand.get.run machine = .ok value next) :
    ∃ address, operand.LiesAt machine (.memory address) ∧
      machine.memory.read machine.dataCode address size = .ok value := by
  rw [get_eq_of_inMemory hmemory] at hrun
  obtain ⟨address, middle, haddress, hread⟩ := run_bind_eq_ok.1 hrun
  obtain ⟨trace, rfl⟩ := exists_trace_of_run_address haddress
  exact ⟨address, ⟨hmemory, _, haddress⟩, (run_readAs_eq_ok.1 hread).1⟩

/-- What has been read is at the location of the operand. -/
theorem exists_location_of_run_get {value : size.Value}
    (hmode : operand.mode.isDataAlterable = true)
    (hrun : operand.get.run machine = .ok value next) :
    ∃ location : Location, operand.LiesAt machine location ∧
      location.Holds machine.dataCode machine value := by
  obtain ⟨number, hregister⟩ | hmemory := Mode.cases_of_isDataAlterable hmode
  · refine ⟨.register number, hregister, ?_⟩
    obtain ⟨mode, offset⟩ := operand
    obtain rfl : mode = .dataRegister number := hregister
    cases hrun
    rfl
  · obtain ⟨address, hlies, hread⟩ := exists_address_of_run_get hmemory hrun
    exact ⟨.memory address, hlies, hread⟩

/-- What has been written is at a location. -/
theorem exists_location_of_run_put {value : size.Value}
    (hmode : operand.mode.isDataAlterable = true)
    (hrun : (operand.put value).run machine = .ok () next) :
    ∃ location : Location, operand.LiesAt machine location := by
  obtain ⟨number, hregister⟩ | hmemory := Mode.cases_of_isDataAlterable hmode
  · exact ⟨.register number, hregister⟩
  · rw [put_eq_of_inMemory hmemory] at hrun
    obtain ⟨address, middle, haddress, -⟩ := run_bind_eq_ok.1 hrun
    exact ⟨.memory address, hmemory, middle, haddress⟩

/-- An operand in memory that has been found is found again. -/
theorem exists_run_address_marked {address : Address}
    (hlies : operand.LiesAt machine (.memory address)) (flags : Flags) (opcode : Opcode)
    (trace : Option (List BusAccess)) :
    ∃ trace', operand.address.run (machine.marked flags opcode trace) =
      .ok address (machine.marked flags opcode trace') := by
  obtain ⟨-, middle, haddress⟩ := hlies
  obtain ⟨seen, rfl⟩ := exists_trace_of_run_address haddress
  exact blind_address operand machine address _ haddress flags opcode trace

/-- The operand is written where it was found, also if flags have been recorded and accesses seen
since then. -/
theorem exists_stores_of_run_put {location : Location} {value : size.Value} {flags : Flags}
    {opcode : Opcode} {trace : Option (List BusAccess)} (hlies : operand.LiesAt machine location)
    (hrun : (operand.put value).run (machine.marked flags opcode trace) = .ok () final) :
    ∃ registers memory trace', location.Stores machine value registers memory ∧
      final = { machine with
        registers := { registers with flags }, memory, opcode, trace := trace' } := by
  cases location with
  | register number =>
    obtain ⟨mode, offset⟩ := operand
    obtain rfl : mode = .dataRegister number := hlies
    cases hrun
    exact ⟨_, machine.memory, trace, ⟨rfl, rfl⟩, rfl⟩
  | memory address =>
    obtain ⟨trace', hfound⟩ := exists_run_address_marked hlies flags opcode trace
    rw [put_eq_of_inMemory hlies.1] at hrun
    obtain ⟨address', middle', haddress', hwrite⟩ := run_bind_eq_ok.1 hrun
    obtain ⟨rfl, rfl⟩ := EStateM.Result.ok.inj (hfound.symm.trans haddress')
    obtain ⟨memory, hmemory, rfl⟩ := run_writeAs_eq_ok.1 hwrite
    exact ⟨machine.registers, memory, _, ⟨rfl, hmemory⟩, rfl⟩

/-! ## Notes -/

section Notes

variable {flags : Flags} {opcode : Opcode} {trace : Option (List BusAccess)}

/-- What is done on a machine with notes is done without them. -/
theorem exists_run_of_run_marked {action : Exec α} (hblind : Blind action) {a : α}
    (hrun : action.run (machine.marked flags opcode trace) = .ok a next) :
    ∃ next', action.run machine = .ok a next' := by
  obtain ⟨trace', hrun'⟩ :=
    hblind _ a next hrun machine.registers.flags machine.opcode machine.trace
  exact ⟨_, hrun'⟩

theorem Reads.of_marked {value : size.Value}
    (h : operand.Reads (machine.marked flags opcode trace) value) :
    operand.Reads machine value := by
  obtain ⟨next, hrun⟩ := h
  exact exists_run_of_run_marked (blind_operandGet operand) hrun

theorem Reads.marked {value : size.Value} (h : operand.Reads machine value) (flags : Flags)
    (opcode : Opcode) (trace : Option (List BusAccess)) :
    operand.Reads (machine.marked flags opcode trace) value := by
  obtain ⟨next, hrun⟩ := h
  obtain ⟨_, hrun'⟩ := blind_operandGet operand machine value next hrun flags opcode trace
  exact ⟨_, hrun'⟩

theorem LiesAt.of_marked {location : Location}
    (h : operand.LiesAt (machine.marked flags opcode trace) location) :
    operand.LiesAt machine location := by
  cases location with
  | register number => exact h
  | memory address =>
    obtain ⟨hmemory, next, hrun⟩ := h
    exact ⟨hmemory, exists_run_of_run_marked (blind_address operand) hrun⟩

end Notes

/-! ## Changing an operand -/

/-- Reads the operand, records what follows for the flags, writes what comes out, if anything, and
is done with the operand. What comes out may depend on the flags from before. -/
def modify (operand : Operand size) (record : size.Value → Flags → Flags)
    (result? : size.Value → Flags → Option size.Value) : Exec Unit := do
  let value ← operand.get
  let before ← Exec.flags
  modifyFlags (record value)
  if let some result := result? value before then
    operand.put result
  operand.finish

variable (operand)

theorem finished_flags (registers : Registers) (flags : Flags) :
    operand.finished { registers with flags } = { operand.finished registers with flags } := by
  unfold finished
  split <;> rfl

theorem finished_setD (registers : Registers) (number : Fin 8) (value : BitVec 32) :
    operand.finished (registers.setD number value) =
      (operand.finished registers).setD number value := by
  unfold finished
  split <;> rfl

theorem finished_data (registers : Registers) (d : Vector (BitVec 32) 8) :
    operand.finished { registers with d } = { operand.finished registers with d } := by
  unfold finished
  split <;> rfl

end Operand

end M68000
