import M68000.Operand

/-!
# What actions do

The outcome of each primitive action as a function of the machine. An instruction is understood
by composing these, without opening the actions again.
-/

namespace M68000

namespace Exec

variable (machine : Machine)

/-! ## Composition -/

/-- A sequence is done if its first action is done and the rest is done from there. -/
theorem run_bind_eq_ok {action : Exec α} {rest : α → Exec β} {machine final : Machine} {b : β} :
    (action >>= rest).run machine = .ok b final ↔
      ∃ a next, action.run machine = .ok a next ∧ (rest a).run next = .ok b final := by
  rw [EStateM.run_bind]
  cases action.run machine with
  | ok a next =>
    constructor
    · intro h
      exact ⟨a, next, rfl, h⟩
    · rintro ⟨_, _, heq, h⟩
      cases heq
      exact h
  | error fault next =>
    constructor
    · intro h
      cases h
    · rintro ⟨_, _, heq, _⟩
      cases heq

@[simp]
theorem run_throw (fault : Fault) : (throw fault : Exec α).run machine = .error fault machine :=
  rfl

/-- The machine that an action leaves behind, also if it ends in a fault. -/
def after (action : Exec α) (machine : Machine) : Machine :=
  match action.run machine with
  | .ok _ machine | .error _ machine => machine

theorem after_of_run_eq_ok {action : Exec α} {machine final : Machine} {a : α}
    (h : action.run machine = .ok a final) : action.after machine = final := by
  rw [after, h]

theorem after_of_run_eq_error {action : Exec α} {machine final : Machine} {fault : Fault}
    (h : action.run machine = .error fault final) : action.after machine = final := by
  rw [after, h]

/-! ## Registers -/

@[simp]
theorem run_registers : registers.run machine = .ok machine.registers machine :=
  rfl

@[simp]
theorem run_modifyRegisters (f : Registers → Registers) :
    (modifyRegisters f).run machine =
      .ok () { machine with registers := f machine.registers } :=
  rfl

@[simp]
theorem run_flags : flags.run machine = .ok machine.registers.flags machine :=
  rfl

@[simp]
theorem run_modifyFlags (f : Flags → Flags) :
    (modifyFlags f).run machine =
      .ok () { machine with
        registers := { machine.registers with flags := f machine.registers.flags } } :=
  rfl

@[simp]
theorem run_setCcr (ccr : Ccr) :
    (setCcr ccr).run machine =
      .ok () { machine with registers := machine.registers.setCcr ccr } :=
  rfl

@[simp]
theorem run_getD (number : Fin 8) :
    (getD number).run machine = .ok (machine.registers.getD number) machine :=
  rfl

@[simp]
theorem run_setD (number : Fin 8) (value : BitVec 32) :
    (setD number value).run machine =
      .ok () { machine with registers := machine.registers.setD number value } :=
  rfl

@[simp]
theorem run_getA (number : Fin 8) :
    (getA number).run machine = .ok (machine.registers.getA number) machine :=
  rfl

@[simp]
theorem run_setA (number : Fin 8) (value : Address) :
    (setA number value).run machine =
      .ok () { machine with registers := machine.registers.setA number value } :=
  rfl

@[simp]
theorem run_pc : pc.run machine = .ok machine.registers.pc machine :=
  rfl

@[simp]
theorem run_setPc (address : Address) :
    (setPc address).run machine =
      .ok () { machine with registers := { machine.registers with pc := address } } :=
  rfl

@[simp]
theorem run_advancePc (bytes : Nat) :
    (advancePc bytes).run machine =
      .ok () { machine with registers := machine.registers.advancePc bytes } :=
  rfl

/-! ## Faults -/

@[simp]
theorem run_illegal :
    (illegal : Exec α).run machine =
      .error (.illegalInstruction machine.opcode machine.registers.pc) machine :=
  rfl

theorem run_requireSupervisor_of_user (huser : machine.registers.supervisor = false) :
    requireSupervisor.run machine =
      .error (.privilegeViolation machine.opcode machine.registers.pc) machine := by
  rw [requireSupervisor, EStateM.run_bind, run_registers]
  simp only [huser]
  rfl

theorem run_requireSupervisor_of_supervisor (hsupervisor : machine.registers.supervisor = true) :
    requireSupervisor.run machine = .ok () machine := by
  rw [requireSupervisor, EStateM.run_bind, run_registers]
  simp only [hsupervisor]
  rfl

/-! ## The bus -/

theorem run_readAs (code : FunctionCode) (size : Size) (address : Address) :
    (readAs code size address).run machine =
      match machine.memory.read code address size with
      | .ok value => .ok value (machine.observe .read size code address (some value))
      | .error refusal =>
        .error (Fault.bus refusal) (machine.observe .read size code address none) :=
  rfl

theorem run_writeAs (code : FunctionCode) (size : Size) (address : Address)
    (value : size.Value) :
    (writeAs code size address value).run machine =
      match machine.memory.write code address size value with
      | .ok () memory =>
        .ok () ({ machine with memory }.observe .write size code address (some value))
      | .error refusal memory =>
        .error (Fault.bus refusal)
          ({ machine with memory }.observe .write size code address none) :=
  rfl

theorem run_readAs_eq_ok {code : FunctionCode} {size : Size} {address : Address}
    {value : size.Value} {machine final : Machine} :
    (readAs code size address).run machine = .ok value final ↔
      machine.memory.read code address size = .ok value ∧
        final = machine.observe .read size code address (some value) := by
  rw [run_readAs]
  cases machine.memory.read code address size with
  | ok read => grind
  | error refusal => simp

theorem run_writeAs_eq_ok {code : FunctionCode} {size : Size} {address : Address}
    {value : size.Value} {done : Unit} {machine final : Machine} :
    (writeAs code size address value).run machine = .ok done final ↔
      ∃ memory, machine.memory.write code address size value = .ok () memory ∧
        final = { machine with memory }.observe .write size code address (some value) := by
  rw [run_writeAs]
  cases machine.memory.write code address size value with
  | ok _ memory => grind
  | error refusal memory => simp

/-- A read that is refused changes nothing but the record of the bus. -/
theorem run_readAs_eq_error {code : FunctionCode} {size : Size} {address : Address}
    {fault : Fault} {machine final : Machine} :
    (readAs code size address).run machine = .error fault final ↔
      ∃ refusal, machine.memory.read code address size = .error refusal ∧
        fault = .bus refusal ∧ final = machine.observe .read size code address none := by
  rw [run_readAs]
  cases machine.memory.read code address size with
  | ok value => simp
  | error refusal => grind

/-- A write that is refused may have been done in part. -/
theorem run_writeAs_eq_error {code : FunctionCode} {size : Size} {address : Address}
    {value : size.Value} {fault : Fault} {machine final : Machine} :
    (writeAs code size address value).run machine = .error fault final ↔
      ∃ refusal memory, machine.memory.write code address size value = .error refusal memory ∧
        fault = .bus refusal ∧
        final = { machine with memory }.observe .write size code address none := by
  rw [run_writeAs]
  cases machine.memory.write code address size value with
  | ok _ memory => simp
  | error refusal memory => grind

theorem run_read (size : Size) (address : Address) :
    (read size address).run machine = (readAs machine.dataCode size address).run machine :=
  rfl

theorem run_write (size : Size) (address : Address) (value : size.Value) :
    (write size address value).run machine =
      (writeAs machine.dataCode size address value).run machine :=
  rfl

/-! ## The stack -/

section Stack

variable {machine final : Machine} {size : Size} {value : size.Value}

theorem exists_of_run_readAs {code : FunctionCode} {address : Address}
    (hrun : (readAs code size address).run machine = .ok value final) :
    ∃ trace, machine.memory.read code address size = .ok value ∧
      final = { machine with trace } := by
  obtain ⟨hread, rfl⟩ := run_readAs_eq_ok.1 hrun
  exact ⟨_, hread, rfl⟩

theorem exists_of_run_push {done : Unit}
    (hrun : (push size value).run machine = .ok done final) :
    let top := machine.registers.getA stackPointer - BitVec.ofNat 32 size.alignedBytes
    ∃ memory trace, machine.memory.write machine.dataCode top size value = .ok () memory ∧
      final = { machine with
        registers := machine.registers.setA stackPointer top, memory, trace } := by
  unfold push at hrun
  obtain ⟨_, _, htop, hrun⟩ := run_bind_eq_ok.1 hrun
  cases htop
  obtain ⟨_, _, hdone, hrun⟩ := run_bind_eq_ok.1 hrun
  obtain ⟨memory, hwrite, rfl⟩ := run_writeAs_eq_ok.1 hdone
  cases hrun
  exact ⟨memory, _, hwrite, rfl⟩

theorem exists_run_push (machine : Machine) (size : Size) {value : size.Value} {memory : Space}
    (hwrite : machine.memory.write machine.dataCode
      (machine.registers.getA stackPointer - BitVec.ofNat 32 size.alignedBytes) size value =
        .ok () memory) :
    ∃ trace, (push size value).run machine = .ok () { machine with
      registers := machine.registers.setA stackPointer
        (machine.registers.getA stackPointer - BitVec.ofNat 32 size.alignedBytes)
      memory, trace } :=
  ⟨_, run_bind_eq_ok.2 ⟨_, _, rfl,
    run_bind_eq_ok.2 ⟨(), _, run_writeAs_eq_ok.2 ⟨memory, hwrite, rfl⟩, rfl⟩⟩⟩

theorem exists_run_pop
    (hread : machine.memory.read machine.dataCode (machine.registers.getA stackPointer) size =
      .ok value) :
    ∃ trace, (pop size).run machine = .ok value { machine with
      registers := machine.registers.setA stackPointer
        (machine.registers.getA stackPointer + BitVec.ofNat 32 size.alignedBytes)
      trace } := by
  unfold pop
  simp only [EStateM.run_bind, run_getA, run_read, run_readAs, hread]
  exact ⟨_, rfl⟩

end Stack

end Exec

end M68000
