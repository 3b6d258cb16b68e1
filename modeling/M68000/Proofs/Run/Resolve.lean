import M68000.Proofs.Exec.Rewriting
import M68000.Proofs.Memory.Frame
import M68000.Proofs.Run.Faults
import M68000.Proofs.Run.Instruction
import M68000.Proofs.Stack.Block

/-!
# Resolving operands

The address of an operand is found anew for every access, from registers that stay as they are until
the instruction is done with the operand. So an operand is written where it has been read, whatever
registers its mode takes in, and its address register steps once after the last access, or not at
all if an access is refused.
-/

namespace M68000

open Exec

namespace Operand

variable {size : Size} (operand : Operand size) {machine next final : Machine}

/-! ## Registers -/

/-- The registers after a value is written to the operand. -/
def stored (value : size.Value) (registers : Registers) : Registers :=
  match operand.mode with
  | .dataRegister number =>
    registers.setD number (size.replaceLow (registers.getD number) value)
  | .addressRegister number => registers.setA number (value.signExtend 32)
  | _ => registers

variable {operand} {value : size.Value} {fault : Fault}

theorem stored_of_inMemory (hmemory : operand.mode.inMemory = true) (registers : Registers) :
    operand.stored value registers = registers := by
  obtain ⟨mode, offset⟩ := operand
  cases mode <;> first | rfl | cases hmemory

/-- What is written to memory goes to the address of the operand. -/
theorem exists_of_run_put_of_inMemory (hmemory : operand.mode.inMemory = true)
    (hrun : (operand.put value).run machine = .ok () final) :
    ∃ address memory trace trace',
      operand.address.run machine = .ok address { machine with trace } ∧
      machine.memory.write machine.dataCode address size value = .ok () memory ∧
      final = { machine with memory, trace := trace' } := by
  rw [put_eq_of_inMemory hmemory] at hrun
  obtain ⟨address, middle, haddress, hwrite⟩ := run_bind_eq_ok.1 hrun
  obtain ⟨trace, rfl⟩ := exists_trace_of_run_address haddress
  obtain ⟨memory, hmemory, rfl⟩ := run_writeAs_eq_ok.1 hwrite
  exact ⟨address, memory, trace, _, haddress, hmemory, rfl⟩

/-- A write that is refused changes no register. -/
theorem registers_of_run_put_eq_error
    (hrun : (operand.put value).run machine = .error fault final) :
    final.registers = machine.registers := by
  cases hmemory : operand.mode.inMemory with
  | true =>
    rw [put_eq_of_inMemory hmemory] at hrun
    obtain haddress | ⟨address, middle, haddress, hwrite⟩ := run_bind_eq_error.1 hrun
    · obtain ⟨trace, rfl⟩ := exists_trace_of_run_eq_error
        (fun start ↦ start.ignoresTrace_traced.maintains_address operand) haddress
      rfl
    · obtain ⟨trace, rfl⟩ := exists_trace_of_run_address haddress
      obtain ⟨refusal, memory, -, -, rfl⟩ := run_writeAs_eq_error.1 hwrite
      rfl
  | false =>
    obtain ⟨mode, offset⟩ := operand
    cases mode with
    | dataRegister | addressRegister | pcDisplacement | pcIndexed | immediate =>
      cases hrun
      try rfl
    | _ => cases hmemory

/-- Writing an operand changes the register that it is, and no other. -/
theorem registers_after_put (operand : Operand size) (value : size.Value) (machine : Machine) :
    ((operand.put value).after machine).registers = operand.stored value machine.registers := by
  cases hmemory : operand.mode.inMemory with
  | true =>
    rw [stored_of_inMemory hmemory]
    cases hrun : (operand.put value).run machine with
    | ok done final =>
      obtain ⟨address, memory, trace, trace', -, -, rfl⟩ :=
        exists_of_run_put_of_inMemory hmemory hrun
      rw [after_of_run_eq_ok hrun]
    | error fault final =>
      rw [after_of_run_eq_error hrun, registers_of_run_put_eq_error hrun]
  | false =>
    obtain ⟨mode, offset⟩ := operand
    cases mode <;> first | rfl | cases hmemory

theorem exists_after_address (operand : Operand size) (machine : Machine) :
    ∃ trace, operand.address.after machine = { machine with trace } :=
  machine.ignoresTrace_traced.maintains_address operand machine ⟨machine.trace, rfl⟩

theorem exists_after_get (operand : Operand size) (machine : Machine) :
    ∃ trace, operand.get.after machine = { machine with trace } :=
  machine.ignoresTrace_traced.maintains_get operand machine ⟨machine.trace, rfl⟩

/-! ## One address for every access -/

/-- A value has been written to the operand, at the address where the operand is found and read. -/
structure PutAt (operand : Operand size) (width : BusWidth) (machine : Machine) (address : Address)
    (value : size.Value) (final : Machine) : Prop where
  found : ∃ trace, operand.address.run machine = .ok address { machine with trace }
  read : ∃ trace, operand.get.run machine = (Exec.read size address).run { machine with trace }
  written : machine.memory.write machine.dataCode address size value = .ok () final.memory
  holds : ∀ code, final.memory.read code address size = .ok value
  /-- No other byte has changed. -/
  others : ∀ code (other : Address),
    (∀ i < size.bytes,
      ¬ other.toNat ≡ (address + BitVec.ofNat 32 i).toNat [MOD 2 ^ width.bits]) →
    final.memory.getByte code other = machine.memory.getByte code other
  /-- The operand has the value now, unless its own extension words have been written over. -/
  again :
    (∀ i < operand.extensionBytes, ∀ j < size.bytes,
      ¬ (machine.registers.pc + BitVec.ofNat 32 operand.offset + BitVec.ofNat 32 i).toNat ≡
        (address + BitVec.ofNat 32 j).toNat [MOD 2 ^ width.bits]) →
    ∃ trace, operand.get.run final = .ok value { final with trace }

/-- Writing an operand in memory changes neither its address nor anything but its bytes. -/
theorem exists_putAt {width : BusWidth} {layers : Layers} (hsingle : layers.All Space.IsMemory)
    (hspace : machine.memory = .map width layers) (hmemory : operand.mode.inMemory = true)
    (hrun : (operand.put value).run machine = .ok () final) :
    ∃ address, operand.PutAt width machine address value final := by
  obtain ⟨address, memory, trace, trace', haddress, hwrite, rfl⟩ :=
    exists_of_run_put_of_inMemory hmemory hrun
  have hdistinct {first second : Address} (h : ¬ first.toNat ≡ second.toNat [MOD 2 ^ width.bits]) :
      machine.memory.Distinct first second := by
    rw [hspace]
    exact Space.distinct_of_not_modEq hsingle h
  have hread (code : FunctionCode) : memory.read code address size = .ok value :=
    Space.read_write hwrite
  refine ⟨address, ⟨trace, haddress⟩, ⟨trace, ?_⟩, hwrite, hread, fun code other hother ↦ ?_,
    fun hapart ↦ ?_⟩
  · rw [get_eq_of_inMemory hmemory, EStateM.run_bind, haddress]
  · exact Space.getByte_write_of_distinct (fun i hi ↦ hdistinct (hother i hi)) hwrite code
  · have hwords : machine.memory.Apart
        (machine.registers.pc + BitVec.ofNat 32 operand.offset) operand.extensionBytes address
        size.bytes := fun i hi j hj ↦ hdistinct (hapart i hi j hj)
    have hsame : SameResult machine { machine with memory, trace := trace' } operand.address := by
      apply SameResult.address
      case hregisters => rfl
      case hbus => rfl
      case hreads =>
        exact fun size' hsize' ↦ Space.read_write_of_apart (hwords.first_head hsize') hwrite
    obtain ⟨-, later, hagain⟩ := hsame machine.trace trace' address _ haddress
    obtain ⟨seen, hvalue⟩ : ∃ seen,
        (Exec.read size address).run { machine with memory, trace := later } =
          .ok value { machine with memory, trace := seen } :=
      ⟨_, run_readAs_eq_ok.2 ⟨hread _, rfl⟩⟩
    refine ⟨seen, ?_⟩
    rw [get_eq_of_inMemory hmemory]
    exact run_bind_eq_ok.2 ⟨address, _, hagain, hvalue⟩

/-- The accesses to an operand agree with one another. -/
structure Resolves (operand : Operand size) (width : BusWidth) (machine : Machine) : Prop where
  /-- Finding the operand changes nothing but the accesses seen, also if it fails. -/
  address : ∃ trace, operand.address.after machine = { machine with trace }
  /-- Neither does reading it. -/
  get : ∃ trace, operand.get.after machine = { machine with trace }
  /-- Writing it changes no register but the one that the operand is. -/
  put : ∀ value,
    ((operand.put value).after machine).registers = operand.stored value machine.registers
  /-- In memory it is written where it is found and read. -/
  putAt : operand.mode.inMemory = true → ∀ value final,
    (operand.put value).run machine = .ok () final →
      ∃ address, operand.PutAt width machine address value final
  /-- Being done with it changes the address register that its mode steps, and nothing else. -/
  finish : operand.finish.run machine =
    .ok () { machine with registers := operand.finished machine.registers }

/-- A fault leaves all registers but the flags as they were. -/
theorem exists_flags_of_run_rewrite_eq_error {rewrite : Rewrite size}
    (hrun : (operand.rewrite rewrite).run machine = .error fault final) :
    ∃ flags, final.registers = { machine.registers with flags } := by
  obtain hget | ⟨value, read, hget, -⟩ := run_bind_eq_error.1 hrun
  · obtain ⟨trace, rfl⟩ := exists_trace_of_run_eq_error
      (fun start ↦ start.ignoresTrace_traced.maintains_get operand) hget
    exact ⟨machine.registers.flags, rfl⟩
  · obtain ⟨trace, rfl⟩ := exists_trace_of_run_get hget
    rw [run_rewrite_of_run_get hget] at hrun
    obtain hleave | ⟨_, left, -, hlate⟩ := run_bind_eq_error.1 hrun
    · obtain ⟨result, -, hput⟩ := exists_of_run_leave_eq_error hleave
      have hregisters := registers_of_run_put_eq_error hput
      exact ⟨_, hregisters⟩
    · cases hlate

end Operand

/-! ## Operations -/

section Operations

variable {operation : Operation} {opcode noted : Opcode} {mode : Mode} {rewriting : Rewriting}
  {machine final : Machine} {fault : Fault}

/-- An operation has read its operand and has written it back at the same location, if anything came
out. Then the address register of the operand has stepped once. -/
structure Rewriting.Done (rewriting : Rewriting) (mode : Mode) (rewrite : Rewrite rewriting.size)
    (location : Location) (value : rewriting.size.Value) (before after : Machine) : Prop where
  planned : ∃ next, rewriting.plan.run before = .ok rewrite next
  reads : (rewriting.operand mode).Reads before value
  liesAt : (rewriting.operand mode).LiesAt before location
  holds : location.Holds before.dataCode before value
  stores : ∃ registers,
    location.StoresAny before (rewrite.result? value before.registers.flags) registers
      after.memory ∧
    after.registers = { ((rewriting.operand mode).finished registers).advancePc
        (rewriting.offset + mode.extensionBytes rewriting.size) with
      flags := rewrite.late value before.registers.flags
        (rewrite.early value before.registers.flags) }

theorem Rewriting.Done.of_marked {rewrite : Rewrite rewriting.size} {location : Location}
    {value : rewriting.size.Value} {trace : Option (List BusAccess)}
    (hrewriting : operation.rewritingIn? opcode mode = some rewriting)
    (h : rewriting.Done mode rewrite location value
      (machine.marked machine.registers.flags noted trace) final) :
    rewriting.Done mode rewrite location value machine final := by
  obtain ⟨⟨next, hplan⟩, hreads, hlies, hholds, hstores⟩ := h
  exact ⟨Operand.exists_run_of_run_marked (Operation.blind_planIn hrewriting) hplan,
    hreads.of_marked, hlies.of_marked, hholds.congr (fun _ ↦ rfl) rfl, hstores⟩

namespace Operation

theorem exists_done_of_run_execute
    (hrewriting : operation.rewritingIn? opcode mode = some rewriting)
    (hmode : Mode.ofField? opcode.operandField = some mode)
    (halterable : mode.isDataAlterable = true)
    (hrun : (operation.execute opcode).run machine = .ok () final) :
    ∃ rewrite location value, rewriting.Done mode rewrite location value machine final := by
  rw [execute_eq_rewriteIn hrewriting hmode] at hrun
  obtain ⟨rewrite, next, hplan, hrun⟩ := run_bind_eq_ok.1 hrun
  obtain ⟨trace, hnext⟩ := exists_trace_of_run_eq_ok (maintains_planIn hrewriting) hplan
  obtain rfl : next = machine.marked machine.registers.flags machine.opcode trace := hnext
  obtain ⟨_, rewritten, hrewrite, hadvance⟩ := run_bind_eq_ok.1 hrun
  cases hadvance
  obtain ⟨location, value, registers, memory, trace', hreads, hlies, hholds, hstores, rfl⟩ :=
    Operand.exists_of_run_rewrite halterable hrewrite
  exact ⟨rewrite, location, value, ⟨_, hplan⟩, hreads.of_marked, hlies.of_marked,
    hholds.congr (fun _ ↦ rfl) rfl, registers, hstores, rfl⟩

/-- An operation that faults has not stepped the address register of its operand. -/
theorem exists_flags_of_run_execute_eq_error
    (hrewriting : operation.rewritingIn? opcode mode = some rewriting)
    (hmode : Mode.ofField? opcode.operandField = some mode)
    (hrun : (operation.execute opcode).run machine = .error fault final) :
    ∃ flags, final.registers = { machine.registers with flags } := by
  rw [execute_eq_rewriteIn hrewriting hmode] at hrun
  obtain hplan | ⟨rewrite, next, hplan, hrun⟩ := run_bind_eq_error.1 hrun
  · obtain ⟨trace, rfl⟩ := exists_trace_of_run_eq_error (maintains_planIn hrewriting) hplan
    exact ⟨machine.registers.flags, rfl⟩
  · obtain ⟨trace, rfl⟩ := exists_trace_of_run_eq_ok (maintains_planIn hrewriting) hplan
    obtain hrun | ⟨_, rewritten, -, hadvance⟩ := run_bind_eq_error.1 hrun
    · obtain ⟨flags, hregisters⟩ := Operand.exists_flags_of_run_rewrite_eq_error hrun
      exact ⟨flags, hregisters⟩
    · cases hadvance

end Operation

end Operations

/-! ## Steps -/

/-- A fault after the opcode has been fetched is one of the operation. -/
theorem Machine.Meets.exists_of_run_step_eq_error {machine before final : Machine}
    {opcode : Opcode} {operation : Operation} {fault : Fault}
    (h : machine.Meets before opcode operation)
    (hrun : (step handlers).run machine = .error fault final) :
    ∃ trace, (operation.execute opcode).run { before with opcode, trace } = .error fault final := by
  obtain ⟨trace, hstep⟩ := h.exists_run_step_eq
  rw [hstep] at hrun
  obtain hexecute | ⟨_, performed, -, hexit⟩ := run_bind_eq_error.1 hrun
  · exact ⟨trace, hexecute⟩
  · exact absurd hexit (infallible_takeExit.run_ne_error performed fault final)

theorem Size.step_eq (size : Size) (number : Fin 8) :
    size.step number = if size = .byte ∧ number = stackPointer then 2 else size.bytes := by
  split
  next h =>
    obtain ⟨rfl, rfl⟩ := h
    rfl
  next h => exact step_eq_bytes fun hbyte hnumber ↦ h ⟨hbyte, hnumber⟩

/-- All accesses to an operand agree. Finding and reading it changes no register, writing it changes
the register that it is and no other, and in memory it is written where it is found and read. Being
done with it steps the address register of a post-increment or pre-decrement by the size of the
operand, or by two for a byte and the stack pointer. So an operation that reads an operand and
writes it back does so at one location, and steps the address register once if it is done and not at
all if it faults. -/
theorem operand_accesses_agree (width : BusWidth) (layers : Layers)
    (hsingle : layers.All Space.IsMemory) (machine : Machine)
    (hmemory : machine.memory = .map width layers) :
    (∀ (size : Size) (operand : Operand size), operand.Resolves width machine) ∧
    (∀ (size : Size) (number : Fin 8),
      size.step number = if size = .byte ∧ number = stackPointer then 2 else size.bytes) ∧
    ∀ (start : Machine) (opcode : Opcode) (operation : Operation) (mode : Mode),
      start.Meets machine opcode operation → Mode.ofField? opcode.operandField = some mode →
      (∀ rewriting, operation.rewritingIn? opcode mode = some rewriting →
        (mode.isDataAlterable = true → ∀ progress final,
          (step handlers).run start = .ok progress final →
            ∃ rewrite location value,
              rewriting.Done mode rewrite location value machine final) ∧
        ∀ fault final, (step handlers).run start = .error fault final →
          ∃ flags, final.registers = { machine.registers with flags }) ∧
      ∀ kind size number, operation = .quick kind size → mode = .addressRegister number →
        ∃ progress final, (step handlers).run start = .ok progress final ∧
          final.memory = machine.memory ∧
          final.registers = (machine.registers.setA number
            (kind.outcome (machine.registers.getA number)
              (BitVec.ofNat 32 opcode.quickNumber))).advancePc 2 := by
  refine ⟨fun size operand ↦ ?_, Size.step_eq,
    fun start opcode operation mode hmeets hmode ↦
      ⟨fun rewriting hrewriting ↦ ⟨fun halterable progress final hrun ↦ ?_,
        fun fault final hrun ↦ ?_⟩, ?_⟩⟩
  · exact ⟨operand.exists_after_address machine, operand.exists_after_get machine,
      fun value ↦ operand.registers_after_put value machine,
      fun hmode value final hrun ↦ Operand.exists_putAt hsingle hmemory hmode hrun,
      operand.run_finish machine⟩
  · obtain ⟨trace, performed, exitRequest, hexecute, rfl⟩ := hmeets.exists_of_run_step hrun
    obtain ⟨rewrite, location, value, hdone⟩ :=
      Operation.exists_done_of_run_execute hrewriting hmode halterable hexecute
    have hmarked : rewriting.Done mode rewrite location value
        (machine.marked machine.registers.flags opcode trace) performed := hdone
    have hdone' := hmarked.of_marked hrewriting
    exact ⟨rewrite, location, value, hdone'.planned, hdone'.reads, hdone'.liesAt, hdone'.holds,
      hdone'.stores⟩
  · obtain ⟨trace, hexecute⟩ := hmeets.exists_of_run_step_eq_error hrun
    obtain ⟨flags, hregisters⟩ :=
      Operation.exists_flags_of_run_execute_eq_error hrewriting hmode hexecute
    exact ⟨flags, hregisters⟩
  · rintro kind size number rfl rfl
    obtain ⟨trace, hstep⟩ := hmeets.exists_run_step
    obtain ⟨progress, exitRequest, hrun⟩ :=
      hstep _ (Instruction.run_quick_addressRegister hmode)
    exact ⟨progress, _, hrun, rfl, rfl⟩

def complementingLayers : Layers :=
  Layers.empty.insert (.clamp 24) 0 0x2000 (.ram
    { size := 0x2000
      written := .ofList [(0x00, (0x46 : Byte)), (0x01, 0x27), (0xFE, 0x0F)] })

/-- Complements a byte below the top of the stack. -/
def complementingProgram : Machine where
  registers := { a := #v[0, 0, 0, 0, 0, 0, 0, 0x100] }
  memory := .map (.clamp 24) complementingLayers

theorem operand_accesses_agree_complementingProgram :
    ∃ final, (step handlers).run complementingProgram = .ok .next final ∧
      final.registers.getA stackPointer = 0xFE ∧
      ∀ code, final.memory.read code 0xFE .byte = .ok (0xF0 : Byte) := by
  have hlookup : instructionSet.lookup 0x4627 = some (.unary .not .byte) := by
    rw [lookup_instructionSet]
    decide +kernel
  have hmeets : complementingProgram.Meets complementingProgram 0x4627 (.unary .not .byte) :=
    ⟨rfl, rfl, hlookup⟩
  obtain ⟨final, hrun⟩ : ∃ final, (step handlers).run complementingProgram = .ok .next final :=
    ⟨_, run_step_of_lookup hlookup rfl rfl rfl⟩
  obtain ⟨-, -, hrewrites⟩ :=
    operand_accesses_agree (.clamp 24) complementingLayers ⟨trivial, trivial⟩ complementingProgram
      rfl
  obtain ⟨rewrite, location, value, hdone⟩ :=
    ((hrewrites complementingProgram 0x4627 _ (.preDecrement 7) hmeets rfl).1 _ rfl).1 rfl _ final
      hrun
  obtain ⟨next, hplan⟩ := hdone.planned
  cases hplan
  have hlies := hdone.liesAt
  cases location with
  | register number => cases hlies
  | memory address =>
    obtain ⟨-, _, haddress⟩ := hlies
    cases haddress
    obtain ⟨registers, ⟨rfl, hwrite⟩, hregisters⟩ := hdone.stores
    have hvalue : Except.ok (0x0F : Byte) = Except.ok value := hdone.holds
    obtain rfl := Except.ok.inj hvalue
    refine ⟨final, hrun, ?_, fun code ↦ Space.read_write hwrite⟩
    rw [hregisters]
    rfl

end M68000
