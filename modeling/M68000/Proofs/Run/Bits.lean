import M68000.Proofs.Dispatch.Written
import M68000.Proofs.Run.Resolve

/-!
# Instructions on single bits

BTST, BCHG, BCLR and BSET do what they do to one bit of a data register or of a byte in memory. All
else stays as it was, apart from Z, the program counter and the address register that the mode of
the operand steps. The number of the bit counts modulo the width, and it is read before anything
changes, also if it comes from the register with the bit.
-/

namespace M68000

open Exec

/-! ## One bit of a value -/

namespace BitOperation

variable {n : Nat} {operation : BitOperation}

/-- What becomes of the bit. -/
def applied : BitOperation → Bool → Bool
  | test, bit => bit
  | change, bit => !bit
  | clear, _ => false
  | set, _ => true

/-- The operation has been done to the bit with the number, modulo the width, and all other bits are
as they were. -/
def Turns (operation : BitOperation) (number : Nat) (before after : BitVec n) : Prop :=
  ∀ i < n, after.getLsbD i =
    if i = number % n then operation.applied (before.getLsbD i) else before.getLsbD i

theorem Turns.unique {number : Nat} {before after after' : BitVec n}
    (h : operation.Turns number before after) (h' : operation.Turns number before after') :
    after = after' :=
  BitVec.eq_of_getLsbD_eq fun i hi ↦ (h i hi).trans (h' i hi).symm

/-- What is written, if anything, is turned so. -/
theorem turns_result? (operation : BitOperation) (number : Nat) (value : BitVec n) :
    operation.Turns number value
      ((operation.result? value (.twoPow n (number % n))).getD value) := by
  intro i hi
  have hmask : (BitVec.twoPow n (number % n)).getLsbD i = decide (i = number % n) := by
    rw [BitVec.getLsbD_twoPow, decide_eq_true (Nat.mod_lt number (Nat.zero_lt_of_lt hi)),
      Bool.true_and]
    exact decide_eq_decide.2 eq_comm
  generalize BitVec.twoPow n (number % n) = mask at hmask
  cases operation with
  | test =>
    change value.getLsbD i = if _ then value.getLsbD i else value.getLsbD i
    rw [ite_self]
  | change =>
    change (value ^^^ mask).getLsbD i = _
    rw [BitVec.getLsbD_xor, hmask]
    split <;> simp [*, applied]
  | clear =>
    change (value &&& ~~~mask).getLsbD i = _
    rw [BitVec.getLsbD_and, BitVec.getLsbD_not, hmask]
    split <;> simp [*, applied]
  | set =>
    change (value ||| mask).getLsbD i = _
    rw [BitVec.getLsbD_or, hmask]
    split <;> simp [*, applied]

end BitOperation

theorem Size.replaceLow_low (size : Size) (register : BitVec 32) :
    size.replaceLow register (size.low register) = register := by
  apply BitVec.eq_of_getLsbD_eq
  intro i hi
  by_cases hlow : i < size.bits
  · simp [replaceLow, low, mask, hi, hlow]
  · exact size.getLsbD_replaceLow_of_le _ _ (Nat.le_of_not_lt hlow)

/-! ## The operand -/

/-- The bit number that the opcode says: all of a data register, or the low byte of the word after
the opcode. -/
def Opcode.NamesBit (opcode : Opcode) (inRegister : Bool) (machine : Machine) (number : Nat) :
    Prop :=
  if inRegister then number = (machine.registers.getD opcode.highRegister).toNat
  else ∃ word,
    machine.memory.read ⟨machine.registers.supervisor, true⟩ (machine.registers.pc + 2) .word =
      .ok word ∧ number = (word.setWidth 8).toNat

/-- The operation has been done to one bit of the operand, which was the one value and is the other
now, and the address register of the operand has stepped. -/
structure BitOperation.Done (operation : BitOperation) {size : Size} (operand : Operand size)
    (number : Nat) (old new : size.Value) (before after : Machine) : Prop where
  read : operand.Reads before old
  turned : operation.Turns number old new
  ccr : after.registers.flags.ccr =
    { before.registers.flags.ccr with zero := !old.getLsbD (number % size.bits) }
  registers : { after.registers with flags := before.registers.flags } =
    (operand.finished (operand.stored new before.registers)).advancePc
      (operand.offset + operand.extensionBytes)
  /-- BTST changes no bit and no register. -/
  tested : operation = .test → new = old ∧ operand.stored new before.registers = before.registers
  /-- Memory is written neither by BTST nor if the operand is not there. -/
  unwritten : operation = .test ∨ operand.mode.inMemory = false → after.memory = before.memory
  /-- In memory the operand is changed where it was found, and no other byte is. -/
  written : operand.mode.inMemory = true → ∃ address,
    operand.LiesAt before (.memory address) ∧
    before.memory.read before.dataCode address size = .ok old ∧
    (operation ≠ .test → ∀ code, after.memory.read code address size = .ok new) ∧
    ∀ code other,
      (∀ i < size.bytes, before.memory.Distinct other (address + BitVec.ofNat 32 i)) →
        after.memory.getByte code other = before.memory.getByte code other

namespace Operand

variable {size : Size} {operand : Operand size} {machine next final : Machine}
  {operation : BitOperation} {number : Nat}

/-- Writing back what a data register has changes nothing. -/
theorem stored_of_reads {value : size.Value} (h : operand.Reads machine value)
    (hmode : ∀ number, operand.mode ≠ .addressRegister number) :
    operand.stored value machine.registers = machine.registers := by
  obtain ⟨mode, offset⟩ := operand
  cases mode with
  | dataRegister number =>
    obtain ⟨next, hrun⟩ := h
    cases hrun
    exact (congrArg _ (size.replaceLow_low _)).trans (machine.registers.setD_getD_self number)
  | addressRegister number => exact absurd rfl (hmode number)
  | _ => rfl

/-- If nothing comes out, the operand is only read. -/
theorem exists_of_run_modify_of_none {record : size.Value → Flags → Flags}
    {result? : size.Value → Flags → Option size.Value}
    (hnone : ∀ value flags, result? value flags = none)
    (hrun : (operand.modify record result?).run machine = .ok () final) :
    ∃ value seen trace, operand.get.run machine = .ok value { machine with trace := seen } ∧
      final = { machine with
        registers := { operand.finished machine.registers with
          flags := record value machine.registers.flags }
        trace } := by
  obtain ⟨value, read, hget, hrun⟩ := run_bind_eq_ok.1 hrun
  obtain ⟨trace, rfl⟩ := exists_trace_of_run_get hget
  refine ⟨value, trace, trace, hget, ?_⟩
  obtain ⟨before, _, hflags, hrun⟩ := run_bind_eq_ok.1 hrun
  cases hflags
  obtain ⟨_, _, hrecord, hrun⟩ := run_bind_eq_ok.1 hrun
  cases hrecord
  rw [hnone] at hrun
  cases (operand.run_finish _).symm.trans hrun
  rw [← finished_flags]

/-- The program counter moves past the instruction at the end. -/
def past (operand : Operand size) (machine : Machine) : Machine :=
  { machine with
    registers := machine.registers.advancePc (operand.offset + operand.extensionBytes) }

theorem done_of_run_test (hmode : ∀ number, operand.mode ≠ .addressRegister number)
    (hrun : (operand.rewrite (BitOperation.test.rewrite number)).run machine = .ok () final) :
    ∃ old, BitOperation.test.Done operand number old old machine (operand.past final) := by
  rw [BitOperation.rewrite, rewrite_recordFirst] at hrun
  obtain ⟨value, seen, trace, hget, rfl⟩ := exists_of_run_modify_of_none (fun _ _ ↦ rfl) hrun
  have hbit := Nat.mod_lt number size.bits_pos
  have hstored := stored_of_reads ⟨_, hget⟩ hmode
  refine ⟨value, ⟨_, hget⟩, BitOperation.turns_result? .test number value, ?_, ?_,
    fun _ ↦ ⟨rfl, hstored⟩, fun _ ↦ rfl, fun hmemory ↦ ?_⟩
  · change (machine.registers.flags.setZero _).ccr = _
    rw [Flags.ccr_setZero, and_twoPow_beq_zero value hbit]
  · rw [hstored]
    change { (operand.finished machine.registers).advancePc _ with
      flags := machine.registers.flags } = _
    rw [← operand.flags_finished machine.registers]
    rfl
  · obtain ⟨address, hlies, hread⟩ := exists_address_of_run_get hmemory hget
    exact ⟨address, hlies, hread, fun hne ↦ absurd rfl hne, fun _ _ _ ↦ rfl⟩

/-- A value has been stored in the register that the operand is, or at its address. -/
theorem stored_of_stores {location : Location} {value : size.Value} {registers : Registers}
    {memory : Space} (hlies : operand.LiesAt machine location)
    (hstores : location.Stores machine value registers memory) :
    registers = operand.stored value machine.registers ∧
      (operand.mode.inMemory = false → memory = machine.memory) := by
  cases location with
  | register number =>
    obtain ⟨mode, offset⟩ := operand
    obtain rfl : mode = .dataRegister number := hlies
    exact ⟨hstores.1, fun _ ↦ hstores.2⟩
  | memory address =>
    refine ⟨hstores.1.trans (stored_of_inMemory hlies.1 _).symm, fun hmode ↦ ?_⟩
    cases hmode.symm.trans hlies.1

theorem flags_stored (operand : Operand size) (value : size.Value) (registers : Registers) :
    (operand.stored value registers).flags = registers.flags := by
  unfold stored
  split <;> rfl

theorem done_of_run_change (halterable : operand.mode.isDataAlterable = true)
    (hoperation : operation ≠ .test)
    (hrun : (operand.rewrite (operation.rewrite number)).run machine = .ok () final) :
    ∃ old new, operation.Done operand number old new machine (operand.past final) := by
  obtain ⟨location, value, registers, memory, trace, hreads, hlies, hholds, hstores, rfl⟩ :=
    exists_of_run_rewrite halterable hrun
  have hbit := Nat.mod_lt number size.bits_pos
  obtain ⟨new, hresult⟩ : ∃ new,
      operation.result? value (.twoPow size.bits (number % size.bits)) = some new := by
    cases operation with
    | test => exact absurd rfl hoperation
    | change | clear | set => exact ⟨_, rfl⟩
  have hstored : location.Stores machine new registers memory := by
    change location.StoresAny machine (operation.result? value _) registers memory at hstores
    rwa [hresult] at hstores
  have hturned := operation.turns_result? number value
  rw [hresult, Option.getD_some] at hturned
  refine ⟨value, new, hreads, hturned, ?_, ?_, fun h ↦ absurd h hoperation, ?_, ?_⟩
  · change (machine.registers.flags.setZero _).ccr = _
    rw [Flags.ccr_setZero, and_twoPow_beq_zero value hbit]
  · obtain ⟨rfl, -⟩ := stored_of_stores hlies hstored
    have hflags := operand.flags_finished (operand.stored new machine.registers)
    rw [flags_stored] at hflags
    change { (operand.finished _).advancePc _ with flags := machine.registers.flags } = _
    rw [← hflags]
    rfl
  · exact fun h ↦ (stored_of_stores hlies hstored).2 (h.resolve_left hoperation)
  · intro hmemory
    cases location with
    | register register =>
      rw [show operand.mode = .dataRegister register from hlies] at hmemory
      cases hmemory
    | memory address =>
      have hwritten : machine.memory.write machine.dataCode address size new = .ok () memory :=
        hstored.2
      exact ⟨address, hlies, hholds, fun _ code ↦ Space.read_write hwritten,
        fun code other h ↦ Space.getByte_write_of_distinct h hwritten code⟩

/-- Every operation does its work, if the operand can be read and written. -/
theorem done_of_run_rewrite (hmode : ∀ number, operand.mode ≠ .addressRegister number)
    (halterable : operation ≠ .test → operand.mode.isDataAlterable = true)
    (hrun : (operand.rewrite (operation.rewrite number)).run machine = .ok () final) :
    ∃ old new, operation.Done operand number old new machine (operand.past final) := by
  by_cases htest : operation = .test
  · subst htest
    obtain ⟨old, hdone⟩ := done_of_run_test hmode hrun
    exact ⟨old, old, hdone⟩
  · exact done_of_run_change (halterable htest) htest hrun

theorem exists_run_rewrite {rewrite : Rewrite size} {value : size.Value}
    (hreads : operand.Reads machine value)
    (hput : ∀ result ∈ rewrite.result? value machine.registers.flags,
      ∃ next, (operand.put result).run machine = .ok () next) :
    ∃ final, (operand.rewrite rewrite).run machine = .ok () final := by
  obtain ⟨_, hget⟩ := hreads
  obtain ⟨trace, rfl⟩ := exists_trace_of_run_get hget
  rw [run_rewrite_of_run_get hget]
  obtain ⟨written, hwritten⟩ : ∃ written,
      (operand.putAny (rewrite.result? value machine.registers.flags)).run
        (machine.marked (rewrite.early value machine.registers.flags) machine.opcode trace) =
          .ok () written := by
    cases hresult : rewrite.result? value machine.registers.flags with
    | none => exact ⟨_, rfl⟩
    | some result =>
      obtain ⟨next, hnext⟩ := hput result hresult
      obtain ⟨_, hmarked⟩ := blind_put operand result machine () next hnext _ machine.opcode trace
      exact ⟨_, hmarked⟩
  exact ⟨_, run_bind_eq_ok.2 ⟨(), _, run_bind_eq_ok.2 ⟨(), written, hwritten,
    operand.run_finish written⟩, rfl⟩⟩

end Operand

/-! ## The instruction -/

variable {operation : BitOperation} {inRegister : Bool} {opcode noted : Opcode} {mode : Mode}
  {number : Nat} {machine next before final : Machine}

theorem Opcode.NamesBit.of_run_bitNumber
    (hbus : machine.busSupervisor = machine.registers.supervisor)
    (hrun : (opcode.bitNumber inRegister).run machine = .ok number next) :
    opcode.NamesBit inRegister machine number ∧ ∃ trace, next = { machine with trace } := by
  cases inRegister with
  | true =>
    cases hrun
    exact ⟨rfl, machine.trace, rfl⟩
  | false =>
    obtain ⟨byte, _, hfetch, hrun⟩ := run_bind_eq_ok.1 hrun
    cases hrun
    obtain ⟨word, _, hword, hbyte⟩ := run_bind_eq_ok.1 hfetch
    cases hbyte
    obtain ⟨trace, hread, rfl⟩ := exists_of_run_readAs hword
    rw [Machine.programCode, hbus] at hread
    exact ⟨⟨word, hread, rfl⟩, trace, rfl⟩

theorem Opcode.NamesBit.exists_run_bitNumber (h : opcode.NamesBit inRegister machine number)
    (hbus : machine.busSupervisor = machine.registers.supervisor) :
    ∃ trace, (opcode.bitNumber inRegister).run machine = .ok number { machine with trace } := by
  cases inRegister with
  | true =>
    obtain rfl : number = _ := h
    exact ⟨machine.trace, rfl⟩
  | false =>
    obtain ⟨word, hread, rfl⟩ := h
    have hword : machine.memory.read machine.programCode
        (machine.registers.pc + BitVec.ofNat 32 2) .word = .ok word := by
      rw [Machine.programCode, hbus]
      exact hread
    obtain ⟨trace, hfetch⟩ : ∃ trace,
        (fetchWord 2).run machine = .ok word { machine with trace } :=
      ⟨_, run_readAs_eq_ok.2 ⟨hword, rfl⟩⟩
    have hbyte : (fetch .byte 2).run machine = .ok (word.setWidth 8) { machine with trace } :=
      run_bind_eq_ok.2 ⟨word, _, hfetch, rfl⟩
    exact ⟨trace, run_bind_eq_ok.2 ⟨_, _, hbyte, rfl⟩⟩

theorem BitOperation.Done.of_marked {size : Size} {operand : Operand size} {old new : size.Value}
    {trace : Option (List BusAccess)}
    (h : operation.Done operand number old new
      (machine.marked machine.registers.flags noted trace) final) :
    operation.Done operand number old new machine final := by
  refine ⟨h.read.of_marked, h.turned, h.ccr, h.registers, h.tested, h.unwritten,
    fun hmemory ↦ ?_⟩
  obtain ⟨address, hlies, hwritten⟩ := h.written hmemory
  exact ⟨address, hlies.of_marked, hwritten⟩

/-- The operand of a bit instruction, which is a long word in a data register and a byte
elsewhere. -/
abbrev Mode.bitOperand (mode : Mode) (inRegister : Bool) : Operand mode.bitSize :=
  ⟨mode, if inRegister then 2 else 4⟩

namespace Instruction

theorem done_of_run_bit (hmode : Mode.ofField? opcode.operandField = some mode)
    (hdata : ∀ number, mode ≠ .addressRegister number)
    (halterable : operation ≠ .test → mode.isDataAlterable = true)
    (hbus : machine.busSupervisor = machine.registers.supervisor)
    (hrun : (bit operation inRegister opcode).run machine = .ok () final) :
    ∃ number old new, opcode.NamesBit inRegister machine number ∧
      operation.Done (mode.bitOperand inRegister) number old new machine final := by
  rw [bit_eq_rewrite hmode] at hrun
  obtain ⟨number, _, hnumber, hrun⟩ := run_bind_eq_ok.1 hrun
  obtain ⟨hnames, trace, rfl⟩ := Opcode.NamesBit.of_run_bitNumber hbus hnumber
  obtain ⟨_, rewritten, hrewrite, hadvance⟩ := run_bind_eq_ok.1 hrun
  cases hadvance
  obtain ⟨old, new, hdone⟩ := Operand.done_of_run_rewrite hdata halterable hrewrite
  have hmarked : operation.Done (mode.bitOperand inRegister) number old new
      (machine.marked machine.registers.flags machine.opcode trace) _ := hdone
  exact ⟨number, old, new, hnames, hmarked.of_marked⟩

theorem exists_run_bit (hmode : Mode.ofField? opcode.operandField = some mode)
    (hbus : machine.busSupervisor = machine.registers.supervisor)
    (hnames : opcode.NamesBit inRegister machine number) {old new : mode.bitSize.Value}
    (hreads : (mode.bitOperand inRegister).Reads machine old)
    (hturned : operation.Turns number old new)
    (hput : operation = .test ∨
      ∃ next, ((mode.bitOperand inRegister).put new).run machine = .ok () next) :
    ∃ final, (bit operation inRegister opcode).run machine = .ok () final := by
  obtain ⟨trace, hnumber⟩ := hnames.exists_run_bitNumber hbus
  have hmarked := hreads.marked machine.registers.flags machine.opcode trace
  have hwrites : ∀ result ∈ (operation.rewrite number).result? old machine.registers.flags,
      ∃ next, ((mode.bitOperand inRegister).put result).run
        (machine.marked machine.registers.flags machine.opcode trace) = .ok () next := by
    intro result hresult
    have hresult' : operation.result? old (.twoPow _ (number % mode.bitSize.bits)) = some result :=
      hresult
    obtain rfl | ⟨next, hnext⟩ := hput
    · cases hresult'
    · have hturned' := operation.turns_result? number old
      rw [hresult', Option.getD_some] at hturned'
      obtain rfl := hturned.unique hturned'
      obtain ⟨trace', hrun⟩ := blind_put _ _ machine () next hnext machine.registers.flags
        machine.opcode trace
      exact ⟨_, hrun⟩
  obtain ⟨rewritten, hrewrite⟩ := Operand.exists_run_rewrite hmarked hwrites
  rw [bit_eq_rewrite hmode]
  exact ⟨_, run_bind_eq_ok.2 ⟨number, _, hnumber, run_bind_eq_ok.2 ⟨(), _, hrewrite, rfl⟩⟩⟩

end Instruction

theorem Operation.exists_mode_of_bit
    (hlookup : instructionSet.lookup opcode = some (.bit operation inRegister)) :
    ∃ mode, Mode.ofField? opcode.operandField = some mode ∧
      (∀ number, mode ≠ .addressRegister number) ∧
      (operation ≠ .test → mode.isDataAlterable = true) := by
  have hdata (mode) (hmode : Mode.ofField? opcode.operandField = some mode) (number : Fin 8) :
      mode ≠ .addressRegister number := by
    rintro rfl
    exact operandField_ne_addressRegister hlookup rfl number hmode
  by_cases htest : operation = .test
  · subst htest
    obtain ⟨mode, hmode, -⟩ := (legal_of_lookup hlookup).operand _ rfl
    exact ⟨mode, hmode, hdata mode hmode, fun hne ↦ absurd rfl hne⟩
  · have hchanges : (Operation.bit operation inRegister).changesData = true := by
      cases operation with
      | test => exact absurd rfl htest
      | change | clear | set => rfl
    obtain ⟨mode, hmode, halterable⟩ := exists_isDataAlterable hlookup hchanges
    exact ⟨mode, hmode, hdata mode hmode, fun _ ↦ halterable⟩

/-! ## Steps -/

/-- A step of a bit instruction does its operation to one bit. It is done whenever the bit number
and the operand can be read and the changed operand can be written, and then nothing but the bit, Z,
the program counter and the address register that its mode steps is different. -/
theorem bit_touched_of_run_step (h : machine.Meets before opcode (.bit operation inRegister)) :
    ∃ mode, Mode.ofField? opcode.operandField = some mode ∧
      (∀ number, mode ≠ .addressRegister number) ∧
      (operation ≠ .test → mode.isDataAlterable = true) ∧
      (∀ progress final, (step handlers).run machine = .ok progress final →
        ∃ number old new, opcode.NamesBit inRegister before number ∧
          operation.Done (mode.bitOperand inRegister) number old new before final) ∧
      ∀ number (old new : mode.bitSize.Value), opcode.NamesBit inRegister before number →
        (mode.bitOperand inRegister).Reads before old → operation.Turns number old new →
        (operation = .test ∨
          ∃ next, ((mode.bitOperand inRegister).put new).run before = .ok () next) →
        ∃ progress final, (step handlers).run machine = .ok progress final := by
  obtain ⟨mode, hmode, hdata, halterable⟩ := Operation.exists_mode_of_bit h.lookup
  have haccepted := busSupervisor_of_run_acceptInterrupt h.accepted
  have hbus (trace : Option (List BusAccess)) :
      (before.marked before.registers.flags opcode trace).busSupervisor =
        (before.marked before.registers.flags opcode trace).registers.supervisor :=
    haccepted
  refine ⟨mode, hmode, hdata, halterable, fun progress final hrun ↦ ?_,
    fun number old new hnames hreads hturned hput ↦ ?_⟩
  · obtain ⟨trace, performed, exitRequest, hexecute, rfl⟩ := h.exists_of_run_step hrun
    have hbit : (Instruction.bit operation inRegister opcode).run
        (before.marked before.registers.flags opcode trace) = .ok () performed := hexecute
    obtain ⟨number, old, new, hnames, hdone⟩ :=
      Instruction.done_of_run_bit hmode hdata halterable (hbus trace) hbit
    have hbefore := hdone.of_marked
    exact ⟨number, old, new, hnames, hbefore.read, hbefore.turned, hbefore.ccr, hbefore.registers,
      hbefore.tested, hbefore.unwritten, hbefore.written⟩
  · obtain ⟨trace, hstep⟩ := h.exists_run_step
    have hnames' : opcode.NamesBit inRegister
        (before.marked before.registers.flags opcode trace) number := hnames
    have hput' : operation = .test ∨ ∃ next, ((mode.bitOperand inRegister).put new).run
        (before.marked before.registers.flags opcode trace) = .ok () next := by
      refine hput.imp_right fun ⟨next, hnext⟩ ↦ ?_
      obtain ⟨_, hmarked⟩ := blind_put _ _ before () next hnext before.registers.flags opcode trace
      exact ⟨_, hmarked⟩
    obtain ⟨performed, hbit⟩ := Instruction.exists_run_bit hmode (hbus trace) hnames'
      (hreads.marked before.registers.flags opcode trace) hturned hput'
    obtain ⟨progress, exitRequest, hrun⟩ := hstep performed hbit
    exact ⟨progress, _, hrun⟩

/-- Complements the bit of D1 with the number in D1, after a sum with a carry. -/
def complementingBitProgram : Machine where
  registers := { d := #v[0, 0x25, 0, 0, 0, 0, 0, 0], flags := .ofAdd 0 0xFFFFFFFF 1 }
  memory := .ram { size := 0x10, written := .ofList [(0x00, (0x03 : Byte)), (0x01, 0x41)] }

/-- Bit 5 was set, so Z is not, and the other flags are those of the sum. -/
theorem bit_touched_of_run_step_complementingBitProgram :
    ∃ progress final, (step handlers).run complementingBitProgram = .ok progress final ∧
      final.registers.getD 1 = 0x05 ∧ final.memory = complementingBitProgram.memory ∧
      final.registers.flags.ccr =
        { extend := true, negative := false, zero := false, overflow := false, carry := true } := by
  have hlookup : instructionSet.lookup 0x0341 = some (.bit .change true) := by
    rw [lookup_instructionSet]
    decide +kernel
  have hmeets : complementingBitProgram.Meets complementingBitProgram 0x0341 (.bit .change true) :=
    ⟨rfl, rfl, hlookup⟩
  obtain ⟨mode, hmode, -, -, heffect, hdone⟩ := bit_touched_of_run_step hmeets
  cases hmode
  obtain ⟨progress, final, hrun⟩ :=
    hdone 0x25 0x25 0x05 rfl ⟨_, rfl⟩ (by unfold BitOperation.Turns; decide) (.inr ⟨_, rfl⟩)
  obtain ⟨number, old, new, hnumber, heffect⟩ := heffect progress final hrun
  obtain rfl : number = 0x25 := hnumber
  obtain ⟨_, hread⟩ := heffect.read
  cases hread
  obtain rfl : new = 0x05 := heffect.turned.unique (by unfold BitOperation.Turns; decide)
  have hregister := congrArg (·.getD 1) heffect.registers
  exact ⟨progress, final, hrun, hregister, heffect.unwritten (.inr rfl), heffect.ccr.trans rfl⟩

end M68000
