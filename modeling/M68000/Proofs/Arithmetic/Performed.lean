import M68000.Proofs.Dispatch.Written
import M68000.Proofs.Flags.Arithmetic
import M68000.Proofs.Memory.ReadBack
import M68000.Proofs.Registers.Values
import M68000.Proofs.Run.Instruction
import M68000.Proofs.Shift.Instruction

/-!
# Performing an operation

Adding, subtracting, comparing and combining bit by bit leave a result at the location of the
destination and flags that follow from the exact result. Nothing else changes but the address
register that the operand steps: neither the bits of a data register above its operand, nor any
other register, nor any byte outside the destination.
-/

namespace M68000

open Exec

/-! ## Results and flags -/

/-- What an operation makes of two operands: the exact sum or difference of the numbers, modulo the
power of two that the operands have room for, or the bits combined place by place. -/
def Binary.outcome (operation : Binary) (destination source : BitVec n) : BitVec n :=
  match operation with
  | add => BitVec.ofInt n (destination.toInt + source.toInt)
  | sub | cmp => BitVec.ofInt n (destination.toInt - source.toInt)
  | and => destination &&& source
  | or => destination ||| source
  | eor => destination ^^^ source

theorem Binary.result_eq_outcome (operation : Binary) (destination source : BitVec n) :
    operation.result destination source = operation.outcome destination source := by
  cases operation with
  | add => exact BitVec.eq_of_toInt_eq ((BitVec.toInt_add ..).trans (BitVec.toInt_ofInt ..).symm)
  | sub | cmp =>
    exact BitVec.eq_of_toInt_eq ((BitVec.toInt_sub ..).trans (BitVec.toInt_ofInt ..).symm)
  | and | or | eor => rfl

/-- The flags after an operation. Carry and overflow of a sum or a difference tell whether the exact
number is out of range. -/
def Binary.ccr (operation : Binary) (destination source : BitVec n) (before : Ccr) : Ccr :=
  let negative := (operation.outcome destination source).msb
  let zero := operation.outcome destination source == 0
  match operation with
  | add =>
    let carry := unsignedOutOfRange n (destination.toNat + source.toNat)
    let overflow := signedOutOfRange n (destination.toInt + source.toInt)
    { extend := carry, negative, zero, overflow, carry }
  | sub =>
    let carry := unsignedOutOfRange n (destination.toNat - source.toNat)
    let overflow := signedOutOfRange n (destination.toInt - source.toInt)
    { extend := carry, negative, zero, overflow, carry }
  | cmp =>
    let carry := unsignedOutOfRange n (destination.toNat - source.toNat)
    let overflow := signedOutOfRange n (destination.toInt - source.toInt)
    { before with negative, zero, overflow, carry }
  | and | or | eor => { before with negative, zero, overflow := false, carry := false }

theorem Binary.ccr_record (operation : Binary) {n : Nat} (hle : n ≤ 32) (hn : 0 < n)
    (destination source : BitVec n) (flags : Flags) :
    (operation.record destination source flags).ccr =
      operation.ccr destination source flags.ccr := by
  simp only [ccr, ← operation.result_eq_outcome]
  cases operation with
  | add => exact Flags.ccr_ofAdd hle destination source hn
  | sub => exact Flags.ccr_ofSub hle destination source hn
  | cmp => exact Flags.ccr_setCompare hle destination source flags hn
  | and | or | eor => exact Flags.ccr_setResult hle flags _

/-! ## What an operation changes -/

/-- The byte is none of those at the location. -/
def Location.Excludes (location : Location) (size : Size) (memory : Space) (other : Address) :
    Prop :=
  match location with
  | register _ => True
  | Location.memory address =>
    ∀ i < size.bytes, memory.Distinct other (address + BitVec.ofNat 32 i)

/-- The registers and the memory hold the same data as the machine outside the location. -/
structure Location.Confines (location : Location) (size : Size) (machine : Machine)
    (registers : Registers) (memory : Space) : Prop where
  above : ∀ number, location = .register number →
    registers.getD number >>> size.bits = machine.registers.getD number >>> size.bits
  data : ∀ number, location ≠ .register number →
    registers.getD number = machine.registers.getD number
  bytes : ∀ code other, location.Excludes size machine.memory other →
    memory.getByte code other = machine.memory.getByte code other

/-- The operation has been performed on what a location held and on a source. Of the operand it is
known how it steps an address register and where the instruction ends. -/
structure Binary.Performed (operation : Binary) {size : Size} (operand : Operand size)
    (location : Location) (destination source : size.Value) (before after : Machine) : Prop where
  /-- The location holds the result, with any function code. -/
  result : operation ≠ .cmp → ∀ code,
    location.Holds code after (operation.outcome destination source)
  /-- A comparison writes nothing. -/
  nothing : operation = .cmp → after.memory = before.memory ∧
    ∀ number, after.registers.getD number = before.registers.getD number
  ccr : after.registers.flags.ccr = operation.ccr destination source before.registers.flags.ccr
  /-- The bits of a data register above the operand are kept. -/
  above : ∀ number, location = .register number →
    after.registers.getD number >>> size.bits = before.registers.getD number >>> size.bits
  data : ∀ number, location ≠ .register number →
    after.registers.getD number = before.registers.getD number
  address : ∀ number,
    after.registers.getA number = (operand.finished before.registers).getA number
  /-- The stack pointer that is not live is kept. -/
  slots : after.registers.userSlot = before.registers.userSlot ∧
    after.registers.supervisorSlot = before.registers.supervisorSlot
  /-- Every other byte of the memory is kept. -/
  bytes : ∀ code other, location.Excludes size before.memory other →
    after.memory.getByte code other = before.memory.getByte code other
  pc : after.registers.pc =
    before.registers.pc + BitVec.ofNat 32 (operand.offset + operand.extensionBytes)
  supervisor : after.registers.supervisor = before.registers.supervisor
  interruptMask : after.registers.interruptMask = before.registers.interruptMask

/-- What has been performed does not depend on more than registers and memory. -/
theorem Binary.Performed.congr {operation : Binary} {size : Size} {operand : Operand size}
    {location : Location} {destination source : size.Value} {before before' after after' : Machine}
    (h : operation.Performed operand location destination source before after)
    (hregisters : before'.registers = before.registers) (hmemory : before'.memory = before.memory)
    (hregisters' : after'.registers = after.registers) (hmemory' : after'.memory = after.memory) :
    operation.Performed operand location destination source before' after' := by
  cases before
  cases before'
  cases after
  cases after'
  cases hregisters
  cases hmemory
  cases hregisters'
  cases hmemory'
  cases location <;> exact ⟨h.result, h.nothing, h.ccr, h.above, h.data, h.address, h.slots,
    h.bytes, h.pc, h.supervisor, h.interruptMask⟩

namespace Location

variable {location : Location} {size : Size} {machine : Machine} {value : size.Value}
  {registers : Registers} {memory : Space}

/-- What is stored at a location is found there. -/
theorem Stores.holds (h : location.Stores machine value registers memory) (code : FunctionCode)
    {after : Machine} (hdata : ∀ number, after.registers.getD number = registers.getD number)
    (hmemory : after.memory = memory) : location.Holds code after value := by
  cases location with
  | register number =>
    obtain ⟨rfl, -⟩ := h
    rw [Holds, hdata, Registers.getD_setD_self, Size.low_replaceLow]
  | memory address =>
    rw [Holds, hmemory]
    exact Space.read_write h.2

/-- Storing at a location leaves all other data alone. -/
theorem Stores.confines (h : location.Stores machine value registers memory) :
    location.Confines size machine registers memory := by
  cases location with
  | register target =>
    obtain ⟨rfl, rfl⟩ := h
    constructor
    case above =>
      rintro number ⟨rfl⟩
      rw [Registers.getD_setD_self, Size.ushiftRight_replaceLow]
    case data =>
      intro number hne
      exact Registers.getD_setD_of_ne _ _ _ _ fun heq ↦ hne (congrArg register heq.symm)
    case bytes => exact fun _ _ _ ↦ rfl
  | memory address =>
    obtain ⟨rfl, hwrite⟩ := h
    refine ⟨fun _ _ ↦ rfl, fun _ _ ↦ rfl, fun code other hexcludes ↦ ?_⟩
    have hapart : machine.memory.Apart other 1 address size.bytes := by
      intro i hi j hj
      obtain rfl : i = 0 := by omega
      rw [BitVec.add_zero]
      exact hexcludes j hj
    have hread : memory.read code other .byte = machine.memory.read code other .byte :=
      Space.read_write_of_apart hapart hwrite
    exact hread

end Location

section Performed

variable {operation : Binary} {size : Size} {operand : Operand size} {location : Location}
  {destination source : size.Value} {machine final : Machine} {registers : Registers}
  {memory : Space}

/-- What an operation writes, if anything. -/
def Binary.result? (operation : Binary) (destination source : BitVec n) : Option (BitVec n) :=
  if operation = .cmp then none else some (operation.outcome destination source)

theorem Location.StoresAny.confines {value? : Option size.Value}
    (h : location.StoresAny machine value? registers memory) :
    location.Confines size machine registers memory := by
  cases value? with
  | some value => exact Stores.confines h
  | none =>
    obtain ⟨rfl, rfl⟩ := h
    exact ⟨fun _ _ ↦ rfl, fun _ _ ↦ rfl, fun _ _ _ ↦ rfl⟩

/-- Storing changes data registers only. -/
theorem Location.StoresAny.exists_data {value? : Option size.Value}
    (h : location.StoresAny machine value? registers memory) :
    ∃ d, registers = { machine.registers with d } := by
  cases value? with
  | none => exact ⟨_, h.1⟩
  | some value =>
    cases location with
    | register number => exact ⟨_, h.1⟩
    | memory address => exact ⟨_, h.1⟩

/-- An operation is performed where its result is stored, its flags are recorded and the operand is
done with. -/
theorem Binary.performed_of_storesAny
    (hstores : location.StoresAny machine (operation.result? destination source) registers memory)
    (hregisters : final.registers = ({ operand.finished registers with
      flags := operation.record destination source machine.registers.flags } : Registers).advancePc
        (operand.offset + operand.extensionBytes))
    (hmemory : final.memory = memory) :
    operation.Performed operand location destination source machine final := by
  have hdata (number : Fin 8) : final.registers.getD number = registers.getD number := by
    rw [hregisters]
    exact operand.getD_finished registers number
  have hconfines := hstores.confines
  obtain ⟨d, hd⟩ := hstores.exists_data
  rw [hd, operand.finished_data] at hregisters
  have haddress (number : Fin 8) : final.registers.getA number =
      (operand.finished machine.registers).getA number := by
    rw [hregisters]
    rfl
  obtain ⟨a, ha⟩ := operand.exists_finished machine.registers
  rw [ha] at hregisters
  refine ⟨?result, ?nothing, ?ccr, ?above, ?data, haddress, ?slots, ?bytes, ?pc, ?supervisor,
    ?interruptMask⟩
  case result =>
    intro hwrites code
    rw [Binary.result?, if_neg hwrites] at hstores
    exact hstores.holds code hdata hmemory
  case nothing =>
    intro hcmp
    rw [Binary.result?, if_pos hcmp] at hstores
    obtain ⟨rfl, rfl⟩ := hstores
    exact ⟨hmemory, hdata⟩
  case ccr =>
    rw [hregisters, ← operation.ccr_record size.bits_le size.bits_pos]
    rfl
  case above =>
    intro number hnumber
    rw [hdata, hconfines.above number hnumber]
  case data =>
    intro number hnumber
    rw [hdata, hconfines.data number hnumber]
  case bytes =>
    intro code other hother
    rw [hmemory, hconfines.bytes code other hother]
  case slots =>
    rw [hregisters]
    exact ⟨rfl, rfl⟩
  all_goals
    rw [hregisters]
    rfl

end Performed

end M68000
