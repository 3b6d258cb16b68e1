import M68000.Instruction.Unary
import M68000.Proofs.Chained.Arithmetic
import M68000.Proofs.Exec.Location
import M68000.Proofs.Registers.Status

/-!
# One part of a chain

What ADDX, SUBX and NEGX, and ABCD, SBCD and NBCD, do to operands in memory: each works on the
operands just below its address registers, and moves these registers below them.
-/

namespace M68000

/-- Except for bytes on the stack, an address register moves by what lies between. -/
theorem Size.step_eq_bytes {size : Size} {number : Fin 8}
    (hstack : size = .byte → number ≠ stackPointer) : size.step number = size.bytes := by
  rw [Size.step]
  split
  next heq =>
    cases size with
    | byte => exact absurd heq (hstack rfl)
    | word => rfl
    | long => rfl
  next => rfl

/-- What an instruction does to a part of a number, with a part of another one if it takes one. -/
structure PartOperation (size : Size) where
  combine : size.Value → size.Value → Bool → ChainedResult size.bits
  TakesSource : Prop
  ignores : ¬TakesSource → ∀ destination source source' extend,
    combine destination source extend = combine destination source' extend

/-- The operation is done on the operands below two address registers, of which one that takes no
source leaves the second one alone. -/
structure Works {size : Size} (operation : PartOperation size) (x y : Fin 8)
    (destination source : size.Value) (before after : Machine) : Prop where
  reads : before.memory.read ⟨before.registers.supervisor, false⟩
    (before.registers.getA x - BitVec.ofNat 32 size.bytes) size = .ok destination
  readsSource : operation.TakesSource → before.memory.read ⟨before.registers.supervisor, false⟩
    (before.registers.getA y - BitVec.ofNat 32 size.bytes) size = .ok source
  writes : before.memory.write ⟨before.registers.supervisor, false⟩
    (before.registers.getA x - BitVec.ofNat 32 size.bytes) size
    (operation.combine destination source before.registers.flags.extend).value =
      .ok () after.memory
  codes : after.registers.flags.ccr =
    (operation.combine destination source before.registers.flags.extend).codesAfter
      before.registers.flags.ccr
  lowers : after.registers.getA x = before.registers.getA x - BitVec.ofNat 32 size.bytes
  lowersSource : operation.TakesSource →
    after.registers.getA y = before.registers.getA y - BitVec.ofNat 32 size.bytes
  supervisor : after.registers.supervisor = before.registers.supervisor
  advances : after.registers.pc = before.registers.pc + 2

namespace Works

variable {size : Size} {operation : PartOperation size} {x y : Fin 8}
  {destination source : size.Value} {before after : Machine}
  (h : Works operation x y destination source before after)

include h

/-- An operation without a source has the same result with any other. -/
theorem congr_source {source' : size.Value}
    (hsource : operation.TakesSource → source = source') :
    Works operation x y destination source' before after := by
  by_cases htakes : operation.TakesSource
  · obtain rfl := hsource htakes
    exact h
  · have hignores := operation.ignores htakes destination source source'
    exact ⟨h.reads, fun h ↦ absurd h htakes, hignores _ ▸ h.writes, hignores _ ▸ h.codes, h.lowers,
      fun h ↦ absurd h htakes, h.supervisor, h.advances⟩

/-- What was read is what an operation has worked on. -/
theorem eq_of_read {low low' : size.Value}
    (hlow : before.memory.read ⟨before.registers.supervisor, false⟩
      (before.registers.getA x - BitVec.ofNat 32 size.bytes) size = .ok low)
    (hlow' : operation.TakesSource → before.memory.read ⟨before.registers.supervisor, false⟩
      (before.registers.getA y - BitVec.ofNat 32 size.bytes) size = .ok low') :
    Works operation x y low low' before after := by
  obtain rfl : destination = low := Except.ok.inj (h.reads.symm.trans hlow)
  exact h.congr_source fun htakes ↦
    Except.ok.inj ((h.readsSource htakes).symm.trans (hlow' htakes))

end Works

open Exec

variable {size : Size} {number : Fin 8} {offset : Nat} {machine final : Machine}

/-! ## Operands below an address register -/

namespace Operand

theorem exists_of_run_get_preDecrement {value : size.Value}
    (hrun : (⟨.preDecrement number, offset⟩ : Operand size).get.run machine = .ok value final) :
    ∃ trace, machine.memory.read machine.dataCode
        (machine.registers.getA number - BitVec.ofNat 32 (size.step number)) size = .ok value ∧
      final = { machine with trace } :=
  exists_of_run_readAs hrun

/-- The operand is replaced below the address register, which is moved to it. -/
theorem exists_of_run_put_finish_preDecrement {value : size.Value} {rest : Exec α} {a : α}
    (hrun : (do
      (⟨.preDecrement number, offset⟩ : Operand size).put value
      (⟨.preDecrement number, offset⟩ : Operand size).finish
      rest).run machine = .ok a final) :
    let below := machine.registers.getA number - BitVec.ofNat 32 (size.step number)
    ∃ memory trace, machine.memory.write machine.dataCode below size value = .ok () memory ∧
      rest.run { machine with registers := machine.registers.setA number below, memory, trace } =
        .ok a final := by
  obtain ⟨_, _, hput, hrun⟩ := run_bind_eq_ok.1 hrun
  obtain ⟨memory, hwrite, rfl⟩ := run_writeAs_eq_ok.1 hput
  obtain ⟨_, _, hfinish, hrun⟩ := run_bind_eq_ok.1 hrun
  cases hfinish
  exact ⟨memory, _, hwrite, hrun⟩

end Operand

/-! ## The instructions -/

namespace Instruction

variable {opcode : Opcode}

theorem exists_of_run_chained
    {combine : size.Value → size.Value → Bool → ChainedResult size.bits}
    (hrun : (chained size combine true opcode).run machine = .ok () final) :
    let y := opcode.lowRegister
    let x := opcode.highRegister
    let below := machine.registers.getA y - BitVec.ofNat 32 (size.step y)
    let lowered := machine.registers.setA y below
    let below' := lowered.getA x - BitVec.ofNat 32 (size.step x)
    ∃ destination source memory trace,
      machine.memory.read machine.dataCode below size = .ok source ∧
      machine.memory.read machine.dataCode below' size = .ok destination ∧
      machine.memory.write machine.dataCode below' size
        (combine destination source machine.registers.flags.extend).value = .ok () memory ∧
      final = { machine with
        registers := ((lowered.setA x below').setCcr
          ((combine destination source machine.registers.flags.extend).ccr
            machine.registers.flags)).advancePc 2
        memory, trace } := by
  obtain ⟨source, _, hsource, hrun⟩ := run_bind_eq_ok.1 hrun
  obtain ⟨_, hread, rfl⟩ := Operand.exists_of_run_get_preDecrement hsource
  obtain ⟨_, _, hfinish, hrun⟩ := run_bind_eq_ok.1 hrun
  cases hfinish
  obtain ⟨destination, _, hdestination, hrun⟩ := run_bind_eq_ok.1 hrun
  obtain ⟨_, hread', rfl⟩ := Operand.exists_of_run_get_preDecrement hdestination
  obtain ⟨_, _, hflags, hrun⟩ := run_bind_eq_ok.1 hrun
  cases hflags
  obtain ⟨memory, _, hwrite, hrun⟩ := Operand.exists_of_run_put_finish_preDecrement hrun
  cases hrun
  exact ⟨destination, source, memory, _, hread, hread', hwrite, rfl⟩

/-- Two registers that are different are lowered one after the other. -/
theorem works_of_run_chained {operation : PartOperation size}
    (hbus : machine.busSupervisor = machine.registers.supervisor)
    (hne : opcode.highRegister ≠ opcode.lowRegister)
    (hx : size = .byte → opcode.highRegister ≠ stackPointer)
    (hy : size = .byte → opcode.lowRegister ≠ stackPointer)
    (hrun : (chained size operation.combine true opcode).run machine = .ok () final) :
    ∃ destination source,
      Works operation opcode.highRegister opcode.lowRegister destination source machine final := by
  obtain ⟨destination, source, memory, trace, hsource, hdestination, hwrite, rfl⟩ :=
    exists_of_run_chained hrun
  rw [Size.step_eq_bytes hx, Size.step_eq_bytes hy,
    Registers.getA_setA_of_ne _ hne] at hdestination hwrite
  rw [Size.step_eq_bytes hy] at hsource
  rw [Machine.dataCode, hbus] at hsource hdestination hwrite
  refine ⟨destination, source, hdestination, fun _ ↦ hsource, hwrite, ?codes, ?lowers,
    fun _ ↦ ?lowersSource, rfl, rfl⟩
  case codes => exact Flags.ccr_ofCcr _
  case lowers =>
    refine (Registers.getA_setA_self ..).trans ?_
    rw [Registers.getA_setA_of_ne _ hne, Size.step_eq_bytes hx]
  case lowersSource =>
    refine (Registers.getA_setA_of_ne _ hne.symm _).trans ?_
    refine (Registers.getA_setA_self ..).trans ?_
    rw [Size.step_eq_bytes hy]

/-- NEGX and NBCD replace the operand below one register. -/
theorem works_of_replaced {operation : PartOperation size} {x : Fin 8}
    (hbus : machine.busSupervisor = machine.registers.supervisor)
    (hx : size = .byte → x ≠ stackPointer) (hnone : ¬operation.TakesSource) (y : Fin 8)
    {destination source : size.Value} {memory : Space} {trace : Option (List BusAccess)}
    (hread : machine.memory.read machine.dataCode
      (machine.registers.getA x - BitVec.ofNat 32 (size.step x)) size = .ok destination)
    (hwrite : machine.memory.write machine.dataCode
      (machine.registers.getA x - BitVec.ofNat 32 (size.step x)) size
      (operation.combine destination source machine.registers.flags.extend).value =
        .ok () memory) :
    Works operation x y destination source machine
      { machine with
        registers := ((machine.registers.setA x
          (machine.registers.getA x - BitVec.ofNat 32 (size.step x))).setCcr
          ((operation.combine destination source machine.registers.flags.extend).ccr
            machine.registers.flags)).advancePc 2
        memory, trace } := by
  rw [Size.step_eq_bytes hx] at hread hwrite ⊢
  rw [Machine.dataCode, hbus] at hread hwrite
  exact ⟨hread, fun h ↦ absurd h hnone, hwrite, Flags.ccr_ofCcr _, Registers.getA_setA_self ..,
    fun h ↦ absurd h hnone, rfl, rfl⟩

/-- NEGX passes the flags on before it writes. -/
theorem exists_of_run_negx {x : Fin 8}
    (hmode : Mode.ofField? opcode.operandField = some (.preDecrement x))
    (hrun : (unary .negx size opcode).run machine = .ok () final) :
    let below := machine.registers.getA x - BitVec.ofNat 32 (size.step x)
    ∃ destination memory trace,
      machine.memory.read machine.dataCode below size = .ok destination ∧
      machine.memory.write machine.dataCode below size
        (ChainedResult.neg destination machine.registers.flags.extend).value = .ok () memory ∧
      final = { machine with
        registers := ((machine.registers.setA x below).setCcr
          ((ChainedResult.neg destination machine.registers.flags.extend).ccr
            machine.registers.flags)).advancePc 2
        memory, trace } := by
  have hrun := Operand.run_of_ofField? hmode hrun
  obtain ⟨destination, _, hget, hrun⟩ := run_bind_eq_ok.1 hrun
  obtain ⟨_, hread, rfl⟩ := Operand.exists_of_run_get_preDecrement hget
  obtain ⟨_, _, hflags, hrun⟩ := run_bind_eq_ok.1 hrun
  cases hflags
  obtain ⟨_, _, hmodify, hrun⟩ := run_bind_eq_ok.1 hrun
  cases hmodify
  obtain ⟨memory, _, hwrite, hrun⟩ := Operand.exists_of_run_put_finish_preDecrement hrun
  cases hrun
  exact ⟨destination, memory, _, hread, hwrite, rfl⟩

theorem exists_of_run_negateDecimal {x : Fin 8}
    (hmode : Mode.ofField? opcode.operandField = some (.preDecrement x))
    (hrun : (negateDecimal opcode).run machine = .ok () final) :
    let below := machine.registers.getA x - BitVec.ofNat 32 (Size.byte.step x)
    ∃ destination memory trace,
      machine.memory.read machine.dataCode below .byte = .ok destination ∧
      machine.memory.write machine.dataCode below .byte
        (ChainedResult.subDecimal 0 destination machine.registers.flags.extend).value =
          .ok () memory ∧
      final = { machine with
        registers := ((machine.registers.setA x below).setCcr
          ((ChainedResult.subDecimal 0 destination machine.registers.flags.extend).ccr
            machine.registers.flags)).advancePc 2
        memory, trace } := by
  have hrun := Operand.run_of_ofField? hmode hrun
  obtain ⟨destination, _, hget, hrun⟩ := run_bind_eq_ok.1 hrun
  obtain ⟨_, hread, rfl⟩ := Operand.exists_of_run_get_preDecrement hget
  obtain ⟨_, _, hflags, hrun⟩ := run_bind_eq_ok.1 hrun
  cases hflags
  obtain ⟨memory, _, hwrite, hrun⟩ := Operand.exists_of_run_put_finish_preDecrement hrun
  cases hrun
  exact ⟨destination, memory, _, hread, hwrite, rfl⟩

end Instruction

end M68000
