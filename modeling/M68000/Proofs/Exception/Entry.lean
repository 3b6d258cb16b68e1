import M68000.Proofs.Exec.Run
import M68000.Proofs.Memory.ReadBack
import M68000.Proofs.Registers.Status

/-!
# Entering exceptions

Entering an exception stacks a frame of six bytes below the supervisor stack pointer, with the
status register on top of the return address, and leaves supervisor state, the moved stack
pointer and the address of the handler behind. An interrupt is accepted in the same way, and then
masks all that are no more urgent.
-/

namespace M68000

/-- The interrupt that would be accepted now: that of the highest level with a request, if it is
above the mask or cannot be masked. -/
def Machine.dueInterrupt? (machine : Machine) : Option (InterruptLevel × Byte) :=
  if machine.interrupts.pending then
    machine.interrupts.highest?.filter fun (level, _) ↦
      machine.registers.interruptMask.toNat < level.number ∨ level.number = 7
  else none

/-- What is so after an exception has been entered, with what was so before. -/
structure EntersException (vector : Byte) (returnAddress : Address) (before after : Machine) :
    Prop where
  registers : after.registers =
    { (before.registers.setSupervisor true).setA stackPointer
        (before.registers.supervisorStack - 6) with pc := after.registers.pc }
  busSupervisor : after.busSupervisor = true
  /-- The return address is stacked first. -/
  stacked : ∃ middle,
    before.memory.write .supervisorData (before.registers.supervisorStack - 4) .long
        returnAddress = .ok () middle ∧
      middle.write .supervisorData (before.registers.supervisorStack - 6) .word
        before.registers.statusRegister = .ok () after.memory
  handler : after.memory.read .supervisorData (vector.setWidth 32 * 4) .long =
    .ok after.registers.pc
  interrupts : after.interrupts = before.interrupts
  exitRequest : after.exitRequest = before.exitRequest

/-- The frame of an exception can be stacked and the address of its handler be read. -/
def Machine.CanEnter (machine : Machine) (vector : Byte) (returnAddress : Address) : Prop :=
  ∃ middle memory handler,
    machine.memory.write .supervisorData (machine.registers.supervisorStack - 4) .long
        returnAddress = .ok () middle ∧
      middle.write .supervisorData (machine.registers.supervisorStack - 6) .word
        machine.registers.statusRegister = .ok () memory ∧
      memory.read .supervisorData (vector.setWidth 32 * 4) .long = .ok handler

namespace EntersException

variable {vector : Byte} {returnAddress : Address} {before after : Machine}
  (h : EntersException vector returnAddress before after)

include h

theorem canEnter : before.CanEnter vector returnAddress := by
  obtain ⟨middle, hreturn, hstatus⟩ := h.stacked
  exact ⟨middle, _, _, hreturn, hstatus, h.handler⟩

/-! ## Registers after the entry -/

theorem supervisor : after.registers.supervisor = true := by
  rw [h.registers]
  exact before.registers.supervisor_setSupervisor true

theorem getA_stackPointer :
    after.registers.getA stackPointer = before.registers.supervisorStack - 6 := by
  rw [h.registers]
  exact Registers.getA_setA_self ..

theorem userStack : after.registers.userStack = before.registers.userStack := by
  have hstate := before.registers.supervisor_setSupervisor true
  rw [h.registers, ← before.registers.userStack_setSupervisor true]
  exact Registers.userStack_setA_of_supervisor _ hstate stackPointer _

/-! ## The frame -/

variable (code : FunctionCode)

/-- The status register on top of the frame is the one from before the entry. -/
theorem read_status :
    after.memory.read code (after.registers.getA stackPointer) .word =
      .ok before.registers.statusRegister := by
  obtain ⟨middle, -, hstatus⟩ := h.stacked
  rw [h.getA_stackPointer]
  exact Space.read_write hstatus

/-- The return address lies under the status register, which did not touch it. -/
theorem read_returnAddress :
    after.memory.read code (after.registers.getA stackPointer + 2) .long = .ok returnAddress := by
  obtain ⟨middle, hreturn, hstatus⟩ := h.stacked
  have hplace : before.registers.supervisorStack - 6 + 2 = before.registers.supervisorStack - 4 := by
    bv_omega
  have hapart : Address.Apart (before.registers.supervisorStack - 4) 4
      (before.registers.supervisorStack - 6) 2 := by
    rw [← hplace]
    exact (Address.apart_add _ _ _ (by decide)).symm
  rw [h.getA_stackPointer, hplace]
  exact (Space.read_write_of_apart (middle.apart_of_places hapart) hstatus).trans
    (Space.read_write hreturn)

end EntersException

namespace Exec

variable {machine final : Machine} {vector : Byte} {returnAddress : Address}

/-- The part of entering an exception that comes after the change of state. -/
theorem exists_of_run_pushFrame {status : BitVec 16}
    (hrun : (do
      push .long returnAddress
      push .word status
      setPc (← readAs .supervisorData .long (vector.setWidth 32 * 4))).run machine =
        .ok () final) :
    let top := machine.registers.getA stackPointer
    ∃ middle memory trace pc,
      machine.memory.write machine.dataCode (top - 4) .long returnAddress = .ok () middle ∧
      middle.write machine.dataCode (top - 6) .word status = .ok () memory ∧
      memory.read .supervisorData (vector.setWidth 32 * 4) .long = .ok pc ∧
      final = { machine with
        registers := { machine.registers.setA stackPointer (top - 6) with pc }, memory, trace } := by
  obtain ⟨_, _, hpush, hrun⟩ := run_bind_eq_ok.1 hrun
  obtain ⟨middle, _, hreturn, rfl⟩ := exists_of_run_push hpush
  obtain ⟨_, _, hpush', hrun⟩ := run_bind_eq_ok.1 hrun
  obtain ⟨memory, _, hstatus, rfl⟩ := exists_of_run_push hpush'
  obtain ⟨pc, _, hjump, hrun⟩ := run_bind_eq_ok.1 hrun
  obtain ⟨trace, hread, rfl⟩ := exists_of_run_readAs hjump
  have htop : (machine.registers.setA stackPointer
      (machine.registers.getA stackPointer - 4)).getA stackPointer - 2 =
        machine.registers.getA stackPointer - 6 := by
    rw [Registers.getA_setA_self, BitVec.sub_sub]
    rfl
  refine ⟨middle, memory, trace, pc, hreturn, ?_, hread, ?_⟩
  · rw [← htop]
    exact hstatus
  · rw [← htop, ← Registers.setA_setA]
    exact (EStateM.Result.ok.inj hrun).2.symm

theorem entersException_of_run
    (hrun : (enterException vector returnAddress).run machine = .ok () final) :
    EntersException vector returnAddress machine final := by
  have htop : (machine.setSupervisor true).registers.getA stackPointer =
      machine.registers.supervisorStack :=
    machine.registers.getA_stackPointer_setSupervisor true
  have hsupervisor : (machine.setSupervisor true).busSupervisor = true :=
    machine.registers.supervisor_setSupervisor true
  have hcode : (machine.setSupervisor true).dataCode = .supervisorData := by
    rw [Machine.dataCode, hsupervisor]
    rfl
  obtain ⟨_, _, hregisters, hrun⟩ := run_bind_eq_ok.1 hrun
  cases hregisters
  obtain ⟨_, _, hstate, hrun⟩ := run_bind_eq_ok.1 hrun
  cases hstate
  have hframe := exists_of_run_pushFrame hrun
  rw [htop, hcode] at hframe
  obtain ⟨middle, memory, trace, pc, hreturn, hstatus, hread, rfl⟩ := hframe
  exact ⟨rfl, hsupervisor, ⟨middle, hreturn, hstatus⟩, hread, rfl, rfl⟩

/-- An exception is entered where its frame can be stacked. -/
theorem exists_run_enterException (hcan : machine.CanEnter vector returnAddress) :
    ∃ final, (enterException vector returnAddress).run machine = .ok () final := by
  obtain ⟨middle, memory, handler, hreturn, hstatus, hread⟩ := hcan
  have htop : (machine.setSupervisor true).registers.getA stackPointer =
      machine.registers.supervisorStack :=
    machine.registers.getA_stackPointer_setSupervisor true
  have hcode : (machine.setSupervisor true).dataCode = .supervisorData :=
    congrArg (FunctionCode.mk · false) (machine.registers.supervisor_setSupervisor true)
  have hplace : machine.registers.supervisorStack - 6 =
      machine.registers.supervisorStack - 4 - 2 := by
    rw [BitVec.sub_sub]
    rfl
  rw [← htop, ← hcode] at hreturn
  obtain ⟨trace, hpush⟩ := exists_run_push (machine.setSupervisor true) .long hreturn
  let pushed : Machine := { machine.setSupervisor true with
    registers := (machine.setSupervisor true).registers.setA stackPointer
      ((machine.setSupervisor true).registers.getA stackPointer - 4)
    memory := middle, trace }
  have htop' : pushed.registers.getA stackPointer = machine.registers.supervisorStack - 4 := by
    rw [← htop]
    exact Registers.getA_setA_self ..
  have hcode' : pushed.dataCode = .supervisorData := hcode
  rw [hplace, ← htop', ← hcode'] at hstatus
  obtain ⟨trace', hpush'⟩ := exists_run_push pushed .word hstatus
  exact ⟨_, run_bind_eq_ok.2 ⟨_, _, rfl, run_bind_eq_ok.2 ⟨(), _, rfl,
    run_bind_eq_ok.2 ⟨(), _, hpush, run_bind_eq_ok.2 ⟨(), _, hpush',
      run_bind_eq_ok.2 ⟨handler, _, run_readAs_eq_ok.2 ⟨hread, rfl⟩, rfl⟩⟩⟩⟩⟩⟩

/-! ## Interrupts -/

/-- Without a request nothing is done about interrupts. -/
theorem run_acceptInterrupt_of_not_pending {machine : Machine}
    (hpending : machine.interrupts.pending = false) :
    acceptInterrupt.run machine = .ok () machine := by
  unfold acceptInterrupt
  rw [EStateM.run_bind, EStateM.run_get]
  simp only [hpending]
  rfl

theorem run_acceptInterrupt_of_pending (hpending : machine.interrupts.pending = true)
    (hdue : machine.dueInterrupt? = none) :
    acceptInterrupt.run machine =
      .ok () { machine with interrupts := machine.interrupts.refresh } := by
  unfold Machine.dueInterrupt? at hdue
  unfold acceptInterrupt
  rw [EStateM.run_bind, EStateM.run_get]
  simp only [hpending, if_true] at hdue ⊢
  cases hhighest : machine.interrupts.highest? with
  | none => rfl
  | some request =>
    obtain ⟨level, vector⟩ := request
    rw [hhighest] at hdue
    have hmasked : ¬ (machine.registers.interruptMask.toNat < level.number ∨
        level.number = 7) := by
      simpa [Option.filter] using hdue
    simp only [hmasked, if_false]
    rfl

/-- Where no interrupt is due, only the flag for requests is brought up to date. -/
theorem run_acceptInterrupt_of_not_due (hdue : machine.dueInterrupt? = none) :
    ∃ interrupts, acceptInterrupt.run machine = .ok () { machine with interrupts } ∧
      (interrupts = machine.interrupts ∨ interrupts = machine.interrupts.refresh) := by
  cases hpending : machine.interrupts.pending with
  | false => exact ⟨machine.interrupts, run_acceptInterrupt_of_not_pending hpending, .inl rfl⟩
  | true => exact ⟨_, run_acceptInterrupt_of_pending hpending hdue, .inr rfl⟩

theorem exists_of_run_acceptInterrupt_of_not_due (hdue : machine.dueInterrupt? = none)
    (hrun : acceptInterrupt.run machine = .ok () final) :
    ∃ interrupts, final = { machine with interrupts } ∧
      (interrupts = machine.interrupts ∨ interrupts = machine.interrupts.refresh) := by
  obtain ⟨interrupts, haccept, hinterrupts⟩ := run_acceptInterrupt_of_not_due hdue
  rw [hrun] at haccept
  cases haccept
  exact ⟨interrupts, rfl, hinterrupts⟩

/-- An interrupt that is due is removed before it is entered. -/
theorem run_acceptInterrupt_of_due {level : InterruptLevel}
    (hdue : machine.dueInterrupt? = some (level, vector)) :
    acceptInterrupt.run machine = (do
      enterException vector machine.registers.pc
      modifyRegisters (·.setInterruptMask (BitVec.ofNat 8 level.number))
      modify fun machine : Machine ↦
        { machine with interrupts := machine.interrupts.refresh }).run
        { machine with interrupts := machine.interrupts.remove level } := by
  unfold Machine.dueInterrupt? at hdue
  unfold acceptInterrupt
  rw [EStateM.run_bind, EStateM.run_get]
  by_cases hpending : machine.interrupts.pending
  · simp only [hpending, if_true] at hdue ⊢
    obtain ⟨hhighest, hurgent⟩ := Option.filter_eq_some_iff.1 hdue
    have hurgent : machine.registers.interruptMask.toNat < level.number ∨ level.number = 7 := by
      simpa using hurgent
    rw [hhighest]
    simp only [hurgent, if_true]
    rfl
  · simp [hpending] at hdue

/-- An interrupt that is accepted returns to where it was accepted. -/
theorem exists_of_run_acceptInterrupt {level : InterruptLevel}
    (hdue : machine.dueInterrupt? = some (level, vector))
    (hrun : acceptInterrupt.run machine = .ok () final) :
    ∃ entered, EntersException vector machine.registers.pc
        { machine with interrupts := machine.interrupts.remove level } entered ∧
      final = { entered with
        registers := entered.registers.setInterruptMask (BitVec.ofNat 8 level.number)
        interrupts := entered.interrupts.refresh } := by
  rw [run_acceptInterrupt_of_due hdue] at hrun
  obtain ⟨_, entered, henter, hrun⟩ := run_bind_eq_ok.1 hrun
  exact ⟨entered, entersException_of_run henter, (EStateM.Result.ok.inj hrun).2.symm⟩

/-- The flag for requests is brought up to date at most, or an interrupt is accepted. -/
theorem cases_of_run_acceptInterrupt (hrun : acceptInterrupt.run machine = .ok () final) :
    (∃ interrupts, final = { machine with interrupts }) ∨
      ∃ level vector entered, EntersException vector machine.registers.pc
          { machine with interrupts := machine.interrupts.remove level } entered ∧
        final = { entered with
          registers := entered.registers.setInterruptMask (BitVec.ofNat 8 level.number)
          interrupts := entered.interrupts.refresh } := by
  cases hdue : machine.dueInterrupt? with
  | none =>
    obtain ⟨interrupts, hfinal, -⟩ := exists_of_run_acceptInterrupt_of_not_due hdue hrun
    exact .inl ⟨interrupts, hfinal⟩
  | some request =>
    obtain ⟨level, vector⟩ := request
    obtain ⟨entered, henters, hfinal⟩ := exists_of_run_acceptInterrupt hdue hrun
    exact .inr ⟨level, vector, entered, henters, hfinal⟩

end Exec

end M68000
