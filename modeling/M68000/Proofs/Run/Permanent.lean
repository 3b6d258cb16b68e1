import M68000.Proofs.Run.Step

/-!
# Properties that every instruction maintains

What changes of the flags and of the stack pointer keep, and changes of the privilege state and of
the user stack pointer as well, is maintained by every instruction that stays within these changes,
in any state, whether it enters an exception or not and whether it is done or ends in a fault. Steps
maintain it too, if it does not depend on what they note down.
-/

namespace M68000

open Exec Instruction

/-! ## Lasting properties -/

/-- A property that is kept by the changes and does not end with a change of state either. The
status register may be written only where all flags may be changed, and the user stack pointer only
where the stack pointer may be moved anywhere. -/
structure Lasting (changes : Changes) (inv : Machine → Prop) : Prop extends KeptBy changes inv where
  setSupervisor : ∀ machine supervisor, inv machine → inv (machine.setSupervisor supervisor)
  setStatusRegister : (∀ ccr, changes.flags fun _ ↦ .ofCcr ccr) → ∀ machine value, inv machine →
    inv (machine.setStatusRegister value)
  setUserStack : changes.stack = .any → ∀ machine value, inv machine →
    inv { machine with registers := machine.registers.setUserStack value }

namespace Lasting

variable {changes : Changes} {inv : Machine → Prop} (lasting : Lasting changes inv)

include lasting

/-! ### Exceptions -/

theorem maintains_enterException (vector : Byte) (returnAddress : Address) :
    Maintains inv (enterException vector returnAddress) := by
  have hstate : Maintains inv (modify (·.setSupervisor true)) :=
    maintains_modify fun machine hinv ↦ lasting.setSupervisor machine true hinv
  unfold enterException
  refine maintains_bind maintains_registers fun before ↦ ?_
  refine maintains_bind hstate fun _ ↦ ?_
  refine maintains_bind (lasting.maintains_push .long _) fun _ ↦ ?_
  refine maintains_bind (lasting.maintains_push .word _) fun _ ↦ ?_
  refine maintains_bind (lasting.maintains_readAs _ .long _) fun pc ↦ ?_
  exact lasting.maintains_setPc pc

theorem maintains_trapOnOverflow : Maintains inv trapOnOverflow := by
  unfold trapOnOverflow
  refine maintains_bind maintains_pc fun pc ↦ maintains_bind maintains_flags fun flags ↦ ?_
  split
  · exact lasting.maintains_enterException 7 _
  · exact lasting.maintains_setPc _

theorem maintains_withSource {opcode : Opcode} {rest : Operand .word → BitVec 16 → Exec Unit}
    (hrest : ∀ operand value, Maintains inv (rest operand value)) :
    Maintains inv (withSource opcode rest) := by
  refine maintains_bind (maintains_ofField .word _ 2) fun operand ↦ ?_
  refine maintains_bind (lasting.maintains_get operand) fun value ↦ ?_
  exact maintains_bind (lasting.maintains_finish operand) fun _ ↦ hrest operand value

theorem maintains_divideRest (signedness : Signedness) (opcode : Opcode)
    (hflags : ∀ f, (Operation.divide signedness).Records opcode f → changes.flags f)
    (operand : Operand .word) (divisor : BitVec 16) :
    Maintains inv (divideRest signedness opcode operand divisor) := by
  unfold divideRest
  split
  · exact maintains_bind maintains_pc fun _ ↦ lasting.maintains_enterException 5 _
  · exact maintains_divideBy lasting.toKeptBy signedness opcode hflags divisor _

/-- The flags are recorded as they were read but for N. -/
theorem maintains_checkRest (opcode : Opcode)
    (hflags : ∀ f, Operation.checkBounds.Records opcode f → changes.flags f)
    (operand : Operand .word) (bound : BitVec 16) :
    Maintains inv (checkRest opcode operand bound) := by
  intro machine hinv
  have hentered (flag : Bool) := lasting.maintains_enterException 6
    (machine.registers.pc + BitVec.ofNat 32 (2 + operand.extensionBytes)) _
    (lasting.flags _ (hflags _ ⟨flag, rfl⟩) machine hinv)
  have hadvanced := lasting.maintains_advancePc (2 + operand.extensionBytes) machine hinv
  rw [after, run_checkRest]
  dsimp only
  by_cases hout : ((Size.word.low (machine.registers.getD opcode.highRegister)).slt 0 ||
      bound.slt (Size.word.low (machine.registers.getD opcode.highRegister))) = true
  · rw [if_pos hout]
    exact hentered _
  · rw [if_neg hout]
    exact hadvanced

/-! ### The status register -/

theorem maintains_moveUserStack (direction : UserStackMove) (opcode : Opcode)
    (hstack : changes.stack = .any ∨
      direction = .fromUserStack ∧ opcode.lowRegister ≠ stackPointer) :
    Maintains inv (moveUserStack direction opcode) := by
  unfold moveUserStack
  refine maintains_bind maintains_requireSupervisor fun _ ↦ ?_
  cases direction with
  | toUserStack =>
    refine maintains_bind (maintains_getA _) fun value ↦ ?_
    have hset : Maintains inv (modifyRegisters (·.setUserStack value)) := fun machine hinv ↦
      lasting.setUserStack (hstack.resolve_right fun h ↦ nomatch h.1) machine value hinv
    exact maintains_bind hset fun _ ↦ lasting.maintains_advancePc 2
  | fromUserStack =>
    refine maintains_bind maintains_registers fun registers ↦ ?_
    have hset := lasting.maintains_setA (hstack.imp_right And.right) registers.userStack
    exact maintains_bind hset fun _ ↦ lasting.maintains_advancePc 2

section Status

variable (hcodes : ∀ ccr, changes.flags fun _ ↦ .ofCcr ccr)

include hcodes

theorem maintains_setStatusRegister (value : BitVec 16) :
    Maintains inv (Instruction.setStatusRegister value) :=
  fun machine hinv ↦ lasting.setStatusRegister hcodes machine value hinv

theorem maintains_logicalToStatus (operation : LogicalOperation) :
    Maintains inv (logicalToStatus operation) := by
  unfold logicalToStatus
  refine maintains_bind maintains_requireSupervisor fun _ ↦ ?_
  refine maintains_bind (lasting.maintains_fetch .word 2) fun source ↦ ?_
  refine maintains_bind (maintains_bind maintains_registers fun _ ↦ maintains_pure _) fun _ ↦ ?_
  refine maintains_bind (lasting.maintains_advancePc 4) fun _ ↦ ?_
  exact lasting.maintains_setStatusRegister hcodes _

theorem maintains_moveToStatus (opcode : Opcode) :
    Maintains inv (moveToStatus opcode) := by
  unfold moveToStatus
  refine maintains_bind maintains_requireSupervisor fun _ ↦ ?_
  refine maintains_bind (maintains_ofField .word _ 2) fun operand ↦ ?_
  refine maintains_bind (lasting.maintains_get operand) fun value ↦ ?_
  refine maintains_bind (lasting.maintains_finish operand) fun _ ↦ ?_
  refine maintains_bind (lasting.maintains_advancePc _) fun _ ↦ ?_
  exact lasting.maintains_setStatusRegister hcodes _

theorem maintains_returnFromException : Maintains inv returnFromException := by
  unfold returnFromException
  refine maintains_bind maintains_requireSupervisor fun _ ↦ ?_
  refine maintains_bind (lasting.maintains_pop .word) fun status ↦ ?_
  refine maintains_bind (lasting.maintains_pop .long) fun pc ↦ ?_
  refine maintains_bind (lasting.maintains_setPc pc) fun _ ↦ ?_
  exact lasting.maintains_setStatusRegister hcodes status

end Status

/-! ### Instructions -/

variable {operation : Operation} {opcode : Opcode} {machine : Machine}

/-- Every instruction that stays within the changes. -/
theorem inv_after_execute (hwithin : operation.StaysWithin opcode machine changes)
    (hinv : inv machine) : inv ((operation.execute opcode).after machine) := by
  obtain ⟨hflags, hstack⟩ := hwithin
  cases htrap : operation.mayTrap with
  | true =>
    cases operation with
    | trap =>
      exact maintains_bind maintains_pc (fun _ ↦ lasting.maintains_enterException _ _) machine hinv
    | trapOnOverflow => exact lasting.maintains_trapOnOverflow machine hinv
    | divide signedness =>
      have hrest := lasting.maintains_divideRest signedness opcode hflags
      exact lasting.maintains_withSource hrest machine hinv
    | checkBounds =>
      exact lasting.maintains_withSource (lasting.maintains_checkRest opcode hflags) machine hinv
    | _ => cases htrap
  | false =>
    cases hprivileged : operation.privileged with
    | true =>
      have hcodes (h : ∀ ccr, operation.Records opcode fun _ ↦ .ofCcr ccr) (ccr : Ccr) :=
        hflags _ (h ccr)
      cases operation with
      | logicalToStatus operation =>
        exact lasting.maintains_logicalToStatus (hcodes fun _ ↦ ⟨_, rfl⟩) operation machine hinv
      | moveToStatus =>
        exact lasting.maintains_moveToStatus (hcodes fun _ ↦ ⟨_, rfl⟩) opcode machine hinv
      | moveUserStack direction =>
        refine lasting.maintains_moveUserStack direction opcode ?_ machine hinv
        cases direction with
        | toUserStack => exact hstack.imp_right fun h ↦ absurd trivial h
        | fromUserStack => exact hstack.imp_right fun h ↦ ⟨rfl, h⟩
      | resetDevices =>
        exact maintains_bind maintains_requireSupervisor (fun _ ↦ lasting.maintains_advancePc 2)
          machine hinv
      | returnFromException =>
        exact lasting.maintains_returnFromException (hcodes fun _ ↦ ⟨_, rfl⟩) machine hinv
      | _ => cases hprivileged
    | false => exact lasting.toKeptBy.inv_after_execute htrap hprivileged ⟨hflags, hstack⟩ hinv

omit lasting in
/-- What an opcode stands for, if anything, maintains what lasts under changes that it stays
within. -/
theorem inv_after_perform (inv : Machine → Prop) (hinv : inv machine)
    (h : ∀ operation, instructionSet.lookup opcode = some operation →
      ∃ changes, Lasting changes inv ∧ operation.StaysWithin opcode machine changes) :
    inv ((perform handlers opcode).after machine) := by
  cases hlookup : instructionSet.lookup opcode with
  | some operation =>
    obtain ⟨changes, lasting, hwithin⟩ := h operation hlookup
    rw [perform_of_lookup hlookup]
    exact lasting.inv_after_execute hwithin hinv
  | none =>
    rw [perform_of_lookup_eq_none hlookup]
    exact maintains_illegal machine hinv

omit lasting in
/-- What an opcode stands for maintains what lasts with the flags in its scope. -/
theorem maintains_perform (h : ∀ operation, instructionSet.lookup opcode = some operation →
      Lasting (.within (operation.scope opcode)) inv) : Maintains inv (perform handlers opcode) :=
  fun machine hinv ↦ inv_after_perform inv hinv fun operation hlookup ↦
    ⟨_, h operation hlookup, operation.staysWithin_scope opcode machine⟩

end Lasting

/-! ## Steps -/

/-- A lasting property that does not depend on what steps note down, nor on the interrupt mask
being changed. -/
structure LastingInSteps (changes : Changes) (inv : Machine → Prop) : Prop
    extends Lasting changes inv where
  notes : ∀ machine busSupervisor opcode interrupts exitRequest, inv machine →
    inv { machine with busSupervisor, opcode, interrupts, exitRequest }
  setInterruptMask : ∀ machine level, inv machine →
    inv { machine with registers := machine.registers.setInterruptMask level }

namespace LastingInSteps

variable {changes : Changes} {inv : Machine → Prop} (lasting : LastingInSteps changes inv)

include lasting

theorem maintains_acceptInterrupt : Maintains inv acceptInterrupt := by
  have hinterrupts (f : Interrupts → Interrupts) : Maintains inv
      (modify fun machine ↦ { machine with interrupts := f machine.interrupts }) :=
    maintains_modify fun machine ↦ lasting.notes machine machine.busSupervisor machine.opcode
      (f machine.interrupts) machine.exitRequest
  have hmask (level : BitVec 8) : Maintains inv (modifyRegisters (·.setInterruptMask level)) :=
    fun machine hinv ↦ lasting.setInterruptMask machine level hinv
  unfold acceptInterrupt
  refine maintains_bind maintains_get fun machine ↦ ?_
  split
  next =>
    dsimp only
    split
    next level vector _ =>
      split
      next =>
        refine maintains_bind (hinterrupts (·.remove level)) fun _ ↦ ?_
        refine maintains_bind maintains_pc fun pc ↦ ?_
        refine maintains_bind (lasting.maintains_enterException vector pc) fun _ ↦ ?_
        exact maintains_bind (hmask _) fun _ ↦ hinterrupts (·.refresh)
      next => exact hinterrupts (·.refresh)
    next => exact hinterrupts (·.refresh)
  next => exact maintains_pure ()

theorem maintains_beginStep : Maintains inv beginStep := by
  have hsync : Maintains inv (modify (·.syncPrivilege)) :=
    maintains_modify fun machine ↦ lasting.notes machine machine.registers.supervisor
      machine.opcode machine.interrupts machine.exitRequest
  have hfetch : Maintains inv fetchOpcode :=
    maintains_fetchOpcode_of_notes (lasting.maintains_fetchWord 0) fun machine opcode ↦
      lasting.notes machine machine.busSupervisor opcode machine.interrupts machine.exitRequest
  exact maintains_bind hsync fun _ ↦ maintains_bind lasting.maintains_acceptInterrupt fun _ ↦ hfetch

/-- The instruction of a step has to be looked at only in the machine where it is met. -/
theorem inv_after_step_of_begun {machine : Machine} (hinv : inv machine)
    (h : ∀ opcode next, beginStep.run machine = .ok opcode next → inv next →
      inv ((perform handlers opcode).after next)) : inv ((step handlers).after machine) := by
  have hexit : Maintains inv takeExit :=
    maintains_takeExit_of_notes fun machine ↦ lasting.notes machine machine.busSupervisor
      machine.opcode machine.interrupts none
  rw [step_eq]
  refine inv_after_bind (lasting.maintains_beginStep machine hinv) fun opcode next hbegin hnext ↦ ?_
  exact inv_after_bind (h opcode next hbegin hnext) fun _ performed _ ↦ hexit performed

/-- A step maintains what lasts if its instruction does. -/
theorem inv_after_step {machine : Machine} (hinv : inv machine)
    (h : ∀ opcode next, beginStep.run machine = .ok opcode next →
      Maintains inv (perform handlers opcode)) : inv ((step handlers).after machine) :=
  lasting.inv_after_step_of_begun hinv fun opcode next hbegin ↦ h opcode next hbegin next

end LastingInSteps

/-! ## Permanent properties -/

/-- A stable property that does not end with a change of state either. -/
structure Permanent (inv : Machine → Prop) : Prop extends Stable inv where
  setSupervisor : ∀ machine supervisor, inv machine → inv (machine.setSupervisor supervisor)
  setStatusRegister : ∀ machine value, inv machine → inv (machine.setStatusRegister value)
  setUserStack : ∀ machine value, inv machine →
    inv { machine with registers := machine.registers.setUserStack value }

namespace Permanent

variable {inv : Machine → Prop} (permanent : Permanent inv)

include permanent

theorem lasting (changes : Changes) : Lasting changes inv where
  toKeptBy := permanent.toStable.keptBy changes
  setSupervisor := permanent.setSupervisor
  setStatusRegister _ := permanent.setStatusRegister
  setUserStack _ := permanent.setUserStack

/-- Every opcode maintains what is permanent. -/
theorem maintains_perform (opcode : Opcode) : Maintains inv (perform handlers opcode) :=
  Lasting.maintains_perform fun _ _ ↦ permanent.lasting _

end Permanent

end M68000
