import M68000.Proofs.Dispatch.Legal
import M68000.Proofs.Exec.InPlace
import M68000.Proofs.Exec.Instructions

/-!
# Precise faults of operations

At a legal opcode an operation faults in place, or it is reserved to the supervisor and has done
nothing yet. What is reserved to the supervisor checks the state before anything else, and then
leaves supervisor state, if at all, only when nothing can fail any more.
-/

namespace M68000

namespace Exec

variable {α : Type}

/-- An action that faults was reserved to the supervisor and has done nothing, or it faulted in
place. -/
def FaultsPrecisely (action : Exec α) : Prop :=
  ∀ machine fault final, action.run machine = .error fault final →
    (fault = .privilegeViolation machine.opcode machine.registers.pc ∧ final = machine) ∨
      (∃ refusal, fault = .bus refusal) ∧ final.registers.pc = machine.registers.pc

theorem FaultsInPlace.faultsPrecisely {action : Exec α} (h : FaultsInPlace action) :
    FaultsPrecisely action :=
  fun machine fault final hrun ↦ .inr (h machine fault final hrun)

theorem faultsPrecisely_requireSupervisor {rest : Unit → Exec α}
    (hrest : FaultsInPlace (rest ())) : FaultsPrecisely (requireSupervisor >>= rest) := by
  intro machine fault final hrun
  rw [EStateM.run_bind] at hrun
  cases hstate : machine.registers.supervisor with
  | false =>
    rw [run_requireSupervisor_of_user _ hstate] at hrun
    cases hrun
    exact .inl ⟨rfl, rfl⟩
  | true =>
    rw [run_requireSupervisor_of_supervisor _ hstate] at hrun
    exact .inr (hrest machine fault final hrun)

end Exec

namespace Instruction

open Exec

/-! ## Privileged instructions -/

theorem infallible_setStatusRegister (value : BitVec 16) :
    Infallible (setStatusRegister value) :=
  infallible_modify _

theorem faultsPrecisely_logicalToStatus (operation : LogicalOperation) :
    FaultsPrecisely (logicalToStatus operation) := by
  refine faultsPrecisely_requireSupervisor ?_
  refine faultsInPlace_bind (steady_fetch .word 2) fun source ↦ ?_
  refine faultsInPlace_bind steady_statusRegister fun status ↦ ?_
  refine Infallible.faultsInPlace ?_
  exact infallible_bind (infallible_advancePc 4) fun _ ↦ infallible_setStatusRegister _

theorem faultsPrecisely_moveToStatus {opcode : Opcode}
    (hfield : ModeSet.all.Names opcode.operandField) :
    FaultsPrecisely (moveToStatus opcode) := by
  refine faultsPrecisely_requireSupervisor ?_
  refine faultsInPlace_source hfield fun operand value ↦ ?_
  refine Infallible.faultsInPlace ?_
  exact infallible_bind (infallible_advancePc _) fun _ ↦ infallible_setStatusRegister value

theorem faultsPrecisely_moveUserStack (direction : UserStackMove) (opcode : Opcode) :
    FaultsPrecisely (moveUserStack direction opcode) := by
  refine faultsPrecisely_requireSupervisor ?_
  cases direction with
  | toUserStack =>
    refine faultsInPlace_bind (steady_getA _) fun value ↦ ?_
    refine Infallible.faultsInPlace ?_
    exact infallible_bind (infallible_modify _) fun _ ↦ infallible_advancePc 2
  | fromUserStack =>
    refine faultsInPlace_bind steady_registers fun registers ↦ ?_
    refine faultsInPlace_bind (steady_setA _ _) fun _ ↦ ?_
    exact (infallible_advancePc 2).faultsInPlace

theorem faultsPrecisely_resetDevices : FaultsPrecisely resetDevices :=
  faultsPrecisely_requireSupervisor (infallible_advancePc 2).faultsInPlace

theorem faultsPrecisely_returnFromException : FaultsPrecisely returnFromException := by
  refine faultsPrecisely_requireSupervisor ?_
  refine faultsInPlace_bind (steady_pop .word) fun status ↦ ?_
  refine faultsInPlace_bind (steady_pop .long) fun pc ↦ ?_
  refine Infallible.faultsInPlace ?_
  exact infallible_bind (infallible_setPc pc) fun _ ↦ infallible_setStatusRegister status

end Instruction

/-! ## Operations -/

open Exec Instruction

namespace Operation

variable {operation : Operation} {opcode : Opcode}

theorem faultsInPlace_execute (hlegal : operation.Legal opcode)
    (hprivileged : operation.privileged = false) : FaultsInPlace (operation.execute opcode) := by
  obtain ⟨hoperand, hdestination⟩ := hlegal
  cases operation with
  | move size => exact faultsInPlace_move size (hoperand _ rfl) (hdestination _ rfl)
  | moveAddress size => exact faultsInPlace_moveAddress size (hoperand _ rfl)
  | moveQuick => exact infallible_moveQuick.faultsInPlace
  | storeMultiple size => exact faultsInPlace_storeMultiple size (hoperand _ rfl)
  | loadMultiple size => exact faultsInPlace_loadMultiple size (hoperand _ rfl)
  | loadAddress => exact faultsInPlace_loadAddress (hoperand _ rfl)
  | pushAddress => exact faultsInPlace_pushAddress (hoperand _ rfl)
  | exchange kind => exact faultsInPlace_exchange _ _
  | swapWords => exact faultsInPlace_swapWords
  | extendSign size => exact faultsInPlace_extendSign size
  | link => exact faultsInPlace_link
  | unlink => exact faultsInPlace_unlink
  | setConditionally => exact faultsInPlace_setConditionally (hoperand _ rfl)
  | testAndSet => exact faultsInPlace_testAndSet (hoperand _ rfl)
  | toRegister operation size =>
    exact faultsInPlace_toRegister size operation (hoperand _ rfl)
  | fromRegister operation size =>
    exact faultsInPlace_fromRegister size operation (hoperand _ rfl)
  | withImmediate operation size =>
    exact faultsInPlace_withImmediate size operation (hoperand _ rfl)
  | quick operation size => exact faultsInPlace_quick size operation (hoperand _ rfl)
  | withAddress operation size =>
    exact faultsInPlace_withAddress size operation (hoperand _ rfl)
  | compareMemory size => exact faultsInPlace_compareMemory size
  | chainedBinary operation size inMemory =>
    exact faultsInPlace_chainedBinary size operation inMemory
  | chainedDecimal operation inMemory => exact faultsInPlace_chainedDecimal operation inMemory
  | negateDecimal => exact faultsInPlace_negateDecimal (hoperand _ rfl)
  | unary operation size => exact faultsInPlace_unary size operation (hoperand _ rfl)
  | multiply signedness => exact faultsInPlace_multiply signedness (hoperand _ rfl)
  | divide signedness => exact faultsInPlace_divide signedness (hoperand _ rfl)
  | checkBounds => exact faultsInPlace_checkBounds (hoperand _ rfl)
  | bit operation inRegister =>
    cases operation with
    | test => exact faultsInPlace_bit .test inRegister (hoperand _ rfl) (.inl rfl)
    | _ => exact faultsInPlace_bit _ inRegister (hoperand _ rfl) (.inr rfl)
  | shiftRegister kind direction count size =>
    exact faultsInPlace_shiftRegister size kind direction count
  | shiftMemory kind direction => exact faultsInPlace_shiftMemory kind direction (hoperand _ rfl)
  | branch => exact faultsInPlace_branch
  | branchToSubroutine => exact faultsInPlace_branchToSubroutine
  | decrementAndBranch => exact faultsInPlace_decrementAndBranch
  | jump => exact faultsInPlace_jump (hoperand _ rfl)
  | jumpToSubroutine => exact faultsInPlace_jumpToSubroutine (hoperand _ rfl)
  | returnFromSubroutine => exact faultsInPlace_returnFromSubroutine
  | returnAndRestore => exact faultsInPlace_returnAndRestore
  | noOperation => exact (infallible_advancePc 2).faultsInPlace
  | trap => exact faultsInPlace_trap
  | trapOnOverflow => exact faultsInPlace_trapOnOverflow
  | logicalToCcr operation => exact faultsInPlace_logicalToCcr operation
  | moveFromStatus => exact faultsInPlace_moveFromStatus (hoperand _ rfl)
  | moveToCcr => exact faultsInPlace_moveToCcr (hoperand _ rfl)
  | _ => cases hprivileged

theorem faultsPrecisely_execute (hlegal : operation.Legal opcode) :
    FaultsPrecisely (operation.execute opcode) := by
  cases hprivileged : operation.privileged with
  | false => exact (faultsInPlace_execute hlegal hprivileged).faultsPrecisely
  | true =>
    cases operation with
    | logicalToStatus operation => exact faultsPrecisely_logicalToStatus operation
    | moveToStatus => exact faultsPrecisely_moveToStatus (hlegal.operand _ rfl)
    | moveUserStack direction => exact faultsPrecisely_moveUserStack direction opcode
    | resetDevices => exact faultsPrecisely_resetDevices
    | returnFromException => exact faultsPrecisely_returnFromException
    | _ => cases hprivileged

end Operation

end M68000
