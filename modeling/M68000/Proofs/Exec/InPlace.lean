import M68000.Operation
import M68000.Proofs.Exec.Faults

/-!
# Where instructions fault

Every instruction that is open to users faults in place, if its operand fields name modes that it
can deal with: any mode where it only reads the operand, one that can be written, or one with an
address.
-/

namespace M68000

namespace Instruction

open Exec

/-! ## Moves -/

section Moves

variable {opcode : Opcode} (size : Size)

theorem faultsInPlace_move (hsource : ModeSet.all.Names opcode.operandField)
    (hdestination : ModeSet.alterable.Names opcode.destinationField) :
    FaultsInPlace (move size opcode) := by
  refine faultsInPlace_source hsource fun source value ↦ ?_
  refine faultsInPlace_ofField hdestination fun mode hmode ↦ ?_
  refine faultsInPlace_bind (steady_put _ hmode value) fun _ ↦ ?_
  refine faultsInPlace_bind (steady_finish _) fun _ ↦ ?_
  refine faultsInPlace_bind (steady_modifyFlags _) fun _ ↦ ?_
  exact (infallible_advancePc _).faultsInPlace

theorem faultsInPlace_moveAddress (hfield : ModeSet.all.Names opcode.operandField) :
    FaultsInPlace (moveAddress size opcode) := by
  refine faultsInPlace_source hfield fun source value ↦ ?_
  refine faultsInPlace_bind (steady_setA _ _) fun _ ↦ ?_
  exact (infallible_advancePc _).faultsInPlace

theorem faultsInPlace_loadAddress (hfield : ModeSet.addressed.Names opcode.operandField) :
    FaultsInPlace (loadAddress opcode) := by
  refine faultsInPlace_ofField hfield fun mode hmode ↦ ?_
  refine faultsInPlace_bind (steady_address _ hmode) fun address ↦ ?_
  refine faultsInPlace_bind (steady_setA _ _) fun _ ↦ ?_
  exact (infallible_advancePc _).faultsInPlace

theorem faultsInPlace_pushAddress (hfield : ModeSet.addressed.Names opcode.operandField) :
    FaultsInPlace (pushAddress opcode) := by
  refine faultsInPlace_ofField hfield fun mode hmode ↦ ?_
  refine faultsInPlace_bind (steady_address _ hmode) fun address ↦ ?_
  refine faultsInPlace_bind (steady_push .long address) fun _ ↦ ?_
  exact (infallible_advancePc _).faultsInPlace

theorem infallible_moveQuick : Infallible (moveQuick opcode) := by
  unfold moveQuick
  refine infallible_bind (infallible_modify _) fun _ ↦ ?_
  exact infallible_bind (infallible_modify _) fun _ ↦ infallible_advancePc 2

theorem faultsInPlace_exchange (first second : Register) :
    FaultsInPlace (exchange first second) := by
  refine faultsInPlace_bind steady_registers fun before ↦ ?_
  refine Infallible.faultsInPlace ?_
  exact infallible_bind (infallible_modify _) fun _ ↦ infallible_advancePc 2

theorem faultsInPlace_swapWords : FaultsInPlace (swapWords opcode) := by
  refine faultsInPlace_bind (steady_getD _) fun value ↦ ?_
  refine faultsInPlace_bind (steady_setD _ _) fun _ ↦ ?_
  refine faultsInPlace_bind (steady_modifyFlags _) fun _ ↦ ?_
  exact (infallible_advancePc 2).faultsInPlace

theorem faultsInPlace_extendSign : FaultsInPlace (extendSign size opcode) := by
  refine faultsInPlace_bind (steady_getD _) fun register ↦ ?_
  refine faultsInPlace_bind (steady_setD _ _) fun _ ↦ ?_
  refine faultsInPlace_bind (steady_modifyFlags _) fun _ ↦ ?_
  exact (infallible_advancePc 2).faultsInPlace

/-! ### Several registers -/

theorem steady_storeDownward (address : Address) (chosen : List Register) :
    Steady (storeDownward size address chosen) := by
  induction chosen generalizing address with
  | nil => exact steady_pure address
  | cons register rest ih =>
    refine steady_bind steady_registers fun registers ↦ ?_
    exact steady_bind (steady_write size _ _) fun _ ↦ ih _

theorem steady_storeUpward (address : Address) (chosen : List Register) :
    Steady (storeUpward size address chosen) := by
  induction chosen generalizing address with
  | nil => exact steady_pure ()
  | cons register rest ih =>
    refine steady_bind steady_registers fun registers ↦ ?_
    exact steady_bind (steady_write size _ _) fun _ ↦ ih _

theorem steady_loadUpward (program : Bool) (address : Address) (chosen : List Register) :
    Steady (loadUpward size program address chosen) := by
  induction chosen generalizing address with
  | nil => exact steady_pure address
  | cons register rest ih =>
    have hrest (value : size.Value) : Steady (do
        modifyRegisters (·.set register (value.signExtend 32))
        loadUpward size program (address + BitVec.ofNat 32 size.bytes) rest) :=
      steady_bind (steady_set register _) fun _ ↦ ih _
    cases program with
    | true => exact steady_bind (steady_readProgram size address) hrest
    | false => exact steady_bind (steady_read size address) hrest

theorem faultsInPlace_storeMultiple (hfield : ModeSet.addressed.Names opcode.operandField) :
    FaultsInPlace (storeMultiple size opcode) := by
  refine faultsInPlace_bind (steady_fetchWord 2) fun list ↦ ?_
  refine faultsInPlace_ofField hfield fun mode hmode ↦ ?_
  cases mode with
  | preDecrement number =>
    refine faultsInPlace_bind (steady_getA number) fun address ↦ ?_
    refine faultsInPlace_bind (steady_storeDownward size address _) fun last ↦ ?_
    refine faultsInPlace_bind (steady_setA number last) fun _ ↦ ?_
    exact (infallible_advancePc _).faultsInPlace
  | _ =>
    refine faultsInPlace_bind (steady_address _ hmode) fun address ↦ ?_
    refine faultsInPlace_bind (steady_storeUpward size address _) fun _ ↦ ?_
    exact (infallible_advancePc _).faultsInPlace

theorem faultsInPlace_loadMultiple (hfield : ModeSet.addressed.Names opcode.operandField) :
    FaultsInPlace (loadMultiple size opcode) := by
  refine faultsInPlace_bind (steady_fetchWord 2) fun list ↦ ?_
  refine faultsInPlace_ofField hfield fun mode hmode ↦ ?_
  cases mode with
  | postIncrement number =>
    refine faultsInPlace_bind (steady_getA number) fun address ↦ ?_
    refine faultsInPlace_bind (steady_loadUpward size false address _) fun last ↦ ?_
    refine faultsInPlace_bind (steady_setA number last) fun _ ↦ ?_
    exact (infallible_advancePc _).faultsInPlace
  | _ =>
    refine faultsInPlace_bind (steady_address _ hmode) fun address ↦ ?_
    refine faultsInPlace_bind (steady_loadUpward size _ address _) fun _ ↦ ?_
    exact (infallible_advancePc _).faultsInPlace

end Moves

/-! ## Arithmetic and logic -/

section Arithmetic

variable {opcode : Opcode} (size : Size) (operation : Binary)

theorem steady_compute {n : Nat} (destination source : BitVec n) :
    Steady (compute operation destination source) :=
  steady_bind (steady_modifyFlags _) fun _ ↦ steady_pure _

theorem steady_update {size : Size} (operand : Operand size) (source : size.Value)
    (hmode : ModeSet.alterable.contains operand.mode = true) :
    Steady (update operation operand source) := by
  refine steady_bind (steady_operandGet operand) fun destination ↦ ?_
  refine steady_bind (steady_compute operation destination source) fun result ↦ ?_
  cases result with
  | some result =>
    exact steady_bind (steady_put operand hmode result) fun _ ↦ steady_finish operand
  | none => exact steady_finish operand

theorem faultsInPlace_toRegister (hfield : ModeSet.all.Names opcode.operandField) :
    FaultsInPlace (toRegister operation size opcode) := by
  refine faultsInPlace_source hfield fun operand source ↦ ?_
  refine faultsInPlace_bind (steady_getD _) fun register ↦ ?_
  refine faultsInPlace_bind (steady_compute operation _ source) fun result ↦ ?_
  cases result with
  | some result =>
    refine faultsInPlace_bind (steady_setD _ _) fun _ ↦ ?_
    exact (infallible_advancePc _).faultsInPlace
  | none => exact (infallible_advancePc _).faultsInPlace

theorem faultsInPlace_fromRegister (hfield : ModeSet.alterable.Names opcode.operandField) :
    FaultsInPlace (fromRegister operation size opcode) := by
  refine faultsInPlace_ofField hfield fun mode hmode ↦ ?_
  refine faultsInPlace_bind (steady_getD _) fun source ↦ ?_
  refine faultsInPlace_bind (steady_update operation _ _ hmode) fun _ ↦ ?_
  exact (infallible_advancePc _).faultsInPlace

theorem faultsInPlace_withImmediate (hfield : ModeSet.alterable.Names opcode.operandField) :
    FaultsInPlace (withImmediate operation size opcode) := by
  refine faultsInPlace_bind (steady_fetch size 2) fun source ↦ ?_
  refine faultsInPlace_ofField hfield fun mode hmode ↦ ?_
  refine faultsInPlace_bind (steady_update operation _ source hmode) fun _ ↦ ?_
  exact (infallible_advancePc _).faultsInPlace

theorem faultsInPlace_quick (hfield : ModeSet.alterable.Names opcode.operandField) :
    FaultsInPlace (quick operation size opcode) := by
  refine faultsInPlace_ofField hfield fun mode hmode ↦ ?_
  cases mode with
  | addressRegister number =>
    refine faultsInPlace_bind (steady_getA number) fun address ↦ ?_
    refine faultsInPlace_bind (steady_setA number _) fun _ ↦ ?_
    exact (infallible_advancePc _).faultsInPlace
  | _ =>
    refine faultsInPlace_bind (steady_update operation _ _ hmode) fun _ ↦ ?_
    exact (infallible_advancePc _).faultsInPlace

theorem faultsInPlace_withAddress (operation : AddressOperation)
    (hfield : ModeSet.all.Names opcode.operandField) :
    FaultsInPlace (withAddress operation size opcode) := by
  refine faultsInPlace_source hfield fun operand source ↦ ?_
  refine faultsInPlace_bind (steady_getA _) fun address ↦ ?_
  refine Infallible.faultsInPlace ?_
  cases operation <;>
    exact infallible_bind (infallible_modify _) fun _ ↦ infallible_advancePc _

theorem faultsInPlace_compareMemory : FaultsInPlace (compareMemory size opcode) := by
  refine faultsInPlace_bind (steady_operandGet _) fun source ↦ ?_
  refine faultsInPlace_bind (steady_finish _) fun _ ↦ ?_
  refine faultsInPlace_bind (steady_operandGet _) fun destination ↦ ?_
  refine faultsInPlace_bind (steady_finish _) fun _ ↦ ?_
  refine faultsInPlace_bind (steady_compute .cmp destination source) fun _ ↦ ?_
  exact (infallible_advancePc 2).faultsInPlace

theorem contains_chainedOperand (inMemory : Bool) (number : Fin 8) :
    ModeSet.alterable.contains (chainedOperand size inMemory number).mode = true := by
  rw [ModeSet.contains_alterable]
  cases inMemory <;> rfl

/-- What a chained operation does with its result. -/
theorem faultsInPlace_putChained {operand : Operand size}
    (hmode : ModeSet.alterable.contains operand.mode = true) (result : ChainedResult size.bits)
    (bytes : Nat) :
    FaultsInPlace (do
      operand.put result.value
      operand.finish
      setCcr (result.ccr (← flags))
      advancePc bytes) := by
  refine faultsInPlace_bind (steady_put _ hmode _) fun _ ↦ ?_
  refine faultsInPlace_bind (steady_finish _) fun _ ↦ ?_
  refine faultsInPlace_bind steady_flags fun flags ↦ ?_
  refine faultsInPlace_bind (steady_setCcr _) fun _ ↦ ?_
  exact (infallible_advancePc bytes).faultsInPlace

theorem faultsInPlace_chained
    (combine : size.Value → size.Value → Bool → ChainedResult size.bits) (inMemory : Bool) :
    FaultsInPlace (chained size combine inMemory opcode) := by
  have hmode := contains_chainedOperand size inMemory opcode.highRegister
  refine faultsInPlace_bind (steady_operandGet _) fun source ↦ ?_
  refine faultsInPlace_bind (steady_finish _) fun _ ↦ ?_
  refine faultsInPlace_bind (steady_operandGet _) fun destination ↦ ?_
  refine faultsInPlace_bind steady_flags fun flags ↦ ?_
  exact faultsInPlace_putChained size hmode _ 2

theorem faultsInPlace_chainedBinary (operation : ChainedOperation) (inMemory : Bool) :
    FaultsInPlace (chainedBinary operation size inMemory opcode) := by
  cases operation <;> exact faultsInPlace_chained size _ inMemory

theorem faultsInPlace_chainedDecimal (operation : ChainedOperation) (inMemory : Bool) :
    FaultsInPlace (chainedDecimal operation inMemory opcode) := by
  cases operation <;> exact faultsInPlace_chained .byte _ inMemory

theorem faultsInPlace_negateDecimal (hfield : ModeSet.alterable.Names opcode.operandField) :
    FaultsInPlace (negateDecimal opcode) := by
  refine faultsInPlace_ofField hfield fun mode hmode ↦ ?_
  refine faultsInPlace_bind (steady_operandGet _) fun value ↦ ?_
  refine faultsInPlace_bind steady_flags fun flags ↦ ?_
  exact faultsInPlace_putChained .byte hmode _ _

theorem faultsInPlace_unary (operation : Unary)
    (hfield : ModeSet.alterable.Names opcode.operandField) :
    FaultsInPlace (unary operation size opcode) := by
  refine faultsInPlace_ofField hfield fun mode hmode ↦ ?_
  refine faultsInPlace_bind (steady_operandGet _) fun value ↦ ?_
  refine faultsInPlace_bind steady_flags fun flags ↦ ?_
  refine faultsInPlace_bind (steady_modifyFlags _) fun _ ↦ ?_
  dsimp only
  cases operation.result? value flags.extend with
  | some result =>
    refine faultsInPlace_bind (steady_put _ hmode result) fun _ ↦ ?_
    exact faultsInPlace_finish _ _
  | none => exact faultsInPlace_finish _ _

theorem faultsInPlace_multiply (signedness : Signedness)
    (hfield : ModeSet.all.Names opcode.operandField) :
    FaultsInPlace (multiply signedness opcode) := by
  refine faultsInPlace_source hfield fun operand source ↦ ?_
  refine faultsInPlace_bind (steady_getD _) fun register ↦ ?_
  refine faultsInPlace_bind (steady_setD _ _) fun _ ↦ ?_
  refine faultsInPlace_bind (steady_modifyFlags _) fun _ ↦ ?_
  exact (infallible_advancePc _).faultsInPlace

theorem faultsInPlace_divide (signedness : Signedness)
    (hfield : ModeSet.all.Names opcode.operandField) :
    FaultsInPlace (divide signedness opcode) := by
  refine faultsInPlace_source hfield fun operand divisor ↦ ?_
  dsimp only
  split
  · exact faultsInPlace_bind steady_pc fun pc ↦ faultsInPlace_enterException 5 _
  · refine faultsInPlace_bind (steady_getD _) fun dividend ↦ ?_
    refine Infallible.faultsInPlace ?_
    cases signedness.divide? dividend divisor with
    | some result =>
      refine infallible_bind (infallible_modify _) fun _ ↦ ?_
      exact infallible_bind (infallible_modify _) fun _ ↦ infallible_advancePc _
    | none => exact infallible_bind (infallible_modify _) fun _ ↦ infallible_advancePc _

theorem faultsInPlace_checkBounds (hfield : ModeSet.all.Names opcode.operandField) :
    FaultsInPlace (checkBounds opcode) := by
  refine faultsInPlace_source hfield fun operand bound ↦ ?_
  refine faultsInPlace_bind (steady_getD _) fun register ↦ ?_
  dsimp only
  split
  · refine faultsInPlace_bind steady_flags fun flags ↦ ?_
    refine faultsInPlace_bind (steady_setCcr _) fun _ ↦ ?_
    exact faultsInPlace_bind steady_pc fun pc ↦ faultsInPlace_enterException 6 _
  · exact (infallible_advancePc _).faultsInPlace

end Arithmetic

/-! ## Bits and shifts -/

section Bits

variable {opcode : Opcode} (size : Size)

theorem steady_modifyBit (operation : BitOperation) (number : Nat) {modes : ModeSet}
    {field : BitVec 6} (offset : Nat) (hfield : modes.Names field)
    (hmodes : operation = .test ∨ modes = .alterable) :
    Steady (modifyBit operation size number field offset) := by
  refine steady_ofField hfield fun mode hmode ↦ ?_
  refine steady_bind (steady_operandGet _) fun value ↦ ?_
  refine steady_bind (steady_modifyFlags _) fun _ ↦ ?_
  obtain rfl | rfl := hmodes
  · exact steady_bind (steady_finish _) fun _ ↦ steady_pure _
  · dsimp only
    cases operation.result? value (BitVec.twoPow size.bits (number % size.bits)) with
    | some result =>
      refine steady_bind (steady_put _ hmode result) fun _ ↦ ?_
      exact steady_bind (steady_finish _) fun _ ↦ steady_pure _
    | none => exact steady_bind (steady_finish _) fun _ ↦ steady_pure _

/-- The operand's mode decides its size. -/
theorem faultsInPlace_bit_at (operation : BitOperation) (number offset : Nat) {modes : ModeSet}
    (hfield : modes.Names opcode.operandField)
    (hmodes : operation = .test ∨ modes = .alterable) :
    FaultsInPlace (do
      let length ←
        match Mode.ofField? opcode.operandField with
        | some (.dataRegister _) => modifyBit operation .long number opcode.operandField offset
        | _ => modifyBit operation .byte number opcode.operandField offset
      advancePc length) := by
  have hsize (size : Size) : FaultsInPlace (do
      let length ← modifyBit operation size number opcode.operandField offset
      advancePc length) :=
    faultsInPlace_bind (steady_modifyBit size operation number offset hfield hmodes) fun length ↦
      (infallible_advancePc length).faultsInPlace
  split
  · exact hsize .long
  · exact hsize .byte

theorem faultsInPlace_bit (operation : BitOperation) (inRegister : Bool) {modes : ModeSet}
    (hfield : modes.Names opcode.operandField)
    (hmodes : operation = .test ∨ modes = .alterable) :
    FaultsInPlace (bit operation inRegister opcode) := by
  cases inRegister with
  | true =>
    refine faultsInPlace_bind (steady_getD _) fun number ↦ ?_
    exact faultsInPlace_bit_at operation number.toNat 2 hfield hmodes
  | false =>
    refine faultsInPlace_bind (steady_fetch .byte 2) fun number ↦ ?_
    exact faultsInPlace_bit_at operation number.toNat 4 hfield hmodes

theorem faultsInPlace_testAndSet (hfield : ModeSet.alterable.Names opcode.operandField) :
    FaultsInPlace (testAndSet opcode) := by
  refine faultsInPlace_ofField hfield fun mode hmode ↦ ?_
  refine faultsInPlace_bind (steady_operandGet _) fun value ↦ ?_
  refine faultsInPlace_bind (steady_modifyFlags _) fun _ ↦ ?_
  refine faultsInPlace_bind (steady_put _ hmode _) fun _ ↦ ?_
  exact faultsInPlace_finish _ _

theorem steady_shift {n : Nat} (kind : ShiftKind) (direction : Direction) (value : BitVec n)
    (count : Nat) : Steady (shift kind direction value count) := by
  refine steady_bind steady_flags fun flags ↦ ?_
  exact steady_bind (steady_modifyFlags _) fun _ ↦ steady_pure _

theorem faultsInPlace_shiftRegister (kind : ShiftKind) (direction : Direction)
    (source : CountSource) : FaultsInPlace (shiftRegister kind direction source size opcode) := by
  have hrest (count : Nat) : FaultsInPlace (do
      let register ← getD opcode.lowRegister
      let result ← shift kind direction (size.low register) count
      setD opcode.lowRegister (size.replaceLow register result)
      advancePc 2) := by
    refine faultsInPlace_bind (steady_getD _) fun register ↦ ?_
    refine faultsInPlace_bind (steady_shift kind direction _ count) fun result ↦ ?_
    refine faultsInPlace_bind (steady_setD _ _) fun _ ↦ ?_
    exact (infallible_advancePc 2).faultsInPlace
  cases source with
  | immediate => exact hrest _
  | register => exact faultsInPlace_bind (steady_getD _) fun count ↦ hrest _

theorem faultsInPlace_shiftMemory (kind : ShiftKind) (direction : Direction)
    (hfield : ModeSet.alterable.Names opcode.operandField) :
    FaultsInPlace (shiftMemory kind direction opcode) := by
  refine faultsInPlace_ofField hfield fun mode hmode ↦ ?_
  refine faultsInPlace_bind (steady_operandGet _) fun value ↦ ?_
  refine faultsInPlace_bind (steady_shift kind direction value 1) fun result ↦ ?_
  refine faultsInPlace_bind (steady_put _ hmode result) fun _ ↦ ?_
  exact faultsInPlace_finish _ _

end Bits

/-! ## Program control -/

section Control

variable {opcode : Opcode}

theorem steady_branchDisplacement : Steady (branchDisplacement opcode) := by
  unfold branchDisplacement
  split
  · exact steady_bind (steady_fetchWord 2) fun _ ↦ steady_pure _
  · exact steady_pure _

theorem faultsInPlace_branchTo (displacement : Address) :
    FaultsInPlace (branchTo displacement) :=
  faultsInPlace_bind steady_pc fun _ ↦ (infallible_setPc _).faultsInPlace

theorem faultsInPlace_branch : FaultsInPlace (branch opcode) := by
  refine faultsInPlace_bind steady_branchDisplacement fun ⟨displacement, length⟩ ↦ ?_
  refine faultsInPlace_bind steady_flags fun flags ↦ ?_
  split
  · exact faultsInPlace_branchTo displacement
  · exact (infallible_advancePc length).faultsInPlace

theorem faultsInPlace_branchToSubroutine : FaultsInPlace (branchToSubroutine opcode) := by
  refine faultsInPlace_bind steady_branchDisplacement fun ⟨displacement, length⟩ ↦ ?_
  refine faultsInPlace_bind steady_pc fun pc ↦ ?_
  refine faultsInPlace_bind (steady_push .long _) fun _ ↦ ?_
  exact faultsInPlace_branchTo displacement

theorem faultsInPlace_decrementAndBranch : FaultsInPlace (decrementAndBranch opcode) := by
  refine faultsInPlace_bind steady_flags fun flags ↦ ?_
  dsimp only
  split
  · exact (infallible_advancePc 4).faultsInPlace
  · refine faultsInPlace_bind (steady_getD _) fun register ↦ ?_
    refine faultsInPlace_bind (steady_setD _ _) fun _ ↦ ?_
    split
    · exact (infallible_advancePc 4).faultsInPlace
    · exact faultsInPlace_bind (steady_fetchWord 2) fun word ↦ faultsInPlace_branchTo _

theorem faultsInPlace_setConditionally (hfield : ModeSet.alterable.Names opcode.operandField) :
    FaultsInPlace (setConditionally opcode) := by
  refine faultsInPlace_ofField hfield fun mode hmode ↦ ?_
  refine faultsInPlace_bind steady_flags fun flags ↦ ?_
  refine faultsInPlace_bind (steady_put _ hmode _) fun _ ↦ ?_
  exact faultsInPlace_finish _ _

theorem faultsInPlace_jump (hfield : ModeSet.addressed.Names opcode.operandField) :
    FaultsInPlace (jump opcode) := by
  refine faultsInPlace_ofField hfield fun mode hmode ↦ ?_
  refine faultsInPlace_bind (steady_address _ hmode) fun target ↦ ?_
  exact (infallible_setPc target).faultsInPlace

theorem faultsInPlace_jumpToSubroutine (hfield : ModeSet.addressed.Names opcode.operandField) :
    FaultsInPlace (jumpToSubroutine opcode) := by
  refine faultsInPlace_ofField hfield fun mode hmode ↦ ?_
  refine faultsInPlace_bind (steady_address _ hmode) fun target ↦ ?_
  refine faultsInPlace_bind steady_pc fun pc ↦ ?_
  refine faultsInPlace_bind (steady_push .long _) fun _ ↦ ?_
  exact (infallible_setPc target).faultsInPlace

theorem faultsInPlace_returnFromSubroutine : FaultsInPlace returnFromSubroutine :=
  faultsInPlace_bind (steady_pop .long) fun target ↦ (infallible_setPc target).faultsInPlace

theorem faultsInPlace_returnAndRestore : FaultsInPlace returnAndRestore := by
  refine faultsInPlace_bind (steady_pop .word) fun codes ↦ ?_
  refine faultsInPlace_bind (steady_pop .long) fun target ↦ ?_
  refine faultsInPlace_bind (steady_setCcr _) fun _ ↦ ?_
  exact (infallible_setPc target).faultsInPlace

theorem faultsInPlace_link : FaultsInPlace (link opcode) := by
  refine faultsInPlace_bind (steady_fetchWord 2) fun displacement ↦ ?_
  refine faultsInPlace_bind (steady_getA stackPointer) fun top ↦ ?_
  have hrest (saved : Address) : FaultsInPlace (do
      write .long (top - 4) saved
      setA opcode.lowRegister (top - 4)
      setA stackPointer (top - 4 + displacement.signExtend 32)
      advancePc 4) := by
    refine faultsInPlace_bind (steady_write .long _ saved) fun _ ↦ ?_
    refine faultsInPlace_bind (steady_setA _ _) fun _ ↦ ?_
    refine faultsInPlace_bind (steady_setA _ _) fun _ ↦ ?_
    exact (infallible_advancePc 4).faultsInPlace
  dsimp only
  split
  · exact hrest _
  · exact faultsInPlace_bind (steady_getA _) fun saved ↦ hrest saved

theorem faultsInPlace_unlink : FaultsInPlace (unlink opcode) := by
  refine faultsInPlace_bind (steady_getA _) fun frame ↦ ?_
  refine faultsInPlace_bind (steady_setA _ _) fun _ ↦ ?_
  refine faultsInPlace_bind (steady_pop .long) fun saved ↦ ?_
  refine faultsInPlace_bind (steady_setA _ _) fun _ ↦ ?_
  exact (infallible_advancePc 2).faultsInPlace

theorem faultsInPlace_trap : FaultsInPlace (trap opcode) :=
  faultsInPlace_bind steady_pc fun _ ↦ faultsInPlace_enterException _ _

theorem faultsInPlace_trapOnOverflow : FaultsInPlace trapOnOverflow := by
  refine faultsInPlace_bind steady_pc fun pc ↦ ?_
  refine faultsInPlace_bind steady_flags fun flags ↦ ?_
  split
  · exact faultsInPlace_enterException 7 _
  · exact (infallible_setPc _).faultsInPlace

end Control

/-! ## Status register -/

section Status

variable {opcode : Opcode}

theorem faultsInPlace_logicalToCcr (operation : LogicalOperation) :
    FaultsInPlace (logicalToCcr operation) := by
  refine faultsInPlace_bind (steady_fetch .byte 2) fun source ↦ ?_
  refine faultsInPlace_bind steady_flags fun flags ↦ ?_
  refine faultsInPlace_bind (steady_setCcr _) fun _ ↦ ?_
  exact (infallible_advancePc 4).faultsInPlace

theorem steady_statusRegister : Steady statusRegister :=
  steady_bind steady_registers fun _ ↦ steady_pure _

theorem faultsInPlace_moveFromStatus (hfield : ModeSet.alterable.Names opcode.operandField) :
    FaultsInPlace (moveFromStatus opcode) := by
  refine faultsInPlace_ofField hfield fun mode hmode ↦ ?_
  refine faultsInPlace_bind steady_statusRegister fun _ ↦ ?_
  refine faultsInPlace_bind (steady_put _ hmode _) fun _ ↦ ?_
  exact faultsInPlace_finish _ _

theorem faultsInPlace_moveToCcr (hfield : ModeSet.all.Names opcode.operandField) :
    FaultsInPlace (moveToCcr opcode) := by
  refine faultsInPlace_source hfield fun operand value ↦ ?_
  refine faultsInPlace_bind (steady_setCcr _) fun _ ↦ ?_
  exact (infallible_advancePc _).faultsInPlace

end Status

end Instruction

end M68000
