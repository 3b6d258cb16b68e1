import M68000.Proofs.Checked.Instructions
import M68000.Proofs.Exec.Instructions

/-!
# Agreement of checked instructions

An instruction agrees with its checked form because their parts agree one after the other. In
between, the computations are seen not to fail. The sum of ABCD does not fail if the bytes that are
added hold two decimal digits each.
-/

namespace M68000

namespace Instruction

open Exec

/-- The parts that a chained operation combines, the destination and the source. -/
def parts (size : Size) (inMemory : Bool) (opcode : Opcode) : Exec (size.Value × size.Value) := do
  let source := chainedOperand size inMemory opcode.lowRegister
  let sourceValue ← source.get
  source.finish
  return (← (chainedOperand size inMemory opcode.highRegister).get, sourceValue)

/-- What a chained operation does with its parts. -/
def replacePart (size : Size)
    (combine : size.Value → size.Value → Bool → ChainedResult size.bits) (inMemory : Bool)
    (opcode : Opcode) (destinationValue sourceValue : size.Value) : Exec Unit := do
  let destination := chainedOperand size inMemory opcode.highRegister
  let result := combine destinationValue sourceValue (← flags).extend
  destination.put result.value
  destination.finish
  setCcr (result.ccr (← flags))
  advancePc 2

end Instruction

/-- If the operation is ABCD, the bytes that it adds hold two decimal digits each. -/
def Operation.AddsDecimals (operation : Operation) (opcode : Opcode) (machine : Machine) : Prop :=
  ∀ inMemory destination source next, operation = .chainedDecimal .add inMemory →
    (Instruction.parts .byte inMemory opcode).run machine = .ok (destination, source) next →
      BitVec.IsDecimal destination ∧ BitVec.IsDecimal source

namespace Checked

open M68000.Exec (registers flags pc setPc advancePc modifyRegisters setCcr requireSupervisor)
open M68000.Checked.Exec M68000.Checked.Operand

namespace Instruction

variable (opcode : Opcode) (size : Size)

/-! ## Moves -/

variable {size} in
theorem agrees_recordResult (result : size.Value) :
    Agrees (recordResult size result)
      (M68000.Exec.modifyFlags (·.setResult (result.signExtend 32))) :=
  agrees_modifyFlags fun _ hflags ↦ ⟨by simp, hflags.setResult _⟩

theorem agrees_setResult (result : BitVec 32) :
    Agrees (modifyFlags fun flags ↦ return flags.setResult result)
      (M68000.Exec.modifyFlags (·.setResult result)) :=
  agrees_modifyFlags fun _ hflags ↦ ⟨rfl, hflags.setResult result⟩

variable {opcode size} in
/-- An operand is read and finished with before the rest. -/
theorem agrees_source {rest : Operand size → size.Value → Action Unit}
    {rest' : Operand size → size.Value → Exec Unit}
    (hrest : ∀ operand value, Agrees (rest operand value) (rest' operand value)) :
    Agrees
      (do
        let operand ← Operand.ofField size opcode.operandField 2
        let value ← Operand.get operand
        Operand.finish operand
        rest operand value)
      (do
        let operand ← Operand.ofField size opcode.operandField 2
        let value ← operand.get
        operand.finish
        rest' operand value) :=
  (agrees_ofField size _ 2).bind fun operand ↦ (agrees_get operand).bind fun value ↦
    (agrees_finish operand).bind fun _ ↦ hrest operand value

theorem agrees_move : Agrees (move size opcode) (M68000.Instruction.move size opcode) := by
  refine agrees_source fun source value ↦ ?_
  have hbytes := extensionBytes_le source
  rw [sum_extensionBytes source (by decide), Action.lift_ok_bind]
  refine (agrees_ofField _ _ _).bind fun destination ↦ ?_
  refine (agrees_put destination value).bind fun _ ↦ (agrees_finish destination).bind fun _ ↦ ?_
  refine (agrees_recordResult value).bind fun _ ↦ ?_
  exact agrees_advancePast destination (by omega)

theorem agrees_moveAddress :
    Agrees (moveAddress size opcode) (M68000.Instruction.moveAddress size opcode) := by
  refine agrees_source fun source value ↦ ?_
  rw [Size.signExtend_eq, Action.lift_ok_bind]
  exact (agrees_setA _ _).bind fun _ ↦ agrees_advancePast source (by decide)

theorem agrees_moveQuick :
    Agrees (moveQuick opcode) (M68000.Instruction.moveQuick opcode) :=
  (agrees_setD _ _).bind fun _ ↦ (agrees_setResult _).bind fun _ ↦ agrees_advancePc 2

theorem agrees_loadAddress :
    Agrees (loadAddress opcode) (M68000.Instruction.loadAddress opcode) := by
  refine (agrees_ofField _ _ _).bind fun operand ↦ (agrees_address operand).bind fun address ↦ ?_
  exact (agrees_setA _ address).bind fun _ ↦ agrees_advancePast operand (by decide)

theorem agrees_pushAddress :
    Agrees (pushAddress opcode) (M68000.Instruction.pushAddress opcode) := by
  refine (agrees_ofField _ _ _).bind fun operand ↦ (agrees_address operand).bind fun address ↦ ?_
  exact (agrees_push .long address).bind fun _ ↦ agrees_advancePast operand (by decide)

theorem register_data (number : Fin 8) : register number = .ok (.data number) :=
  dif_pos number.isLt

theorem register_address (number : Fin 8) : register (number + 8) = .ok (.address number) := by
  rw [register, dif_neg (by omega), difference_of_le (Nat.le_add_left 8 _), ok_bind,
    dif_pos (by omega)]
  simp

theorem exchanged_eq (kind : ExchangeKind) :
    exchanged kind opcode = .ok (Operation.exchanged kind opcode) := by
  have haddress (number : Fin 8) {rest : Register → Checked (Register × Register)} :
      (do rest (← register (← sum 32 number 8))) = rest (.address number) := by
    rw [sum_of_lt (by omega), ok_bind, register_address, ok_bind]
  cases kind <;> simp only [exchanged, register_data, ok_bind, haddress] <;> rfl

theorem agrees_exchange (kind : ExchangeKind) :
    Agrees (exchange kind opcode)
      (M68000.Instruction.exchange (Operation.exchanged kind opcode).1
        (Operation.exchanged kind opcode).2) := by
  rw [exchange, exchanged_eq, Action.lift_ok_bind]
  exact agrees_lift (lasting_soundFlags.maintains_exchange (.inl rfl))

theorem agrees_swapWords :
    Agrees (swapWords opcode) (M68000.Instruction.swapWords opcode) := by
  refine (agrees_getD _).bind fun register ↦ (agrees_setD _ _).bind fun _ ↦ ?_
  exact (agrees_setResult _).bind fun _ ↦ agrees_advancePc 2

theorem agrees_extendSign :
    Agrees (extendSign size opcode) (M68000.Instruction.extendSign size opcode) := by
  refine (agrees_getD _).bind fun register ↦ ?_
  cases size with
  | byte | word | long =>
    simp only [extended, Size.low_eq, ok_bind, Size.signExtend_eq, Action.lift_ok_bind,
      Size.replaceLow_eq]
    exact (agrees_setD _ _).bind fun _ ↦ (agrees_setResult _).bind fun _ ↦ agrees_advancePc 2

/-! ### Several registers -/

theorem chosen_eq {list : BitVec 16} {place : Nat → Checked Nat} {place' : Fin 16 → Fin 16}
    (hplace : ∀ number : Fin 16, place number = .ok (place' number).val)
    (numbers : List (Fin 16)) :
    chosen list place (numbers.map Fin.val) =
      .ok ((numbers.filter fun number : Fin 16 ↦ list.getLsbD number).map fun number ↦
        .ofNumber (place' number)) := by
  induction numbers with
  | nil => rfl
  | cons number rest ih =>
    have hmask : (1 : BitVec 16) <<< number.val = .twoPow 16 number := rfl
    rw [List.map_cons, chosen, shiftLeft_of_lt number.isLt, ok_bind, hmask, bne,
      and_twoPow_beq_zero list number.isLt, Bool.not_not, hplace, ok_bind, register_eq, ok_bind, ih,
      List.filter_cons]
    cases list.getLsbD number <;> rfl

theorem agrees_storeDownward (address : Address) (chosen : List Register) :
    Agrees (storeDownward size address chosen)
      (M68000.Instruction.storeDownward size address chosen) := by
  induction chosen generalizing address with
  | nil => exact agrees_pure address
  | cons register rest ih =>
    refine (agrees_lift Exec.maintains_registers).bind fun registers ↦ ?_
    exact (agrees_write size _ _).bind fun _ ↦ ih _

theorem agrees_storeUpward (address : Address) (chosen : List Register) :
    Agrees (storeUpward size address chosen)
      (M68000.Instruction.storeUpward size address chosen) := by
  induction chosen generalizing address with
  | nil => exact agrees_pure ()
  | cons register rest ih =>
    refine (agrees_lift Exec.maintains_registers).bind fun registers ↦ ?_
    exact (agrees_write size _ _).bind fun _ ↦ ih _

theorem agrees_loadUpward (program : Bool) (address : Address) (chosen : List Register) :
    Agrees (loadUpward size program address chosen)
      (M68000.Instruction.loadUpward size program address chosen) := by
  induction chosen generalizing address with
  | nil => exact agrees_pure address
  | cons register rest ih =>
    have hload (value : size.Value) : Agrees
        (do
          let value ← Size.signExtend size value
          modifyRegisters (·.set register value)
          loadUpward size program (address + BitVec.ofNat 32 size.bytes) rest)
        (do
          modifyRegisters (·.set register (value.signExtend 32))
          M68000.Instruction.loadUpward size program (address + BitVec.ofNat 32 size.bytes)
            rest) := by
      rw [Size.signExtend_eq, Action.lift_ok_bind]
      exact (agrees_lift (lasting_soundFlags.maintains_set (.inl rfl) _)).bind fun _ ↦ ih _
    cases program with
    | true => exact (agrees_readProgram size address).bind hload
    | false => exact (agrees_read size address).bind hload

theorem chosen_upward (list : BitVec 16) :
    chosen list pure (List.range 16) =
      .ok ((M68000.Instruction.listed list).map Register.ofNumber) :=
  @chosen_eq list pure id (fun _ ↦ rfl) (List.finRange 16)

/-- Before decrements the list is reversed. -/
theorem chosen_downward (list : BitVec 16) :
    chosen list (difference 15) (List.range 16) =
      .ok ((M68000.Instruction.listed list).map fun number ↦ .ofNumber number.rev) := by
  refine @chosen_eq list (difference 15) Fin.rev (fun number ↦ ?_) (List.finRange 16)
  rw [difference_of_le (by omega), Fin.val_rev]
  exact congrArg Except.ok (by omega)

theorem agrees_storeMultiple :
    Agrees (storeMultiple size opcode) (M68000.Instruction.storeMultiple size opcode) := by
  refine (agrees_fetchWord 2).bind fun list ↦ (agrees_ofField size _ 4).bind fun operand ↦ ?_
  obtain ⟨mode, offset⟩ := operand
  cases mode with
  | preDecrement number =>
    dsimp only
    rw [chosen_downward, Action.lift_ok_bind]
    refine (agrees_getA number).bind fun address ↦ ?_
    refine (agrees_storeDownward size address _).bind fun last ↦ ?_
    exact (agrees_setA number last).bind fun _ ↦ agrees_advancePast _ (by decide)
  | _ =>
    dsimp only
    rw [chosen_upward, Action.lift_ok_bind]
    refine (agrees_address _).bind fun address ↦ ?_
    exact (agrees_storeUpward size address _).bind fun _ ↦ agrees_advancePast _ (by decide)

theorem agrees_loadMultiple :
    Agrees (loadMultiple size opcode) (M68000.Instruction.loadMultiple size opcode) := by
  refine (agrees_fetchWord 2).bind fun list ↦ (agrees_ofField size _ 4).bind fun operand ↦ ?_
  rw [chosen_upward, Action.lift_ok_bind]
  obtain ⟨mode, offset⟩ := operand
  cases mode with
  | postIncrement number =>
    refine (agrees_getA number).bind fun address ↦ ?_
    refine (agrees_loadUpward size false address _).bind fun last ↦ ?_
    exact (agrees_setA number last).bind fun _ ↦ agrees_advancePast _ (by decide)
  | _ =>
    refine (agrees_address _).bind fun address ↦ ?_
    exact (agrees_loadUpward size _ address _).bind fun _ ↦ agrees_advancePast _ (by decide)

/-! ## Arithmetic and logic -/

variable (operation : Binary)

variable {size} in
theorem agrees_compute (destination source : size.Value) :
    Agrees (compute operation destination source)
      (M68000.Instruction.compute operation destination source) := by
  refine (agrees_modifyFlags fun flags hflags ↦ ⟨?_, ?_⟩).bind fun _ ↦ agrees_pure _
  · exact Binary.record_eq operation destination source flags
  · exact operation.sound_record destination source hflags

variable {size} in
theorem agrees_update (operand : Operand size) (source : size.Value) :
    Agrees (update operation operand source)
      (M68000.Instruction.update operation operand source) := by
  refine (agrees_get operand).bind fun destination ↦ ?_
  refine (agrees_compute operation destination source).bind fun result ↦ ?_
  cases result with
  | some result => exact (agrees_put operand result).bind fun _ ↦ agrees_finish operand
  | none => exact agrees_finish operand

theorem agrees_toRegister :
    Agrees (toRegister operation size opcode)
      (M68000.Instruction.toRegister operation size opcode) := by
  refine agrees_source fun operand source ↦ (agrees_getD _).bind fun register ↦ ?_
  rw [Size.low_eq, Action.lift_ok_bind]
  refine (agrees_compute operation _ source).bind fun result ↦ ?_
  cases result with
  | some result =>
    dsimp only
    rw [Size.replaceLow_eq, Action.lift_ok_bind]
    exact (agrees_setD _ _).bind fun _ ↦ agrees_advancePast operand (by decide)
  | none => exact agrees_advancePast operand (by decide)

theorem agrees_fromRegister :
    Agrees (fromRegister operation size opcode)
      (M68000.Instruction.fromRegister operation size opcode) := by
  refine (agrees_ofField size _ 2).bind fun operand ↦ (agrees_getD _).bind fun register ↦ ?_
  rw [Size.low_eq, Action.lift_ok_bind]
  exact (agrees_update operation operand _).bind fun _ ↦ agrees_advancePast operand (by decide)

theorem agrees_withImmediate :
    Agrees (withImmediate operation size opcode)
      (M68000.Instruction.withImmediate operation size opcode) := by
  refine (agrees_fetch size 2).bind fun source ↦ ?_
  have hstart : sum 32 2 size.alignedBytes = .ok (2 + size.alignedBytes) := by
    cases size <;> rfl
  rw [Size.alignedBytes_eq, Action.lift_ok_bind, hstart, Action.lift_ok_bind]
  refine (agrees_ofField size _ _).bind fun operand ↦ ?_
  refine (agrees_update operation operand source).bind fun _ ↦ agrees_advancePast operand ?_
  cases size <;> decide

theorem agrees_quick :
    Agrees (quick operation size opcode)
      (M68000.Instruction.quick operation size opcode) := by
  refine (agrees_ofField size _ 2).bind fun operand ↦ ?_
  obtain ⟨mode, offset⟩ := operand
  cases mode with
  | addressRegister number =>
    refine (agrees_getA number).bind fun address ↦ ?_
    exact (agrees_setA number _).bind fun _ ↦ agrees_advancePast _ (by decide)
  | _ => exact (agrees_update operation _ _).bind fun _ ↦ agrees_advancePast _ (by decide)

theorem agrees_withAddress (operation : AddressOperation) :
    Agrees (withAddress operation size opcode)
      (M68000.Instruction.withAddress operation size opcode) := by
  refine (agrees_ofField size _ 2).bind fun operand ↦ (agrees_get operand).bind fun source ↦ ?_
  rw [Size.signExtend_eq, Action.lift_ok_bind]
  refine (agrees_finish operand).bind fun _ ↦ (agrees_getA _).bind fun address ↦ ?_
  cases operation with
  | add | sub => exact (agrees_setA _ _).bind fun _ ↦ agrees_advancePast operand (by decide)
  | cmp =>
    refine (agrees_modifyFlags fun _ hflags ↦ ⟨rfl, hflags.setCompare _ _ _⟩).bind fun _ ↦ ?_
    exact agrees_advancePast operand (by decide)

theorem agrees_compareMemory :
    Agrees (compareMemory size opcode)
      (M68000.Instruction.compareMemory size opcode) := by
  refine (agrees_get _).bind fun source ↦ (agrees_finish _).bind fun _ ↦ ?_
  refine (agrees_get _).bind fun destination ↦ (agrees_finish _).bind fun _ ↦ ?_
  exact (agrees_compute .cmp destination source).bind fun _ ↦ agrees_advancePc 2

theorem agrees_unary (operation : Unary) :
    Agrees (unary operation size opcode)
      (M68000.Instruction.unary operation size opcode) := by
  refine (agrees_ofField size _ 2).bind fun operand ↦ (agrees_get operand).bind fun value ↦ ?_
  refine agrees_flags_bind fun flags hsound ↦ ?_
  rw [Flags.extend_eq hsound, Action.lift_ok_bind]
  refine (agrees_modifyFlags fun _ hflags ↦ ⟨?_, ?_⟩).bind fun _ ↦ ?_
  · exact Unary.record_eq operation value hflags
  · exact operation.sound_record value hflags
  cases operation.result? value flags.extend with
  | some result =>
    refine (agrees_put operand result).bind fun _ ↦ (agrees_finish operand).bind fun _ ↦ ?_
    exact agrees_advancePast operand (by decide)
  | none => exact (agrees_finish operand).bind fun _ ↦ agrees_advancePast operand (by decide)

/-! ### Chains -/

variable (inMemory : Bool)

/-- The parts that are combined are read before anything else is done. -/
theorem chained_eq_parts (combine : size.Value → size.Value → Bool → ChainedResult size.bits) :
    M68000.Instruction.chained size combine inMemory opcode = (do
      let (destination, source) ← M68000.Instruction.parts size inMemory opcode
      M68000.Instruction.replacePart size combine inMemory opcode destination source) := by
  simp [M68000.Instruction.chained, M68000.Instruction.parts, M68000.Instruction.replacePart]

theorem agrees_parts :
    Agrees (parts size inMemory opcode) (M68000.Instruction.parts size inMemory opcode) :=
  (agrees_get _).bind fun _ ↦ (agrees_finish _).bind fun _ ↦ (agrees_get _).bind fun _ ↦
    agrees_pure _

theorem agrees_replacePart {size : Size}
    {combine : size.Value → size.Value → Bool → Checked (ChainedResult size.bits)}
    {combine' : size.Value → size.Value → Bool → ChainedResult size.bits}
    {destination source : size.Value}
    (hcombine : ∀ extend,
      combine destination source extend = .ok (combine' destination source extend)) :
    Agrees (replacePart size combine inMemory opcode destination source)
      (M68000.Instruction.replacePart size combine' inMemory opcode destination source) := by
  refine agrees_flags_bind fun flags hsound ↦ ?_
  rw [Flags.extend_eq hsound, Action.lift_ok_bind, hcombine, Action.lift_ok_bind]
  refine (agrees_put _ _).bind fun _ ↦ (agrees_finish _).bind fun _ ↦ ?_
  refine agrees_flags_bind fun after _ ↦ ?_
  rw [ChainedResult.ccr_eq, Action.lift_ok_bind]
  exact (agrees_setCcr _).bind fun _ ↦ agrees_advancePc 2

theorem agrees_chained
    {combine : size.Value → size.Value → Bool → Checked (ChainedResult size.bits)}
    {combine' : size.Value → size.Value → Bool → ChainedResult size.bits}
    (hcombine : ∀ destination source extend,
      combine destination source extend = .ok (combine' destination source extend)) :
    Agrees (chained size combine inMemory opcode)
      (M68000.Instruction.chained size combine' inMemory opcode) := by
  rw [chained_eq_parts]
  exact (agrees_parts opcode size inMemory).bind fun (destination, source) ↦
    agrees_replacePart opcode inMemory (hcombine destination source)

theorem agrees_chainedBinary (operation : ChainedOperation) :
    Agrees (chainedBinary operation size inMemory opcode)
      (M68000.Instruction.chainedBinary operation size inMemory opcode) := by
  cases operation with
  | add => exact agrees_chained opcode size inMemory ChainedResult.add_eq
  | sub => exact agrees_chained opcode size inMemory ChainedResult.sub_eq

theorem agrees_subDecimal :
    Agrees (chainedDecimal .sub inMemory opcode)
      (M68000.Instruction.chainedDecimal .sub inMemory opcode) :=
  agrees_chained opcode .byte inMemory fun _ _ _ ↦ rfl

/-- ABCD does not fail if the bytes that it adds hold two decimal digits each. -/
theorem addDecimal_outcome {machine : Machine} (hsound : SoundFlags machine)
    (hdecimal : ∀ destination source next,
      (M68000.Instruction.parts .byte inMemory opcode).run machine =
        .ok (destination, source) next →
          BitVec.IsDecimal destination ∧ BitVec.IsDecimal source) :
    chainedDecimal .add inMemory opcode machine =
      .ok ((M68000.Instruction.chainedDecimal .add inMemory opcode).run machine) := by
  have hparts := agrees_parts opcode .byte inMemory
  have hchained : M68000.Instruction.chainedDecimal .add inMemory opcode = _ :=
    chained_eq_parts opcode .byte inMemory M68000.ChainedResult.addDecimal
  rw [hchained]
  refine outcome_bind (hparts.outcome machine hsound) (hparts.sound machine hsound)
    fun bytes next hread hnext ↦ ?_
  obtain ⟨destination, source⟩ := bytes
  obtain ⟨hdestination, hsource⟩ := hdecimal destination source next hread
  refine (agrees_replacePart opcode inMemory fun extend ↦ ?_).outcome next hnext
  have hsum := ChainedResult.addDecimal_eq_or destination source extend
  exact hsum.resolve_right fun hfails ↦ hfails.1 ⟨hdestination, hsource⟩

theorem agrees_negateDecimal :
    Agrees (negateDecimal opcode) (M68000.Instruction.negateDecimal opcode) := by
  refine (agrees_ofField .byte _ 2).bind fun operand ↦ (agrees_get operand).bind fun value ↦ ?_
  refine agrees_flags_bind fun flags hsound ↦ ?_
  rw [Flags.extend_eq hsound, Action.lift_ok_bind]
  refine (agrees_put operand _).bind fun _ ↦ (agrees_finish operand).bind fun _ ↦ ?_
  refine agrees_flags_bind fun after _ ↦ ?_
  refine agrees_computed_bind (@ChainedResult.ccr_eq .byte _ after) ?_
  exact (agrees_setCcr _).bind fun _ ↦ agrees_advancePast operand (by decide)

/-! ### Products and quotients -/

theorem agrees_multiply (signedness : Signedness) :
    Agrees (multiply signedness opcode)
      (M68000.Instruction.multiply signedness opcode) := by
  refine agrees_source fun operand source ↦ (agrees_getD _).bind fun register ↦ ?_
  rw [Size.low_eq, Action.lift_ok_bind]
  refine agrees_computed_bind (Signedness.product_eq signedness _ source) ?_
  refine (agrees_setD _ _).bind fun _ ↦ (agrees_setResult _).bind fun _ ↦ ?_
  exact agrees_advancePast operand (by decide)

theorem agrees_divide (signedness : Signedness) :
    Agrees (divide signedness opcode)
      (M68000.Instruction.divide signedness opcode) := by
  refine agrees_source fun operand divisor ↦ ?_
  rw [sum_extensionBytes operand (by decide), Action.lift_ok_bind]
  dsimp only
  split
  next => exact agrees_pc.bind fun _ ↦ agrees_enterException 5 _
  next hdivisor =>
    -- Zero has been dealt with, and no other divisor makes a division fail.
    refine (agrees_getD _).bind fun dividend ↦ ?_
    rw [Signedness.divide?_eq signedness dividend hdivisor, Action.lift_ok_bind]
    cases signedness.divide? dividend divisor with
    | some pair =>
      refine (agrees_setD _ _).bind fun _ ↦ (agrees_setResult _).bind fun _ ↦ ?_
      exact agrees_advancePc _
    | none =>
      refine (agrees_modifyFlags fun _ hflags ↦ ⟨rfl, ?_⟩).bind fun _ ↦ agrees_advancePc _
      exact hflags.setCodes _ _ _ _

variable {size} in
/-- Operands are compared as their extensions are. -/
theorem slt_signExtend (a b : size.Value) :
    (a.signExtend 32).slt (b.signExtend 32) = a.slt b := by
  rw [BitVec.slt, BitVec.slt, BitVec.toInt_signExtend_of_le size.bits_le,
    BitVec.toInt_signExtend_of_le size.bits_le]

variable {size} in
theorem slt_zero_signExtend (a : size.Value) : (a.signExtend 32).slt 0 = a.slt 0 := by
  rw [BitVec.slt, BitVec.slt, BitVec.toInt_signExtend_of_le size.bits_le]
  simp

theorem agrees_checkBounds :
    Agrees (checkBounds opcode) (M68000.Instruction.checkBounds opcode) := by
  refine (agrees_ofField .word _ 2).bind fun operand ↦ (agrees_get operand).bind fun bound ↦ ?_
  rw [Size.signExtend_eq, Action.lift_ok_bind]
  refine (agrees_finish operand).bind fun _ ↦ ?_
  rw [sum_extensionBytes operand (by decide), Action.lift_ok_bind]
  refine (agrees_getD _).bind fun register ↦ ?_
  rw [Size.low_eq, Action.lift_ok_bind, Size.signExtend_eq, Action.lift_ok_bind]
  dsimp only
  rw [slt_zero_signExtend, slt_signExtend]
  refine agrees_ite Iff.rfl ?_ (agrees_advancePc _)
  refine agrees_flags_bind fun flags hsound ↦ ?_
  rw [Flags.ccr_eq hsound, Action.lift_ok_bind]
  exact (agrees_setCcr _).bind fun _ ↦ agrees_pc.bind fun _ ↦ agrees_enterException 6 _

/-! ### Single bits -/

theorem agrees_modifyBit (operation : BitOperation) (number : Nat) (field : BitVec 6) {offset : Nat}
    (hoffset : offset ≤ 10) :
    Agrees (modifyBit operation size number field offset)
      (M68000.Instruction.modifyBit operation size number field offset) := by
  refine (agrees_ofField size field offset).bind fun operand ↦ ?_
  rw [bitMask_eq, Action.lift_ok_bind]
  refine (agrees_get operand).bind fun value ↦ ?_
  refine (agrees_modifyFlags fun flags hflags ↦ ⟨Flags.setZero_eq hflags _, ?_⟩).bind fun _ ↦ ?_
  · exact hflags.setZero _
  have hlength : Agrees (liftM (sum 32 offset operand.extensionBytes))
      (pure (offset + operand.extensionBytes)) := by
    rw [sum_extensionBytes operand hoffset, Action.lift_ok]
    exact agrees_pure _
  cases operation.result? value (.twoPow size.bits (number % size.bits)) with
  | some result =>
    exact (agrees_put operand result).bind fun _ ↦ (agrees_finish operand).bind fun _ ↦ hlength
  | none => exact (agrees_finish operand).bind fun _ ↦ hlength

theorem agrees_bit (operation : BitOperation) (inRegister : Bool) :
    Agrees (bit operation inRegister opcode)
      (M68000.Instruction.bit operation inRegister opcode) := by
  have hmodify (size : Size) (number offset : Nat) (hoffset : offset ≤ 10) :=
    (agrees_modifyBit size operation number opcode.operandField hoffset).bind agrees_advancePc
  cases inRegister with
  | true =>
    refine (agrees_getD _).bind fun register ↦ ?_
    dsimp only
    cases Mode.ofField? opcode.operandField with
    | none => exact hmodify .byte register.toNat 2 (by decide)
    | some mode => cases mode <;> exact hmodify _ register.toNat 2 (by decide)
  | false =>
    refine (agrees_fetch .byte 2).bind fun immediate ↦ ?_
    dsimp only
    cases Mode.ofField? opcode.operandField with
    | none => exact hmodify .byte immediate.toNat 4 (by decide)
    | some mode => cases mode <;> exact hmodify _ immediate.toNat 4 (by decide)

theorem agrees_testAndSet :
    Agrees (testAndSet opcode) (M68000.Instruction.testAndSet opcode) := by
  refine (agrees_ofField .byte _ 2).bind fun operand ↦ (agrees_get operand).bind fun value ↦ ?_
  refine (agrees_recordResult value).bind fun _ ↦ (agrees_put operand _).bind fun _ ↦ ?_
  exact (agrees_finish operand).bind fun _ ↦ agrees_advancePast operand (by decide)

/-! ### Shifts -/

variable (kind : ShiftKind) (direction : Direction)

variable {size} in
theorem agrees_shift (value : size.Value) {count : Nat} (hcount : count < 64) :
    Agrees (shift kind direction value count)
      (M68000.Instruction.shift kind direction value count) where
  outcome machine hsound := by
    change (ShiftKind.perform kind direction value count machine.registers.flags >>= _) >>= _ = _
    rw [ShiftKind.perform_eq kind direction value count hsound]
    rfl
  sound := lasting_soundFlags.maintains_shift fun _ ↦ kind.sound_record direction value hcount

theorem agrees_shiftMemory :
    Agrees (shiftMemory kind direction opcode)
      (M68000.Instruction.shiftMemory kind direction opcode) := by
  refine (agrees_ofField .word _ 2).bind fun operand ↦ (agrees_get operand).bind fun value ↦ ?_
  refine (agrees_shift kind direction value (by decide)).bind fun result ↦ ?_
  refine (agrees_put operand result).bind fun _ ↦ (agrees_finish operand).bind fun _ ↦ ?_
  exact agrees_advancePast operand (by decide)

theorem agrees_shiftRegister (source : CountSource) :
    Agrees (shiftRegister kind direction source size opcode)
      (M68000.Instruction.shiftRegister kind direction source size opcode) := by
  -- Wherever the count comes from, it is one that may be recorded.
  have hrest (count : Nat) (hcount : count < 64) : Agrees
      (do
        let register ← getD opcode.lowRegister
        let result ← shift kind direction (← Size.low size register) count
        setD opcode.lowRegister (← Size.replaceLow size register result)
        advancePc 2)
      (do
        let register ← M68000.Exec.getD opcode.lowRegister
        let result ← M68000.Instruction.shift kind direction (size.low register) count
        M68000.Exec.setD opcode.lowRegister (size.replaceLow register result)
        advancePc 2) := by
    refine (agrees_getD _).bind fun register ↦ ?_
    rw [Size.low_eq, Action.lift_ok_bind]
    refine (agrees_shift kind direction _ hcount).bind fun result ↦ ?_
    rw [Size.replaceLow_eq, Action.lift_ok_bind]
    exact (agrees_setD _ _).bind fun _ ↦ agrees_advancePc 2
  cases source with
  | immediate => exact hrest _ (Nat.lt_of_le_of_lt opcode.quickValue_le (by decide))
  | register =>
    refine (agrees_getD _).bind fun register ↦ ?_
    rw [remainder_of_pos (by decide), Action.lift_ok_bind]
    exact hrest _ (Nat.mod_lt _ (by decide))

/-! ## Program control -/

theorem condition_eq : condition opcode = .ok (.ofOpcode opcode) :=
  entry_fin Condition.all (opcode.extractLsb' 8 4).toFin

theorem agrees_branchDisplacement :
    Agrees (branchDisplacement opcode)
      (M68000.Instruction.branchDisplacement opcode) := by
  unfold branchDisplacement M68000.Instruction.branchDisplacement
  split
  next => exact (agrees_fetchWord 2).bind fun _ ↦ agrees_pure _
  next => exact agrees_pure _

theorem agrees_branchTo (displacement : Address) :
    Agrees (liftM (M68000.Instruction.branchTo displacement))
      (M68000.Instruction.branchTo displacement) :=
  agrees_lift (lasting_soundFlags.maintains_branchTo displacement)

theorem agrees_branch :
    Agrees (branch opcode) (M68000.Instruction.branch opcode) := by
  refine (agrees_branchDisplacement opcode).bind fun (displacement, length) ↦ ?_
  refine agrees_flags_bind fun flags hsound ↦ ?_
  rw [condition_eq, Action.lift_ok_bind, Flags.holds_eq hsound, Action.lift_ok_bind]
  split
  next => exact agrees_branchTo displacement
  next => exact agrees_advancePc length

theorem agrees_branchToSubroutine :
    Agrees (branchToSubroutine opcode)
      (M68000.Instruction.branchToSubroutine opcode) := by
  refine (agrees_branchDisplacement opcode).bind fun (displacement, length) ↦ ?_
  refine agrees_pc.bind fun address ↦ (agrees_push .long _).bind fun _ ↦ ?_
  exact agrees_branchTo displacement

theorem agrees_decrementAndBranch :
    Agrees (decrementAndBranch opcode)
      (M68000.Instruction.decrementAndBranch opcode) := by
  refine agrees_flags_bind fun flags hsound ↦ ?_
  rw [condition_eq, Action.lift_ok_bind, Flags.holds_eq hsound, Action.lift_ok_bind]
  split
  next => exact agrees_advancePc 4
  next =>
    refine (agrees_getD _).bind fun register ↦ ?_
    dsimp only
    rw [Size.replaceLow_eq, Action.lift_ok_bind]
    refine (agrees_setD _ _).bind fun _ ↦ ?_
    split
    next => exact agrees_advancePc 4
    next => exact (agrees_fetchWord 2).bind fun word ↦ agrees_branchTo _

theorem agrees_setConditionally :
    Agrees (setConditionally opcode)
      (M68000.Instruction.setConditionally opcode) := by
  refine (agrees_ofField .byte _ 2).bind fun operand ↦ agrees_flags_bind fun flags hsound ↦ ?_
  rw [condition_eq, Action.lift_ok_bind, Flags.holds_eq hsound, Action.lift_ok_bind]
  refine (agrees_put operand _).bind fun _ ↦ (agrees_finish operand).bind fun _ ↦ ?_
  exact agrees_advancePast operand (by decide)

theorem agrees_jump : Agrees (jump opcode) (M68000.Instruction.jump opcode) :=
  (agrees_ofField .long _ 2).bind fun operand ↦ (agrees_address operand).bind fun target ↦
    agrees_setPc target

theorem agrees_jumpToSubroutine :
    Agrees (jumpToSubroutine opcode)
      (M68000.Instruction.jumpToSubroutine opcode) := by
  refine (agrees_ofField .long _ 2).bind fun operand ↦ (agrees_address operand).bind fun target ↦ ?_
  rw [sum_extensionBytes operand (by decide), Action.lift_ok_bind]
  exact agrees_pc.bind fun _ ↦ (agrees_push .long _).bind fun _ ↦ agrees_setPc target

theorem agrees_returnFromSubroutine :
    Agrees returnFromSubroutine M68000.Instruction.returnFromSubroutine :=
  (agrees_pop .long).bind fun target ↦ agrees_setPc target

theorem agrees_returnAndRestore :
    Agrees returnAndRestore M68000.Instruction.returnAndRestore :=
  (agrees_pop .word).bind fun _ ↦ (agrees_pop .long).bind fun target ↦
    (agrees_setCcr _).bind fun _ ↦ agrees_setPc target

theorem agrees_link : Agrees (link opcode) (M68000.Instruction.link opcode) := by
  refine (agrees_fetchWord 2).bind fun word ↦ (agrees_getA _).bind fun top ↦ ?_
  have hrest (frame saved displacement : Address) : Agrees
      (do
        write .long frame saved
        setA opcode.lowRegister frame
        setA stackPointer (frame + displacement)
        advancePc 4)
      (do
        M68000.Exec.write .long frame saved
        M68000.Exec.setA opcode.lowRegister frame
        M68000.Exec.setA stackPointer (frame + displacement)
        advancePc 4) :=
    (agrees_write .long frame saved).bind fun _ ↦ (agrees_setA _ frame).bind fun _ ↦
      (agrees_setA _ _).bind fun _ ↦ agrees_advancePc 4
  dsimp only
  split
  next => exact hrest _ _ _
  next => exact (agrees_getA _).bind fun saved ↦ hrest _ saved _

theorem agrees_unlink : Agrees (unlink opcode) (M68000.Instruction.unlink opcode) :=
  (agrees_getA _).bind fun frame ↦ (agrees_setA _ frame).bind fun _ ↦
    (agrees_pop .long).bind fun saved ↦ (agrees_setA _ saved).bind fun _ ↦ agrees_advancePc 2

/-! ## Status register and exceptions -/

theorem agrees_logicalToCcr (operation : LogicalOperation) :
    Agrees (logicalToCcr operation) (M68000.Instruction.logicalToCcr operation) := by
  refine (agrees_fetch .byte 2).bind fun source ↦ agrees_flags_bind fun flags hsound ↦ ?_
  rw [Flags.ccr_eq hsound, Action.lift_ok_bind]
  exact (agrees_setCcr _).bind fun _ ↦ agrees_advancePc 4

theorem agrees_requireSupervisor :
    Agrees (liftM requireSupervisor) requireSupervisor :=
  agrees_lift Exec.maintains_requireSupervisor

theorem agrees_setStatusRegister (value : BitVec 16) :
    Agrees (liftM (M68000.Instruction.setStatusRegister value))
      (M68000.Instruction.setStatusRegister value) :=
  agrees_lift <|
    lasting_soundFlags.maintains_setStatusRegister (fun _ _ _ ↦ Flags.sound_ofCcr _) value

theorem agrees_statusRegister :
    Agrees statusRegister M68000.Instruction.statusRegister := by
  refine agrees_registers_bind fun registers hsound ↦ ?_
  rw [Registers.statusRegister_eq hsound, Action.lift_ok]
  exact agrees_pure _

theorem agrees_logicalToStatus (operation : LogicalOperation) :
    Agrees (logicalToStatus operation)
      (M68000.Instruction.logicalToStatus operation) := by
  refine agrees_requireSupervisor.bind fun _ ↦ (agrees_fetch .word 2).bind fun source ↦ ?_
  refine agrees_statusRegister.bind fun status ↦ (agrees_advancePc 4).bind fun _ ↦ ?_
  exact agrees_setStatusRegister _

theorem agrees_moveFromStatus :
    Agrees (moveFromStatus opcode) (M68000.Instruction.moveFromStatus opcode) := by
  refine (agrees_ofField .word _ 2).bind fun operand ↦ agrees_statusRegister.bind fun status ↦ ?_
  refine (agrees_put operand _).bind fun _ ↦ (agrees_finish operand).bind fun _ ↦ ?_
  exact agrees_advancePast operand (by decide)

theorem agrees_moveToCcr :
    Agrees (moveToCcr opcode) (M68000.Instruction.moveToCcr opcode) :=
  agrees_source fun operand _ ↦ (agrees_setCcr _).bind fun _ ↦
    agrees_advancePast operand (by decide)

theorem agrees_moveToStatus :
    Agrees (moveToStatus opcode) (M68000.Instruction.moveToStatus opcode) :=
  agrees_requireSupervisor.bind fun _ ↦ agrees_source fun operand value ↦
    (agrees_advancePast operand (by decide)).bind fun _ ↦ agrees_setStatusRegister value

theorem agrees_moveUserStack (direction : UserStackMove) :
    Agrees (moveUserStack direction opcode)
      (M68000.Instruction.moveUserStack direction opcode) := by
  refine agrees_requireSupervisor.bind fun _ ↦ ?_
  cases direction with
  | toUserStack =>
    refine (agrees_getA _).bind fun value ↦ (agrees_lift ?_).bind fun _ ↦ agrees_advancePc 2
    exact Exec.maintains_modify fun machine ↦ lasting_soundFlags.setUserStack rfl machine value
  | fromUserStack =>
    refine (agrees_lift Exec.maintains_registers).bind fun registers ↦ ?_
    exact (agrees_setA _ _).bind fun _ ↦ agrees_advancePc 2

theorem agrees_trap : Agrees (trap opcode) (M68000.Instruction.trap opcode) := by
  refine agrees_pc.bind fun address ↦ ?_
  have hvector : add 32 ((opcode.extractLsb' 0 4).setWidth 8) =
      .ok (32 + (opcode.extractLsb' 0 4).setWidth 8) := by
    refine add_of_lt ?_
    rw [BitVec.toNat_setWidth_of_le (by decide)]
    exact Nat.lt_of_lt_of_le (Nat.add_lt_add_left (opcode.extractLsb' 0 4).isLt 32) (by decide)
  dsimp only
  rw [hvector, Action.lift_ok_bind]
  exact agrees_enterException _ _

theorem agrees_trapOnOverflow :
    Agrees trapOnOverflow M68000.Instruction.trapOnOverflow := by
  refine agrees_pc.bind fun address ↦ agrees_flags_bind fun flags hsound ↦ ?_
  rw [Flags.overflow_eq hsound, Action.lift_ok_bind]
  split
  next => exact agrees_enterException 7 _
  next => exact agrees_setPc _

theorem agrees_returnFromException :
    Agrees returnFromException M68000.Instruction.returnFromException :=
  agrees_requireSupervisor.bind fun _ ↦ (agrees_pop .word).bind fun status ↦
    (agrees_pop .long).bind fun target ↦ (agrees_setPc target).bind fun _ ↦
      agrees_setStatusRegister status

end Instruction

/-! ## Operations -/

section Operations

variable (operation : Operation) (opcode : Opcode)

theorem agrees_execute (hadd : ∀ inMemory, operation ≠ .chainedDecimal .add inMemory) :
    Agrees (Operation.execute operation opcode) (operation.execute opcode) := by
  cases operation with
  | move size => exact Instruction.agrees_move opcode size
  | moveAddress size => exact Instruction.agrees_moveAddress opcode size
  | moveQuick => exact Instruction.agrees_moveQuick opcode
  | storeMultiple size => exact Instruction.agrees_storeMultiple opcode size
  | loadMultiple size => exact Instruction.agrees_loadMultiple opcode size
  | loadAddress => exact Instruction.agrees_loadAddress opcode
  | pushAddress => exact Instruction.agrees_pushAddress opcode
  | exchange kind => exact Instruction.agrees_exchange opcode kind
  | swapWords => exact Instruction.agrees_swapWords opcode
  | extendSign size => exact Instruction.agrees_extendSign opcode size
  | link => exact Instruction.agrees_link opcode
  | unlink => exact Instruction.agrees_unlink opcode
  | setConditionally => exact Instruction.agrees_setConditionally opcode
  | testAndSet => exact Instruction.agrees_testAndSet opcode
  | toRegister operation size => exact Instruction.agrees_toRegister opcode size operation
  | fromRegister operation size => exact Instruction.agrees_fromRegister opcode size operation
  | withImmediate operation size => exact Instruction.agrees_withImmediate opcode size operation
  | quick operation size => exact Instruction.agrees_quick opcode size operation
  | withAddress operation size => exact Instruction.agrees_withAddress opcode size operation
  | compareMemory size => exact Instruction.agrees_compareMemory opcode size
  | chainedBinary operation size inMemory =>
    exact Instruction.agrees_chainedBinary opcode size inMemory operation
  | chainedDecimal operation inMemory =>
    cases operation with
    | add => exact absurd rfl (hadd inMemory)
    | sub => exact Instruction.agrees_subDecimal opcode inMemory
  | negateDecimal => exact Instruction.agrees_negateDecimal opcode
  | unary operation size => exact Instruction.agrees_unary opcode size operation
  | multiply signedness => exact Instruction.agrees_multiply opcode signedness
  | divide signedness => exact Instruction.agrees_divide opcode signedness
  | checkBounds => exact Instruction.agrees_checkBounds opcode
  | bit operation inRegister => exact Instruction.agrees_bit opcode operation inRegister
  | shiftRegister kind direction count size =>
    exact Instruction.agrees_shiftRegister opcode size kind direction count
  | shiftMemory kind direction => exact Instruction.agrees_shiftMemory opcode kind direction
  | branch => exact Instruction.agrees_branch opcode
  | branchToSubroutine => exact Instruction.agrees_branchToSubroutine opcode
  | decrementAndBranch => exact Instruction.agrees_decrementAndBranch opcode
  | jump => exact Instruction.agrees_jump opcode
  | jumpToSubroutine => exact Instruction.agrees_jumpToSubroutine opcode
  | returnFromSubroutine => exact Instruction.agrees_returnFromSubroutine
  | returnAndRestore => exact Instruction.agrees_returnAndRestore
  | noOperation => exact Exec.agrees_advancePc 2
  | trap => exact Instruction.agrees_trap opcode
  | trapOnOverflow => exact Instruction.agrees_trapOnOverflow
  | logicalToCcr operation => exact Instruction.agrees_logicalToCcr operation
  | logicalToStatus operation => exact Instruction.agrees_logicalToStatus operation
  | moveFromStatus => exact Instruction.agrees_moveFromStatus opcode
  | moveToCcr => exact Instruction.agrees_moveToCcr opcode
  | moveToStatus => exact Instruction.agrees_moveToStatus opcode
  | moveUserStack direction => exact Instruction.agrees_moveUserStack opcode direction
  | resetDevices =>
    exact Instruction.agrees_requireSupervisor.bind fun _ ↦ Exec.agrees_advancePc 2
  | returnFromException => exact Instruction.agrees_returnFromException

variable {operation}

/-- No operation fails, unless it is ABCD on bytes that are not two decimal digits each. -/
theorem execute_outcome {machine : Machine} (hsound : SoundFlags machine)
    (hdecimal : operation.AddsDecimals opcode machine) :
    Operation.execute operation opcode machine = .ok ((operation.execute opcode).run machine) := by
  by_cases hadd : ∃ inMemory, operation = .chainedDecimal .add inMemory
  · obtain ⟨inMemory, rfl⟩ := hadd
    exact Instruction.addDecimal_outcome opcode inMemory hsound fun destination source next ↦
      hdecimal inMemory destination source next rfl
  · exact (agrees_execute operation opcode fun inMemory heq ↦ hadd ⟨inMemory, heq⟩).outcome
      machine hsound

theorem maintains_execute : Exec.Maintains SoundFlags (operation.execute opcode) := by
  by_cases hadd : ∃ inMemory, operation = .chainedDecimal .add inMemory
  · obtain ⟨inMemory, rfl⟩ := hadd
    exact lasting_soundFlags.maintains_chained _ (fun _ _ _ ↦ Flags.sound_ofCcr _) _ _ _
  · exact (agrees_execute operation opcode fun inMemory heq ↦ hadd ⟨inMemory, heq⟩).sound

end Operations

end Checked

end M68000
