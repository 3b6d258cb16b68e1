import M68000.Proofs.Bus.Issues

/-!
# The accesses of instructions

Each instruction issues the accesses of its parts, in their order, and then its transfers. If it
goes on at the next instruction, it has moved the program counter by the length of its parts.
-/

namespace M68000

namespace Instruction

open Exec Operation

variable {opcode : Opcode} {machine : Machine} (size : Size)

/-! ## Operands -/

/-- The operand that a field of the opcode names is a part of the instruction. -/
theorem issues_part {field : BitVec 6} {offset : Nat} {use : OperandUse}
    {rest : Operand size → Exec Unit}
    (hrest : ∀ mode, Mode.ofField? field = some mode →
      (rest ⟨mode, offset⟩).Issues (use.purposes size mode offset)
        (some (offset + mode.extensionBytes size)) machine) :
    (Operand.ofField size field offset >>= rest).Issues
      ((Part.operand size field use).purposes offset)
      (some (offset + (Part.operand size field use).bytes)) machine := by
  refine issues_ofField fun mode hmode ↦ ?_
  rw [Part.purposes_operand hmode, Part.bytes_operand hmode]
  exact hrest mode hmode

/-- An operand is read and finished with before the rest. -/
theorem issues_source {rest : Operand size → size.Value → Exec Unit} {purposes : List Purpose}
    {bytes : Option Nat} (hrest : ∀ mode value next, Mode.ofField? opcode.operandField = some mode →
      (rest ⟨mode, 2⟩ value).Issues purposes bytes next) :
    (do
      let operand ← Operand.ofField size opcode.operandField 2
      let value ← operand.get
      operand.finish
      rest operand value).Issues ((Part.ofOpcode opcode size .read).purposes 2 ++ purposes) bytes
        machine := by
  refine issues_ofField fun mode hmode ↦ ?_
  rw [Part.ofOpcode, Part.purposes_operand hmode]
  refine (issues_operandGet _).bind fun value _ _ ↦ ?_
  exact (issues_finish _).after fun _ next _ ↦ hrest mode value next hmode

/-- What follows the operand has no access of its own and advances past it. -/
theorem issues_onlySource {rest : Operand size → size.Value → Exec Unit}
    (hrest : ∀ operand value next,
      (rest operand value).Issues [] (some (2 + operand.extensionBytes)) next) :
    (do
      let operand ← Operand.ofField size opcode.operandField 2
      let value ← operand.get
      operand.finish
      rest operand value).Issues ((Part.ofOpcode opcode size .read).purposes 2)
        (some (2 + (Part.ofOpcode opcode size .read).bytes)) machine := by
  refine issues_part _ fun mode _ ↦ ?_
  refine (issues_operandGet _).before fun value _ _ ↦ ?_
  exact (issues_finish _).after fun _ next _ ↦ hrest ⟨mode, 2⟩ value next

/-- The last thing that happens to an operand, before the instruction ends. -/
theorem issues_finish_advancePc {size : Size} (operand : Operand size) (bytes : Nat) :
    (do
      operand.finish
      advancePc bytes).Issues [] (some bytes) machine :=
  (issues_finish operand).after fun _ _ _ ↦ issues_advancePc bytes

/-! ## Moves -/

section Moves

theorem issues_move : (move size opcode).Issues
    ((Part.ofOpcode opcode size .read).purposes 2 ++ (Part.ofDestination opcode size).purposes
      (2 + (Part.ofOpcode opcode size .read).bytes))
    (some (2 + (Part.ofOpcode opcode size .read).bytes + (Part.ofDestination opcode size).bytes))
    machine := by
  refine issues_source size fun mode value next hmode ↦ ?_
  refine issues_ofField fun mode' hmode' ↦ ?_
  rw [Part.ofOpcode, Part.ofDestination, Part.purposes_operand hmode', Part.bytes_operand hmode,
    Part.bytes_operand hmode']
  refine (issues_put _ value).before fun _ _ _ ↦ ?_
  refine (issues_finish _).after fun _ _ _ ↦ ?_
  refine (issues_modifyFlags _).after fun _ _ _ ↦ ?_
  exact issues_advancePc _

theorem issues_moveAddress : (moveAddress size opcode).Issues
    ((Part.ofOpcode opcode size .read).purposes 2)
    (some (2 + (Part.ofOpcode opcode size .read).bytes)) machine := by
  refine issues_onlySource size fun operand value _ ↦ ?_
  exact (issues_setA _ _).after fun _ _ _ ↦ issues_advancePc _

theorem issues_moveQuick : (moveQuick opcode).Issues [] (some 2) machine := by
  refine (issues_setD _ _).after fun _ _ _ ↦ ?_
  exact (issues_modifyFlags _).after fun _ _ _ ↦ issues_advancePc 2

theorem issues_loadAddress : (loadAddress opcode).Issues
    ((Part.ofOpcode opcode .long .locate).purposes 2)
    (some (2 + (Part.ofOpcode opcode .long .locate).bytes)) machine := by
  refine issues_part _ fun mode _ ↦ ?_
  refine (issues_address _).before fun address _ _ ↦ ?_
  exact (issues_setA _ _).after fun _ _ _ ↦ issues_advancePc _

theorem issues_pushAddress : (pushAddress opcode).Issues
    ((Part.ofOpcode opcode .long .locate).purposes 2 ++ [.data .write .long])
    (some (2 + (Part.ofOpcode opcode .long .locate).bytes)) machine := by
  refine issues_ofField fun mode hmode ↦ ?_
  rw [Part.ofOpcode, Part.purposes_operand hmode, Part.bytes_operand hmode]
  refine (issues_address _).bind fun address _ _ ↦ ?_
  exact (issues_push .long address).before fun _ _ _ ↦ issues_advancePc _

theorem issues_exchange (first second : Register) :
    (exchange first second).Issues [] (some 2) machine := by
  refine issues_registers.after fun before _ _ ↦ ?_
  refine (issues_modifyRegisters ?_ ?_).after fun _ _ _ ↦ issues_advancePc 2
  · cases first <;> cases second <;> rfl
  · cases first <;> cases second <;> rfl

theorem issues_swapWords : (swapWords opcode).Issues [] (some 2) machine := by
  refine (issues_getD _).after fun value _ _ ↦ ?_
  refine (issues_setD _ _).after fun _ _ _ ↦ ?_
  exact (issues_modifyFlags _).after fun _ _ _ ↦ issues_advancePc 2

theorem issues_extendSign : (extendSign size opcode).Issues [] (some 2) machine := by
  refine (issues_getD _).after fun register _ _ ↦ ?_
  refine (issues_setD _ _).after fun _ _ _ ↦ ?_
  exact (issues_modifyFlags _).after fun _ _ _ ↦ issues_advancePc 2

/-! ### Several registers -/

theorem issues_storeDownward (address : Address) (chosen : List Register) :
    (storeDownward size address chosen).Issues
      (List.replicate chosen.length (.data .write size)) (some 0) machine := by
  induction chosen generalizing address machine with
  | nil => exact issues_pure address
  | cons register rest ih =>
    refine issues_registers.after fun registers _ _ ↦ ?_
    exact (issues_write size _ _).bind fun _ _ _ ↦ ih _

theorem issues_storeUpward (address : Address) (chosen : List Register) :
    (storeUpward size address chosen).Issues
      (List.replicate chosen.length (.data .write size)) (some 0) machine := by
  induction chosen generalizing address machine with
  | nil => exact issues_pure ()
  | cons register rest ih =>
    refine issues_registers.after fun registers _ _ ↦ ?_
    exact (issues_write size _ _).bind fun _ _ _ ↦ ih _

theorem issues_loadUpward (program : Bool) (address : Address) (chosen : List Register) :
    (loadUpward size program address chosen).Issues
      (List.replicate chosen.length (if program then .programOperand size else .data .read size))
      (some 0) machine := by
  induction chosen generalizing address machine with
  | nil => exact issues_pure address
  | cons register rest ih =>
    cases program with
    | true =>
      refine (issues_readProgram size address).bind fun value _ _ ↦ ?_
      exact (issues_set register _).after fun _ _ _ ↦ ih _
    | false =>
      refine (issues_read size address).bind fun value _ _ ↦ ?_
      exact (issues_set register _).after fun _ _ _ ↦ ih _

theorem listedCount_eq {list : BitVec 16} {next : Machine}
    (hrun : (fetchWord 2).run machine = .ok list next) :
    listedCount machine = (listed list).length := by
  rw [listedCount, hrun]

theorem issues_storeMultiple : (storeMultiple size opcode).Issues
    ([.instruction .word 2] ++ ((Part.ofOpcode opcode size .locate).purposes 4 ++
      List.replicate (listedCount machine) (.data .write size)))
    (some (4 + (Part.ofOpcode opcode size .locate).bytes)) machine := by
  refine (issues_fetchWord 2).bind fun list _ hlist ↦ ?_
  refine issues_ofField fun mode hmode ↦ ?_
  rw [Part.ofOpcode, Part.purposes_operand hmode, Part.bytes_operand hmode, listedCount_eq hlist]
  cases mode with
  | preDecrement number =>
    refine (issues_getA number).after fun address _ _ ↦ ?_
    rw [← List.length_map fun number : Fin 16 ↦ Register.ofNumber number.rev]
    refine (issues_storeDownward size address _).before fun last _ _ ↦ ?_
    exact (issues_setA number last).after fun _ _ _ ↦ issues_advancePc _
  | _ =>
    refine (issues_address _).bind fun address _ _ ↦ ?_
    rw [← List.length_map Register.ofNumber]
    exact (issues_storeUpward size address _).before fun _ _ _ ↦ issues_advancePc _

theorem issues_loadMultiple : (loadMultiple size opcode).Issues
    ([.instruction .word 2] ++ ((Part.ofOpcode opcode size .locate).purposes 4 ++
      List.replicate (listedCount machine)
        (if loadsProgram opcode then .programOperand size else .data .read size)))
    (some (4 + (Part.ofOpcode opcode size .locate).bytes)) machine := by
  refine (issues_fetchWord 2).bind fun list _ hlist ↦ ?_
  refine issues_ofField fun mode hmode ↦ ?_
  rw [Part.ofOpcode, Part.purposes_operand hmode, Part.bytes_operand hmode, listedCount_eq hlist,
    loadsProgram, hmode, ← List.length_map Register.ofNumber]
  cases mode with
  | postIncrement number =>
    refine (issues_getA number).after fun address _ _ ↦ ?_
    refine (issues_loadUpward size false address _).before fun last _ _ ↦ ?_
    exact (issues_setA number last).after fun _ _ _ ↦ issues_advancePc _
  | _ =>
    refine (issues_address _).bind fun address _ _ ↦ ?_
    exact (issues_loadUpward size _ address _).before fun _ _ _ ↦ issues_advancePc _

end Moves

/-! ## Arithmetic and logic -/

section Arithmetic

variable (operation : Binary)

theorem issues_compute {n : Nat} (destination source : BitVec n) :
    (compute operation destination source).Issues [] (some 0) machine :=
  (issues_modifyFlags _).after fun _ _ _ ↦ issues_pure _

/-- A comparison does not write. -/
theorem issues_update {size : Size} (operand : Operand size) (source : size.Value) :
    (update operation operand source).Issues
      ((useUnless (operation = .cmp)).purposes size operand.mode operand.offset) (some 0)
      machine := by
  by_cases hcmp : operation = .cmp
  · simp only [hcmp, decide_true]
    refine (issues_operandGet operand).before fun destination _ _ ↦ ?_
    refine (issues_compute .cmp destination source).after fun result _ hrun ↦ ?_
    cases hrun
    exact issues_finish operand
  · simp only [hcmp, decide_false]
    refine (issues_operandGet operand).bind fun destination _ _ ↦ ?_
    refine (issues_compute operation destination source).after fun result _ hrun ↦ ?_
    cases hrun
    rw [if_neg hcmp]
    exact (issues_put operand _).before fun _ _ _ ↦ issues_finish operand

theorem issues_toRegister : (toRegister operation size opcode).Issues
    ((Part.ofOpcode opcode size .read).purposes 2)
    (some (2 + (Part.ofOpcode opcode size .read).bytes)) machine := by
  refine issues_onlySource size fun operand source _ ↦ ?_
  refine (issues_getD _).after fun register _ _ ↦ ?_
  refine (issues_compute operation _ source).after fun result _ _ ↦ ?_
  cases result with
  | some result => exact (issues_setD _ _).after fun _ _ _ ↦ issues_advancePc _
  | none => exact issues_advancePc _

theorem issues_fromRegister : (fromRegister operation size opcode).Issues
    ((Part.ofOpcode opcode size (useUnless (operation = .cmp))).purposes 2)
    (some (2 + (Part.ofOpcode opcode size (useUnless (operation = .cmp))).bytes)) machine := by
  refine issues_part _ fun mode _ ↦ ?_
  refine (issues_getD _).after fun source _ _ ↦ ?_
  exact (issues_update operation _ _).before fun _ _ _ ↦ issues_advancePc _

theorem issues_withImmediate : (withImmediate operation size opcode).Issues
    ([.instruction size.aligned 2] ++
      (Part.ofOpcode opcode size (useUnless (operation = .cmp))).purposes (2 + size.alignedBytes))
    (some (2 + size.alignedBytes +
      (Part.ofOpcode opcode size (useUnless (operation = .cmp))).bytes)) machine := by
  refine (issues_fetch size 2).bind fun source _ _ ↦ ?_
  refine issues_part _ fun mode _ ↦ ?_
  exact (issues_update operation _ source).before fun _ _ _ ↦ issues_advancePc _

theorem issues_quick : (quick operation size opcode).Issues
    ((Part.ofOpcode opcode size (useUnless (operation = .cmp))).purposes 2)
    (some (2 + (Part.ofOpcode opcode size (useUnless (operation = .cmp))).bytes)) machine := by
  refine issues_part _ fun mode _ ↦ ?_
  cases mode with
  | addressRegister number =>
    have hnone : (useUnless (operation = .cmp)).purposes size (.addressRegister number) 2 = [] := by
      unfold useUnless
      split <;> rfl
    rw [hnone]
    refine (issues_getA number).after fun address _ _ ↦ ?_
    exact (issues_setA number _).after fun _ _ _ ↦ issues_advancePc _
  | _ => exact (issues_update operation _ _).before fun _ _ _ ↦ issues_advancePc _

theorem issues_withAddress (operation : AddressOperation) :
    (withAddress operation size opcode).Issues ((Part.ofOpcode opcode size .read).purposes 2)
      (some (2 + (Part.ofOpcode opcode size .read).bytes)) machine := by
  refine issues_onlySource size fun operand source _ ↦ ?_
  refine (issues_getA _).after fun address _ _ ↦ ?_
  cases operation with
  | add => exact (issues_setA _ _).after fun _ _ _ ↦ issues_advancePc _
  | sub => exact (issues_setA _ _).after fun _ _ _ ↦ issues_advancePc _
  | cmp => exact (issues_modifyFlags _).after fun _ _ _ ↦ issues_advancePc _

theorem issues_compareMemory : (compareMemory size opcode).Issues
    ([.data .read size] ++ [.data .read size]) (some 2) machine := by
  refine (issues_operandGet _).bind fun source _ _ ↦ ?_
  refine (issues_finish _).after fun _ _ _ ↦ ?_
  refine (issues_operandGet _).before fun destination _ _ ↦ ?_
  refine (issues_finish _).after fun _ _ _ ↦ ?_
  refine (issues_compute .cmp destination source).after fun _ _ _ ↦ ?_
  exact issues_advancePc 2

theorem issues_chained (combine : size.Value → size.Value → Bool → ChainedResult size.bits)
    (inMemory : Bool) : (chained size combine inMemory opcode).Issues
      (if inMemory then [.data .read size, .data .read size, .data .write size] else [])
      (some 2) machine := by
  have hoperand (number : Fin 8) (kind : AccessKind) :
      (chainedOperand size inMemory number).mode.fetches size 2 ++
        (chainedOperand size inMemory number).mode.transfer kind size =
          if inMemory then [.data kind size] else [] := by
    cases inMemory <;> rfl
  have hget (number : Fin 8) (start : Machine) :
      (chainedOperand size inMemory number).get.Issues
        (if inMemory then [.data .read size] else []) (some 0) start :=
    hoperand number .read ▸ issues_operandGet (chainedOperand size inMemory number)
  have hput (number : Fin 8) (value : size.Value) (start : Machine) :
      ((chainedOperand size inMemory number).put value).Issues
        (if inMemory then [.data .write size] else []) (some 0) start :=
    hoperand number .write ▸ issues_put (chainedOperand size inMemory number) value
  have hsplit : (if inMemory then [.data .read size, .data .read size, .data .write size] else []) =
      (if inMemory then [.data .read size] else []) ++
        ((if inMemory then [.data .read size] else []) ++
          if inMemory then [Purpose.data .write size] else []) := by
    cases inMemory <;> rfl
  rw [hsplit]
  refine (hget _ _).bind fun source _ _ ↦ ?_
  refine (issues_finish _).after fun _ _ _ ↦ ?_
  refine (hget _ _).bind fun destination _ _ ↦ ?_
  refine issues_flags.after fun flags _ _ ↦ ?_
  refine (hput _ _ _).before fun _ _ _ ↦ ?_
  refine (issues_finish _).after fun _ _ _ ↦ ?_
  refine issues_flags.after fun flags _ _ ↦ ?_
  exact (issues_setCcr _).after fun _ _ _ ↦ issues_advancePc 2

theorem issues_negateDecimal : (negateDecimal opcode).Issues
    ((Part.ofOpcode opcode .byte .modify).purposes 2)
    (some (2 + (Part.ofOpcode opcode .byte .modify).bytes)) machine := by
  refine issues_part _ fun mode _ ↦ ?_
  refine (issues_operandGet _).bind fun value _ _ ↦ ?_
  refine issues_flags.after fun flags _ _ ↦ ?_
  refine (issues_put _ _).before fun _ _ _ ↦ ?_
  refine (issues_finish _).after fun _ _ _ ↦ ?_
  refine issues_flags.after fun flags _ _ ↦ ?_
  exact (issues_setCcr _).after fun _ _ _ ↦ issues_advancePc _

/-- A test does not write. -/
theorem issues_unary (operation : Unary) : (unary operation size opcode).Issues
    ((Part.ofOpcode opcode size (useUnless (operation = .tst))).purposes 2)
    (some (2 + (Part.ofOpcode opcode size (useUnless (operation = .tst))).bytes)) machine := by
  refine issues_part _ fun mode _ ↦ ?_
  cases operation with
  | tst =>
    refine (issues_operandGet _).before fun value _ _ ↦ ?_
    refine issues_flags.after fun flags _ _ ↦ ?_
    refine (issues_modifyFlags _).after fun _ _ _ ↦ ?_
    exact issues_finish_advancePc _ _
  | _ =>
    refine (issues_operandGet _).bind fun value _ _ ↦ ?_
    refine issues_flags.after fun flags _ _ ↦ ?_
    refine (issues_modifyFlags _).after fun _ _ _ ↦ ?_
    exact (issues_put _ _).before fun _ _ _ ↦ issues_finish_advancePc _ _

theorem issues_multiply (signedness : Signedness) : (multiply signedness opcode).Issues
    ((Part.ofOpcode opcode .word .read).purposes 2)
    (some (2 + (Part.ofOpcode opcode .word .read).bytes)) machine := by
  refine issues_onlySource .word fun operand source _ ↦ ?_
  refine (issues_getD _).after fun register _ _ ↦ ?_
  refine (issues_setD _ _).after fun _ _ _ ↦ ?_
  exact (issues_modifyFlags _).after fun _ _ _ ↦ issues_advancePc _

end Arithmetic

/-! ## Bits and shifts -/

section Bits

/-- A bit of an operand is only read, or the operand is changed. -/
theorem issues_modifyBit (operation : BitOperation) (number : Nat) (field : BitVec 6)
    (offset : Nat) :
    (do
      let length ← modifyBit operation size number field offset
      advancePc length).Issues
        ((Part.operand size field (useUnless (operation = BitOperation.test))).purposes offset)
        (some (offset +
          (Part.operand size field (useUnless (operation = BitOperation.test))).bytes))
        machine := by
  have hlength (operand : Operand size) (start : Machine) :
      (do
        let length ← (do
          operand.finish
          return offset + operand.extensionBytes)
        advancePc length).Issues [] (some (offset + operand.extensionBytes)) start := by
    rw [bind_assoc]
    refine (issues_finish operand).after fun _ _ _ ↦ ?_
    rw [pure_bind]
    exact issues_advancePc _
  rw [modifyBit, bind_assoc]
  refine issues_part size fun mode _ ↦ ?_
  rw [bind_assoc]
  cases operation with
  | test =>
    refine (issues_operandGet _).before fun value _ _ ↦ ?_
    rw [bind_assoc]
    refine (issues_modifyFlags _).after fun _ _ _ ↦ ?_
    exact hlength ⟨mode, offset⟩ _
  | _ =>
    refine (issues_operandGet _).bind fun value _ _ ↦ ?_
    rw [bind_assoc]
    refine (issues_modifyFlags _).after fun _ _ _ ↦ ?_
    dsimp only [BitOperation.result?]
    rw [bind_assoc]
    exact (issues_put _ _).before fun _ _ _ ↦ hlength ⟨mode, offset⟩ _

/-- A data register, which is a long word, has no accesses. -/
theorem issues_bit_at (operation : BitOperation) (number offset : Nat) :
    (do
      let length ←
        match Mode.ofField? opcode.operandField with
        | some (.dataRegister _) => modifyBit operation .long number opcode.operandField offset
        | _ => modifyBit operation .byte number opcode.operandField offset
      advancePc length).Issues
        ((Part.ofOpcode opcode .byte (useUnless (operation = BitOperation.test))).purposes offset)
        (some (offset +
          (Part.ofOpcode opcode .byte (useUnless (operation = BitOperation.test))).bytes))
        machine := by
  split
  next number' hmode =>
    have hpurposes (use : OperandUse) : (Part.ofOpcode opcode .byte use).purposes offset =
        (Part.ofOpcode opcode .long use).purposes offset := by
      rw [Part.ofOpcode, Part.ofOpcode, Part.purposes_operand hmode, Part.purposes_operand hmode]
      cases use <;> rfl
    have hbytes (use : OperandUse) : (Part.ofOpcode opcode .byte use).bytes =
        (Part.ofOpcode opcode .long use).bytes := by
      rw [Part.ofOpcode, Part.ofOpcode, Part.bytes_operand hmode, Part.bytes_operand hmode]
      rfl
    rw [hpurposes, hbytes]
    exact issues_modifyBit .long operation number opcode.operandField offset
  next => exact issues_modifyBit .byte operation number opcode.operandField offset

theorem issues_bit_register (operation : BitOperation) : (bit operation true opcode).Issues
    ((Part.ofOpcode opcode .byte (useUnless (operation = .test))).purposes 2)
    (some (2 + (Part.ofOpcode opcode .byte (useUnless (operation = .test))).bytes)) machine :=
  (issues_getD _).after fun number _ _ ↦ issues_bit_at operation number.toNat 2

theorem issues_bit_immediate (operation : BitOperation) : (bit operation false opcode).Issues
    ([.instruction .word 2] ++
      (Part.ofOpcode opcode .byte (useUnless (operation = .test))).purposes 4)
    (some (4 + (Part.ofOpcode opcode .byte (useUnless (operation = .test))).bytes)) machine :=
  (issues_fetch .byte 2).bind fun number _ _ ↦ issues_bit_at operation number.toNat 4

theorem issues_testAndSet : (testAndSet opcode).Issues
    ((Part.ofOpcode opcode .byte .modify).purposes 2)
    (some (2 + (Part.ofOpcode opcode .byte .modify).bytes)) machine := by
  refine issues_part _ fun mode _ ↦ ?_
  refine (issues_operandGet _).bind fun value _ _ ↦ ?_
  refine (issues_modifyFlags _).after fun _ _ _ ↦ ?_
  exact (issues_put _ _).before fun _ _ _ ↦ issues_finish_advancePc _ _

theorem issues_shift {n : Nat} (kind : ShiftKind) (direction : Direction) (value : BitVec n)
    (count : Nat) : (shift kind direction value count).Issues [] (some 0) machine := by
  refine issues_flags.after fun flags _ _ ↦ ?_
  exact (issues_modifyFlags _).after fun _ _ _ ↦ issues_pure _

theorem issues_shiftRegister (kind : ShiftKind) (direction : Direction) (source : CountSource) :
    (shiftRegister kind direction source size opcode).Issues [] (some 2) machine := by
  have hrest (count : Nat) (start : Machine) : (do
      let register ← getD opcode.lowRegister
      let result ← shift kind direction (size.low register) count
      setD opcode.lowRegister (size.replaceLow register result)
      advancePc 2).Issues [] (some 2) start := by
    refine (issues_getD _).after fun register _ _ ↦ ?_
    refine (issues_shift kind direction _ count).after fun result _ _ ↦ ?_
    exact (issues_setD _ _).after fun _ _ _ ↦ issues_advancePc 2
  cases source with
  | immediate => exact hrest _ machine
  | register => exact (issues_getD _).after fun count next _ ↦ hrest _ next

theorem issues_shiftMemory (kind : ShiftKind) (direction : Direction) :
    (shiftMemory kind direction opcode).Issues ((Part.ofOpcode opcode .word .modify).purposes 2)
      (some (2 + (Part.ofOpcode opcode .word .modify).bytes)) machine := by
  refine issues_part _ fun mode _ ↦ ?_
  refine (issues_operandGet _).bind fun value _ _ ↦ ?_
  refine (issues_shift kind direction value 1).after fun result _ _ ↦ ?_
  exact (issues_put _ result).before fun _ _ _ ↦ issues_finish_advancePc _ _

end Bits

/-! ## Program control -/

section Control

theorem issues_branchTo (displacement : Address) :
    (branchTo displacement).Issues [] none machine :=
  issues_pc.after fun _ _ _ ↦ issues_setPc _

theorem issues_branchDisplacement : (branchDisplacement opcode).Issues
    (if opcode.lowByte = 0 then [.instruction .word 2] else []) (some 0) machine := by
  unfold branchDisplacement
  split
  · exact (issues_fetchWord 2).before fun _ _ _ ↦ issues_pure _
  · exact issues_pure _

theorem issues_branch : (branch opcode).Issues
    (if opcode.lowByte = 0 then [.instruction .word 2] else []) none machine := by
  refine issues_branchDisplacement.before fun ⟨displacement, length⟩ _ _ ↦ ?_
  refine issues_flags.after fun flags _ _ ↦ ?_
  split
  · exact issues_branchTo displacement
  · exact (issues_advancePc length).forget

theorem issues_branchToSubroutine : (branchToSubroutine opcode).Issues
    ((if opcode.lowByte = 0 then [.instruction .word 2] else []) ++ [.data .write .long]) none
    machine := by
  refine issues_branchDisplacement.bind fun ⟨displacement, length⟩ _ _ ↦ ?_
  refine issues_pc.after fun pc _ _ ↦ ?_
  exact (issues_push .long _).before fun _ _ _ ↦ issues_branchTo displacement

theorem issues_decrementAndBranch : (decrementAndBranch opcode).Issues
    (if countsOn opcode machine.registers then [.instruction .word 2] else []) none machine := by
  refine issues_flags.after fun flags _ hrun ↦ ?_
  cases hrun
  rw [countsOn]
  cases hholds : machine.registers.flags.holds (.ofOpcode opcode) with
  | true => exact (issues_advancePc 4).forget
  | false =>
    refine (issues_getD _).after fun register _ hrun ↦ ?_
    cases hrun
    refine (issues_setD _ _).after fun _ _ _ ↦ ?_
    split
    next hout =>
      rw [hout]
      exact (issues_advancePc 4).forget
    next hcount =>
      rw [Bool.not_false, Bool.true_and, if_pos (bne_iff_ne.2 hcount)]
      exact (issues_fetchWord 2).before fun word _ _ ↦ issues_branchTo _

theorem issues_setConditionally : (setConditionally opcode).Issues
    ((Part.ofOpcode opcode .byte .write).purposes 2)
    (some (2 + (Part.ofOpcode opcode .byte .write).bytes)) machine := by
  refine issues_part _ fun mode _ ↦ ?_
  refine issues_flags.after fun flags _ _ ↦ ?_
  exact (issues_put _ _).before fun _ _ _ ↦ issues_finish_advancePc _ _

theorem issues_jump : (jump opcode).Issues ((Part.ofOpcode opcode .long .locate).purposes 2) none
    machine := by
  refine issues_ofField fun mode hmode ↦ ?_
  rw [Part.ofOpcode, Part.purposes_operand hmode]
  exact (issues_address _).before fun target _ _ ↦ issues_setPc target

theorem issues_jumpToSubroutine : (jumpToSubroutine opcode).Issues
    ((Part.ofOpcode opcode .long .locate).purposes 2 ++ [.data .write .long]) none machine := by
  refine issues_ofField fun mode hmode ↦ ?_
  rw [Part.ofOpcode, Part.purposes_operand hmode]
  refine (issues_address _).bind fun target _ _ ↦ ?_
  refine issues_pc.after fun pc _ _ ↦ ?_
  exact (issues_push .long _).before fun _ _ _ ↦ issues_setPc target

theorem issues_returnFromSubroutine :
    returnFromSubroutine.Issues [.data .read .long] none machine :=
  (issues_pop .long).before fun target _ _ ↦ issues_setPc target

theorem issues_returnAndRestore :
    returnAndRestore.Issues ([.data .read .word] ++ [.data .read .long]) none machine := by
  refine (issues_pop .word).bind fun codes _ _ ↦ ?_
  refine (issues_pop .long).before fun target _ _ ↦ ?_
  exact (issues_setCcr _).after fun _ _ _ ↦ issues_setPc target

theorem issues_link : (link opcode).Issues ([.instruction .word 2] ++ [.data .write .long]) (some 4)
    machine := by
  have hrest (frame displacement saved : Address) (start : Machine) : (do
      write .long frame saved
      setA opcode.lowRegister frame
      setA stackPointer (frame + displacement)
      advancePc 4).Issues [.data .write .long] (some 4) start := by
    refine (issues_write .long _ saved).before fun _ _ _ ↦ ?_
    refine (issues_setA _ _).after fun _ _ _ ↦ ?_
    exact (issues_setA _ _).after fun _ _ _ ↦ issues_advancePc 4
  refine (issues_fetchWord 2).bind fun displacement _ _ ↦ ?_
  refine (issues_getA stackPointer).after fun top _ _ ↦ ?_
  dsimp only
  split
  · exact hrest _ _ _ _
  · exact (issues_getA _).after fun saved _ _ ↦ hrest _ _ saved _

theorem issues_unlink : (unlink opcode).Issues [.data .read .long] (some 2) machine := by
  refine (issues_getA _).after fun frame _ _ ↦ ?_
  refine (issues_setA _ _).after fun _ _ _ ↦ ?_
  refine (issues_pop .long).before fun saved _ _ ↦ ?_
  exact (issues_setA _ _).after fun _ _ _ ↦ issues_advancePc 2

theorem issues_trap : (trap opcode).Issues Purpose.exceptionEntry none machine :=
  issues_pc.after fun _ _ _ ↦ issues_enterException _ _

end Control

/-! ## Status register -/

section Status

theorem issues_logicalToCcr (operation : LogicalOperation) :
    (logicalToCcr operation).Issues [.instruction .word 2] (some 4) machine := by
  refine (issues_fetch .byte 2).before fun source _ _ ↦ ?_
  refine issues_flags.after fun flags _ _ ↦ ?_
  exact (issues_setCcr _).after fun _ _ _ ↦ issues_advancePc 4

theorem issues_statusRegister : statusRegister.Issues [] (some 0) machine :=
  issues_registers.after fun _ _ _ ↦ issues_pure _

theorem issues_setStatusRegister (value : BitVec 16) :
    (setStatusRegister value).Issues [] (some 0) machine :=
  issues_modify_of_pc (fun _ ↦ rfl) rfl (machine.registers.pc_setStatusRegister value)

theorem issues_logicalToStatus (operation : LogicalOperation) :
    (logicalToStatus operation).Issues [.instruction .word 2] (some 4) machine := by
  refine issues_requireSupervisor.after fun _ _ _ ↦ ?_
  refine (issues_fetch .word 2).before fun source _ _ ↦ ?_
  refine issues_statusRegister.after fun status _ _ ↦ ?_
  exact (issues_advancePc 4).settle fun _ _ _ ↦ issues_setStatusRegister _

theorem issues_moveFromStatus : (moveFromStatus opcode).Issues
    ((Part.ofOpcode opcode .word .write).purposes 2)
    (some (2 + (Part.ofOpcode opcode .word .write).bytes)) machine := by
  refine issues_part _ fun mode _ ↦ ?_
  refine issues_statusRegister.after fun status _ _ ↦ ?_
  exact (issues_put _ _).before fun _ _ _ ↦ issues_finish_advancePc _ _

theorem issues_moveToCcr : (moveToCcr opcode).Issues
    ((Part.ofOpcode opcode .word .read).purposes 2)
    (some (2 + (Part.ofOpcode opcode .word .read).bytes)) machine := by
  refine issues_onlySource .word fun operand value _ ↦ ?_
  exact (issues_setCcr _).after fun _ _ _ ↦ issues_advancePc _

theorem issues_moveToStatus : (moveToStatus opcode).Issues
    ((Part.ofOpcode opcode .word .read).purposes 2)
    (some (2 + (Part.ofOpcode opcode .word .read).bytes)) machine := by
  refine issues_requireSupervisor.after fun _ _ _ ↦ ?_
  refine issues_onlySource .word fun operand value _ ↦ ?_
  exact (issues_advancePc _).settle fun _ _ _ ↦ issues_setStatusRegister value

theorem issues_moveUserStack (direction : UserStackMove) :
    (moveUserStack direction opcode).Issues [] (some 2) machine := by
  refine issues_requireSupervisor.after fun _ _ _ ↦ ?_
  cases direction with
  | toUserStack =>
    refine (issues_getA _).after fun value _ _ ↦ ?_
    refine (issues_modifyRegisters ?_ ?_).after fun _ _ _ ↦ issues_advancePc 2
    · unfold Registers.setUserStack
      split <;> rfl
    · unfold Registers.setUserStack
      split <;> rfl
  | fromUserStack =>
    refine issues_registers.after fun registers _ _ ↦ ?_
    exact (issues_setA _ _).after fun _ _ _ ↦ issues_advancePc 2

theorem issues_resetDevices : resetDevices.Issues [] (some 2) machine :=
  issues_requireSupervisor.after fun _ _ _ ↦ issues_advancePc 2

theorem issues_returnFromException :
    returnFromException.Issues ([.data .read .word] ++ [.data .read .long]) none machine := by
  refine issues_requireSupervisor.after fun _ _ _ ↦ ?_
  refine (issues_pop .word).bind fun status _ _ ↦ ?_
  refine (issues_pop .long).before fun pc _ _ ↦ ?_
  exact (issues_setPc pc).settle fun _ _ _ ↦ issues_setStatusRegister status

end Status

end Instruction

end M68000
