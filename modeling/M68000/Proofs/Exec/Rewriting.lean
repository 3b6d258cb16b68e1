import M68000.Proofs.Arithmetic.Forms
import M68000.Proofs.Exec.Rewrite

/-!
# Operations that rewrite an operand

The operations that read their operand and write it back are one action with parameters. Each knows
beforehand what it makes of the operand, from its opcode, a data register or an immediate operand.
-/

namespace M68000

open Exec

/-! ## What operations make of an operand -/

section Rewrites

variable {size : Size}

def Binary.rewrite (operation : Binary) (source : size.Value) : Rewrite size :=
  .recordFirst (fun destination ↦ operation.record destination source)
    fun destination _ ↦ operation.result? destination source

def Unary.rewrite (operation : Unary) : Rewrite size :=
  .recordFirst operation.record fun value flags ↦ operation.result? value flags.extend

def BitOperation.rewrite (operation : BitOperation) (number : Nat) : Rewrite size :=
  let mask := BitVec.twoPow size.bits (number % size.bits)
  .recordFirst (fun value flags ↦ flags.setZero (value &&& mask == 0))
    fun value _ ↦ operation.result? value mask

def ShiftKind.rewrite (kind : ShiftKind) (direction : Direction) : Rewrite size :=
  .recordFirst (fun value ↦ kind.record direction value 1)
    fun value flags ↦ some (kind.result direction value flags.extend 1)

def Rewrite.testAndSet : Rewrite .byte :=
  .recordFirst (fun value flags ↦ flags.setResult (value.signExtend 32))
    fun value _ ↦ some (value ||| BitVec.twoPow Size.byte.bits 7)

/-- NBCD records its flags after the write. -/
def Rewrite.negateDecimal : Rewrite .byte where
  early _ flags := flags
  result? value flags := some (ChainedResult.subDecimal 0 value flags.extend).value
  late value before flags :=
    .ofCcr ((ChainedResult.subDecimal 0 value before.extend).ccr flags)

end Rewrites

/-- How an operation rewrites its operand. -/
structure Rewriting where
  size : Size
  /-- Bytes from the opcode to the operand's extension words. -/
  offset : Nat
  /-- What the operation will make of the operand. -/
  plan : Exec (Rewrite size)

/-- The operand in a mode. -/
abbrev Rewriting.operand (rewriting : Rewriting) (mode : Mode) : Operand rewriting.size :=
  ⟨mode, rewriting.offset⟩

/-- The number of the bit that BTST, BCHG, BCLR and BSET work on. -/
def Opcode.bitNumber (opcode : Opcode) (inRegister : Bool) : Exec Nat :=
  if inRegister then return (← getD opcode.highRegister).toNat
  else return (← fetch .byte 2).toNat

/-- The operations on an operand that is read, and written if anything comes out. -/
def Operation.rewriting? (opcode : Opcode) : Operation → Option Rewriting
  | fromRegister operation size =>
    some ⟨size, 2, return operation.rewrite (size.low (← getD opcode.highRegister))⟩
  | withImmediate operation size =>
    some ⟨size, 2 + size.alignedBytes, return operation.rewrite (← fetch size 2)⟩
  | quick operation size =>
    some ⟨size, 2, return operation.rewrite (BitVec.ofNat size.bits opcode.quickNumber)⟩
  | unary operation size => some ⟨size, 2, return operation.rewrite⟩
  | bit operation inRegister =>
    some ⟨.byte, if inRegister then 2 else 4,
      return operation.rewrite (← opcode.bitNumber inRegister)⟩
  | shiftMemory kind direction => some ⟨.word, 2, return kind.rewrite direction⟩
  | testAndSet => some ⟨.byte, 2, return .testAndSet⟩
  | negateDecimal => some ⟨.byte, 2, return .negateDecimal⟩
  | _ => none

/-- The size of the operand that bit operations work on. -/
def Mode.bitSize : Mode → Size
  | dataRegister _ => .long
  | _ => .byte

/-- The same for an operand in any mode. A bit in a data register is one of a long word, and ADDQ
and SUBQ treat an address register in a way of their own. -/
def Operation.rewritingIn? (opcode : Opcode) (mode : Mode) : Operation → Option Rewriting
  | bit operation inRegister =>
    some ⟨mode.bitSize, if inRegister then 2 else 4,
      return operation.rewrite (← opcode.bitNumber inRegister)⟩
  | quick operation size =>
    match mode with
    | .addressRegister _ => none
    | _ => (quick operation size).rewriting? opcode
  | operation => operation.rewriting? opcode

theorem Operation.rewritingIn?_of_inMemory (operation : Operation) (opcode : Opcode) {mode : Mode}
    (hmemory : mode.inMemory = true) :
    operation.rewritingIn? opcode mode = operation.rewriting? opcode := by
  cases operation with
  | bit operation inRegister | quick operation size =>
    cases mode <;> first | rfl | cases hmemory
  | _ => rfl

/-! ## The instructions -/

namespace Instruction

variable {opcode : Opcode} {mode : Mode} {operation : BitOperation}

theorem modifyBit_eq_rewrite {size : Size} {number : Nat} {field : BitVec 6} {offset : Nat}
    (hmode : Mode.ofField? field = some mode) :
    modifyBit operation size number field offset = (do
      (⟨mode, offset⟩ : Operand size).rewrite (operation.rewrite number)
      return offset + mode.extensionBytes size) := by
  rw [modifyBit, ofField_bind hmode, BitOperation.rewrite, Operand.rewrite_recordFirst]
  unfold Operand.modify
  simp only [bind_assoc]
  refine bind_congr fun value ↦ ?_
  cases operation.result? value (BitVec.twoPow size.bits (number % size.bits)) with
  | none => rfl
  | some result =>
    simp only [bind_assoc]
    rfl

theorem bit_eq_rewrite {inRegister : Bool}
    (hmode : Mode.ofField? opcode.operandField = some mode) :
    bit operation inRegister opcode = (do
      let number ← opcode.bitNumber inRegister
      (⟨mode, if inRegister then 2 else 4⟩ : Operand mode.bitSize).rewrite
        (operation.rewrite number)
      advancePc ((if inRegister then 2 else 4) + mode.extensionBytes mode.bitSize)) := by
  have hsize (size : Size) (number offset : Nat) : (do
      advancePc (← modifyBit operation size number opcode.operandField offset)) = (do
        (⟨mode, offset⟩ : Operand size).rewrite (operation.rewrite number)
        advancePc (offset + mode.extensionBytes size)) := by
    rw [modifyBit_eq_rewrite hmode]
    simp only [bind_assoc, pure_bind]
  unfold bit Opcode.bitNumber
  cases inRegister with
  | true =>
    simp only [if_true, bind_assoc, pure_bind]
    refine bind_congr fun register ↦ ?_
    rw [hmode]
    cases mode <;> exact hsize _ register.toNat 2
  | false =>
    simp only [Bool.false_eq_true, if_false, bind_assoc, pure_bind]
    refine bind_congr fun word ↦ ?_
    rw [hmode]
    cases mode <;> exact hsize _ word.toNat 4

end Instruction

variable {operation : Operation} {opcode : Opcode} {mode : Mode} {rewriting : Rewriting}

/-- Every such operation is the same action, with what it makes of the operand. -/
theorem Operation.execute_eq_rewriteIn
    (hrewriting : operation.rewritingIn? opcode mode = some rewriting)
    (hmode : Mode.ofField? opcode.operandField = some mode) :
    operation.execute opcode = (do
      let rewrite ← rewriting.plan
      (rewriting.operand mode).rewrite rewrite
      advancePc (rewriting.offset + mode.extensionBytes rewriting.size)) := by
  cases operation with
  | fromRegister operation size =>
    cases hrewriting
    rw [execute, Instruction.fromRegister, ofField_bind hmode]
    simp only [bind_assoc, pure_bind, Binary.rewrite, Operand.rewrite_recordFirst,
      Instruction.update_eq_modify]
    rfl
  | withImmediate operation size =>
    cases hrewriting
    unfold execute Instruction.withImmediate
    simp only [bind_assoc, pure_bind, Binary.rewrite, Operand.rewrite_recordFirst,
      Instruction.update_eq_modify, ofField_bind hmode]
    rfl
  | quick operation size =>
    rw [execute, Instruction.quick, ofField_bind hmode, opcode.quickValue_eq_quickNumber]
    cases mode with
    | addressRegister number => cases hrewriting
    | _ =>
      cases hrewriting
      simp only [pure_bind, Binary.rewrite, Operand.rewrite_recordFirst,
        Instruction.update_eq_modify]
      rfl
  | unary operation size =>
    cases hrewriting
    rw [execute, Instruction.unary, ofField_bind hmode]
    simp only [pure_bind, Unary.rewrite, Operand.rewrite_recordFirst]
    unfold Operand.modify
    simp only [bind_assoc]
    refine bind_congr fun value ↦ bind_congr fun before ↦ bind_congr fun _ ↦ ?_
    cases operation.result? value before.extend with
    | none => rfl
    | some result =>
      simp only [bind_assoc]
      rfl
  | bit operation inRegister =>
    cases hrewriting
    rw [execute, Instruction.bit_eq_rewrite hmode]
    simp only [bind_assoc, pure_bind]
  | shiftMemory kind direction =>
    cases hrewriting
    rw [execute, Instruction.shiftMemory, ofField_bind hmode]
    simp only [pure_bind, ShiftKind.rewrite, Operand.rewrite_recordFirst]
    unfold Operand.modify Instruction.shift
    simp only [bind_assoc, pure_bind]
    rfl
  | testAndSet =>
    cases hrewriting
    rw [execute, Instruction.testAndSet, ofField_bind hmode]
    simp only [pure_bind, Rewrite.testAndSet, Operand.rewrite_recordFirst]
    unfold Operand.modify
    simp only [bind_assoc]
    rfl
  | negateDecimal =>
    cases hrewriting
    rw [execute, Instruction.negateDecimal, ofField_bind hmode]
    simp only [pure_bind]
    unfold Operand.rewrite Operand.leave
    simp only [bind_assoc]
    rfl
  | _ => cases hrewriting

theorem Operation.execute_eq_rewrite (hrewriting : operation.rewriting? opcode = some rewriting)
    (hmode : Mode.ofField? opcode.operandField = some mode) (hmemory : mode.inMemory = true) :
    operation.execute opcode = (do
      let rewrite ← rewriting.plan
      (rewriting.operand mode).rewrite rewrite
      advancePc (rewriting.offset + mode.extensionBytes rewriting.size)) :=
  execute_eq_rewriteIn ((operation.rewritingIn?_of_inMemory opcode hmemory).trans hrewriting) hmode

/-! ## Plans -/

/-- An operation plans by reading alone, and without the flags. -/
theorem Operation.plan_induct {motive : ∀ {α : Type}, Exec α → Prop}
    (hrewriting : operation.rewritingIn? opcode mode = some rewriting)
    (hpure : ∀ {α : Type} (a : α), motive (pure a : Exec α))
    (hbind : ∀ {α β : Type} {action : Exec α} {rest : α → Exec β}, motive action →
      (∀ a, motive (rest a)) → motive (action >>= rest))
    (hgetD : ∀ number, motive (getD number)) (hfetch : ∀ size, motive (fetch size 2)) :
    motive rewriting.plan := by
  cases operation with
  | fromRegister operation size =>
    cases hrewriting
    exact hbind (hgetD _) fun _ ↦ hpure _
  | withImmediate operation size =>
    cases hrewriting
    exact hbind (hfetch size) fun _ ↦ hpure _
  | bit operation inRegister =>
    cases hrewriting
    cases inRegister with
    | true => exact hbind (hbind (hgetD _) fun _ ↦ hpure _) fun _ ↦ hpure _
    | false => exact hbind (hbind (hfetch .byte) fun _ ↦ hpure _) fun _ ↦ hpure _
  | quick operation size =>
    cases mode with
    | addressRegister number => cases hrewriting
    | _ =>
      cases hrewriting
      exact hpure _
  | unary operation size | shiftMemory kind direction | testAndSet | negateDecimal =>
    cases hrewriting
    exact hpure _
  | _ => cases hrewriting

theorem Operation.blind_planIn
    (hrewriting : operation.rewritingIn? opcode mode = some rewriting) : Blind rewriting.plan :=
  plan_induct hrewriting blind_pure blind_bind blind_getD fun size ↦ blind_fetch size 2

theorem Operation.maintains_planIn
    (hrewriting : operation.rewritingIn? opcode mode = some rewriting) (start : Machine) :
    Maintains start.Traced rewriting.plan :=
  plan_induct hrewriting maintains_pure maintains_bind maintains_getD
    fun size ↦ start.ignoresTrace_traced.maintains_fetch size 2

theorem Operation.rewritingIn?_indirect (operation : Operation) (opcode : Opcode) :
    operation.rewritingIn? opcode (.indirect 0) = operation.rewriting? opcode :=
  operation.rewritingIn?_of_inMemory opcode rfl

theorem Operation.blind_plan (hrewriting : operation.rewriting? opcode = some rewriting) :
    Blind rewriting.plan :=
  blind_planIn ((operation.rewritingIn?_indirect opcode).trans hrewriting)

theorem Operation.maintains_plan (hrewriting : operation.rewriting? opcode = some rewriting)
    (start : Machine) : Maintains start.Traced rewriting.plan :=
  maintains_planIn ((operation.rewritingIn?_indirect opcode).trans hrewriting) start

/-- The flags that the operation records before it writes are among those that its result depends
on. -/
def Operation.recordsInput : Operation → Bool
  | unary .negx _ | shiftMemory .rotateExtend _ => true
  | _ => false

theorem Flags.setZero_setZero (flags : Flags) (first second : Bool) :
    (flags.setZero first).setZero second = flags.setZero second := by
  have hccr := flags.ccr_setZero first
  unfold setZero at hccr ⊢
  rw [hccr]
  rfl

/-- An operation on two values, tried before on others. -/
theorem Binary.agrees_rewrite (operation : Binary) {size : Size}
    (source destination tried : size.Value) (flags : Flags) :
    (operation.rewrite source).Agrees (operation.record destination tried flags) flags := by
  cases operation <;> exact fun value ↦ ⟨rfl, rfl, rfl⟩

/-- A shift by one that does not take X in, tried before on another operand. -/
theorem ShiftKind.agrees_rewrite {kind : ShiftKind} {size : Size} (hkind : kind ≠ .rotateExtend)
    (direction : Direction) (tried : size.Value) (flags : Flags) :
    (kind.rewrite direction : Rewrite size).Agrees (kind.record direction tried 1 flags) flags := by
  have hresult (value : size.Value) (extend extend' : Bool) :
      kind.result direction value extend 1 = kind.result direction value extend' 1 := by
    cases kind with
    | rotateExtend => exact absurd rfl hkind
    | _ => cases direction <;> rfl
  have hrecord (value : size.Value) :
      kind.record direction value 1 (kind.record direction tried 1 flags) =
        kind.record direction value 1 flags := by
    simp only [record, if_neg hkind, if_neg Nat.one_ne_zero]
    rw [hresult value _ flags.extend]
    cases kind <;> cases direction <;> rfl
  exact fun value ↦ ⟨hrecord value, congrArg some (hresult ..), rfl⟩

/-- All other operations make the same of any operand if they have been tried before, perhaps on
another operand. -/
theorem Operation.agrees_of_planned {first second : Rewrite rewriting.size}
    {before before' after after' : Machine}
    (hrewriting : operation.rewriting? opcode = some rewriting)
    (hrecords : operation.recordsInput = false)
    (hfirst : rewriting.plan.run before = .ok first after)
    (hsecond : rewriting.plan.run before' = .ok second after') (value : rewriting.size.Value)
    (flags : Flags) : second.Agrees (first.early value flags) flags := by
  cases operation with
  | fromRegister operation size =>
    cases hrewriting
    cases hfirst
    cases hsecond
    exact operation.agrees_rewrite _ _ _ flags
  | withImmediate operation size =>
    cases hrewriting
    obtain ⟨source, _, -, hfirst⟩ := run_bind_eq_ok.1 hfirst
    obtain ⟨source', _, -, hsecond⟩ := run_bind_eq_ok.1 hsecond
    cases hfirst
    cases hsecond
    exact operation.agrees_rewrite _ _ _ flags
  | quick operation size =>
    cases hrewriting
    cases hfirst
    cases hsecond
    exact operation.agrees_rewrite _ _ _ flags
  | unary operation size =>
    cases hrewriting
    cases hfirst
    cases hsecond
    cases operation with
    | negx => cases hrecords
    | _ => exact fun value ↦ ⟨rfl, rfl, rfl⟩
  | bit operation inRegister =>
    cases hrewriting
    obtain ⟨number, _, -, hfirst⟩ := run_bind_eq_ok.1 hfirst
    obtain ⟨number', _, -, hsecond⟩ := run_bind_eq_ok.1 hsecond
    cases hfirst
    cases hsecond
    exact fun value ↦ ⟨Flags.setZero_setZero .., rfl, rfl⟩
  | shiftMemory kind direction =>
    cases hrewriting
    cases hfirst
    cases hsecond
    have hkind : kind ≠ .rotateExtend := by
      rintro rfl
      cases hrecords
    exact ShiftKind.agrees_rewrite hkind direction value flags
  | testAndSet =>
    cases hrewriting
    cases hfirst
    cases hsecond
    exact fun value ↦ ⟨rfl, rfl, rfl⟩
  | negateDecimal =>
    cases hrewriting
    cases hfirst
    cases hsecond
    exact .refl _ _
  | _ => cases hrewriting

/-! ## Faults and repetitions -/

variable {machine final : Machine} {fault : Fault}

/-- The operand was refused after the flags had been recorded. -/
def Rewriting.Recorded (rewriting : Rewriting) (mode : Mode) (machine : Machine)
    (refusal : Address → BusError) (fault : Fault) (flags : Flags) : Prop :=
  ∃ rewrite address value,
    (∃ next, rewriting.plan.run machine = .ok rewrite next) ∧
    (rewriting.operand mode).LiesAt machine (.memory address) ∧
    (rewriting.operand mode).Reads machine value ∧ fault = .bus (refusal address) ∧
    flags = rewrite.early value machine.registers.flags

theorem Rewriting.Recorded.of_marked {refusal : Address → BusError} {flags : Flags}
    {noted : Opcode} {trace : Option (List BusAccess)}
    (hrewriting : operation.rewriting? opcode = some rewriting)
    (h : rewriting.Recorded mode (machine.marked machine.registers.flags noted trace) refusal fault
      flags) : rewriting.Recorded mode machine refusal fault flags := by
  obtain ⟨rewrite, address, value, ⟨next, hplan⟩, hlies, hreads, hfault, hflags⟩ := h
  exact ⟨rewrite, address, value,
    Operand.exists_run_of_run_marked (Operation.blind_plan hrewriting) hplan, hlies.of_marked,
    hreads.of_marked, hfault, hflags⟩

theorem Operation.fault_of_run_execute {refusal : Address → BusError}
    (hrewriting : operation.rewriting? opcode = some rewriting)
    (hmode : Mode.ofField? opcode.operandField = some mode) (hmemory : mode.inMemory = true)
    (hrun : (operation.execute opcode).run machine = .error fault final)
    (hatomic : ∀ address, (rewriting.operand mode).LiesAt machine (.memory address) → ∀ value,
      (machine.memory.write machine.dataCode address rewriting.size value).Atomic machine.memory
        (refusal address)) :
    ∃ flags trace, final = machine.marked flags machine.opcode trace ∧
      (flags = machine.registers.flags ∨
        rewriting.Recorded mode machine refusal fault flags) := by
  rw [execute_eq_rewrite hrewriting hmode hmemory] at hrun
  obtain hplan | ⟨rewrite, next, hplan, hrun⟩ := run_bind_eq_error.1 hrun
  · obtain ⟨trace, rfl⟩ := exists_trace_of_run_eq_error (maintains_plan hrewriting) hplan
    exact ⟨_, trace, rfl, .inl rfl⟩
  · obtain ⟨trace, hnext⟩ := exists_trace_of_run_eq_ok (maintains_plan hrewriting) hplan
    obtain rfl : next = machine.marked machine.registers.flags machine.opcode trace := hnext
    obtain hrun | ⟨_, rewritten, -, hadvance⟩ := run_bind_eq_error.1 hrun
    · obtain ⟨flags, trace', rfl, hflags⟩ := Operand.fault_of_run_rewrite hmemory hrun
        fun address hlies ↦ hatomic address hlies.of_marked
      refine ⟨flags, trace', rfl, hflags.imp id ?_⟩
      rintro ⟨address, value, hlies, hreads, hfault, rfl⟩
      exact ⟨rewrite, address, value, ⟨_, hplan⟩, hlies.of_marked, hreads.of_marked, hfault, rfl⟩
    · cases hadvance

/-- What has been done is done in the same way on a machine with flags of which the same is made. -/
theorem Operation.exists_run_execute_marked {flags : Flags} {noted : Opcode}
    {trace : Option (List BusAccess)} (hrewriting : operation.rewriting? opcode = some rewriting)
    (hmode : Mode.ofField? opcode.operandField = some mode) (hmemory : mode.inMemory = true)
    (hrun : (operation.execute opcode).run machine = .ok () final)
    (hagrees : ∀ rewrite next, rewriting.plan.run machine = .ok rewrite next →
      rewrite.Agrees flags machine.registers.flags) :
    ∃ trace', (operation.execute opcode).run (machine.marked flags noted trace) =
      .ok () (final.marked final.registers.flags noted trace') := by
  rw [execute_eq_rewrite hrewriting hmode hmemory] at hrun ⊢
  obtain ⟨rewrite, next, hplan, hrun⟩ := run_bind_eq_ok.1 hrun
  obtain ⟨trace', hplan'⟩ := blind_plan hrewriting machine rewrite next hplan flags noted trace
  have hflags := (blind_plan hrewriting).flags_eq hplan
  obtain ⟨_, rewritten, hrewrite, hadvance⟩ := run_bind_eq_ok.1 hrun
  cases hadvance
  have hagrees' := hagrees rewrite next hplan
  rw [← hflags] at hagrees'
  obtain ⟨trace'', hrewrite'⟩ :=
    Operand.exists_run_rewrite_marked hagrees' hrewrite noted trace'
  exact ⟨trace'', run_bind_eq_ok.2 ⟨rewrite, _, hplan', run_bind_eq_ok.2 ⟨(), _, hrewrite', rfl⟩⟩⟩

theorem Operation.opcode_of_run_execute (hrewriting : operation.rewriting? opcode = some rewriting)
    (hmode : Mode.ofField? opcode.operandField = some mode) (hmemory : mode.inMemory = true)
    (hrun : (operation.execute opcode).run machine = .ok () final) :
    final.opcode = machine.opcode := by
  have hsame : (operation.execute opcode).run
      (machine.marked machine.registers.flags machine.opcode machine.trace) = .ok () final := hrun
  obtain ⟨trace, hagain⟩ : ∃ trace, (operation.execute opcode).run
      (machine.marked machine.registers.flags machine.opcode machine.trace) =
        .ok () (final.marked final.registers.flags machine.opcode trace) :=
    exists_run_execute_marked hrewriting hmode hmemory hrun fun rewrite _ _ ↦ .refl rewrite _
  have hfinal := (EStateM.Result.ok.inj (hsame.symm.trans hagain)).2
  rw [hfinal]
  rfl

end M68000
