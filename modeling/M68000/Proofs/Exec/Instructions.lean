import M68000.Operation
import M68000.Proofs.Exec.Changes
import M68000.Proofs.Registers.Lists

/-!
# Properties that instructions maintain

An operation records the flags in certain ways only, and moves the stack pointer by even amounts
unless it gives it a value of its own. So it maintains every property that is kept by these changes,
unless it is reserved to the supervisor or may enter an exception. Instructions reserved to the
supervisor maintain a stable property of user state as well, because they only end in a fault there.
-/

namespace M68000

namespace Operation

/-- The operation may enter an exception. -/
def mayTrap : Operation → Bool
  | trap | trapOnOverflow | divide _ | checkBounds => true
  | _ => false

/-- The operation is reserved to the supervisor. -/
def privileged : Operation → Bool
  | logicalToStatus _ | moveToStatus | moveUserStack _ | resetDevices | returnFromException => true
  | _ => false

/-- The ways in which the operation records the flags. ADDQ and SUBQ record none if their operand is
an address register. -/
def Records (operation : Operation) (opcode : Opcode) (f : Flags → Flags) : Prop :=
  match operation with
  | move _ | moveQuick | swapWords | extendSign _ | multiply _ | testAndSet =>
    ∃ result, f = (·.setResult result)
  | divide _ => (∃ result, f = (·.setResult result)) ∨
      f = fun flags ↦ flags.setCodes flags.negative flags.zero true false
  | toRegister binary size | fromRegister binary size | withImmediate binary size =>
    ∃ destination source : size.Value, f = binary.record destination source
  | quick binary size =>
    (∀ number, Mode.ofField? opcode.operandField ≠ some (.addressRegister number)) ∧
      ∃ destination source : size.Value, f = binary.record destination source
  | compareMemory size => ∃ destination source : size.Value, f = Binary.cmp.record destination source
  | withAddress .cmp _ => ∃ result destination source, f = (·.setCompare result destination source)
  | unary form size => ∃ value : size.Value, f = form.record value
  | bit _ _ => ∃ flag, f = (·.setZero flag)
  | shiftRegister kind direction _ size =>
    ∃ (value : size.Value) (count : Nat), count < 64 ∧ f = kind.record direction value count
  | shiftMemory kind direction => ∃ value : Size.word.Value, f = kind.record direction value 1
  | checkBounds => ∃ negative, f = fun flags ↦ .ofCcr { flags.ccr with negative }
  | chainedBinary .. | chainedDecimal .. | negateDecimal | returnAndRestore | logicalToCcr _
  | moveToCcr | logicalToStatus _ | moveToStatus | returnFromException =>
    ∃ ccr, f = fun _ ↦ .ofCcr ccr
  | _ => False

/-- The operation may give a stack pointer a value of its own: as a destination or as a register of
a list, or because it sets the stack pointer up, takes it down or puts it away. -/
def SetsStack (operation : Operation) (opcode : Opcode) (machine : Machine) : Prop :=
  match operation with
  | moveAddress _ | loadAddress | withAddress .add _ | withAddress .sub _ =>
    opcode.highRegister = stackPointer
  | move _ => Mode.ofField? opcode.destinationField = some (.addressRegister stackPointer)
  | setConditionally | testAndSet | fromRegister .. | withImmediate .. | quick .. | negateDecimal
  | unary .. | bit .change _ | bit .clear _ | bit .set _ | shiftMemory .. | moveFromStatus =>
    Mode.ofField? opcode.operandField = some (.addressRegister stackPointer)
  | exchange kind => .address stackPointer ∈ [(exchanged kind opcode).1, (exchanged kind opcode).2]
  | storeMultiple size => size = .byte
  | loadMultiple size => size = .byte ∨ ∃ list,
      machine.memory.read machine.programCode (machine.registers.pc + 2) .word = .ok list ∧
        list.getLsbD 15 = true
  | moveUserStack .fromUserStack => opcode.lowRegister = stackPointer
  | moveUserStack .toUserStack | link | unlink => True
  | _ => False

/-- All that the operation may do to the flags and to the stack pointer is among the changes. -/
structure StaysWithin (operation : Operation) (opcode : Opcode) (machine : Machine)
    (changes : Changes) : Prop where
  flags : ∀ f, operation.Records opcode f → changes.flags f
  stack : changes.stack = .any ∨ ¬operation.SetsStack opcode machine

/-- An operation records only flags in its scope. -/
theorem Records.keeps {operation : Operation} {opcode : Opcode} {f : Flags → Flags}
    (h : operation.Records opcode f) (flags : Flags) :
    (operation.scope opcode).Keeps flags.ccr (f flags).ccr := by
  cases operation with
  | move | moveQuick | swapWords | extendSign | multiply | testAndSet =>
    obtain ⟨result, rfl⟩ := h
    exact FlagScope.keeps_record flags _
  | divide =>
    obtain ⟨result, rfl⟩ | rfl := h
    · exact FlagScope.keeps_record flags _
    · exact FlagScope.keeps_record flags _
  | toRegister binary | fromRegister binary | withImmediate binary =>
    obtain ⟨destination, source, rfl⟩ := h
    exact binary.keeps_record destination source flags
  | quick binary size =>
    obtain ⟨hfield, destination, source, rfl⟩ := h
    rw [scope]
    split
    next number hnumber => exact absurd hnumber (hfield number)
    next => exact binary.keeps_record destination source flags
  | compareMemory =>
    obtain ⟨destination, source, rfl⟩ := h
    exact FlagScope.keeps_record flags _
  | withAddress operation =>
    cases operation with
    | add | sub => cases h
    | cmp =>
      obtain ⟨result, destination, source, rfl⟩ := h
      exact FlagScope.keeps_record flags _
  | unary form =>
    obtain ⟨value, rfl⟩ := h
    exact form.keeps_record value flags
  | bit =>
    obtain ⟨flag, rfl⟩ := h
    exact FlagScope.keeps_setZero flags flag
  | shiftRegister kind direction =>
    obtain ⟨value, count, -, rfl⟩ := h
    exact kind.keeps_record direction value count flags
  | shiftMemory kind direction =>
    obtain ⟨value, rfl⟩ := h
    exact kind.keeps_record direction value 1 flags
  | checkBounds =>
    obtain ⟨flag, rfl⟩ := h
    exact FlagScope.keeps_setCcr_negative flags flag
  | chainedBinary | chainedDecimal | negateDecimal | returnAndRestore | logicalToCcr | moveToCcr
  | logicalToStatus | moveToStatus | returnFromException => trivial
  | _ => cases h

/-- Any changes of the flags in the scope are enough. -/
theorem staysWithin_scope (operation : Operation) (opcode : Opcode) (machine : Machine) :
    operation.StaysWithin opcode machine (.within (operation.scope opcode)) :=
  ⟨fun _ hrecords ↦ hrecords.keeps, .inl rfl⟩

end Operation

open Exec

attribute [local grind] Size.bits Size.Value

-- The body of an instruction is a sequence of actions with branches. Its rules of composition and
-- those of the actions are known to the automation, so that most proofs only open the body. Where
-- flags are recorded in between, the actions are gone through one by one.

namespace KeptBy

variable {changes : Changes} {inv : Machine → Prop} (kept : KeptBy changes inv)

include kept

/-! ## Moves -/

section Moves

variable (opcode : Opcode) (size : Size)

theorem maintains_moveAddress
    (hstack : changes.stack = .any ∨ opcode.highRegister ≠ stackPointer) :
    Maintains inv (Instruction.moveAddress size opcode) := by
  unfold Instruction.moveAddress
  grind

theorem maintains_loadAddress
    (hstack : changes.stack = .any ∨ opcode.highRegister ≠ stackPointer) :
    Maintains inv (Instruction.loadAddress opcode) := by
  unfold Instruction.loadAddress
  grind

theorem maintains_pushAddress : Maintains inv (Instruction.pushAddress opcode) := by
  unfold Instruction.pushAddress
  grind

theorem maintains_exchange {first second : Register}
    (hstack : changes.stack = .any ∨ .address stackPointer ∉ [first, second]) :
    Maintains inv (Instruction.exchange first second) := by
  have hfirst : changes.stack = .any ∨ first ≠ .address stackPointer :=
    hstack.imp_right fun hnot heq ↦ hnot (heq ▸ List.mem_cons_self)
  have hsecond : changes.stack = .any ∨ second ≠ .address stackPointer :=
    hstack.imp_right fun hnot heq ↦ hnot (heq ▸ List.mem_cons_of_mem _ (List.mem_singleton_self _))
  refine maintains_bind maintains_registers fun before ↦ ?_
  refine maintains_bind (fun machine hinv ↦ ?_) fun _ ↦ kept.maintains_advancePc 2
  have hset := kept.maintains_set hfirst (before.get second) machine hinv
  exact kept.maintains_set hsecond (before.get first) _ hset

theorem maintains_moveFromStatus (hstack : changes.stack = .any ∨
      Mode.ofField? opcode.operandField ≠ some (.addressRegister stackPointer)) :
    Maintains inv (Instruction.moveFromStatus opcode) := by
  unfold Instruction.moveFromStatus Instruction.statusRegister
  grind

theorem maintains_move (hflags : ∀ result, changes.flags (·.setResult result))
    (hstack : changes.stack = .any ∨
      Mode.ofField? opcode.destinationField ≠ some (.addressRegister stackPointer)) :
    Maintains inv (Instruction.move size opcode) := by
  unfold Instruction.move
  refine maintains_bind (maintains_ofField size _ _) fun source ↦ ?_
  refine maintains_bind (kept.ignoresTrace.maintains_get source) fun value ↦ ?_
  refine maintains_bind (kept.maintains_finish source) fun _ ↦ ?_
  refine maintains_ofField_bind changes hstack fun destination hmode ↦ ?_
  refine maintains_bind (kept.maintains_put destination hmode value) fun _ ↦ ?_
  refine maintains_bind (kept.maintains_finish destination) fun _ ↦ ?_
  exact maintains_bind (kept.maintains_modifyFlags (hflags _)) fun _ ↦ kept.maintains_advancePc _

section Results

variable (hflags : ∀ result, changes.flags (·.setResult result))

include hflags

theorem maintains_moveQuick : Maintains inv (Instruction.moveQuick opcode) :=
  maintains_bind (kept.maintains_setD _ _) fun _ ↦
    maintains_bind (kept.maintains_modifyFlags (hflags _)) fun _ ↦ kept.maintains_advancePc 2

theorem maintains_swapWords : Maintains inv (Instruction.swapWords opcode) := by
  refine maintains_bind (maintains_getD _) fun register ↦ ?_
  refine maintains_bind (kept.maintains_setD _ _) fun _ ↦ ?_
  exact maintains_bind (kept.maintains_modifyFlags (hflags _)) fun _ ↦ kept.maintains_advancePc 2

theorem maintains_extendSign : Maintains inv (Instruction.extendSign size opcode) := by
  refine maintains_bind (maintains_getD _) fun register ↦ ?_
  refine maintains_bind (kept.maintains_setD _ _) fun _ ↦ ?_
  exact maintains_bind (kept.maintains_modifyFlags (hflags _)) fun _ ↦ kept.maintains_advancePc 2

theorem maintains_multiply (signedness : Signedness) :
    Maintains inv (Instruction.multiply signedness opcode) := by
  unfold Instruction.multiply
  refine maintains_bind (maintains_ofField .word _ _) fun operand ↦ ?_
  refine maintains_bind (kept.ignoresTrace.maintains_get operand) fun source ↦ ?_
  refine maintains_bind (kept.maintains_finish operand) fun _ ↦ ?_
  refine maintains_bind (maintains_getD _) fun register ↦ ?_
  refine maintains_bind (kept.maintains_setD _ _) fun _ ↦ ?_
  exact maintains_bind (kept.maintains_modifyFlags (hflags _)) fun _ ↦ kept.maintains_advancePc _

theorem maintains_testAndSet (hstack : changes.stack = .any ∨
      Mode.ofField? opcode.operandField ≠ some (.addressRegister stackPointer)) :
    Maintains inv (Instruction.testAndSet opcode) := by
  unfold Instruction.testAndSet
  refine maintains_ofField_bind changes hstack fun operand hmode ↦ ?_
  refine maintains_bind (kept.ignoresTrace.maintains_get operand) fun value ↦ ?_
  refine maintains_bind (kept.maintains_modifyFlags (hflags _)) fun _ ↦ ?_
  refine maintains_bind (kept.maintains_put operand hmode _) fun _ ↦ ?_
  exact maintains_bind (kept.maintains_finish operand) fun _ ↦ kept.maintains_advancePc _

end Results

end Moves

/-! ## Several registers -/

section Multiple

variable {size : Size} {machine next : Machine} {last : Address}

theorem maintains_storeDownward (address : Address) (chosen : List Register) :
    Maintains inv (Instruction.storeDownward size address chosen) := by
  induction chosen generalizing address with
  | nil => exact maintains_pure address
  | cons register rest ih =>
    unfold Instruction.storeDownward
    grind

theorem maintains_storeUpward (address : Address) (chosen : List Register) :
    Maintains inv (Instruction.storeUpward size address chosen) := by
  induction chosen generalizing address with
  | nil => exact maintains_pure ()
  | cons register rest ih =>
    unfold Instruction.storeUpward
    grind

theorem maintains_loadUpward (program : Bool) (address : Address) {chosen : List Register}
    (hchosen : changes.stack = .any ∨ .address stackPointer ∉ chosen) :
    Maintains inv (Instruction.loadUpward size program address chosen) := by
  induction chosen generalizing address with
  | nil => exact maintains_pure address
  | cons register rest ih =>
    have hregister : changes.stack = .any ∨ register ≠ .address stackPointer :=
      hchosen.imp_right fun hnot heq ↦ hnot (heq ▸ List.mem_cons_self)
    have hrest : changes.stack = .any ∨ .address stackPointer ∉ rest :=
      hchosen.imp_right fun hnot hmem ↦ hnot (List.mem_cons_of_mem _ hmem)
    have hload (value : size.Value) :
        Maintains inv (do
          modifyRegisters (·.set register (value.signExtend 32))
          Instruction.loadUpward size program (address + BitVec.ofNat 32 size.bytes) rest) :=
      maintains_bind (kept.maintains_set hregister _) fun _ ↦ ih _ hrest
    cases program with
    | true => exact maintains_bind (kept.ignoresTrace.maintains_readProgram size address) hload
    | false => exact maintains_bind (kept.ignoresTrace.maintains_read size address) hload

omit kept in
/-- Words and long words leave an address as even or odd as it was. -/
theorem allows_of_run_storeDownward {moves : StackMoves} (hsize : moves = .any ∨ size ≠ .byte)
    {address : Address} {chosen : List Register}
    (hrun : (Instruction.storeDownward size address chosen).run machine = .ok last next) :
    moves.Allows address last := by
  obtain rfl | hsize := hsize
  · trivial
  induction chosen generalizing address machine with
  | nil =>
    cases hrun
    exact moves.allows_refl last
  | cons register rest ih =>
    obtain ⟨_, _, -, hrun⟩ := run_bind_eq_ok.1 hrun
    obtain ⟨_, _, -, hrun⟩ := run_bind_eq_ok.1 hrun
    have heven := address.sub_modEq_two (Size.two_dvd_bytes hsize)
    exact (moves.allows_of_modEq heven).trans (ih hrun)

omit kept in
theorem allows_of_run_loadUpward {moves : StackMoves} (hsize : moves = .any ∨ size ≠ .byte)
    {program : Bool} {address : Address} {chosen : List Register}
    (hrun : (Instruction.loadUpward size program address chosen).run machine = .ok last next) :
    moves.Allows address last := by
  obtain rfl | hsize := hsize
  · trivial
  induction chosen generalizing address machine with
  | nil =>
    cases hrun
    exact moves.allows_refl last
  | cons register rest ih =>
    obtain ⟨loaded, hrest⟩ : ∃ loaded,
        (Instruction.loadUpward size program (address + BitVec.ofNat 32 size.bytes) rest).run
          loaded = .ok last next := by
      cases program with
      | true | false =>
        obtain ⟨_, _, -, hrun⟩ := run_bind_eq_ok.1 hrun
        obtain ⟨_, loaded, -, hrun⟩ := run_bind_eq_ok.1 hrun
        exact ⟨loaded, hrun⟩
    have heven := address.add_modEq_two (Size.two_dvd_bytes hsize)
    exact (moves.allows_of_modEq heven).trans (ih hrest)

omit kept in
/-- An address register may be renewed with the end of a walk from it that the moves allow. -/
theorem maintains_renew (kept : KeptBy changes inv) {walk : Address → Exec Address}
    (hwalk : ∀ {inv}, KeptBy changes inv → ∀ address, Maintains inv (walk address))
    (hallows : ∀ {machine next address last}, (walk address).run machine = .ok last next →
      changes.stack.Allows address last)
    (number : Fin 8) (length : Nat) :
    Maintains inv (do
      setA number (← walk (← getA number))
      advancePc length) := by
  by_cases hnumber : number = stackPointer
  · subst hnumber
    refine maintains_getA_bind changes fun top machine hinv ↦ ?_
    have level := kept.and_allows top
    refine inv_after_bind (hwalk level top machine hinv) fun last next hrun hnext ↦ ?_
    have hset : Maintains _ (setA stackPointer last) :=
      level.maintains_setStack fun after hafter ↦ hafter.2.symm.trans (hallows hrun)
    exact maintains_bind hset (fun _ ↦ level.maintains_advancePc length) next hnext
  · refine maintains_bind (maintains_getA number) fun base ↦ ?_
    refine maintains_bind (hwalk kept base) fun last ↦ ?_
    exact maintains_bind (kept.maintains_setA (.inr hnumber) last) fun _ ↦
      kept.maintains_advancePc length

theorem maintains_storeMultiple (hsize : changes.stack = .any ∨ size ≠ .byte) (opcode : Opcode) :
    Maintains inv (Instruction.storeMultiple size opcode) := by
  unfold Instruction.storeMultiple
  refine maintains_bind (kept.ignoresTrace.maintains_fetchWord 2) fun list ↦ ?_
  refine maintains_bind (maintains_ofField size _ 4) fun operand ↦ ?_
  split
  next number _ =>
    exact kept.maintains_renew (fun kept address ↦ kept.maintains_storeDownward address _)
      (allows_of_run_storeDownward hsize) number _
  next =>
    refine maintains_bind (kept.ignoresTrace.maintains_address operand) fun address ↦ ?_
    exact maintains_bind (kept.maintains_storeUpward address _) fun _ ↦ kept.maintains_advancePc _

/-- What the list holds is known once it has been read. -/
theorem inv_after_loadMultiple (hsize : changes.stack = .any ∨ size ≠ .byte) (opcode : Opcode)
    (hinv : inv machine)
    (hlist : changes.stack = .any ∨ ∀ list,
      machine.memory.read machine.programCode (machine.registers.pc + 2) .word = .ok list →
        list.getLsbD 15 = false) :
    inv ((Instruction.loadMultiple size opcode).after machine) := by
  refine inv_after_bind (kept.ignoresTrace.maintains_fetchWord 2 machine hinv)
    fun list next hfetch hnext ↦ ?_
  have hread : machine.memory.read machine.programCode (machine.registers.pc + 2) .word =
      .ok list := (run_readAs_eq_ok.1 hfetch).1
  have hchosen : changes.stack = .any ∨
      .address stackPointer ∉ (Instruction.listed list).map Register.ofNumber :=
    hlist.imp_right fun hlist ↦ address_not_mem_listedRegisters (hlist list hread)
  refine maintains_bind (maintains_ofField size _ 4) (fun operand ↦ ?_) next hnext
  dsimp only
  split
  next number _ =>
    exact kept.maintains_renew
      (fun kept address ↦ kept.maintains_loadUpward false address hchosen)
      (allows_of_run_loadUpward hsize) number _
  next =>
    refine maintains_bind (kept.ignoresTrace.maintains_address operand) fun address ↦ ?_
    exact maintains_bind (kept.maintains_loadUpward _ address hchosen) fun _ ↦
      kept.maintains_advancePc _

end Multiple

/-! ## Program control -/

section Control

variable (opcode : Opcode)

@[grind <=]
theorem maintains_branchDisplacement :
    Maintains inv (Instruction.branchDisplacement opcode) := by
  unfold Instruction.branchDisplacement
  grind

@[grind <=]
theorem maintains_branchTo (displacement : Address) :
    Maintains inv (Instruction.branchTo displacement) := by
  unfold Instruction.branchTo
  grind

theorem maintains_branch : Maintains inv (Instruction.branch opcode) := by
  unfold Instruction.branch
  grind

theorem maintains_branchToSubroutine : Maintains inv (Instruction.branchToSubroutine opcode) := by
  unfold Instruction.branchToSubroutine
  grind

theorem maintains_decrementAndBranch : Maintains inv (Instruction.decrementAndBranch opcode) := by
  unfold Instruction.decrementAndBranch
  grind

theorem maintains_setConditionally (hstack : changes.stack = .any ∨
      Mode.ofField? opcode.operandField ≠ some (.addressRegister stackPointer)) :
    Maintains inv (Instruction.setConditionally opcode) := by
  unfold Instruction.setConditionally
  grind

theorem maintains_jump : Maintains inv (Instruction.jump opcode) := by
  unfold Instruction.jump
  grind

theorem maintains_jumpToSubroutine : Maintains inv (Instruction.jumpToSubroutine opcode) := by
  unfold Instruction.jumpToSubroutine
  grind

theorem maintains_returnFromSubroutine : Maintains inv Instruction.returnFromSubroutine := by
  unfold Instruction.returnFromSubroutine
  grind

theorem maintains_link (hstack : changes.stack = .any) :
    Maintains inv (Instruction.link opcode) := by
  unfold Instruction.link
  grind

theorem maintains_unlink (hstack : changes.stack = .any) :
    Maintains inv (Instruction.unlink opcode) := by
  unfold Instruction.unlink
  grind

end Control

/-! ## Arithmetic and logic -/

section Arithmetic

variable (opcode : Opcode) (size : Size) {operation : Binary}
  (hflags : ∀ destination source : size.Value, changes.flags (operation.record destination source))

include hflags

@[grind <=]
theorem maintains_compute (destination source : size.Value) :
    Maintains inv (Instruction.compute operation destination source) :=
  maintains_bind (kept.maintains_modifyFlags (hflags destination source)) fun _ ↦ maintains_pure _

@[grind <=]
theorem maintains_update (operand : Operand size)
    (hmode : changes.stack = .any ∨ operand.mode ≠ .addressRegister stackPointer)
    (source : size.Value) : Maintains inv (Instruction.update operation operand source) := by
  unfold Instruction.update
  refine maintains_bind (kept.ignoresTrace.maintains_get operand) fun destination ↦ ?_
  refine maintains_bind (kept.maintains_compute size hflags destination source) fun result ↦ ?_
  grind

theorem maintains_toRegister : Maintains inv (Instruction.toRegister operation size opcode) := by
  unfold Instruction.toRegister
  refine maintains_bind (maintains_ofField size _ _) fun operand ↦ ?_
  refine maintains_bind (kept.ignoresTrace.maintains_get operand) fun source ↦ ?_
  refine maintains_bind (kept.maintains_finish operand) fun _ ↦ ?_
  refine maintains_bind (maintains_getD _) fun register ↦ ?_
  refine maintains_bind (kept.maintains_compute size hflags _ source) fun result ↦ ?_
  grind

variable (hstack : changes.stack = .any ∨
  Mode.ofField? opcode.operandField ≠ some (.addressRegister stackPointer))

include hstack

theorem maintains_fromRegister :
    Maintains inv (Instruction.fromRegister operation size opcode) := by
  unfold Instruction.fromRegister
  refine maintains_ofField_bind changes hstack fun operand hmode ↦ ?_
  refine maintains_bind (maintains_getD _) fun register ↦ ?_
  exact maintains_bind (kept.maintains_update size hflags operand hmode _) fun _ ↦
    kept.maintains_advancePc _

theorem maintains_withImmediate :
    Maintains inv (Instruction.withImmediate operation size opcode) := by
  unfold Instruction.withImmediate
  refine maintains_bind (kept.ignoresTrace.maintains_fetch size 2) fun source ↦ ?_
  refine maintains_ofField_bind changes hstack fun operand hmode ↦ ?_
  exact maintains_bind (kept.maintains_update size hflags operand hmode source) fun _ ↦
    kept.maintains_advancePc _

end Arithmetic

/-- Where the operand is an address register, no flag is recorded. -/
theorem maintains_quick (opcode : Opcode) (size : Size) {operation : Binary}
    (hflags : (∀ number, Mode.ofField? opcode.operandField ≠ some (.addressRegister number)) →
      ∀ destination source : size.Value, changes.flags (operation.record destination source))
    (hstack : changes.stack = .any ∨
      Mode.ofField? opcode.operandField ≠ some (.addressRegister stackPointer)) :
    Maintains inv (Instruction.quick operation size opcode) := by
  unfold Instruction.quick
  refine Exec.maintains_ofField_bind fun mode hmode ↦ ?_
  rw [hmode] at hflags hstack
  have hadvance := kept.maintains_advancePc (2 + (⟨mode, 2⟩ : Operand size).extensionBytes)
  cases mode with
  | addressRegister number =>
    refine maintains_bind (maintains_getA number) fun address ↦ ?_
    refine maintains_bind (kept.maintains_setA ?_ _) fun _ ↦ hadvance
    exact hstack.imp_right fun hne heq ↦ hne (by rw [heq])
  | _ =>
    have hrecord := hflags fun _ ↦ by simp
    refine maintains_bind (kept.maintains_update size hrecord _ (.inr ?_) _) fun _ ↦ hadvance
    simp

section Addresses

variable (opcode : Opcode) (size : Size)

theorem maintains_withAddress {operation : AddressOperation}
    (hflags : operation = .cmp → ∀ result destination source,
      changes.flags (·.setCompare result destination source))
    (hstack : changes.stack = .any ∨ operation = .cmp ∨ opcode.highRegister ≠ stackPointer) :
    Maintains inv (Instruction.withAddress operation size opcode) := by
  unfold Instruction.withAddress
  refine maintains_bind (maintains_ofField size _ _) fun operand ↦ ?_
  refine maintains_bind (kept.ignoresTrace.maintains_get operand) fun source ↦ ?_
  refine maintains_bind (kept.maintains_finish operand) fun _ ↦ ?_
  refine maintains_bind (maintains_getA _) fun address ↦ ?_
  have hadvance := kept.maintains_advancePc (2 + operand.extensionBytes)
  cases operation with
  | add | sub =>
    have hnumber : changes.stack = .any ∨ opcode.highRegister ≠ stackPointer :=
      hstack.imp_right fun h ↦ h.resolve_left nofun
    exact maintains_bind (kept.maintains_setA hnumber _) fun _ ↦ hadvance
  | cmp => exact maintains_bind (kept.maintains_modifyFlags (hflags rfl _ _ _)) fun _ ↦ hadvance

theorem maintains_compareMemory
    (hflags : ∀ destination source : size.Value,
      changes.flags (Binary.cmp.record destination source)) :
    Maintains inv (Instruction.compareMemory size opcode) := by
  unfold Instruction.compareMemory
  refine maintains_bind (kept.ignoresTrace.maintains_get _) fun source ↦ ?_
  refine maintains_bind (kept.maintains_finish _) fun _ ↦ ?_
  refine maintains_bind (kept.ignoresTrace.maintains_get _) fun destination ↦ ?_
  refine maintains_bind (kept.maintains_finish _) fun _ ↦ ?_
  exact maintains_bind (kept.maintains_compute size hflags destination source) fun _ ↦
    kept.maintains_advancePc 2

theorem maintains_unary {operation : Unary}
    (hflags : ∀ value : size.Value, changes.flags (operation.record value))
    (hstack : changes.stack = .any ∨
      Mode.ofField? opcode.operandField ≠ some (.addressRegister stackPointer)) :
    Maintains inv (Instruction.unary operation size opcode) := by
  unfold Instruction.unary
  refine maintains_ofField_bind changes hstack fun operand hmode ↦ ?_
  refine maintains_bind (kept.ignoresTrace.maintains_get operand) fun value ↦ ?_
  refine maintains_bind maintains_flags fun flags ↦ ?_
  refine maintains_bind (kept.maintains_modifyFlags (hflags value)) fun _ ↦ ?_
  grind

end Addresses

/-! ## Bits and shifts -/

section Bits

variable {operation : BitOperation} (hflags : ∀ flag, changes.flags (·.setZero flag))

include hflags

theorem maintains_modifyBit (size : Size) (number : Nat) {field : BitVec 6} (offset : Nat)
    (hstack : changes.stack = .any ∨ operation = .test ∨
      Mode.ofField? field ≠ some (.addressRegister stackPointer)) :
    Maintains inv (Instruction.modifyBit operation size number field offset) := by
  have hlength (operand : Operand size) : Maintains inv (do
      operand.finish
      return offset + operand.extensionBytes) :=
    maintains_bind (kept.maintains_finish operand) fun _ ↦ maintains_pure _
  unfold Instruction.modifyBit
  by_cases htest : operation = .test
  · subst htest
    refine maintains_bind (maintains_ofField size _ _) fun operand ↦ ?_
    refine maintains_bind (kept.ignoresTrace.maintains_get operand) fun value ↦ ?_
    refine maintains_bind (kept.maintains_modifyFlags (hflags _)) fun _ ↦ ?_
    exact hlength operand
  · have hfield := hstack.imp_right fun h ↦ h.resolve_left htest
    refine maintains_ofField_bind changes hfield fun operand hmode ↦ ?_
    refine maintains_bind (kept.ignoresTrace.maintains_get operand) fun value ↦ ?_
    refine maintains_bind (kept.maintains_modifyFlags (hflags _)) fun _ ↦ ?_
    split
    next => exact maintains_bind (kept.maintains_put operand hmode _) fun _ ↦ hlength operand
    next => exact hlength operand

theorem maintains_bit (inRegister : Bool) (opcode : Opcode)
    (hstack : changes.stack = .any ∨ operation = .test ∨
      Mode.ofField? opcode.operandField ≠ some (.addressRegister stackPointer)) :
    Maintains inv (Instruction.bit operation inRegister opcode) := by
  have hmodify (size : Size) (number offset : Nat) :=
    kept.maintains_modifyBit hflags size number offset hstack
  unfold Instruction.bit
  grind

end Bits

section Shifts

variable {kind : ShiftKind} {direction : Direction} (opcode : Opcode)

theorem maintains_shift {size : Size} {value : size.Value} {count : Nat}
    (hflags : changes.flags (kind.record direction value count)) :
    Maintains inv (Instruction.shift kind direction value count) := by
  refine maintains_bind maintains_flags fun flags ↦ ?_
  exact maintains_bind (kept.maintains_modifyFlags hflags) fun _ ↦ maintains_pure _

/-- The count is at most eight if it is immediate, and otherwise counts modulo 64. -/
theorem maintains_shiftRegister (source : CountSource) (size : Size)
    (hflags : ∀ (value : size.Value) (count : Nat), count < 64 →
      changes.flags (kind.record direction value count)) :
    Maintains inv (Instruction.shiftRegister kind direction source size opcode) := by
  have hrest (count : Nat) (hcount : count < 64) : Maintains inv (do
      let register ← getD opcode.lowRegister
      let result ← Instruction.shift kind direction (size.low register) count
      setD opcode.lowRegister (size.replaceLow register result)
      advancePc 2) := by
    refine maintains_bind (maintains_getD _) fun register ↦ ?_
    refine maintains_bind (kept.maintains_shift (hflags _ count hcount)) fun result ↦ ?_
    exact maintains_bind (kept.maintains_setD _ _) fun _ ↦ kept.maintains_advancePc 2
  cases source with
  | immediate => exact hrest _ (Nat.lt_of_le_of_lt opcode.quickValue_le (by decide))
  | register =>
    exact maintains_bind (maintains_getD _) fun register ↦ hrest _ (Nat.mod_lt _ (by decide))

theorem maintains_shiftMemory
    (hflags : ∀ value : Size.word.Value, changes.flags (kind.record direction value 1))
    (hstack : changes.stack = .any ∨
      Mode.ofField? opcode.operandField ≠ some (.addressRegister stackPointer)) :
    Maintains inv (Instruction.shiftMemory kind direction opcode) := by
  unfold Instruction.shiftMemory
  refine maintains_ofField_bind changes hstack fun operand hmode ↦ ?_
  refine maintains_bind (kept.ignoresTrace.maintains_get operand) fun value ↦ ?_
  refine maintains_bind (kept.maintains_shift (hflags value)) fun result ↦ ?_
  grind

end Shifts

/-! ## All flags -/

section All

variable (opcode : Opcode) (hflags : ∀ ccr, changes.flags fun _ ↦ .ofCcr ccr)

include hflags

theorem maintains_chained (size : Size)
    (combine : size.Value → size.Value → Bool → ChainedResult size.bits) (inMemory : Bool) :
    Maintains inv (Instruction.chained size combine inMemory opcode) := by
  have hmode : (Instruction.chainedOperand size inMemory opcode.highRegister).mode ≠
      .addressRegister stackPointer := by
    cases inMemory <;> nofun
  unfold Instruction.chained
  refine maintains_bind (kept.ignoresTrace.maintains_get _) fun source ↦ ?_
  refine maintains_bind (kept.maintains_finish _) fun _ ↦ ?_
  refine maintains_bind (kept.ignoresTrace.maintains_get _) fun destination ↦ ?_
  refine maintains_bind maintains_flags fun flags ↦ ?_
  refine maintains_bind (kept.maintains_put _ (.inr hmode) _) fun _ ↦ ?_
  refine maintains_bind (kept.maintains_finish _) fun _ ↦ ?_
  refine maintains_bind maintains_flags fun flags ↦ ?_
  exact maintains_bind (kept.maintains_setCcr (hflags _)) fun _ ↦ kept.maintains_advancePc 2

theorem maintains_negateDecimal (hstack : changes.stack = .any ∨
      Mode.ofField? opcode.operandField ≠ some (.addressRegister stackPointer)) :
    Maintains inv (Instruction.negateDecimal opcode) := by
  have hset (ccr : Ccr) := kept.maintains_setCcr (hflags ccr)
  unfold Instruction.negateDecimal
  grind

theorem maintains_returnAndRestore : Maintains inv Instruction.returnAndRestore := by
  have hset (ccr : Ccr) := kept.maintains_setCcr (hflags ccr)
  unfold Instruction.returnAndRestore
  grind

theorem maintains_logicalToCcr (operation : LogicalOperation) :
    Maintains inv (Instruction.logicalToCcr operation) := by
  have hset (ccr : Ccr) := kept.maintains_setCcr (hflags ccr)
  unfold Instruction.logicalToCcr
  grind

theorem maintains_moveToCcr : Maintains inv (Instruction.moveToCcr opcode) := by
  have hset (ccr : Ccr) := kept.maintains_setCcr (hflags ccr)
  unfold Instruction.moveToCcr
  grind

end All

/-! ## All instructions -/

/-- An instruction that enters no exception and is not reserved to the supervisor. -/
theorem inv_after_execute {operation : Operation} {opcode : Opcode} {machine : Machine}
    (htrap : operation.mayTrap = false) (hprivileged : operation.privileged = false)
    (hwithin : operation.StaysWithin opcode machine changes) (hinv : inv machine) :
    inv ((operation.execute opcode).after machine) := by
  obtain ⟨hflags, hsets⟩ := hwithin
  cases operation with
  | move size =>
    exact kept.maintains_move opcode size (fun _ ↦ hflags _ ⟨_, rfl⟩) hsets machine hinv
  | moveAddress size => exact kept.maintains_moveAddress opcode size hsets machine hinv
  | moveQuick => exact kept.maintains_moveQuick opcode (fun _ ↦ hflags _ ⟨_, rfl⟩) machine hinv
  | storeMultiple size => exact kept.maintains_storeMultiple hsets opcode machine hinv
  | loadMultiple size =>
    refine kept.inv_after_loadMultiple (hsets.imp_right fun h ↦ (not_or.1 h).1) opcode hinv ?_
    refine hsets.imp_right fun h list hread ↦ Bool.eq_false_iff.2 fun hbit ↦ ?_
    exact (not_or.1 h).2 ⟨list, hread, hbit⟩
  | loadAddress => exact kept.maintains_loadAddress opcode hsets machine hinv
  | pushAddress => exact kept.maintains_pushAddress opcode machine hinv
  | exchange kind => exact kept.maintains_exchange hsets machine hinv
  | swapWords => exact kept.maintains_swapWords opcode (fun _ ↦ hflags _ ⟨_, rfl⟩) machine hinv
  | extendSign size =>
    exact kept.maintains_extendSign opcode size (fun _ ↦ hflags _ ⟨_, rfl⟩) machine hinv
  | link => exact kept.maintains_link opcode (hsets.resolve_right (· trivial)) machine hinv
  | unlink => exact kept.maintains_unlink opcode (hsets.resolve_right (· trivial)) machine hinv
  | setConditionally => exact kept.maintains_setConditionally opcode hsets machine hinv
  | testAndSet =>
    exact kept.maintains_testAndSet opcode (fun _ ↦ hflags _ ⟨_, rfl⟩) hsets machine hinv
  | toRegister operation size =>
    exact kept.maintains_toRegister opcode size (fun _ _ ↦ hflags _ ⟨_, _, rfl⟩) machine hinv
  | fromRegister operation size =>
    have hrecord (destination source : size.Value) := hflags _ ⟨destination, source, rfl⟩
    exact kept.maintains_fromRegister opcode size hrecord hsets machine hinv
  | withImmediate operation size =>
    have hrecord (destination source : size.Value) := hflags _ ⟨destination, source, rfl⟩
    exact kept.maintains_withImmediate opcode size hrecord hsets machine hinv
  | quick operation size =>
    have hrecord (hfield) (destination source : size.Value) :=
      hflags _ ⟨hfield, destination, source, rfl⟩
    exact kept.maintains_quick opcode size hrecord hsets machine hinv
  | withAddress operation size =>
    refine kept.maintains_withAddress opcode size ?_ ?_ machine hinv
    · rintro rfl result destination source
      exact hflags _ ⟨result, destination, source, rfl⟩
    · cases operation with
      | add | sub => exact hsets.imp_right .inr
      | cmp => exact .inr (.inl rfl)
  | compareMemory size =>
    exact kept.maintains_compareMemory opcode size (fun _ _ ↦ hflags _ ⟨_, _, rfl⟩) machine hinv
  | chainedBinary operation size inMemory =>
    have hcodes (ccr : Ccr) := hflags _ ⟨ccr, rfl⟩
    cases operation <;> exact kept.maintains_chained opcode hcodes size _ inMemory machine hinv
  | chainedDecimal operation inMemory =>
    have hcodes (ccr : Ccr) := hflags _ ⟨ccr, rfl⟩
    cases operation <;> exact kept.maintains_chained opcode hcodes .byte _ inMemory machine hinv
  | negateDecimal =>
    exact kept.maintains_negateDecimal opcode (fun _ ↦ hflags _ ⟨_, rfl⟩) hsets machine hinv
  | unary operation size =>
    exact kept.maintains_unary opcode size (fun _ ↦ hflags _ ⟨_, rfl⟩) hsets machine hinv
  | multiply signedness =>
    exact kept.maintains_multiply opcode (fun _ ↦ hflags _ ⟨_, rfl⟩) signedness machine hinv
  | bit operation inRegister =>
    refine kept.maintains_bit (fun _ ↦ hflags _ ⟨_, rfl⟩) inRegister opcode ?_ machine hinv
    cases operation with
    | test => exact .inr (.inl rfl)
    | change | clear | set => exact hsets.imp_right .inr
  | shiftRegister kind direction source size =>
    have hrecord (value : size.Value) (count : Nat) (hcount : count < 64) :=
      hflags _ ⟨value, count, hcount, rfl⟩
    exact kept.maintains_shiftRegister opcode source size hrecord machine hinv
  | shiftMemory kind direction =>
    exact kept.maintains_shiftMemory opcode (fun _ ↦ hflags _ ⟨_, rfl⟩) hsets machine hinv
  | branch => exact kept.maintains_branch opcode machine hinv
  | branchToSubroutine => exact kept.maintains_branchToSubroutine opcode machine hinv
  | decrementAndBranch => exact kept.maintains_decrementAndBranch opcode machine hinv
  | jump => exact kept.maintains_jump opcode machine hinv
  | jumpToSubroutine => exact kept.maintains_jumpToSubroutine opcode machine hinv
  | returnFromSubroutine => exact kept.maintains_returnFromSubroutine machine hinv
  | returnAndRestore =>
    exact kept.maintains_returnAndRestore (fun _ ↦ hflags _ ⟨_, rfl⟩) machine hinv
  | noOperation => exact kept.maintains_advancePc 2 machine hinv
  | logicalToCcr operation =>
    exact kept.maintains_logicalToCcr (fun _ ↦ hflags _ ⟨_, rfl⟩) operation machine hinv
  | moveFromStatus => exact kept.maintains_moveFromStatus opcode hsets machine hinv
  | moveToCcr => exact kept.maintains_moveToCcr opcode (fun _ ↦ hflags _ ⟨_, rfl⟩) machine hinv
  | divide | checkBounds | trap | trapOnOverflow => cases htrap
  | logicalToStatus | moveToStatus | moveUserStack | resetDevices | returnFromException =>
    cases hprivileged

end KeptBy

/-! ## Stable properties -/

namespace Stable

variable {inv : Machine → Prop} (operation : Operation) (opcode : Opcode)

theorem maintains_execute_of_privileged
    (huser : ∀ machine, inv machine → machine.registers.supervisor = false)
    (hprivileged : operation.privileged = true) : Maintains inv (operation.execute opcode) := by
  cases operation with
  | logicalToStatus operation => exact maintains_requireSupervisor_bind huser _
  | moveToStatus => exact maintains_requireSupervisor_bind huser _
  | moveUserStack direction => exact maintains_requireSupervisor_bind huser _
  | resetDevices => exact maintains_requireSupervisor_bind huser _
  | returnFromException => exact maintains_requireSupervisor_bind huser _
  | _ => cases hprivileged

/-- What is stable and implies user state, all instructions maintain that enter no exception. -/
theorem maintains_execute_of_user (stable : Stable inv)
    (huser : ∀ machine, inv machine → machine.registers.supervisor = false)
    (htrap : operation.mayTrap = false) : Maintains inv (operation.execute opcode) := by
  cases hprivileged : operation.privileged with
  | true => exact maintains_execute_of_privileged operation opcode huser hprivileged
  | false =>
    exact fun machine ↦ (stable.keptBy _).inv_after_execute htrap hprivileged
      (operation.staysWithin_scope opcode machine)

end Stable

end M68000
