import M68000.Proofs.Bus.Instructions

/-!
# The accesses of operations

What an operation issues at an opcode is what its parts and its transfers say. That includes the
instructions that may enter an exception: whether they do is known from the machine.
-/

namespace M68000

namespace Instruction

open Exec Operation

variable {opcode : Opcode} {machine : Machine}

/-! ## Instructions that may trap -/

theorem issues_trapOnOverflow : trapOnOverflow.Issues
    (Operation.trapOnOverflow.transfers opcode machine)
    (Operation.trapOnOverflow.advance? opcode machine) machine := by
  refine issues_pc.after fun pc _ hrun ↦ ?_
  cases hrun
  refine issues_flags.after fun flags _ hrun ↦ ?_
  cases hrun
  rw [transfers, advance?, trap?]
  split
  next => exact issues_enterException 7 _
  next =>
    refine issues_modify id rfl fun n hn ↦ ?_
    cases hn
    rfl

/-- An instruction with a word operand that may trap once it has read it. -/
theorem issues_withSource {rest : Operand .word → BitVec 16 → Exec Unit} {purposes : List Purpose}
    {bytes : Option Nat}
    (hrest : ∀ (operand : Operand .word) value trace,
      operand.extensionBytes = (Part.ofOpcode opcode .word .read).bytes →
      source? opcode machine = some (operand, value) →
      (rest operand value).Issues purposes bytes
        { machine with registers := operand.finished machine.registers, trace }) :
    (withSource opcode rest).Issues ((Part.ofOpcode opcode .word .read).purposes 2 ++ purposes)
      bytes machine := by
  refine issues_ofField fun mode hmode ↦ ?_
  rw [Part.ofOpcode, Part.purposes_operand hmode]
  refine (issues_operandGet _).bind fun value next hget ↦ ?_
  have hsource : source? opcode machine = some (⟨mode, 2⟩, value) := by
    simp only [source?, hmode, hget]
    rfl
  obtain ⟨trace, rfl⟩ := Operand.exists_trace_of_run_get hget
  refine (issues_finish _).after fun _ finished hfinish ↦ ?_
  rw [Operand.run_finish] at hfinish
  cases hfinish
  exact hrest _ value trace (Part.bytes_operand hmode _ _).symm hsource

theorem issues_divideBy (signedness : Signedness) (divisor : BitVec 16) (length : Nat) :
    (divideBy signedness opcode divisor length).Issues [] (some length) machine := by
  refine (issues_getD _).after fun dividend _ _ ↦ ?_
  dsimp only
  cases signedness.divide? dividend divisor with
  | some result =>
    refine (issues_setD _ _).after fun _ _ _ ↦ ?_
    exact (issues_modifyFlags _).after fun _ _ _ ↦ issues_advancePc length
  | none => exact (issues_modifyFlags _).after fun _ _ _ ↦ issues_advancePc length

theorem issues_divide (signedness : Signedness) : (divide signedness opcode).Issues
    ((Part.ofOpcode opcode .word .read).purposes 2 ++
      (Operation.divide signedness).transfers opcode machine)
    ((Operation.divide signedness).advance? opcode machine) machine := by
  rw [divide_eq_withSource]
  refine issues_withSource fun operand divisor trace hbytes hsource ↦ ?_
  rw [transfers, advance?, trap?, hsource, divideRest]
  by_cases hzero : divisor = 0
  · simp only [hzero, if_true]
    exact issues_pc.after fun _ _ _ ↦ issues_enterException 5 _
  · simp only [hzero, if_false]
    rw [hbytes]
    exact issues_divideBy signedness divisor _

theorem issues_checkBounds : (checkBounds opcode).Issues
    ((Part.ofOpcode opcode .word .read).purposes 2 ++
      Operation.checkBounds.transfers opcode machine)
    (Operation.checkBounds.advance? opcode machine) machine := by
  rw [checkBounds_eq_withSource]
  refine issues_withSource fun operand bound trace hbytes hsource ↦ ?_
  rw [transfers, advance?, trap?, hsource]
  refine (issues_getD _).after fun register _ hrun ↦ ?_
  cases hrun
  simp only [Operand.getD_finished]
  split
  next hout =>
    refine issues_flags.after fun flags _ _ ↦ ?_
    refine (issues_setCcr _).after fun _ _ _ ↦ ?_
    exact issues_pc.after fun _ _ _ ↦ issues_enterException 6 _
  next hin =>
    rw [hbytes]
    exact issues_advancePc _

end Instruction

/-! ## Operations -/

namespace Operation

open Exec Instruction

variable {opcode : Opcode} {machine : Machine}

theorem purposes_eq_append (operation : Operation) (hne : operation ≠ .decrementAndBranch) :
    operation.purposes opcode machine =
      Part.purposesFrom 2 (operation.parts opcode) ++ operation.transfers opcode machine :=
  if_neg fun h ↦ hne h.1

theorem purposes_decrementAndBranch :
    decrementAndBranch.purposes opcode machine =
      if countsOn opcode machine.registers then [.instruction .word 2] else [] := by
  unfold purposes
  cases countsOn opcode machine.registers <;> rfl

variable {operation : Operation} {action : Exec Unit}

/-- The instruction goes on at the next one. -/
structure GoesOn (operation : Operation) (opcode : Opcode) (machine : Machine) : Prop where
  trap : operation.trap? opcode machine = none
  control : operation.transfersControl = false

namespace GoesOn

variable (h : operation.GoesOn opcode machine) {purposes : List Purpose}

include h

theorem issues_parts {parts : List Part} (hparts : operation.parts opcode = parts)
    (hissues : action.Issues (Part.purposesFrom 2 parts ++ operation.transfers opcode machine)
      (some (2 + Part.length parts)) machine) :
    action.Issues (operation.purposes opcode machine) (operation.advance? opcode machine)
      machine := by
  have hne : operation ≠ .decrementAndBranch := by
    rintro rfl
    cases h.control
  have hadvance : operation.advance? opcode machine = some (operation.length opcode) := by
    rw [advance?, h.control, h.trap]
    rfl
  rw [purposes_eq_append operation hne, hadvance, length, hparts]
  exact hissues

theorem issues_opcode (hparts : operation.parts opcode = [])
    (hissues : action.Issues (operation.transfers opcode machine) (some 2) machine) :
    action.Issues (operation.purposes opcode machine) (operation.advance? opcode machine)
      machine :=
  h.issues_parts hparts hissues

theorem issues_part {part : Part} (hparts : operation.parts opcode = [part])
    (hpurposes : part.purposes 2 ++ operation.transfers opcode machine = purposes)
    (hissues : action.Issues purposes (some (2 + part.bytes)) machine) :
    action.Issues (operation.purposes opcode machine) (operation.advance? opcode machine)
      machine := by
  refine h.issues_parts hparts ?_
  rw [Part.purposesFrom_cons, Part.purposesFrom_nil, List.append_nil, hpurposes]
  exact hissues

theorem issues_twoParts {first second : Part} (hparts : operation.parts opcode = [first, second])
    (hpurposes : first.purposes 2 ++
      (second.purposes (2 + first.bytes) ++ operation.transfers opcode machine) = purposes)
    (hissues : action.Issues purposes (some (2 + first.bytes + second.bytes)) machine) :
    action.Issues (operation.purposes opcode machine) (operation.advance? opcode machine)
      machine := by
  refine h.issues_parts hparts ?_
  rw [Part.purposesFrom_cons, Part.purposesFrom_cons, Part.purposesFrom_nil, List.append_nil,
    List.append_assoc, hpurposes, Part.length_cons, Part.length_cons, ← Nat.add_assoc]
  exact hissues

end GoesOn

/-- Where the program counter goes is not followed if the instruction transfers control. -/
theorem issues_transfer {purposes : List Purpose} (hne : operation ≠ .decrementAndBranch)
    (hcontrol : operation.transfersControl = true)
    (hpurposes : Part.purposesFrom 2 (operation.parts opcode) ++
      operation.transfers opcode machine = purposes)
    (hissues : action.Issues purposes none machine) :
    action.Issues (operation.purposes opcode machine) (operation.advance? opcode machine)
      machine := by
  rw [purposes_eq_append operation hne, hpurposes, advance?, hcontrol]
  exact hissues

theorem purposesFrom_displacement :
    Part.purposesFrom 2 (if opcode.lowByte = 0 then [.immediate .word] else []) =
      if opcode.lowByte = 0 then [.instruction .word 2] else [] := by
  split <;> rfl

theorem purposesFrom_part (part : Part) : Part.purposesFrom 2 [part] = part.purposes 2 :=
  List.append_nil _

/-- Every instruction issues the accesses for its parts and then its transfers, and moves the
program counter by its length unless it transfers control or traps. -/
theorem issues_execute (operation : Operation) (opcode : Opcode) (machine : Machine) :
    (operation.execute opcode).Issues (operation.purposes opcode machine)
      (operation.advance? opcode machine) machine := by
  cases operation with
  | move size =>
    refine GoesOn.issues_twoParts ⟨rfl, rfl⟩ rfl ?_ (issues_move size)
    exact congrArg _ (List.append_nil _)
  | moveAddress size =>
    exact GoesOn.issues_part ⟨rfl, rfl⟩ rfl (List.append_nil _) (issues_moveAddress size)
  | moveQuick => exact GoesOn.issues_opcode ⟨rfl, rfl⟩ rfl issues_moveQuick
  | storeMultiple size =>
    exact GoesOn.issues_twoParts ⟨rfl, rfl⟩ rfl rfl (issues_storeMultiple size)
  | loadMultiple size =>
    exact GoesOn.issues_twoParts ⟨rfl, rfl⟩ rfl rfl (issues_loadMultiple size)
  | loadAddress =>
    exact GoesOn.issues_part ⟨rfl, rfl⟩ rfl (List.append_nil _) issues_loadAddress
  | pushAddress => exact GoesOn.issues_part ⟨rfl, rfl⟩ rfl rfl issues_pushAddress
  | exchange kind => exact GoesOn.issues_opcode ⟨rfl, rfl⟩ rfl (issues_exchange _ _)
  | swapWords => exact GoesOn.issues_opcode ⟨rfl, rfl⟩ rfl issues_swapWords
  | extendSign size => exact GoesOn.issues_opcode ⟨rfl, rfl⟩ rfl (issues_extendSign size)
  | link => exact GoesOn.issues_part ⟨rfl, rfl⟩ rfl rfl issues_link
  | unlink => exact GoesOn.issues_opcode ⟨rfl, rfl⟩ rfl issues_unlink
  | setConditionally =>
    exact GoesOn.issues_part ⟨rfl, rfl⟩ rfl (List.append_nil _) issues_setConditionally
  | testAndSet => exact GoesOn.issues_part ⟨rfl, rfl⟩ rfl (List.append_nil _) issues_testAndSet
  | toRegister operation size =>
    exact GoesOn.issues_part ⟨rfl, rfl⟩ rfl (List.append_nil _) (issues_toRegister size operation)
  | fromRegister operation size =>
    exact GoesOn.issues_part ⟨rfl, rfl⟩ rfl (List.append_nil _) (issues_fromRegister size operation)
  | withImmediate operation size =>
    refine GoesOn.issues_twoParts ⟨rfl, rfl⟩ rfl ?_ (issues_withImmediate size operation)
    exact congrArg _ (List.append_nil _)
  | quick operation size =>
    exact GoesOn.issues_part ⟨rfl, rfl⟩ rfl (List.append_nil _) (issues_quick size operation)
  | withAddress operation size =>
    exact GoesOn.issues_part ⟨rfl, rfl⟩ rfl (List.append_nil _) (issues_withAddress size operation)
  | compareMemory size =>
    exact GoesOn.issues_opcode ⟨rfl, rfl⟩ rfl (issues_compareMemory size)
  | chainedBinary operation size inMemory =>
    cases operation <;> cases inMemory <;>
      exact GoesOn.issues_opcode ⟨rfl, rfl⟩ rfl (issues_chained size _ _)
  | chainedDecimal operation inMemory =>
    cases operation <;> cases inMemory <;>
      exact GoesOn.issues_opcode ⟨rfl, rfl⟩ rfl (issues_chained .byte _ _)
  | negateDecimal =>
    exact GoesOn.issues_part ⟨rfl, rfl⟩ rfl (List.append_nil _) issues_negateDecimal
  | unary operation size =>
    exact GoesOn.issues_part ⟨rfl, rfl⟩ rfl (List.append_nil _) (issues_unary size operation)
  | multiply signedness =>
    exact GoesOn.issues_part ⟨rfl, rfl⟩ rfl (List.append_nil _) (issues_multiply signedness)
  | divide signedness =>
    rw [purposes_eq_append (.divide signedness) nofun, parts, purposesFrom_part]
    exact issues_divide signedness
  | checkBounds =>
    rw [purposes_eq_append .checkBounds nofun, parts, purposesFrom_part]
    exact issues_checkBounds
  | bit operation inRegister =>
    cases inRegister with
    | true =>
      exact GoesOn.issues_part ⟨rfl, rfl⟩ rfl (List.append_nil _) (issues_bit_register operation)
    | false =>
      refine GoesOn.issues_twoParts ⟨rfl, rfl⟩ rfl ?_ (issues_bit_immediate operation)
      exact congrArg _ (List.append_nil _)
  | shiftRegister kind direction count size =>
    exact GoesOn.issues_opcode ⟨rfl, rfl⟩ rfl (issues_shiftRegister size kind direction count)
  | shiftMemory kind direction =>
    exact GoesOn.issues_part ⟨rfl, rfl⟩ rfl (List.append_nil _) (issues_shiftMemory kind direction)
  | branch =>
    refine issues_transfer nofun rfl ?_ issues_branch
    exact (List.append_nil _).trans purposesFrom_displacement
  | branchToSubroutine =>
    refine issues_transfer nofun rfl ?_ issues_branchToSubroutine
    exact congrArg (· ++ _) purposesFrom_displacement
  | decrementAndBranch =>
    rw [purposes_decrementAndBranch]
    exact issues_decrementAndBranch
  | jump =>
    refine issues_transfer nofun rfl ?_ issues_jump
    exact (List.append_nil _).trans (purposesFrom_part _)
  | jumpToSubroutine =>
    refine issues_transfer nofun rfl ?_ issues_jumpToSubroutine
    exact congrArg (· ++ _) (purposesFrom_part _)
  | returnFromSubroutine => exact issues_transfer nofun rfl rfl issues_returnFromSubroutine
  | returnAndRestore => exact issues_transfer nofun rfl rfl issues_returnAndRestore
  | noOperation => exact GoesOn.issues_opcode ⟨rfl, rfl⟩ rfl (issues_advancePc 2)
  | trap => exact issues_transfer nofun rfl rfl issues_trap
  | trapOnOverflow =>
    rw [purposes_eq_append .trapOnOverflow nofun]
    exact issues_trapOnOverflow
  | logicalToCcr operation =>
    exact GoesOn.issues_part ⟨rfl, rfl⟩ rfl rfl (issues_logicalToCcr operation)
  | logicalToStatus operation =>
    exact GoesOn.issues_part ⟨rfl, rfl⟩ rfl rfl (issues_logicalToStatus operation)
  | moveFromStatus =>
    exact GoesOn.issues_part ⟨rfl, rfl⟩ rfl (List.append_nil _) issues_moveFromStatus
  | moveToCcr => exact GoesOn.issues_part ⟨rfl, rfl⟩ rfl (List.append_nil _) issues_moveToCcr
  | moveToStatus => exact GoesOn.issues_part ⟨rfl, rfl⟩ rfl (List.append_nil _) issues_moveToStatus
  | moveUserStack direction =>
    exact GoesOn.issues_opcode ⟨rfl, rfl⟩ rfl (issues_moveUserStack direction)
  | resetDevices => exact GoesOn.issues_opcode ⟨rfl, rfl⟩ rfl issues_resetDevices
  | returnFromException => exact issues_transfer nofun rfl rfl issues_returnFromException

end Operation

end M68000
