import M68000.Proofs.Exception.Entry
import M68000.Proofs.Exec.Instructions
import M68000.Proofs.Exec.Operand

/-!
# Traps

Which instructions enter an exception themselves can be told before they are executed: from the
opcode, the registers and the operand that DIVU, DIVS and CHK read. Such an instruction does
nothing but finish with its operand before the entry, CHK sets N as well, and the return address
is that of the next instruction. All others maintain the stable properties of user state.
-/

namespace M68000

/-- An exception that an instruction enters itself, with the registers at its entry. -/
structure Trap where
  vector : Byte
  returnAddress : Address
  registers : Registers

namespace Operation

/-- The word operand that an opcode names and its value, if it can be read. -/
def source? (opcode : Opcode) (machine : Machine) : Option (Operand .word × BitVec 16) :=
  match Mode.ofField? opcode.operandField with
  | none => none
  | some mode =>
    let operand : Operand .word := ⟨mode, 2⟩
    match operand.get.run machine with
    | .ok value _ => some (operand, value)
    | .error .. => none

/-- The exception that an instruction enters when it is executed. -/
def trap? (operation : Operation) (opcode : Opcode) (machine : Machine) : Option Trap :=
  let registers := machine.registers
  match operation with
  | trap =>
    some ⟨32 + (opcode.extractLsb' 0 4).setWidth 8, registers.pc + 2, registers⟩
  | trapOnOverflow =>
    if registers.flags.overflow then some ⟨7, registers.pc + 2, registers⟩ else none
  | divide _ =>
    match source? opcode machine with
    | none => none
    | some (operand, divisor) =>
      if divisor = 0 then
        some ⟨5, registers.pc + BitVec.ofNat 32 (2 + operand.extensionBytes),
          operand.finished registers⟩
      else none
  | checkBounds =>
    match source? opcode machine with
    | none => none
    | some (operand, bound) =>
      let value := Size.word.low (registers.getD opcode.highRegister)
      if value.slt 0 || bound.slt value then
        some ⟨6, registers.pc + BitVec.ofNat 32 (2 + operand.extensionBytes),
          (operand.finished registers).setCcr
            { registers.flags.ccr with negative := value.slt 0 }⟩
      else none
  | _ => none

variable {operation : Operation} {opcode : Opcode} {machine : Machine}

/-- The four ways in which an instruction enters an exception itself. -/
inductive Raises (opcode : Opcode) (machine : Machine) : Operation → Trap → Prop where
  | trap : Raises opcode machine .trap
      ⟨32 + (opcode.extractLsb' 0 4).setWidth 8, machine.registers.pc + 2, machine.registers⟩
  | overflow (hoverflow : machine.registers.flags.overflow = true) :
    Raises opcode machine .trapOnOverflow ⟨7, machine.registers.pc + 2, machine.registers⟩
  | zeroDivide {operand : Operand .word} (signedness : Signedness)
      (hsource : source? opcode machine = some (operand, 0)) :
    Raises opcode machine (.divide signedness)
      ⟨5, machine.registers.pc + BitVec.ofNat 32 (2 + operand.extensionBytes),
        operand.finished machine.registers⟩
  | outOfBounds {operand : Operand .word} {bound value : BitVec 16}
      (hsource : source? opcode machine = some (operand, bound))
      (hvalue : value = Size.word.low (machine.registers.getD opcode.highRegister))
      (hout : (value.slt 0 || bound.slt value) = true) :
    Raises opcode machine .checkBounds
      ⟨6, machine.registers.pc + BitVec.ofNat 32 (2 + operand.extensionBytes),
        (operand.finished machine.registers).setCcr
          { machine.registers.flags.ccr with negative := value.slt 0 }⟩

theorem raises_of_trap? {trap : Trap} (htrap : operation.trap? opcode machine = some trap) :
    operation.Raises opcode machine trap := by
  unfold trap? at htrap
  cases operation with
  | trap =>
    cases htrap
    exact .trap
  | trapOnOverflow =>
    dsimp only at htrap
    split at htrap
    next hoverflow =>
      cases htrap
      exact .overflow hoverflow
    next => cases htrap
  | divide signedness =>
    dsimp only at htrap
    split at htrap
    next => cases htrap
    next operand divisor hsource =>
      split at htrap
      next hzero =>
        cases htrap
        exact .zeroDivide signedness (hzero ▸ hsource)
      next => cases htrap
  | checkBounds =>
    dsimp only at htrap
    split at htrap
    next => cases htrap
    next operand bound hsource =>
      split at htrap
      next hout =>
        cases htrap
        exact .outOfBounds hsource rfl hout
      next => cases htrap
  | _ => cases htrap

end Operation

namespace Instruction

open Exec Operation

/-! ## Instructions with a word operand -/

/-- Reads the word operand of an instruction and finishes with it before the rest. -/
def withSource (opcode : Opcode) (rest : Operand .word → BitVec 16 → Exec Unit) : Exec Unit := do
  let operand ← Operand.ofField .word opcode.operandField 2
  let value ← operand.get
  operand.finish
  rest operand value

section WithSource

variable (rest : Operand .word → BitVec 16 → Exec Unit)

theorem run_withSource (opcode : Opcode) (machine : Machine) :
    (withSource opcode rest).run machine =
      match Mode.ofField? opcode.operandField with
      | none => illegal.run machine
      | some mode =>
        let operand : Operand .word := ⟨mode, 2⟩
        match operand.get.run machine with
        | .error fault next => .error fault next
        | .ok value next =>
          (rest operand value).run
            { next with registers := operand.finished next.registers } := by
  rw [withSource, EStateM.run_bind, Operand.ofField]
  cases Mode.ofField? opcode.operandField with
  | none => rfl
  | some mode =>
    simp only [EStateM.run_pure, EStateM.run_bind, Operand.run_finish]
    cases (Operand.mk mode 2 : Operand .word).get.run machine <;> rfl

variable {opcode : Opcode} {machine : Machine}

theorem run_withSource_of_source? {operand : Operand .word} {value : BitVec 16}
    (hsource : source? opcode machine = some (operand, value)) :
    ∃ trace, (withSource opcode rest).run machine =
      (rest operand value).run
        { machine with registers := operand.finished machine.registers, trace } := by
  have hrun := run_withSource rest opcode machine
  unfold source? at hsource
  cases hmode : Mode.ofField? opcode.operandField with
  | none =>
    rw [hmode] at hsource
    cases hsource
  | some mode =>
    rw [hmode] at hsource hrun
    dsimp only at hsource hrun
    cases hget : (Operand.mk mode 2 : Operand .word).get.run machine with
    | error fault next =>
      rw [hget] at hsource
      cases hsource
    | ok word next =>
      rw [hget] at hsource hrun
      cases hsource
      obtain ⟨trace, rfl⟩ := Operand.exists_trace_of_run_get hget
      exact ⟨trace, hrun⟩

/-- Where the operand cannot be read, nothing but the accesses seen changes. -/
theorem after_withSource_of_source?_eq_none {inv : Machine → Prop} (ignores : IgnoresTrace inv)
    (hsource : source? opcode machine = none) (hinv : inv machine) :
    inv ((withSource opcode rest).after machine) := by
  have hrun := run_withSource rest opcode machine
  unfold source? at hsource
  cases hmode : Mode.ofField? opcode.operandField with
  | none =>
    rw [hmode] at hrun
    rw [after_of_run_eq_error hrun]
    exact hinv
  | some mode =>
    rw [hmode] at hsource hrun
    dsimp only at hsource hrun
    cases hget : (Operand.mk mode 2 : Operand .word).get.run machine with
    | ok word next =>
      rw [hget] at hsource
      cases hsource
    | error fault next =>
      rw [hget] at hrun
      have hnext := ignores.maintains_get (Operand.mk mode 2 : Operand .word) machine hinv
      rw [after_of_run_eq_error hget] at hnext
      rw [after_of_run_eq_error hrun]
      exact hnext

end WithSource

/-- DIVU and DIVS by a divisor that is not zero. -/
def divideBy (signedness : Signedness) (opcode : Opcode) (divisor : BitVec 16) (length : Nat) :
    Exec Unit := do
  match signedness.divide? (← getD opcode.highRegister) divisor with
  | some (quotient, remainder) =>
    setD opcode.highRegister (remainder ++ quotient)
    modifyFlags (·.setResult (quotient.signExtend 32))
  | none => modifyFlags fun flags ↦ flags.setCodes flags.negative flags.zero true false
  advancePc length

/-- DIVU and DIVS after their operand. -/
def divideRest (signedness : Signedness) (opcode : Opcode) (operand : Operand .word)
    (divisor : BitVec 16) : Exec Unit := do
  if divisor = 0 then
    enterException 5 ((← pc) + BitVec.ofNat 32 (2 + operand.extensionBytes))
  else divideBy signedness opcode divisor (2 + operand.extensionBytes)

/-- CHK after its operand. -/
def checkRest (opcode : Opcode) (operand : Operand .word) (bound : BitVec 16) : Exec Unit := do
  let value := Size.word.low (← getD opcode.highRegister)
  if value.slt 0 || bound.slt value then
    setCcr { (← flags).ccr with negative := value.slt 0 }
    enterException 6 ((← pc) + BitVec.ofNat 32 (2 + operand.extensionBytes))
  else
    advancePc (2 + operand.extensionBytes)

theorem divide_eq_withSource (signedness : Signedness) (opcode : Opcode) :
    divide signedness opcode = withSource opcode (divideRest signedness opcode) :=
  rfl

theorem checkBounds_eq_withSource (opcode : Opcode) :
    checkBounds opcode = withSource opcode (checkRest opcode) :=
  rfl

theorem run_trapOnOverflow (machine : Machine) :
    trapOnOverflow.run machine =
      if machine.registers.flags.overflow then
        (enterException 7 (machine.registers.pc + 2)).run machine
      else (setPc (machine.registers.pc + 2)).run machine := by
  change (if machine.registers.flags.overflow then enterException 7 (machine.registers.pc + 2)
    else setPc (machine.registers.pc + 2)).run machine = _
  split <;> rfl

theorem run_checkRest (opcode : Opcode) (operand : Operand .word) (bound : BitVec 16)
    (machine : Machine) :
    (checkRest opcode operand bound).run machine =
      let registers := machine.registers
      let value := Size.word.low (registers.getD opcode.highRegister)
      if value.slt 0 || bound.slt value then
        (enterException 6 (registers.pc + BitVec.ofNat 32 (2 + operand.extensionBytes))).run
          { machine with
            registers := registers.setCcr { registers.flags.ccr with negative := value.slt 0 } }
      else (advancePc (2 + operand.extensionBytes)).run machine := by
  unfold checkRest
  rw [EStateM.run_bind, run_getD]
  dsimp only
  split <;> rfl

theorem maintains_divideBy {inv : Machine → Prop} {changes : Changes}
    (kept : KeptBy changes inv) (signedness : Signedness) (opcode : Opcode)
    (hflags : ∀ f, (Operation.divide signedness).Records opcode f → changes.flags f)
    (divisor : BitVec 16) (length : Nat) :
    Maintains inv (divideBy signedness opcode divisor length) := by
  have hadvance := kept.maintains_advancePc length
  unfold divideBy
  refine maintains_bind (maintains_getD _) fun dividend ↦ ?_
  split
  · refine maintains_bind (kept.maintains_setD _ _) fun _ ↦ ?_
    refine maintains_bind (kept.maintains_modifyFlags ?_) fun _ ↦ hadvance
    exact hflags _ (.inl ⟨_, rfl⟩)
  · refine maintains_bind (kept.maintains_modifyFlags ?_) fun _ ↦ hadvance
    exact hflags _ (.inr rfl)

end Instruction

/-! ## Traps and other instructions -/

namespace Operation

open Exec Instruction

variable {operation : Operation} {opcode : Opcode} {machine : Machine}

/-- An instruction that traps enters the exception after the step of its operand. -/
theorem run_execute_of_trap? {trap : Trap} (htrap : operation.trap? opcode machine = some trap) :
    ∃ trace, (operation.execute opcode).run machine =
      (enterException trap.vector trap.returnAddress).run
        { machine with registers := trap.registers, trace } := by
  cases raises_of_trap? htrap with
  | trap => exact ⟨machine.trace, rfl⟩
  | overflow hoverflow =>
    refine ⟨machine.trace, ?_⟩
    rw [execute, run_trapOnOverflow, if_pos hoverflow]
  | zeroDivide signedness hsource =>
    obtain ⟨trace, hrun⟩ := run_withSource_of_source? (divideRest signedness opcode) hsource
    refine ⟨trace, ?_⟩
    rw [execute, divide_eq_withSource, hrun, divideRest, if_pos rfl]
    simp
  | outOfBounds hsource hvalue hout =>
    obtain ⟨trace, hrun⟩ := run_withSource_of_source? (checkRest opcode) hsource
    refine ⟨trace, ?_⟩
    rw [execute, checkBounds_eq_withSource, hrun, run_checkRest]
    simp only [Operand.pc_finished, Operand.flags_finished, Operand.getD_finished, ← hvalue]
    exact if_pos hout

section Stable

variable {inv : Machine → Prop} (stable : Stable inv)

include stable

/-- What is stable holds at the entry as well. -/
theorem inv_of_trap? {trap : Trap} (htrap : operation.trap? opcode machine = some trap)
    (trace : Option (List BusAccess)) (hinv : inv machine) :
    inv { machine with registers := trap.registers, trace } := by
  cases raises_of_trap? htrap with
  | trap => exact stable.trace machine trace hinv
  | overflow => exact stable.trace machine trace hinv
  | @zeroDivide operand => exact operand.inv_finished stable trace hinv
  | @outOfBounds operand =>
    have hfinished := operand.inv_finished stable trace hinv
    exact stable.registers _ _ _ _ _ hfinished

/-- An instruction that does not trap maintains what is stable and implies user state. -/
theorem after_execute_of_trap?_eq_none
    (huser : ∀ machine, inv machine → machine.registers.supervisor = false)
    (htrap : operation.trap? opcode machine = none) (hinv : inv machine) :
    inv ((operation.execute opcode).after machine) := by
  unfold trap? at htrap
  cases operation with
  | trap => cases htrap
  | trapOnOverflow =>
    dsimp only at htrap
    split at htrap
    next => cases htrap
    next hoverflow =>
      have hnext := (stable.keptBy (.within .none)).maintains_setPc (machine.registers.pc + 2)
        machine hinv
      rw [after, execute, run_trapOnOverflow, if_neg hoverflow]
      exact hnext
  | divide signedness =>
    cases hsource : source? opcode machine with
    | none => exact after_withSource_of_source?_eq_none _ stable.ignoresTrace hsource hinv
    | some source =>
      obtain ⟨operand, divisor⟩ := source
      simp only [hsource] at htrap
      split at htrap
      next => cases htrap
      next hne =>
        obtain ⟨trace, hrun⟩ :=
          run_withSource_of_source? (divideRest signedness opcode) hsource
        have hnext := maintains_divideBy (stable.keptBy (.within .codes)) signedness opcode
          (fun _ hrecords ↦ hrecords.keeps) divisor (2 + operand.extensionBytes) _
          (operand.inv_finished stable trace hinv)
        rw [after, execute, divide_eq_withSource, hrun, divideRest, if_neg hne]
        exact hnext
  | checkBounds =>
    cases hsource : source? opcode machine with
    | none => exact after_withSource_of_source?_eq_none _ stable.ignoresTrace hsource hinv
    | some source =>
      obtain ⟨operand, bound⟩ := source
      simp only [hsource] at htrap
      split at htrap
      next => cases htrap
      next hin =>
        obtain ⟨trace, hrun⟩ := run_withSource_of_source? (checkRest opcode) hsource
        have hnext := (stable.keptBy (.within .none)).maintains_advancePc
          (2 + operand.extensionBytes) _ (operand.inv_finished stable trace hinv)
        rw [after, execute, checkBounds_eq_withSource, hrun, run_checkRest]
        simp only [Operand.getD_finished, hin]
        exact hnext
  | _ => exact stable.maintains_execute_of_user _ opcode huser rfl machine hinv

end Stable

end Operation

/-! ## An example -/

/-- A user program of one instruction, above a supervisor area with a handler for TRAP #0. -/
def userProgram (opcode : Opcode) : Machine where
  registers :=
    { a := #v[0, 0, 0, 0, 0, 0, 0, 0x2000]
      pc := 0x400
      supervisorSlot := 0x200
      supervisor := false
      interruptMask := 0 }
  memory := .map (.clamp 24) (.mapped ⟨0, 1⟩ (.ram
    { size := 0x4000
      supervisorArea := 0x400
      written := .ofList [(0x82, 0x04), (0x83, 0x10), (0x400, opcode.extractLsb' 8 8),
        (0x401, opcode.extractLsb' 0 8)] }) .empty)

example : Operation.trap.trap? 0x4E40 (userProgram 0x4E40) =
    some ⟨32, 0x402, (userProgram 0x4E40).registers⟩ :=
  rfl

end M68000
