import M68000.Proofs.Dispatch.Written
import M68000.Proofs.Run.FlagFrame
import Mathlib.Algebra.Group.Nat.Even

/-!
# Stack pointers stay even

A step leaves the parity of both stack pointers alone, whether it is done or ends in a fault and
whether or not it has entered an interrupt or an exception, unless its instruction names the stack
pointer as a destination or is there to place it. A change of the privilege state exchanges the
pointers, but each keeps its parity. So what is even at the start of a run stays even.
-/

namespace M68000

open Exec

/-! ## Parity -/

/-- Both stack pointers are as even or odd as they were. -/
structure Registers.SameParity (before after : Registers) : Prop where
  user : after.userStack.toNat ≡ before.userStack.toNat [MOD 2]
  supervisor : after.supervisorStack.toNat ≡ before.supervisorStack.toNat [MOD 2]

namespace Registers.SameParity

variable {before middle after : Registers}

theorem refl (registers : Registers) : registers.SameParity registers :=
  ⟨rfl, rfl⟩

theorem trans (h : before.SameParity middle) (h' : middle.SameParity after) :
    before.SameParity after :=
  ⟨h'.user.trans h.user, h'.supervisor.trans h.supervisor⟩

theorem of_eq (huser : after.userStack = before.userStack)
    (hsupervisor : after.supervisorStack = before.supervisorStack) : before.SameParity after :=
  ⟨congrArg (BitVec.toNat · % 2) huser, congrArg (BitVec.toNat · % 2) hsupervisor⟩

/-- What is even stays even. -/
theorem even (h : before.SameParity after) :
    (Even before.userStack.toNat → Even after.userStack.toNat) ∧
      (Even before.supervisorStack.toNat → Even after.supervisorStack.toNat) := by
  have huser : after.userStack.toNat % 2 = before.userStack.toNat % 2 := h.user
  have hsupervisor : after.supervisorStack.toNat % 2 = before.supervisorStack.toNat % 2 :=
    h.supervisor
  rw [Nat.even_iff, Nat.even_iff, Nat.even_iff, Nat.even_iff, huser, hsupervisor]
  exact ⟨id, id⟩

/-- The live stack pointer is one of the two, and the other one waits in its slot. -/
theorem lastingInSteps (start : Registers) :
    LastingInSteps ⟨fun _ ↦ True, .even⟩ (start.SameParity ·.registers) where
  trace _ _ hsame := hsame
  write _ _ _ _ hsame := hsame
  flags _ _ _ hsame := ⟨hsame.user, hsame.supervisor⟩
  values machine d a pc ha hsame := by
    refine hsame.trans ⟨?_, ?_⟩
    · unfold userStack
      dsimp only
      split
      · rfl
      · exact ha
    · unfold supervisorStack
      dsimp only
      split
      · exact ha
      · rfl
  setSupervisor machine supervisor hsame :=
    hsame.trans (of_eq (machine.registers.userStack_setSupervisor supervisor)
      (machine.registers.supervisorStack_setSupervisor supervisor))
  setStatusRegister _ machine value hsame :=
    hsame.trans (of_eq (machine.registers.userStack_setStatusRegister value)
      (machine.registers.supervisorStack_setStatusRegister value))
  setUserStack heven := nomatch heven
  notes _ _ _ _ _ hsame := hsame
  setInterruptMask _ _ hsame := ⟨hsame.user, hsame.supervisor⟩

end Registers.SameParity

/-! ## Instructions that place a stack pointer -/

/-- The instruction names the live stack pointer as a destination, also in the register list of
MOVEM, or it is LINK, UNLK or the move to the user stack pointer. -/
def Operation.NamesStack (operation : Operation) (opcode : Opcode) (machine : Machine) : Prop :=
  match operation with
  | moveAddress _ | loadAddress | withAddress .add _ | withAddress .sub _ =>
    opcode.highRegister = stackPointer
  | quick _ _ => Mode.ofField? opcode.operandField = some (.addressRegister stackPointer)
  | exchange kind => .address stackPointer ∈ [(exchanged kind opcode).1, (exchanged kind opcode).2]
  | loadMultiple _ => ∃ list,
      machine.memory.read ⟨machine.registers.supervisor, true⟩ (machine.registers.pc + 2) .word =
        .ok list ∧ list.getLsbD 15 = true
  | moveUserStack .fromUserStack => opcode.lowRegister = stackPointer
  | moveUserStack .toUserStack | link | unlink => True
  | _ => False

namespace Operation

variable {operation : Operation} {opcode : Opcode} {machine : Machine}

/-- MOVEM moves words and long words. -/
theorem multiple_ne_byte :
    ∀ entry ∈ InstructionSet.entries,
      entry.2 ≠ .storeMultiple .byte ∧ entry.2 ≠ .loadMultiple .byte := by
  decide +kernel

/-- No other instruction of the table gives the stack pointer a value of its own. -/
theorem SetsStack.names (h : operation.SetsStack opcode machine)
    (hlookup : instructionSet.lookup opcode = some operation)
    (hbus : machine.busSupervisor = machine.registers.supervisor) :
    operation.NamesStack opcode machine := by
  have hfield (hdata : operation.hasData = true) :=
    operandField_ne_addressRegister hlookup hdata stackPointer
  obtain ⟨pattern, hentry, -⟩ := InstructionSet.exists_mem_entries hlookup
  cases operation with
  | moveAddress | loadAddress | exchange | quick | link | unlink => exact h
  | withAddress operation => cases operation <;> exact h
  | moveUserStack direction => cases direction <;> exact h
  | move => exact absurd h (destinationField_ne_addressRegister hlookup stackPointer)
  | setConditionally | testAndSet | fromRegister | withImmediate | negateDecimal | unary
  | shiftMemory | moveFromStatus => exact absurd h (hfield rfl)
  | bit operation =>
    cases operation with
    | test => cases h
    | change | clear | set => exact absurd h (hfield rfl)
  | storeMultiple => exact absurd (congrArg storeMultiple h) (multiple_ne_byte _ hentry).1
  | loadMultiple =>
    obtain hbyte | ⟨list, hread, hlisted⟩ := h
    · exact absurd (congrArg loadMultiple hbyte) (multiple_ne_byte _ hentry).2
    · rw [Machine.programCode, hbus] at hread
      exact ⟨list, hread, hlisted⟩
  | _ => cases h

end Operation

/-! ## Steps -/

variable {machine : Machine}

/-- One step. -/
theorem sameParity_after_step (h : ∀ before opcode operation,
      machine.Meets before opcode operation → ¬operation.NamesStack opcode before) :
    machine.registers.SameParity ((step handlers).after machine).registers := by
  have lasting := Registers.SameParity.lastingInSteps machine.registers
  refine lasting.inv_after_step_of_begun (.refl _) fun opcode next hbegin hnext ↦ ?_
  refine Lasting.inv_after_perform (machine.registers.SameParity ·.registers) hnext
    fun operation hlookup ↦ ?_
  obtain ⟨before, hmeets⟩ := exists_meets_of_run_beginStep hbegin hlookup
  obtain ⟨trace, hmet⟩ := hmeets.exists_run_beginStep
  obtain ⟨-, rfl⟩ := EStateM.Result.ok.inj (hbegin.symm.trans hmet)
  refine ⟨_, lasting.toLasting, fun _ _ ↦ trivial, .inr fun hsets ↦ ?_⟩
  have hbus := busSupervisor_of_run_acceptInterrupt hmeets.accepted
  exact h before opcode operation hmeets (hsets.names hlookup hbus)

theorem sameParity_afterSteps {count : Nat} (h : ∀ k < count, ∀ before opcode operation,
      (machine.afterSteps k).Meets before opcode operation → ¬operation.NamesStack opcode before) :
    machine.registers.SameParity (machine.afterSteps count).registers := by
  induction count with
  | zero => exact .refl _
  | succ count ih =>
    have hbefore := ih fun k hk ↦ h k (Nat.lt_succ_of_lt hk)
    exact hbefore.trans (sameParity_after_step (h count count.lt_succ_self))

/-- No step changes the parity of a stack pointer that its instruction does not name or place, and
no run of such steps makes an even one odd. -/
theorem stack_pointers_stay_even (machine : Machine) :
    ((∀ before opcode operation, machine.Meets before opcode operation →
        ¬operation.NamesStack opcode before) →
      machine.registers.SameParity ((step handlers).after machine).registers) ∧
    ∀ count, (∀ k < count, ∀ before opcode operation,
        (machine.afterSteps k).Meets before opcode operation →
          ¬operation.NamesStack opcode before) →
      (Even machine.registers.userStack.toNat →
        Even (machine.afterSteps count).registers.userStack.toNat) ∧
      (Even machine.registers.supervisorStack.toNat →
        Even (machine.afterSteps count).registers.supervisorStack.toNat) :=
  ⟨sameParity_after_step, fun _ h ↦ (sameParity_afterSteps h).even⟩

/-- Takes a byte from the stack, and then a status word that ends the supervisor state. -/
def poppingProgram : Machine where
  registers := { a := #v[0, 0, 0, 0, 0, 0, 0, 0x10], userSlot := 0x20 }
  memory := .ram
    { size := 0x20
      written := .ofList [(0x00, (0x10 : Byte)), (0x01, 0x1F), (0x02, 0x46), (0x03, 0xDF)] }

/-- The byte takes up a word. Afterwards the user stack pointer is live, and both are even. -/
theorem stack_pointers_stay_even_poppingProgram :
    ∃ middle final, (step handlers).run poppingProgram = .ok .next middle ∧
      (step handlers).run middle = .ok .next final ∧
      middle.registers.getA stackPointer = 0x12 ∧ final.registers.supervisor = false ∧
      poppingProgram.registers.SameParity middle.registers ∧
      Even final.registers.userStack.toNat ∧ Even final.registers.supervisorStack.toNat := by
  have hmove : instructionSet.lookup 0x101F = some (.move .byte) := by
    rw [lookup_instructionSet]
    decide +kernel
  have hstatus : instructionSet.lookup 0x46DF = some .moveToStatus := by
    rw [lookup_instructionSet]
    decide +kernel
  have hstart : poppingProgram.Meets poppingProgram 0x101F (.move .byte) := ⟨rfl, rfl, hmove⟩
  obtain ⟨middle, final, hfirst, hsecond, hmeets, hpopped, huser⟩ : ∃ middle final,
      (step handlers).run poppingProgram = .ok .next middle ∧
        (step handlers).run middle = .ok .next final ∧ middle.Meets middle 0x46DF .moveToStatus ∧
        middle.registers.getA stackPointer = 0x12 ∧ final.registers.supervisor = false :=
    ⟨_, _, run_step_of_lookup hmove rfl rfl rfl, run_step_of_lookup hstatus rfl rfl rfl,
      ⟨rfl, rfl, hstatus⟩, rfl, rfl⟩
  have hmiddle : poppingProgram.afterSteps 1 = middle := after_of_run_eq_ok hfirst
  have hfinal : poppingProgram.afterSteps 2 = final := by
    rw [Machine.afterSteps, hmiddle]
    exact after_of_run_eq_ok hsecond
  have hnames : ∀ k < 2, ∀ before opcode operation,
      (poppingProgram.afterSteps k).Meets before opcode operation →
        ¬operation.NamesStack opcode before :=
    hstart.of_two_steps hmiddle hmeets id id
  have hparity := (stack_pointers_stay_even poppingProgram).1 (hnames 0 (by decide))
  have heven := (stack_pointers_stay_even poppingProgram).2 2 hnames
  rw [after_of_run_eq_ok hfirst] at hparity
  rw [hfinal] at heven
  exact ⟨middle, final, hfirst, hsecond, hpopped, huser, hparity, heven.1 (by decide),
    heven.2 (by decide)⟩

end M68000
