import M68000.Proofs.Exec.Operand
import M68000.Proofs.Run.Fetch

/-!
# The instructions of a stack

What calls, returns and frames do where their stacked long word can be written or read. Where a
call leads depends on the registers and on its own words, and not on the rest of the memory.
-/

namespace M68000

open Exec

/-! ## Steps that go on -/

/-- No interrupt comes before the next instruction, and no end of the run after it. -/
structure Machine.Undisturbed (machine : Machine) : Prop where
  notDue : machine.dueInterrupt? = none
  goesOn : machine.exitRequest = none

section Steps

variable {machine next fetched : Machine} {opcode : Opcode}

/-- An interrupt that was not due before the opcode is not due after it. -/
theorem dueInterrupt?_of_run_beginStep (hdue : machine.dueInterrupt? = none)
    (hrun : beginStep.run machine = .ok opcode fetched) : fetched.dueInterrupt? = none := by
  have hsynced : machine.syncPrivilege.dueInterrupt? = none := hdue
  obtain ⟨_, _, hmodify, hrun⟩ := run_bind_eq_ok.1 hrun
  cases hmodify
  obtain ⟨_, next, haccept, hrun⟩ := run_bind_eq_ok.1 hrun
  obtain ⟨trace, -, rfl⟩ := exists_of_run_fetchOpcode hrun
  change acceptInterrupt.run machine.syncPrivilege = _ at haccept
  cases hpending : machine.syncPrivilege.interrupts.pending with
  | false =>
    rw [run_acceptInterrupt_of_not_pending hpending] at haccept
    cases haccept
    exact hdue
  | true =>
    rw [run_acceptInterrupt_of_pending hpending hsynced] at haccept
    cases haccept
    rw [Machine.dueInterrupt?, if_pos hpending] at hsynced
    exact ite_eq_right_iff.2 fun _ ↦ hsynced

/-- An instruction that changes registers and memory only makes a step that goes on. -/
theorem exists_run_step_of_run {operation : Operation} {registers : Registers} {memory : Space}
    (h : machine.Undisturbed)
    (hread : machine.memory.read ⟨machine.registers.supervisor, true⟩ machine.registers.pc .word =
      .ok opcode)
    (hlookup : instructionSet.lookup opcode = some operation)
    (hmask : registers.interruptMask = machine.registers.interruptMask)
    (hrun : ∀ fetched : Machine, fetched.registers = machine.registers →
      fetched.memory = machine.memory → fetched.busSupervisor = machine.registers.supervisor →
        ∃ trace, (operation.execute opcode).run fetched =
          .ok () { fetched with registers, memory, trace }) :
    ∃ final, (step handlers).run machine = .ok .next final ∧ final.registers = registers ∧
      final.memory = memory ∧ final.Undisturbed := by
  obtain ⟨fetched, hbegin, hfetched⟩ := exists_run_beginStep_of_read h.notDue hread
  have hdue := dueInterrupt?_of_run_beginStep h.notDue hbegin
  obtain ⟨interrupts, trace, -, rfl⟩ := hfetched
  obtain ⟨trace', hexecute⟩ :=
    hrun { machine.syncPrivilege with opcode, interrupts, trace } rfl rfl rfl
  have hexit : takeExit.run { machine.syncPrivilege with
      registers, memory, opcode, interrupts, trace := trace' } =
        .ok .next { machine.syncPrivilege with
          registers, memory, opcode, interrupts, trace := trace' } := by
    rw [takeExit, EStateM.run_bind, EStateM.run_get]
    simp only [Machine.syncPrivilege, h.goesOn]
    rfl
  refine ⟨_, run_step_of_lookup hlookup hbegin hexecute hexit, rfl, rfl, ?_, h.goesOn⟩
  rw [Machine.dueInterrupt?] at hdue ⊢
  rw [hmask]
  exact hdue

end Steps

/-! ## Actions that read the program -/

section Program

variable {α β : Type} {machine other : Machine}

/-- The action comes to the same in both machines and changes nothing but the accesses seen. -/
def SameResult (machine other : Machine) (action : Exec α) : Prop :=
  ∀ trace trace' a next, action.run { machine with trace } = .ok a next →
    (∃ later, next = { machine with trace := later }) ∧
      ∃ later', action.run { other with trace := trace' } = .ok a { other with trace := later' }

namespace SameResult

theorem bind {action : Exec α} {rest : α → Exec β} (haction : SameResult machine other action)
    (hrest : ∀ a, SameResult machine other (rest a)) :
    SameResult machine other (action >>= rest) := by
  intro trace trace' b next hrun
  obtain ⟨a, middle, ha, hb⟩ := run_bind_eq_ok.1 hrun
  obtain ⟨⟨later, rfl⟩, later', ha'⟩ := haction trace trace' a middle ha
  obtain ⟨hnext, final, hb'⟩ := hrest a later later' b next hb
  exact ⟨hnext, final, run_bind_eq_ok.2 ⟨a, _, ha', hb'⟩⟩

theorem pure (a : α) : SameResult machine other (pure a) := by
  intro trace trace' b next hrun
  cases hrun
  exact ⟨⟨trace, rfl⟩, trace', rfl⟩

theorem illegal : SameResult machine other (illegal : Exec α) := by
  intro trace trace' a next hrun
  cases hrun

theorem readProgram {size : Size} {address : Address}
    (hbus : other.busSupervisor = machine.busSupervisor)
    (hread : other.memory.read machine.programCode address size =
      machine.memory.read machine.programCode address size) :
    SameResult machine other (readProgram size address) := by
  intro trace trace' value next hrun
  obtain ⟨later, hvalue, rfl⟩ := exists_of_run_readAs hrun
  have hother : other.programCode = machine.programCode :=
    congrArg (FunctionCode.mk · true) hbus
  refine ⟨⟨later, rfl⟩, _, run_readAs_eq_ok.2 ⟨?_, rfl⟩⟩
  change other.memory.read other.programCode address size = _
  rw [hother, hread]
  exact hvalue

variable (hregisters : other.registers = machine.registers)

include hregisters

theorem registers_bind {rest : Registers → Exec α}
    (hrest : SameResult machine other (rest machine.registers)) :
    SameResult machine other (registers >>= rest) := by
  intro trace trace' a next hrun
  have hother : (registers >>= rest).run { other with trace := trace' } =
      (rest machine.registers).run { other with trace := trace' } :=
    congrArg (fun registers ↦ (rest registers).run { other with trace := trace' }) hregisters
  rw [hother]
  exact hrest trace trace' a next hrun

theorem pc_bind {rest : Address → Exec α}
    (hrest : SameResult machine other (rest machine.registers.pc)) :
    SameResult machine other (pc >>= rest) := by
  have hpc : pc >>= rest = registers >>= fun registers ↦ rest registers.pc := rfl
  rw [hpc]
  exact registers_bind hregisters hrest

theorem getA (number : Fin 8) : SameResult machine other (getA number) :=
  registers_bind hregisters (.pure _)

variable (hbus : other.busSupervisor = machine.busSupervisor)

include hbus

variable {offset : Nat}

theorem fetchWord
    (hread : other.memory.read machine.programCode
        (machine.registers.pc + BitVec.ofNat 32 offset) .word =
      machine.memory.read machine.programCode
        (machine.registers.pc + BitVec.ofNat 32 offset) .word) :
    SameResult machine other (fetchWord offset) :=
  pc_bind hregisters (readProgram hbus hread)

/-- The address of an operand depends on its extension words. -/
theorem address {size : Size} {operand : Operand size}
    (hreads : ∀ size' : Size, size'.bytes ≤ operand.extensionBytes →
      other.memory.read machine.programCode
          (machine.registers.pc + BitVec.ofNat 32 operand.offset) size' =
        machine.memory.read machine.programCode
          (machine.registers.pc + BitVec.ofNat 32 operand.offset) size') :
    SameResult machine other operand.address := by
  obtain ⟨mode, offset⟩ := operand
  have hindexed (h : 2 ≤ mode.extensionBytes size) (base : Address) :
      SameResult machine other (Operand.indexedAddress base offset) :=
    (fetchWord hregisters hbus (hreads .word h)).bind fun _ ↦
      registers_bind hregisters (.pure _)
  have hword (h : 2 ≤ mode.extensionBytes size) :
      SameResult machine other (Exec.fetchWord offset) :=
    fetchWord hregisters hbus (hreads .word h)
  cases mode with
  | dataRegister number | addressRegister number | immediate => exact .illegal
  | indirect number | postIncrement number => exact getA hregisters number
  | preDecrement number => exact (getA hregisters number).bind fun _ ↦ .pure _
  | displacement number =>
    exact (getA hregisters number).bind fun _ ↦ (hword (Nat.le_refl _)).bind fun _ ↦ .pure _
  | indexed number => exact (getA hregisters number).bind fun base ↦ hindexed (Nat.le_refl _) base
  | absoluteShort => exact (hword (Nat.le_refl _)).bind fun _ ↦ .pure _
  | absoluteLong => exact pc_bind hregisters (readProgram hbus (hreads .long (Nat.le_refl _)))
  | pcDisplacement =>
    exact pc_bind hregisters ((hword (Nat.le_refl _)).bind fun _ ↦ .pure _)
  | pcIndexed => exact pc_bind hregisters (hindexed (Nat.le_refl _) _)

end SameResult

end Program

/-! ## Calls -/

/-- The ways to call a subroutine: BSR with its displacement in the opcode or in a word of its own,
and JSR. -/
inductive CallForm where
  | branch
  | branchWord
  | jump (mode : Mode)
  deriving DecidableEq

namespace CallForm

/-- Bytes of the instruction. -/
def bytes : CallForm → Nat
  | branch => 2
  | branchWord => 4
  | jump mode => 2 + mode.extensionBytes .long

def operation : CallForm → Operation
  | branch | branchWord => .branchToSubroutine
  | jump _ => .jumpToSubroutine

/-- The opcode is one of a call of this form. -/
def Encodes (form : CallForm) (opcode : Opcode) : Prop :=
  instructionSet.lookup opcode = some form.operation ∧
    match form with
    | branch => opcode.lowByte ≠ 0
    | branchWord => opcode.lowByte = 0
    | jump mode => Mode.ofField? opcode.operandField = some mode

/-- Where the call leads. -/
def target (opcode : Opcode) : CallForm → Exec Address
  | branch | branchWord => do
    let (displacement, _) ← Instruction.branchDisplacement opcode
    return (← pc) + 2 + displacement
  | jump mode => (⟨mode, 2⟩ : Operand .long).address

variable {form : CallForm} {opcode : Opcode} {machine other : Machine} {memory : Space}

/-- The target of a call depends on the registers and on the words of the instruction. -/
theorem sameResult_target (hencodes : form.Encodes opcode)
    (hregisters : other.registers = machine.registers)
    (hbus : other.busSupervisor = machine.busSupervisor)
    (hreads : ∀ size : Size, 2 + size.bytes ≤ form.bytes →
      other.memory.read machine.programCode (machine.registers.pc + BitVec.ofNat 32 2) size =
        machine.memory.read machine.programCode (machine.registers.pc + BitVec.ofNat 32 2) size) :
    SameResult machine other (form.target opcode) := by
  have hrest (pair : Address × Nat) :
      SameResult machine other (do return (← pc) + 2 + pair.1) :=
    .pc_bind hregisters (.pure _)
  cases form with
  | branch =>
    refine .bind ?_ hrest
    rw [Instruction.branchDisplacement, if_neg hencodes.2]
    exact .pure _
  | branchWord =>
    refine .bind ?_ hrest
    rw [Instruction.branchDisplacement, if_pos hencodes.2]
    exact (SameResult.fetchWord hregisters hbus (hreads .word (Nat.le_refl _))).bind fun _ ↦ .pure _
  | jump mode =>
    exact .address hregisters hbus fun size hsize ↦ hreads size (Nat.add_le_add_left hsize 2)

/-- The displacement of BSR lies in the opcode or in the word after it. -/
theorem exists_of_run_branchDisplacement {displacement : Address × Nat} {next : Machine}
    (hrun : (Instruction.branchDisplacement opcode).run machine = .ok displacement next) :
    displacement.2 = (if opcode.lowByte = 0 then 4 else 2) ∧
      ∃ trace, next = { machine with trace } := by
  unfold Instruction.branchDisplacement at hrun
  split at hrun
  next hword =>
    obtain ⟨word, _, hfetch, hrun⟩ := run_bind_eq_ok.1 hrun
    obtain ⟨trace, -, rfl⟩ := exists_of_run_readAs hfetch
    cases hrun
    exact ⟨(if_pos hword).symm, trace, rfl⟩
  next hshort =>
    cases hrun
    exact ⟨(if_neg hshort).symm, machine.trace, rfl⟩

variable {target : Address}

theorem exists_run_branchToSubroutine (bytes : Nat)
    (hbytes : bytes = if opcode.lowByte = 0 then 4 else 2)
    (htarget : ∃ next, (branch.target opcode).run machine = .ok target next)
    (hwrite : machine.memory.write machine.dataCode
      (machine.registers.getA stackPointer - BitVec.ofNat 32 4) .long
      (machine.registers.pc + BitVec.ofNat 32 bytes) = .ok () memory) :
    ∃ trace, (Instruction.branchToSubroutine opcode).run machine = .ok () { machine with
      registers := { machine.registers.setA stackPointer
        (machine.registers.getA stackPointer - BitVec.ofNat 32 4) with pc := target }
      memory, trace } := by
  obtain ⟨next, htarget⟩ := htarget
  obtain ⟨⟨displacement, length⟩, _, hdisplacement, htarget⟩ := run_bind_eq_ok.1 htarget
  obtain ⟨hlength, trace, rfl⟩ := exists_of_run_branchDisplacement hdisplacement
  cases htarget
  obtain rfl : length = bytes := hlength.trans hbytes.symm
  obtain ⟨trace', hpush⟩ := exists_run_push { machine with trace } .long hwrite
  exact ⟨trace', run_bind_eq_ok.2 ⟨_, _, hdisplacement,
    run_bind_eq_ok.2 ⟨_, _, rfl, run_bind_eq_ok.2 ⟨(), _, hpush, rfl⟩⟩⟩⟩

/-- A call stacks the address after it and goes to its target. -/
theorem exists_run_execute (hencodes : form.Encodes opcode)
    (htarget : ∃ trace, (form.target opcode).run machine = .ok target { machine with trace })
    (hwrite : machine.memory.write machine.dataCode
      (machine.registers.getA stackPointer - BitVec.ofNat 32 4) .long
      (machine.registers.pc + BitVec.ofNat 32 form.bytes) = .ok () memory) :
    ∃ trace, (form.operation.execute opcode).run machine = .ok () { machine with
      registers := { machine.registers.setA stackPointer
        (machine.registers.getA stackPointer - BitVec.ofNat 32 4) with pc := target }
      memory, trace } := by
  obtain ⟨trace, htarget⟩ := htarget
  cases form with
  | branch =>
    exact exists_run_branchToSubroutine 2 (if_neg hencodes.2).symm ⟨_, htarget⟩ hwrite
  | branchWord =>
    exact exists_run_branchToSubroutine 4 (if_pos hencodes.2).symm ⟨_, htarget⟩ hwrite
  | jump mode =>
    obtain ⟨trace', hpush⟩ := exists_run_push { machine with trace } .long hwrite
    have hoperand : (Operand.ofField .long opcode.operandField 2).run machine =
        .ok ⟨mode, 2⟩ machine := by
      rw [Operand.ofField, hencodes.2]
      rfl
    exact ⟨trace', run_bind_eq_ok.2 ⟨_, _, hoperand, run_bind_eq_ok.2 ⟨_, _, htarget,
      run_bind_eq_ok.2 ⟨_, _, rfl, run_bind_eq_ok.2 ⟨(), _, hpush, rfl⟩⟩⟩⟩⟩

end CallForm

/-! ## Returns and frames -/

namespace Instruction

variable {machine : Machine} {opcode : Opcode}

/-- RTS goes to the address on the stack. -/
theorem exists_run_returnFromSubroutine {target : Address}
    (hread : machine.memory.read machine.dataCode (machine.registers.getA stackPointer) .long =
      .ok target) :
    ∃ trace, returnFromSubroutine.run machine = .ok () { machine with
      registers := { machine.registers.setA stackPointer
        (machine.registers.getA stackPointer + BitVec.ofNat 32 4) with pc := target }
      trace } := by
  obtain ⟨trace, hpop⟩ := exists_run_pop hread
  exact ⟨trace, run_bind_eq_ok.2 ⟨target, _, hpop, rfl⟩⟩

/-- LINK stacks the register, makes it point there and moves the stack pointer on from there. -/
theorem exists_run_link {displacement : BitVec 16} {memory : Space}
    (hne : opcode.lowRegister ≠ stackPointer)
    (hfetch : machine.memory.read machine.programCode
      (machine.registers.pc + BitVec.ofNat 32 2) .word = .ok displacement)
    (hwrite : machine.memory.write machine.dataCode
      (machine.registers.getA stackPointer - BitVec.ofNat 32 4) .long
      (machine.registers.getA opcode.lowRegister) = .ok () memory) :
    let frame := machine.registers.getA stackPointer - BitVec.ofNat 32 4
    ∃ trace, (link opcode).run machine = .ok () { machine with
      registers := ((machine.registers.setA opcode.lowRegister frame).setA stackPointer
        (frame + displacement.signExtend 32)).advancePc 4
      memory, trace } := by
  have hlink : link opcode = (do
      let word ← fetchWord 2
      let top ← getA stackPointer
      let saved ← getA opcode.lowRegister
      write .long (top - 4) saved
      setA opcode.lowRegister (top - 4)
      setA stackPointer (top - 4 + word.signExtend 32)
      advancePc 4) := by
    unfold link
    simp only [if_neg hne]
  rw [hlink]
  exact ⟨_, run_bind_eq_ok.2 ⟨displacement, _, run_readAs_eq_ok.2 ⟨hfetch, rfl⟩,
    run_bind_eq_ok.2 ⟨_, _, rfl, run_bind_eq_ok.2 ⟨_, _, rfl,
      run_bind_eq_ok.2 ⟨(), _, run_writeAs_eq_ok.2 ⟨memory, hwrite, rfl⟩, rfl⟩⟩⟩⟩⟩

/-- UNLK takes the stack pointer back to where the register points, and what lies there back into
the register. -/
theorem exists_run_unlink {saved : BitVec 32}
    (hread : machine.memory.read machine.dataCode
      (machine.registers.getA opcode.lowRegister) .long = .ok saved) :
    ∃ trace, (unlink opcode).run machine = .ok () { machine with
      registers := ((machine.registers.setA stackPointer
        (machine.registers.getA opcode.lowRegister + BitVec.ofNat 32 4)).setA opcode.lowRegister
          saved).advancePc 2
      trace } := by
  let lowered := { machine with
    registers := machine.registers.setA stackPointer (machine.registers.getA opcode.lowRegister) }
  have htop : lowered.registers.getA stackPointer = machine.registers.getA opcode.lowRegister :=
    Registers.getA_setA_self ..
  have hlowered : lowered.memory.read lowered.dataCode (lowered.registers.getA stackPointer) .long =
      .ok saved := by
    rw [htop]
    exact hread
  obtain ⟨trace, hpop⟩ := exists_run_pop hlowered
  have hraised (value : Address) : lowered.registers.setA stackPointer value =
      machine.registers.setA stackPointer value := Registers.setA_setA ..
  rw [htop, hraised] at hpop
  exact ⟨trace, run_bind_eq_ok.2 ⟨_, _, rfl, run_bind_eq_ok.2 ⟨(), _, rfl,
    run_bind_eq_ok.2 ⟨saved, _, hpop, rfl⟩⟩⟩⟩

end Instruction

end M68000
