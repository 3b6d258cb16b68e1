import M68000.Proofs.Checked.Agreement

/-!
# Checked runs

A step takes an interrupt, looks an opcode up and executes its operation. None of this fails in a
machine with sound flags, which a new machine has and which every step, interrupt, exception and
change of a register leaves sound. So no computation fails in any machine that can be reached, but
for sums of ABCD on bytes that are not two decimal digits each.
-/

namespace M68000

namespace Checked

open M68000.Exec (pc modifyRegisters illegal)
open M68000.Checked.Exec

/-! ## Interrupts -/

namespace Interrupts

variable (interrupts : Interrupts) (level : InterruptLevel)

def request (vector : Byte) : Checked Interrupts := do
  return ⟨← setEntry interrupts.requests level.index (some vector), true⟩

def highest? : Checked (Option (InterruptLevel × Byte)) :=
  InterruptLevel.descending.findSomeM? fun level ↦ do
    return (← entry interrupts.requests level.index).map (level, ·)

def remove : Checked Interrupts := do
  return { interrupts with requests := ← setEntry interrupts.requests level.index none }

theorem request_eq (vector : Byte) :
    request interrupts level vector = .ok (interrupts.request level vector) := by
  rw [request, setEntry_fin]
  rfl

theorem highest?_eq : highest? interrupts = .ok interrupts.highest? := by
  simp only [highest?, entry_fin, ok_bind]
  exact List.findSomeM?_pure

theorem remove_eq : remove interrupts level = .ok (interrupts.remove level) := by
  rw [remove, setEntry_fin]
  rfl

end Interrupts

namespace Exec

/-- Changes the interrupts that wait. -/
def modifyInterrupts (f : Interrupts → Checked Interrupts) : Action Unit :=
  fun machine ↦ do return .ok () { machine with interrupts := ← f machine.interrupts }

def acceptInterrupt : Action Unit := do
  let machine ← (get : Exec Machine)
  if machine.interrupts.pending then
    if let some (level, vector) ← Interrupts.highest? machine.interrupts then
      if machine.registers.interruptMask.toNat < level.number ∨ level.number = 7 then
        modifyInterrupts (Interrupts.remove · level)
        enterException vector (← pc)
        modifyRegisters (·.setInterruptMask (BitVec.ofNat 8 level.number))
    modifyInterrupts fun interrupts ↦ return interrupts.refresh

theorem agrees_modifyInterrupts {checked : Interrupts → Checked Interrupts}
    {f : Interrupts → Interrupts} (h : ∀ interrupts, checked interrupts = .ok (f interrupts)) :
    Agrees (modifyInterrupts checked)
      (modify fun machine ↦ { machine with interrupts := f machine.interrupts }) where
  outcome machine _ := by
    rw [modifyInterrupts, h, ok_bind]
    rfl
  sound := Exec.maintains_modify fun _ hflags ↦ hflags

theorem agrees_acceptInterrupt : Agrees acceptInterrupt M68000.Exec.acceptInterrupt := by
  have hrefresh := agrees_modifyInterrupts fun interrupts ↦
    show (return interrupts.refresh : Checked Interrupts) = .ok interrupts.refresh from rfl
  have hmask (level : BitVec 8) : Agrees (liftM (modifyRegisters (·.setInterruptMask level)))
      (modifyRegisters (·.setInterruptMask level)) :=
    agrees_lift fun _ hflags ↦ hflags
  unfold acceptInterrupt M68000.Exec.acceptInterrupt
  refine (agrees_lift Exec.maintains_get).bind fun machine ↦ ?_
  refine agrees_ite Iff.rfl ?_ (agrees_pure ())
  refine agrees_computed_bind (Interrupts.highest?_eq machine.interrupts) ?_
  cases machine.interrupts.highest? with
  | none => exact hrefresh
  | some due =>
    obtain ⟨level, vector⟩ := due
    refine agrees_ite Iff.rfl ?_ hrefresh
    refine (agrees_modifyInterrupts (Interrupts.remove_eq · level)).bind fun _ ↦ ?_
    refine agrees_pc.bind fun pc ↦ (agrees_enterException vector pc).bind fun _ ↦ ?_
    exact (hmask _).bind fun _ ↦ hrefresh

end Exec

/-! ## Steps -/

def beginStep : Action Opcode := do
  (modify (·.syncPrivilege) : Exec Unit)
  acceptInterrupt
  let opcode ← fetchWord 0
  (modify fun machine ↦ { machine with opcode } : Exec Unit)
  return opcode

def perform (opcode : Opcode) : Action Unit := do
  match ← entry instructionSet.slots opcode.toNat with
  | some operation => Operation.execute operation opcode
  | none => illegal (α := Unit)

def step : Action Progress := do
  let opcode ← beginStep
  perform opcode
  takeExit

theorem agrees_beginStep : Agrees beginStep M68000.beginStep := by
  refine (agrees_lift (Exec.maintains_modify fun machine hflags ↦ ?_)).bind fun _ ↦ ?_
  · exact hflags
  refine agrees_acceptInterrupt.bind fun _ ↦ (agrees_fetchWord 0).bind fun opcode ↦ ?_
  refine (agrees_lift (Exec.maintains_modify fun machine hflags ↦ ?_)).bind fun _ ↦ ?_
  · exact hflags
  exact agrees_pure opcode

theorem agrees_takeExit : Agrees (liftM takeExit) takeExit :=
  agrees_lift (maintains_takeExit_of_notes fun _ hflags ↦ hflags)

variable {machine : Machine}

theorem perform_outcome (opcode : Opcode) (hsound : SoundFlags machine)
    (hdecimal : ∀ operation, instructionSet.lookup opcode = some operation →
      operation.AddsDecimals opcode machine) :
    perform opcode machine = .ok ((M68000.perform handlers opcode).run machine) := by
  have hlookup : entry instructionSet.slots opcode.toNat = .ok (instructionSet.lookup opcode) :=
    entry_fin instructionSet.slots opcode.toFin
  unfold perform
  rw [hlookup, Action.lift_ok_bind]
  cases hfound : instructionSet.lookup opcode with
  | some operation =>
    rw [perform_of_lookup hfound]
    exact execute_outcome opcode hsound (hdecimal operation hfound)
  | none =>
    rw [perform_of_lookup_eq_none hfound]
    rfl

theorem maintains_perform (opcode : Opcode) :
    Exec.Maintains SoundFlags (M68000.perform handlers opcode) := by
  cases hfound : instructionSet.lookup opcode with
  | some operation =>
    rw [perform_of_lookup hfound]
    exact maintains_execute opcode
  | none =>
    rw [perform_of_lookup_eq_none hfound]
    exact Exec.maintains_illegal

theorem step_outcome (hsound : SoundFlags machine)
    (hdecimal : ∀ opcode next operation, M68000.beginStep.run machine = .ok opcode next →
      instructionSet.lookup opcode = some operation → operation.AddsDecimals opcode next) :
    step machine = .ok ((M68000.step handlers).run machine) := by
  rw [step_eq]
  refine outcome_bind (agrees_beginStep.outcome machine hsound)
    (agrees_beginStep.sound machine hsound) fun opcode next hbegin hnext ↦ ?_
  have hperform := perform_outcome opcode hnext fun operation ↦
    hdecimal opcode next operation hbegin
  exact outcome_bind hperform (maintains_perform opcode next hnext) fun _ performed _ ↦
    agrees_takeExit.outcome performed

end Checked

/-! ## Machines that can be reached -/

namespace Machine

open M68000.Exec (enterException)

/-- A machine is reached from a new one by steps, interrupts, exceptions and changes of registers
and of memory. -/
inductive Reachable : Machine → Prop where
  | new (memory : Space) (trace : Option (List BusAccess)) : Reachable { memory, trace }
  | step {machine : Machine} (h : Reachable machine) : Reachable ((step handlers).after machine)
  | interrupt {machine : Machine} (h : Reachable machine) (level : InterruptLevel) (vector : Byte) :
    Reachable (machine.requestInterrupt level vector)
  | exception {machine : Machine} (h : Reachable machine) (vector : Byte)
      (returnAddress : Address) : Reachable ((enterException vector returnAddress).after machine)
  | statusRegister {machine : Machine} (h : Reachable machine) (value : BitVec 16) :
    Reachable (machine.setStatusRegister value)
  | ccr {machine : Machine} (h : Reachable machine) (ccr : Ccr) :
    Reachable { machine with registers := machine.registers.setCcr ccr }
  /-- Registers other than the flags are written as they are. -/
  | registers {machine : Machine} (h : Reachable machine) (registers : Registers)
      (hflags : registers.flags = machine.registers.flags) : Reachable { machine with registers }
  | sync {machine : Machine} (h : Reachable machine) : Reachable machine.syncPrivilege
  | memory {machine : Machine} (h : Reachable machine) (memory : Space) :
    Reachable { machine with memory }

theorem Reachable.soundFlags {machine : Machine} (h : machine.Reachable) :
    Checked.SoundFlags machine := by
  induction h with
  | new memory trace => exact Flags.sound_ofRecord (Deferred.sound_of_isShift_eq_false rfl)
  | step h ih =>
    exact Checked.lasting_soundFlags.inv_after_step ih fun opcode _ _ ↦
      Checked.maintains_perform opcode
  | interrupt h level vector ih => exact ih
  | exception h vector returnAddress ih =>
    exact (Checked.Exec.agrees_enterException vector returnAddress).sound _ ih
  | statusRegister h value ih =>
    exact (Checked.Instruction.agrees_setStatusRegister value).sound _ ih
  | ccr h ccr ih => exact Flags.sound_ofCcr ccr
  | registers h registers hflags ih =>
    rw [Checked.SoundFlags, hflags]
    exact ih
  | sync h ih => exact ih
  | memory h memory ih => exact ih

/-- No computation fails that the machine may be asked for: none for its flags, an access to memory
or an operand, and none in an interrupt, an exception, an operation of any opcode or a step. Only
ABCD has to be on bytes that hold two decimal digits each. -/
structure NeverFails (machine : Machine) : Prop where
  /-- Shifts are recorded with the width of an operand and a count from 1 to 63. -/
  shifts : machine.registers.flags.Sound
  ccr : Checked.Flags.ccr machine.registers.flags = .ok machine.registers.flags.ccr
  holds : ∀ condition, Checked.Flags.holds machine.registers.flags condition =
    .ok (machine.registers.flags.holds condition)
  status : Checked.Registers.statusRegister machine.registers =
    .ok machine.registers.statusRegister
  read : ∀ code address size, (Checked.Space.read code address machine.memory size).run =
    .ok (machine.memory.read code address size)
  write : ∀ code address size value,
    Checked.Space.write code address machine.memory size value =
      .ok (machine.memory.write code address size value)
  address : ∀ size (operand : Operand size),
    Checked.Operand.address operand machine = .ok (operand.address.run machine)
  get : ∀ size (operand : Operand size),
    Checked.Operand.get operand machine = .ok (operand.get.run machine)
  put : ∀ size (operand : Operand size) value,
    Checked.Operand.put operand value machine = .ok ((operand.put value).run machine)
  finish : ∀ size (operand : Operand size),
    Checked.Operand.finish operand machine = .ok (operand.finish.run machine)
  interrupt : ∀ level vector, Checked.Interrupts.request machine.interrupts level vector =
    .ok (machine.interrupts.request level vector)
  exception : ∀ vector returnAddress,
    Checked.Exec.enterException vector returnAddress machine =
      .ok ((enterException vector returnAddress).run machine)
  execute : ∀ operation opcode, operation.AddsDecimals opcode machine →
    Checked.Operation.execute operation opcode machine =
      .ok ((operation.execute opcode).run machine)
  step : (∀ opcode next operation, beginStep.run machine = .ok opcode next →
      instructionSet.lookup opcode = some operation → operation.AddsDecimals opcode next) →
    Checked.step machine = .ok ((M68000.step handlers).run machine)

/-- Sound flags are all that a machine needs. -/
theorem neverFails_of_soundFlags {machine : Machine} (h : Checked.SoundFlags machine) :
    machine.NeverFails where
  shifts := h
  ccr := Checked.Flags.ccr_eq h
  holds := Checked.Flags.holds_eq h
  status := Checked.Registers.statusRegister_eq h
  read code address size := by rw [Checked.Space.read_eq]; rfl
  write code address size value := Checked.Space.write_eq ..
  address _ operand := (Checked.Operand.agrees_address operand).outcome machine h
  get _ operand := (Checked.Operand.agrees_get operand).outcome machine h
  put _ operand value := (Checked.Operand.agrees_put operand value).outcome machine h
  finish _ operand := (Checked.Operand.agrees_finish operand).outcome machine h
  interrupt := Checked.Interrupts.request_eq machine.interrupts
  exception vector returnAddress :=
    (Checked.Exec.agrees_enterException vector returnAddress).outcome machine h
  execute _ opcode := Checked.execute_outcome opcode h
  step := Checked.step_outcome h

/-- In whatever way a machine has been reached, no computation fails. -/
theorem neverFails_of_reachable {machine : Machine} (h : machine.Reachable) :
    machine.NeverFails :=
  neverFails_of_soundFlags h.soundFlags

/-- Shifts a word to the right, as often as a register says. -/
def shiftingProgram : Machine where
  registers := { d := #v[0, 63, 0, 0, 0, 0, 0, 0] }
  memory := .ram { size := 0x10, written := .ofList [(0x00, (0xE2 : Byte)), (0x01, 0x60)] }

/-- The largest count is recorded with the word. -/
theorem neverFails_of_reachable_shifted : ∃ machine : Machine, machine.Reachable ∧
    machine.registers.flags.codes = ⟨.asr, 0, 0, 63, 16⟩ ∧ machine.NeverFails := by
  have hshift : instructionSet.lookup 0xE260 =
      some (.shiftRegister .arithmetic .right .register .word) := by
    rw [lookup_instructionSet]
    decide +kernel
  have hstart : shiftingProgram.Reachable := (Reachable.new _ none).registers _ rfl
  obtain ⟨final, hrun, hcodes⟩ : ∃ final,
      (M68000.step handlers).run shiftingProgram = .ok .next final ∧
        final.registers.flags.codes = ⟨.asr, 0, 0, 63, 16⟩ :=
    ⟨_, run_step_of_lookup hshift rfl rfl rfl, rfl⟩
  have hreachable := hstart.step
  rw [Exec.after_of_run_eq_ok hrun] at hreachable
  exact ⟨final, hreachable, hcodes, neverFails_of_reachable hreachable⟩

end Machine

end M68000
