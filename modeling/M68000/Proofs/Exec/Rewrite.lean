import M68000.Proofs.Exec.Faults
import M68000.Proofs.Exec.Location
import M68000.Proofs.Memory.Stopped

/-!
# Operands that are read and written back

An instruction that changes an operand writes it where it has read it, and steps its address
register then. In memory it can fault before it has read the operand, and then nothing has happened,
or when the result is refused. If the result goes to one memory whole, all that is left then is what
had been recorded for the flags before. The instruction can be tried again, and what it does then is
what it would have done at once, as long as neither the result nor the flags depend on flags that
are different now.
-/

namespace M68000

open Exec

/-- What an instruction makes of an operand. -/
structure Rewrite (size : Size) where
  /-- What is recorded for the flags before the operand is written. -/
  early : size.Value → Flags → Flags
  /-- What is written, if anything. It may depend on the flags from before. -/
  result? : size.Value → Flags → Option size.Value
  /-- What is recorded in the end, and may depend on the flags from before too. -/
  late : size.Value → Flags → Flags → Flags

/-- The flags are recorded at once, and then stay. -/
def Rewrite.recordFirst (record : size.Value → Flags → Flags)
    (result? : size.Value → Flags → Option size.Value) : Rewrite size where
  early := record
  result? := result?
  late _ _ flags := flags

/-- The same is made of any operand with the one flags and with the other. -/
def Rewrite.Agrees (rewrite : Rewrite size) (first second : Flags) : Prop :=
  ∀ value, rewrite.early value first = rewrite.early value second ∧
    rewrite.result? value first = rewrite.result? value second ∧
    rewrite.late value first = rewrite.late value second

theorem Rewrite.Agrees.refl (rewrite : Rewrite size) (flags : Flags) :
    rewrite.Agrees flags flags :=
  fun _ ↦ ⟨rfl, rfl, rfl⟩

namespace Exec

variable {action : Exec α} {machine next final : Machine} {fault : Fault}

/-- A reading action that faults leaves the machine as it was, apart from the accesses seen. -/
theorem exists_trace_of_run_eq_error (h : ∀ start : Machine, Maintains start.Traced action)
    (hrun : action.run machine = .error fault final) : ∃ trace, final = { machine with trace } := by
  have htraced := h machine machine ⟨machine.trace, rfl⟩
  rw [after_of_run_eq_error hrun] at htraced
  exact htraced

/-- An action that ignores the flags leaves them alone. -/
theorem Blind.flags_eq (hblind : Blind action) {a : α}
    (hrun : action.run machine = .ok a next) : next.registers.flags = machine.registers.flags := by
  obtain ⟨trace, hrun'⟩ :=
    hblind machine a next hrun machine.registers.flags machine.opcode machine.trace
  have hnext : next = next.marked machine.registers.flags machine.opcode trace :=
    (EStateM.Result.ok.inj (hrun.symm.trans hrun')).2
  rw [hnext]
  rfl

end Exec

namespace Operand

variable {size : Size} {operand : Operand size} {machine next final : Machine} {fault : Fault}
  {flags : Flags} {opcode : Opcode} {trace : Option (List BusAccess)}

/-- Writes a value, if there is one. -/
def putAny (operand : Operand size) : Option size.Value → Exec Unit
  | some value => operand.put value
  | none => pure ()

/-- Writes a value, if there is one, and is done with the operand. -/
def leave (operand : Operand size) (result? : Option size.Value) : Exec Unit := do
  operand.putAny result?
  operand.finish

/-- Reads an operand, records flags, writes what comes out, is done with the operand and records
flags again. -/
def rewrite (operand : Operand size) (rewrite : Rewrite size) : Exec Unit := do
  let value ← operand.get
  let before ← Exec.flags
  modifyFlags (rewrite.early value)
  operand.leave (rewrite.result? value before)
  modifyFlags (rewrite.late value before)

variable {rewrite : Rewrite size}

theorem run_rewrite_of_run_get {value : size.Value}
    (hget : operand.get.run machine = .ok value next) :
    (operand.rewrite rewrite).run machine = (do
      operand.leave (rewrite.result? value next.registers.flags)
      modifyFlags (rewrite.late value next.registers.flags)).run
        (next.marked (rewrite.early value next.registers.flags) next.opcode next.trace) := by
  rw [Operand.rewrite, EStateM.run_bind, hget]
  rfl

/-! ## What is left behind -/

/-- The operand is written where it was found, and its address register steps. -/
theorem exists_of_run_leave {location : Location} {result? : Option size.Value}
    (hlies : operand.LiesAt machine location)
    (hrun : (operand.leave result?).run (machine.marked flags opcode trace) = .ok () final) :
    ∃ registers memory trace', location.StoresAny machine result? registers memory ∧
      final = { machine with
        registers := { operand.finished registers with flags }, memory, opcode,
        trace := trace' } := by
  obtain ⟨_, written, hput, hfinish⟩ := run_bind_eq_ok.1 hrun
  rw [run_finish] at hfinish
  cases hfinish
  cases result? with
  | none =>
    cases hput
    refine ⟨machine.registers, machine.memory, trace, ⟨rfl, rfl⟩, ?_⟩
    rw [Machine.marked, finished_flags]
  | some result =>
    obtain ⟨registers, memory, trace', hstores, rfl⟩ := exists_stores_of_run_put hlies hput
    refine ⟨registers, memory, trace', hstores, ?_⟩
    rw [finished_flags]

/-- The operand is read and written at one location. -/
theorem exists_of_run_rewrite (hmode : operand.mode.isDataAlterable = true)
    (hrun : (operand.rewrite rewrite).run machine = .ok () final) :
    ∃ location value registers memory trace,
      operand.Reads machine value ∧ operand.LiesAt machine location ∧
      location.Holds machine.dataCode machine value ∧
      location.StoresAny machine (rewrite.result? value machine.registers.flags) registers memory ∧
      final = { machine with
        registers := { operand.finished registers with
          flags := rewrite.late value machine.registers.flags
            (rewrite.early value machine.registers.flags) }
        memory, trace } := by
  obtain ⟨value, read, hget, -⟩ := run_bind_eq_ok.1 hrun
  obtain ⟨location, hlies, hholds⟩ := exists_location_of_run_get hmode hget
  obtain ⟨trace, rfl⟩ := exists_trace_of_run_get hget
  rw [run_rewrite_of_run_get hget] at hrun
  obtain ⟨_, left, hleave, hlate⟩ := run_bind_eq_ok.1 hrun
  cases hlate
  obtain ⟨registers, memory, trace', hstores, rfl⟩ := exists_of_run_leave hlies hleave
  exact ⟨location, value, registers, memory, trace', ⟨_, hget⟩, hlies, hholds, hstores, rfl⟩

theorem modifyFlags_id : modifyFlags (fun flags ↦ flags) = (pure () : Exec Unit) :=
  rfl

theorem rewrite_recordFirst (operand : Operand size) (record : size.Value → Flags → Flags)
    (result? : size.Value → Flags → Option size.Value) :
    operand.rewrite (.recordFirst record result?) = operand.modify record result? := by
  unfold rewrite modify leave
  refine bind_congr fun value ↦ bind_congr fun before ↦ bind_congr fun _ ↦ ?_
  simp only [Rewrite.recordFirst, modifyFlags_id, bind_pure_unit]
  cases result? value before with
  | none => rfl
  | some result => rfl

/-- The flags follow from what the operand was, and the result is at its location. -/
theorem exists_of_run_modify {record : size.Value → Flags → Flags}
    {result? : size.Value → Flags → Option size.Value}
    (hmode : operand.mode.isDataAlterable = true)
    (hrun : (operand.modify record result?).run machine = .ok () final) :
    ∃ location value registers memory trace,
      operand.LiesAt machine location ∧ location.Holds machine.dataCode machine value ∧
      location.StoresAny machine (result? value machine.registers.flags) registers memory ∧
      final = { machine with
        registers := { operand.finished registers with
          flags := record value machine.registers.flags }
        memory, trace } := by
  rw [← rewrite_recordFirst] at hrun
  obtain ⟨location, value, registers, memory, trace, -, hlies, hholds, hstores, hfinal⟩ :=
    exists_of_run_rewrite hmode hrun
  exact ⟨location, value, registers, memory, trace, hlies, hholds, hstores, hfinal⟩

/-! ## Faults -/

/-- If the operand has been found before, it is the write that is refused. -/
theorem fault_of_run_put {address : Address} {value : size.Value} {refusal : BusError}
    (hlies : operand.LiesAt machine (.memory address))
    (hatomic : (machine.memory.write machine.dataCode address size value).Atomic machine.memory
      refusal)
    (hrun : (operand.put value).run (machine.marked flags opcode trace) = .error fault final) :
    fault = .bus refusal ∧ ∃ trace', final = machine.marked flags opcode trace' := by
  obtain ⟨trace', hfound⟩ := exists_run_address_marked hlies flags opcode trace
  rw [put_eq_of_inMemory hlies.1] at hrun
  obtain hrun | ⟨_, _, hfound', hwrite⟩ := run_bind_eq_error.1 hrun
  · rw [hfound] at hrun
    cases hrun
  · obtain ⟨rfl, rfl⟩ := EStateM.Result.ok.inj (hfound.symm.trans hfound')
    obtain ⟨found, memory, houtcome, rfl, rfl⟩ := run_writeAs_eq_error.1 hwrite
    obtain ⟨rfl, rfl⟩ := hatomic found memory houtcome
    exact ⟨rfl, _, rfl⟩

theorem infallible_finish (operand : Operand size) : Infallible operand.finish :=
  fun machine ↦ ⟨(), _, operand.run_finish machine⟩

/-- Nothing but the write can fail. -/
theorem exists_of_run_leave_eq_error {result? : Option size.Value}
    (hrun : (operand.leave result?).run machine = .error fault final) :
    ∃ result, result? = some result ∧ (operand.put result).run machine = .error fault final := by
  obtain hput | ⟨_, written, -, hfinish⟩ := run_bind_eq_error.1 hrun
  · cases result? with
    | none => cases hput
    | some result => exact ⟨result, rfl, hput⟩
  · exact absurd hfinish (operand.infallible_finish.run_ne_error written fault final)

/-- Before the operand is written nothing has happened, and when it is refused only flags have been
recorded. -/
theorem fault_of_run_rewrite {refusal : Address → BusError}
    (hmemory : operand.mode.inMemory = true)
    (hrun : (operand.rewrite rewrite).run machine = .error fault final)
    (hatomic : ∀ address, operand.LiesAt machine (.memory address) → ∀ value,
      (machine.memory.write machine.dataCode address size value).Atomic machine.memory
        (refusal address)) :
    ∃ flags trace, final = machine.marked flags machine.opcode trace ∧
      (flags = machine.registers.flags ∨ ∃ address value,
        operand.LiesAt machine (.memory address) ∧ operand.Reads machine value ∧
        fault = .bus (refusal address) ∧ flags = rewrite.early value machine.registers.flags) := by
  obtain hget | ⟨value, next, hget, -⟩ := run_bind_eq_error.1 hrun
  · obtain ⟨trace, rfl⟩ := exists_trace_of_run_eq_error
      (fun start ↦ start.ignoresTrace_traced.maintains_get operand) hget
    exact ⟨machine.registers.flags, trace, rfl, .inl rfl⟩
  · obtain ⟨address, hlies, -⟩ := exists_address_of_run_get hmemory hget
    obtain ⟨trace, rfl⟩ := exists_trace_of_run_get hget
    rw [run_rewrite_of_run_get hget] at hrun
    obtain hleave | ⟨_, written, -, hlate⟩ := run_bind_eq_error.1 hrun
    · obtain ⟨result, -, hput⟩ := exists_of_run_leave_eq_error hleave
      obtain ⟨rfl, trace', rfl⟩ := fault_of_run_put hlies (hatomic address hlies result) hput
      exact ⟨_, trace', rfl, .inr ⟨address, value, hlies, ⟨_, hget⟩, rfl, rfl⟩⟩
    · cases hlate

/-! ## Repetitions -/

theorem blind_finish (operand : Operand size) : Blind operand.finish := by
  intro machine done next hrun flags opcode trace
  rw [run_finish] at hrun
  cases hrun
  refine ⟨trace, ?_⟩
  rw [run_finish, Machine.marked, finished_flags]
  rfl

theorem blind_leave (operand : Operand size) (result? : Option size.Value) :
    Blind (operand.leave result?) := by
  refine blind_bind ?_ fun _ ↦ blind_finish operand
  cases result? with
  | none => exact blind_pure ()
  | some result => exact blind_put operand result

/-- With flags of which the same is made, and whatever accesses have been seen before, the same is
done. -/
theorem exists_run_rewrite_marked (hagrees : rewrite.Agrees flags machine.registers.flags)
    (hrun : (operand.rewrite rewrite).run machine = .ok () final) (opcode : Opcode)
    (trace : Option (List BusAccess)) :
    ∃ trace', (operand.rewrite rewrite).run (machine.marked flags opcode trace) =
      .ok () (final.marked final.registers.flags opcode trace') := by
  obtain ⟨value, next, hget, -⟩ := run_bind_eq_ok.1 hrun
  obtain ⟨trace', hget'⟩ := blind_operandGet operand machine value next hget flags opcode trace
  have hflags := (blind_operandGet operand).flags_eq hget
  obtain ⟨hearly, hresult, hlate⟩ := hagrees value
  rw [run_rewrite_of_run_get hget, hflags] at hrun
  obtain ⟨_, left, hleave, hlast⟩ := run_bind_eq_ok.1 hrun
  cases hlast
  have hblind := blind_leave operand (rewrite.result? value machine.registers.flags)
  have hrecorded := hblind.flags_eq hleave
  obtain ⟨trace'', hleave'⟩ := hblind _ _ _ hleave left.registers.flags opcode trace'
  -- Both machines have recorded the same flags now, so that the rest is done alike.
  have hstart : (next.marked (rewrite.early value machine.registers.flags) next.opcode
      next.trace).marked left.registers.flags opcode trace' =
        next.marked (rewrite.early value machine.registers.flags) opcode trace' := by
    rw [hrecorded]
    rfl
  rw [hstart, ← hearly, ← hresult] at hleave'
  rw [← hlate]
  refine ⟨trace'', ?_⟩
  rw [run_rewrite_of_run_get hget']
  exact run_bind_eq_ok.2 ⟨(), _, hleave', rfl⟩

end Operand

end M68000
