import M68000.Proofs.Exec.Maintains

/-!
# What access to operands changes

Reading changes nothing but the record of accesses, and finishing with an operand nothing but the
address register that its mode steps.
-/

namespace M68000

/-! ## Reading -/

/-- The machines that differ from a given one in the accesses seen only. -/
def Machine.Traced (start machine : Machine) : Prop :=
  ∃ trace, machine = { start with trace }

theorem Machine.ignoresTrace_traced (start : Machine) : IgnoresTrace start.Traced where
  trace machine trace := by
    rintro ⟨_, rfl⟩
    exact ⟨trace, rfl⟩

section Reading

open Exec

variable {α : Type} {action : Exec α} {machine next : Machine}

/-- A reading action that is done leaves the machine as it was, apart from the accesses seen. -/
theorem exists_trace_of_run_eq_ok (h : ∀ start : Machine, Maintains start.Traced action) {a : α}
    (hrun : action.run machine = .ok a next) : ∃ trace, next = { machine with trace } := by
  have htraced := h machine machine ⟨machine.trace, rfl⟩
  rw [after_of_run_eq_ok hrun] at htraced
  exact htraced

theorem Operand.exists_trace_of_run_get {size : Size} {operand : Operand size}
    {value : size.Value} (hrun : operand.get.run machine = .ok value next) :
    ∃ trace, next = { machine with trace } :=
  exists_trace_of_run_eq_ok
    (fun start ↦ start.ignoresTrace_traced.maintains_get operand) hrun

end Reading

/-! ## Finishing -/

namespace Operand

variable {size : Size} (operand : Operand size)

/-- The registers after the step of a post-increment or pre-decrement mode. -/
def finished (registers : Registers) : Registers :=
  match operand.mode with
  | .postIncrement number =>
    registers.setA number (registers.getA number + BitVec.ofNat 32 (size.step number))
  | .preDecrement number =>
    registers.setA number (registers.getA number - BitVec.ofNat 32 (size.step number))
  | _ => registers

@[simp]
theorem run_finish (machine : Machine) :
    operand.finish.run machine =
      .ok () { machine with registers := operand.finished machine.registers } := by
  unfold finish finished
  cases operand.mode <;> rfl

/-- Only address registers change. -/
theorem exists_finished (registers : Registers) :
    ∃ a, operand.finished registers = { registers with a } := by
  unfold finished
  split <;> exact ⟨_, rfl⟩

@[simp]
theorem pc_finished (registers : Registers) : (operand.finished registers).pc = registers.pc := by
  unfold finished
  split <;> rfl

@[simp]
theorem flags_finished (registers : Registers) :
    (operand.finished registers).flags = registers.flags := by
  unfold finished
  split <;> rfl

@[simp]
theorem getD_finished (registers : Registers) (number : Fin 8) :
    (operand.finished registers).getD number = registers.getD number := by
  unfold finished
  split <;> rfl

/-- Finishing with an operand that has been read keeps what is stable. -/
theorem inv_finished {inv : Machine → Prop} (stable : Stable inv) {machine : Machine}
    (trace : Option (List BusAccess)) (hinv : inv machine) :
    inv { machine with registers := operand.finished machine.registers, trace } := by
  unfold finished
  split <;> exact stable.trace _ trace (stable.registers machine _ _ _ _ hinv)

end Operand

end M68000
