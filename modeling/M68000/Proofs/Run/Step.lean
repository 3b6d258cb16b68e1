import M68000.Proofs.Dispatch.Lookup
import M68000.Proofs.Exception.Trap

/-!
# Steps

A step begins with an interrupt that is due and with the opcode, performs what the opcode stands
for, and ends with a request for the end of the run. Whether its instruction enters an exception
can be told once the opcode has been fetched. If it does not, and no interrupt is due, the step
maintains the stable properties of user state.
-/

namespace M68000

open Exec

/-! ## The parts of a step -/

/-- Fetches the opcode of a step and notes it. -/
def fetchOpcode : Exec Opcode := do
  let opcode ← fetchWord 0
  modify fun machine ↦ { machine with opcode }
  return opcode

/-- What a step does before the instruction. -/
def beginStep : Exec Opcode := do
  modify (·.syncPrivilege)
  acceptInterrupt
  fetchOpcode

/-- The instruction of a step. -/
def perform (table : Table Handler) (opcode : Opcode) : Exec Unit :=
  match table.lookup opcode with
  | some handler => handler opcode
  | none => illegal

theorem step_eq (table : Table Handler) :
    step table = (do
      let opcode ← beginStep
      perform table opcode
      takeExit) := by
  unfold step beginStep fetchOpcode perform
  simp only [bind_assoc, pure_bind]
  refine bind_congr fun _ ↦ bind_congr fun _ ↦ bind_congr fun opcode ↦ bind_congr fun _ ↦ ?_
  cases table.lookup opcode <;> rfl

theorem perform_of_lookup {operation : Operation} {opcode : Opcode}
    (hlookup : instructionSet.lookup opcode = some operation) :
    perform handlers opcode = operation.execute opcode := by
  rw [perform, lookup_handlers, hlookup]
  rfl

theorem perform_of_lookup_eq_none {opcode : Opcode}
    (hlookup : instructionSet.lookup opcode = none) : perform handlers opcode = illegal := by
  rw [perform, lookup_handlers, hlookup]
  rfl

/-- A step whose parts are done is done. -/
theorem run_step_of_handler {table : Table Handler} {handler : Handler}
    {machine next performed final : Machine} {opcode : Opcode} {progress : Progress}
    (hlookup : table.lookup opcode = some handler)
    (hbegin : beginStep.run machine = .ok opcode next)
    (hhandler : (handler opcode).run next = .ok () performed)
    (hexit : takeExit.run performed = .ok progress final) :
    (step table).run machine = .ok progress final := by
  rw [step_eq, EStateM.run_bind, hbegin]
  simp only [perform, hlookup, EStateM.run_bind, hhandler, hexit]

theorem run_step_of_lookup {machine next performed final : Machine} {opcode : Opcode}
    {operation : Operation} {progress : Progress}
    (hlookup : instructionSet.lookup opcode = some operation)
    (hbegin : beginStep.run machine = .ok opcode next)
    (hexecute : (operation.execute opcode).run next = .ok () performed)
    (hexit : takeExit.run performed = .ok progress final) :
    (step handlers).run machine = .ok progress final :=
  run_step_of_handler (by rw [lookup_handlers, hlookup, Option.map_some]) hbegin hexecute hexit

variable {machine final : Machine}

/-- The end of a step always says how to go on, and withdraws a request at most. -/
theorem exists_run_takeExit (machine : Machine) :
    ∃ progress exitRequest, takeExit.run machine = .ok progress { machine with exitRequest } := by
  unfold takeExit
  rw [EStateM.run_bind, EStateM.run_get]
  cases hrequest : machine.exitRequest with
  | some status =>
    simp only [hrequest]
    exact ⟨.exit status, none, rfl⟩
  | none =>
    simp only [hrequest]
    exact ⟨.next, machine.exitRequest, rfl⟩

theorem exists_of_run_takeExit {progress : Progress}
    (hrun : takeExit.run machine = .ok progress final) :
    ∃ exitRequest, final = { machine with exitRequest } := by
  obtain ⟨_, exitRequest, htake⟩ := exists_run_takeExit machine
  exact ⟨exitRequest, (EStateM.Result.ok.inj (hrun.symm.trans htake)).2⟩

/-- Where no interrupt is due, a step begins with the opcode. -/
theorem run_beginStep_of_not_due (hdue : machine.dueInterrupt? = none) :
    ∃ interrupts,
      beginStep.run machine = fetchOpcode.run { machine.syncPrivilege with interrupts } := by
  have hsynced : machine.syncPrivilege.dueInterrupt? = none := hdue
  obtain ⟨interrupts, haccept, -⟩ := run_acceptInterrupt_of_not_due hsynced
  refine ⟨interrupts, ?_⟩
  unfold beginStep
  rw [EStateM.run_bind, EStateM.run_modify]
  simp only [EStateM.run_bind, haccept]

/-- The exception that the instruction of the next step enters itself. -/
def Machine.raised? (machine : Machine) : Option Trap :=
  match beginStep.run machine with
  | .ok opcode next => (instructionSet.lookup opcode).bind (·.trap? opcode next)
  | .error .. => none

theorem Machine.raised?_eq_trap? {next : Machine} {opcode : Opcode} {operation : Operation}
    (hbegin : beginStep.run machine = .ok opcode next)
    (hlookup : instructionSet.lookup opcode = some operation) :
    machine.raised? = operation.trap? opcode next := by
  rw [raised?, hbegin]
  simp only [hlookup, Option.bind_some]

/-- The machine after a number of steps, which go on after a fault. -/
def Machine.afterSteps (machine : Machine) : Nat → Machine
  | 0 => machine
  | count + 1 => (step handlers).after (machine.afterSteps count)

/-! ## Stable properties -/

section Notes

variable {inv : Machine → Prop}

theorem maintains_fetchOpcode_of_notes (hfetch : Maintains inv (fetchWord 0))
    (hopcode : ∀ machine opcode, inv machine → inv { machine with opcode }) :
    Maintains inv fetchOpcode := by
  refine maintains_bind hfetch fun opcode ↦ ?_
  refine maintains_bind (maintains_modify fun machine ↦ ?_) fun _ ↦ maintains_pure opcode
  exact hopcode machine opcode

theorem maintains_takeExit_of_notes
    (hexit : ∀ machine, inv machine → inv { machine with exitRequest := none }) :
    Maintains inv takeExit := by
  refine maintains_bind maintains_get fun machine ↦ ?_
  cases machine.exitRequest with
  | some status => exact maintains_bind (maintains_modify hexit) fun _ ↦ maintains_pure _
  | none => exact maintains_pure _

end Notes

/-- A stable property that does not depend on what steps note down either. -/
structure StableInSteps (inv : Machine → Prop) : Prop extends Stable inv where
  notes : ∀ machine opcode interrupts exitRequest, inv machine →
    inv { machine with opcode, interrupts, exitRequest }

namespace StableInSteps

variable {inv : Machine → Prop} (stable : StableInSteps inv)

include stable

theorem maintains_fetchOpcode : Maintains inv fetchOpcode :=
  maintains_fetchOpcode_of_notes (stable.maintains_fetchWord 0) fun machine opcode ↦
    stable.notes machine opcode machine.interrupts machine.exitRequest

theorem maintains_takeExit : Maintains inv takeExit :=
  maintains_takeExit_of_notes fun machine ↦
    stable.notes machine machine.opcode machine.interrupts none

section NotDue

variable (hdue : machine.dueInterrupt? = none) (hsync : inv machine.syncPrivilege)

include hdue hsync

theorem inv_after_beginStep : inv (beginStep.after machine) := by
  obtain ⟨interrupts, hbegin⟩ := run_beginStep_of_not_due hdue
  rw [after, hbegin]
  exact stable.maintains_fetchOpcode _ (stable.notes _ machine.opcode interrupts _ hsync)

/-- A step without an exception maintains what is stable and implies user state. -/
theorem inv_after_step (huser : ∀ machine, inv machine → machine.registers.supervisor = false)
    (hraised : machine.raised? = none) : inv ((step handlers).after machine) := by
  rw [step_eq]
  refine inv_after_bind (stable.inv_after_beginStep hdue hsync) fun opcode next hbegin hnext ↦ ?_
  refine inv_after_bind ?_ fun _ final _ ↦ stable.maintains_takeExit final
  rw [Machine.raised?, hbegin] at hraised
  cases hlookup : instructionSet.lookup opcode with
  | none =>
    rw [perform_of_lookup_eq_none hlookup]
    exact maintains_illegal next hnext
  | some operation =>
    rw [perform_of_lookup hlookup]
    simp only [hlookup, Option.bind_some] at hraised
    exact Operation.after_execute_of_trap?_eq_none stable.toStable huser hraised hnext

/-- A step whose instruction enters an exception does so from a machine with what is stable. -/
theorem exists_entersException_of_raised? {trap : Trap} {progress : Progress}
    (hraised : machine.raised? = some trap)
    (hrun : (step handlers).run machine = .ok progress final) :
    ∃ before entered exitRequest, inv before ∧ before.registers = trap.registers ∧
      EntersException trap.vector trap.returnAddress before entered ∧
      final = { entered with exitRequest } := by
  have hbegun := stable.inv_after_beginStep hdue hsync
  rw [step_eq] at hrun
  obtain ⟨opcode, next, hbegin, hrun⟩ := run_bind_eq_ok.1 hrun
  obtain ⟨_, entered, hperform, hrun⟩ := run_bind_eq_ok.1 hrun
  obtain ⟨exitRequest, rfl⟩ := exists_of_run_takeExit hrun
  rw [after_of_run_eq_ok hbegin] at hbegun
  rw [Machine.raised?, hbegin] at hraised
  obtain ⟨operation, hlookup, htrap⟩ := Option.bind_eq_some_iff.1 hraised
  obtain ⟨trace, hexecute⟩ := Operation.run_execute_of_trap? htrap
  rw [perform_of_lookup hlookup, hexecute] at hperform
  exact ⟨_, entered, exitRequest, Operation.inv_of_trap? stable.toStable htrap trace hbegun, rfl,
    entersException_of_run hperform, rfl⟩

end NotDue

end StableInSteps

end M68000
