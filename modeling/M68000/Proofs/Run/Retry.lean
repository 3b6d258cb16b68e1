import M68000.Proofs.Exec.Rewriting
import M68000.Proofs.Run.Faults

/-!
# Steps that are tried again

A step whose instruction changes an operand in memory, and finds an access refused, leaves the
registers and the memory as they were. Only flags may have been recorded, if the operand could be
read and not be written. So once the access is allowed the step can be tried again, and ends as if
the access had been allowed at once. The exceptions are the operations that work with X and record
it before they write.
-/

namespace M68000

open Exec

/-! ## Steps without an interrupt -/

namespace Interrupts

variable (interrupts : Interrupts)

/-- The requests after a step that found none of them due. -/
def passed : Interrupts :=
  if interrupts.pending then interrupts.refresh else interrupts

theorem passed_passed : interrupts.passed.passed = interrupts.passed := by
  cases hpending : interrupts.pending with
  | false =>
    have hpassed : interrupts.passed = interrupts := by rw [passed, hpending]; rfl
    rw [hpassed, hpassed]
  | true =>
    have hpassed : interrupts.passed = interrupts.refresh := by rw [passed, if_pos hpending]
    rw [hpassed, passed]
    split <;> rfl

end Interrupts

/-- The machine that a step fetches its opcode on, where no interrupt is due. -/
def Machine.ready (machine : Machine) : Machine :=
  { machine.syncPrivilege with interrupts := machine.interrupts.passed }

variable {machine final : Machine} {fault : Fault} {flags : Flags} {noted : Opcode}
  {trace : Option (List BusAccess)}

theorem run_acceptInterrupt_eq_ready (hdue : machine.dueInterrupt? = none) :
    acceptInterrupt.run machine.syncPrivilege = .ok () machine.ready := by
  have hsynced : machine.syncPrivilege.dueInterrupt? = none := hdue
  cases hpending : machine.interrupts.pending with
  | false =>
    have hpending' : machine.syncPrivilege.interrupts.pending = false := hpending
    rw [run_acceptInterrupt_of_not_pending hpending', Machine.ready, Interrupts.passed, hpending]
    rfl
  | true =>
    have hpending' : machine.syncPrivilege.interrupts.pending = true := hpending
    rw [run_acceptInterrupt_of_pending hpending' hsynced, Machine.ready, Interrupts.passed,
      if_pos hpending]
    rfl

theorem run_step_of_not_due (table : Table Handler) (hdue : machine.dueInterrupt? = none) :
    (step table).run machine = (do
      let opcode ← fetchOpcode
      perform table opcode
      takeExit).run machine.ready := by
  rw [step_eq, beginStep]
  simp only [bind_assoc, EStateM.run_bind, EStateM.run_modify, run_acceptInterrupt_eq_ready hdue]

/-- Requests that were not due are not due the next time. -/
theorem dueInterrupt?_of_passed (hdue : machine.dueInterrupt? = none) {other : Machine}
    (hinterrupts : other.interrupts = machine.interrupts.passed)
    (hmask : other.registers.interruptMask = machine.registers.interruptMask) :
    other.dueInterrupt? = none := by
  rw [Machine.dueInterrupt?] at hdue ⊢
  rw [hinterrupts, hmask]
  cases hpending : machine.interrupts.pending with
  | false =>
    have hpassed : machine.interrupts.passed.pending = false := by
      rw [Interrupts.passed, hpending]
      exact hpending
    rw [hpassed]
    rfl
  | true =>
    rw [if_pos hpending] at hdue
    rw [Interrupts.passed, if_pos hpending]
    exact ite_eq_right_iff.2 fun _ ↦ hdue

/-- A machine that a step has left behind with other flags is ready again. -/
theorem Machine.ready_marked (memory : Space) :
    ({ machine.ready.marked flags noted trace with memory } : Machine).ready =
      ({ machine with memory } : Machine).ready.marked flags noted trace := by
  unfold ready marked syncPrivilege
  simp only [Interrupts.passed_passed]

/-! ## Faults -/

/-- The opcode that is fetched, if any is, stands for an operation that rewrites an operand in
memory. -/
structure Machine.Rewrites (machine : Machine) (opcode : Opcode) (operation : Operation)
    (rewriting : Rewriting) (mode : Mode) : Prop where
  fetched : ∀ found, machine.memory.read ⟨machine.registers.supervisor, true⟩ machine.registers.pc
    .word = .ok found → found = opcode
  lookup : instructionSet.lookup opcode = some operation
  form : operation.rewriting? opcode = some rewriting
  operand : Mode.ofField? opcode.operandField = some mode
  inMemory : mode.inMemory = true

variable {opcode : Opcode} {operation : Operation} {rewriting : Rewriting} {mode : Mode}

/-- A step that faults leaves behind the registers and the memory, and the flags as they were or as
they were recorded before the operand was refused. -/
theorem fault_of_run_step {refusal : Address → BusError} (hdue : machine.dueInterrupt? = none)
    (hrewrites : machine.Rewrites opcode operation rewriting mode)
    (hatomic : ∀ address, (rewriting.operand mode).LiesAt machine.ready (.memory address) →
      ∀ value, (machine.memory.write ⟨machine.registers.supervisor, false⟩ address rewriting.size
        value).Atomic machine.memory (refusal address))
    (hrun : (step handlers).run machine = .error fault final) :
    ∃ flags noted trace, final = machine.ready.marked flags noted trace ∧
      (flags = machine.registers.flags ∨
        rewriting.Recorded mode machine.ready refusal fault flags) := by
  rw [run_step_of_not_due handlers hdue] at hrun
  obtain hfetch | ⟨found, fetched, hfetch, hrun⟩ := run_bind_eq_error.1 hrun
  · obtain hword | ⟨_, _, -, hnoted⟩ := run_bind_eq_error.1 hfetch
    · obtain ⟨trace, rfl⟩ := exists_trace_of_run_eq_error
        (fun start ↦ start.ignoresTrace_traced.maintains_fetchWord 0) hword
      exact ⟨machine.registers.flags, machine.opcode, trace, rfl, .inl rfl⟩
    · cases hnoted
  · obtain ⟨trace, hread, hfetched⟩ := exists_of_run_fetchOpcode hfetch
    obtain rfl := hrewrites.fetched found hread
    obtain rfl : fetched = machine.ready.marked machine.registers.flags found trace := hfetched
    obtain hperform | ⟨_, performed, -, hexit⟩ := run_bind_eq_error.1 hrun
    · rw [perform_of_lookup hrewrites.lookup] at hperform
      obtain ⟨flags, trace', rfl, hflags⟩ := Operation.fault_of_run_execute hrewrites.form
        hrewrites.operand hrewrites.inMemory hperform fun address hlies ↦
          hatomic address hlies.of_marked
      exact ⟨flags, found, trace', rfl, hflags.imp id (.of_marked hrewrites.form)⟩
    · exact absurd hexit (infallible_takeExit.run_ne_error performed fault final)

/-! ## Repetitions -/

theorem run_takeExit_with_trace {progress : Progress}
    (hrun : takeExit.run machine = .ok progress final) (trace : Option (List BusAccess)) :
    takeExit.run { machine with trace } = .ok progress { final with trace } := by
  obtain ⟨registers, memory, busSupervisor, opcode, interrupts, exitRequest, _⟩ := machine
  cases exitRequest with
  | none =>
    cases hrun
    rfl
  | some status =>
    cases hrun
    rfl

/-- A step that is done is done in the same way from a machine with flags of which the same is
made, apart from the accesses seen. -/
theorem exists_run_step_again {again done : Machine} {progress : Progress}
    (hdue : machine.dueInterrupt? = none) (hdue' : again.dueInterrupt? = none)
    (hready : again.ready = machine.ready.marked flags noted trace)
    (hrewrites : machine.Rewrites opcode operation rewriting mode)
    (hagrees : ∀ rewrite before after, rewriting.plan.run before = .ok rewrite after →
      rewrite.Agrees flags machine.registers.flags)
    (hrun : (step handlers).run machine = .ok progress done) :
    ∃ trace, (step handlers).run again = .ok progress { done with trace } := by
  rw [run_step_of_not_due handlers hdue] at hrun
  rw [run_step_of_not_due handlers hdue', hready]
  obtain ⟨found, fetched, hfetch, hrun⟩ := run_bind_eq_ok.1 hrun
  obtain ⟨trace₀, hread, rfl⟩ := exists_of_run_fetchOpcode hfetch
  obtain rfl := hrewrites.fetched found hread
  have hread' : (machine.ready.marked flags noted trace).memory.read
      (machine.ready.marked flags noted trace).programCode
        (machine.ready.marked flags noted trace).registers.pc .word = .ok found := hread
  obtain ⟨trace₁, hfetch'⟩ := run_fetchOpcode_of_read hread'
  obtain ⟨_, performed, hperform, hexit⟩ := run_bind_eq_ok.1 hrun
  rw [perform_of_lookup hrewrites.lookup] at hperform
  have hopcode : performed.opcode = found :=
    Operation.opcode_of_run_execute hrewrites.form hrewrites.operand hrewrites.inMemory hperform
  obtain ⟨trace₂, hperform'⟩ := Operation.exists_run_execute_marked hrewrites.form
    hrewrites.operand hrewrites.inMemory hperform fun rewrite next hplan ↦
      hagrees rewrite _ next hplan
  have hexit' := run_takeExit_with_trace hexit trace₂
  refine ⟨trace₂, run_bind_eq_ok.2 ⟨found, _, hfetch', run_bind_eq_ok.2 ⟨(), _, ?_, hexit'⟩⟩⟩
  rw [perform_of_lookup hrewrites.lookup]
  refine hperform'.trans ?_
  rw [Machine.marked, hopcode]

/-- A step that rewrites an operand within a page of a flat map, and faults, leaves the registers
and the memory as they were, apart from the flags that all operations but NBCD record before the
operand is refused. When the accesses are allowed, whatever the memory holds then, the step is done
as it would have been done at once, unless an operation has recorded flags that its result depends
on. -/
theorem faulted_step_repeats {width : BusWidth} {layers : Layers}
    (hmemory : machine.memory = .map width layers) (hsingle : layers.All Space.IsMemory)
    (hdue : machine.dueInterrupt? = none)
    (hrewrites : machine.Rewrites opcode operation rewriting mode)
    (hwhole : ∀ address, (rewriting.operand mode).LiesAt machine.ready (.memory address) →
      width.Whole address rewriting.size.bytes)
    (hrun : (step handlers).run machine = .error fault final) :
    ∃ flags, final.registers = { machine.registers with flags } ∧ final.memory = machine.memory ∧
      (flags = machine.registers.flags ∨ operation ≠ .negateDecimal ∧
        rewriting.Recorded mode machine.ready
          (fun address ↦ ⟨width.truncate address, ⟨machine.registers.supervisor, false⟩, .write⟩)
          fault flags) ∧
      ∀ memory progress done,
        memory.read ⟨machine.registers.supervisor, true⟩ machine.registers.pc .word = .ok opcode →
        (flags = machine.registers.flags ∨ operation.recordsInput = false) →
        (step handlers).run { machine with memory } = .ok progress done →
          ∃ trace, (step handlers).run { final with memory } = .ok progress { done with trace } := by
  have hatomic (address : Address)
      (hlies : (rewriting.operand mode).LiesAt machine.ready (.memory address))
      (value : rewriting.size.Value) :
      (machine.memory.write ⟨machine.registers.supervisor, false⟩ address rewriting.size
        value).Atomic machine.memory
          ⟨width.truncate address, ⟨machine.registers.supervisor, false⟩, .write⟩ := by
    rw [hmemory]
    exact Space.atomic_write_of_whole hsingle (hwhole address hlies) value
  obtain ⟨flags, noted, trace, rfl, hflags⟩ := fault_of_run_step hdue hrewrites hatomic hrun
  refine ⟨flags, rfl, rfl, ?recorded, fun memory progress done hread hforgets hrun ↦ ?repeats⟩
  case recorded =>
    obtain hflags | hrecorded := hflags
    · exact .inl hflags
    · by_cases hdecimal : operation = .negateDecimal
      · obtain ⟨rewrite, _, value, ⟨_, hplan⟩, -, -, -, hearly⟩ := hrecorded
        subst hdecimal
        cases hrewrites.form
        cases hplan
        exact .inl hearly
      · exact .inr ⟨hdecimal, hrecorded⟩
  case repeats =>
    have hrewrites' :
        ({ machine with memory } : Machine).Rewrites opcode operation rewriting mode :=
      { hrewrites with fetched := fun found hfound ↦ Except.ok.inj (hfound.symm.trans hread) }
    have hdue' : ({ machine with memory } : Machine).dueInterrupt? = none := hdue
    refine exists_run_step_again hdue' (dueInterrupt?_of_passed hdue rfl rfl)
      (Machine.ready_marked memory) hrewrites' (fun rewrite before after hplan ↦ ?_) hrun
    -- What has been recorded follows from a value that another memory may not hold any more.
    obtain rfl | ⟨first, _, value, ⟨_, hfirst⟩, -, -, -, rfl⟩ := hflags
    · exact .refl rewrite _
    · obtain hsame | hforgets := hforgets
      · rw [hsame]
        exact .refl rewrite _
      · exact Operation.agrees_of_planned hrewrites.form hforgets hfirst hplan value _

theorem run_step_of_run_execute_eq_error {fetched : Machine}
    (hlookup : instructionSet.lookup opcode = some operation)
    (hbegin : beginStep.run machine = .ok opcode fetched)
    (hexecute : (operation.execute opcode).run fetched = .error fault final) :
    (step handlers).run machine = .error fault final := by
  rw [← perform_of_lookup hlookup] at hexecute
  exact run_step_eq_error.2 (.inr ⟨opcode, fetched, hbegin, hexecute⟩)

/-- A page of memory that holds an opcode, below another page. -/
def guardedMemory (opcode : Opcode) (guarded : Space) : Space :=
  .map (.clamp 24) ((Layers.empty.insert (.clamp 24) 0 0x2000 (.ram
    { size := 0x2000
      written := .ofList [(0x1000, opcode.extractLsb' 8 8), (0x1001, opcode.lowByte)] })).insert
        (.clamp 24) 0x2000 0x2000 guarded)

/-- The bytes zero and one, which can be read only. -/
def readOnlyPage : Space :=
  .rom { image := #[0x00, 0x01], base := 0x2000 }

/-- The same bytes, which can be written too. -/
def writablePage : Space :=
  .ram { size := 0x2000, base := 0x2000, written := .insert {} 1 0x01 }

/-- An instruction that works on the second of these bytes. -/
def guardedProgram (opcode : Opcode) : Machine where
  registers :=
    { d := #v[2, 0, 0, 0, 0, 0, 0, 0]
      a := #v[0x2001, 0, 0, 0, 0, 0, 0, 0]
      pc := 0x1000
      interruptMask := 0 }
  memory := guardedMemory opcode readOnlyPage

/-- Adds a data register to the byte, which is refused at first. -/
theorem faulted_step_repeats_guardedProgram :
    ∃ final, (step handlers).run (guardedProgram 0xD110) =
        .error (.bus ⟨0x2001, .supervisorData, .write⟩) final ∧
      ∃ done, (step handlers).run { final with memory := guardedMemory 0xD110 writablePage } =
          .ok .next done ∧
        done.memory.getByte .supervisorData 0x2001 = .ok 0x03 := by
  have hlookup : instructionSet.lookup 0xD110 = some (.fromRegister .add .byte) := by
    rw [lookup_instructionSet]
    decide +kernel
  have hrewrites : (guardedProgram 0xD110).Rewrites 0xD110 (.fromRegister .add .byte) _
      (.indirect 0) :=
    ⟨fun found hfound ↦ (Except.ok.inj hfound).symm, hlookup, rfl, rfl, rfl⟩
  have hrun : (step handlers).run (guardedProgram 0xD110) = .error _ _ :=
    run_step_of_run_execute_eq_error hlookup rfl rfl
  have hallowed : (step handlers).run
      { guardedProgram 0xD110 with memory := guardedMemory 0xD110 writablePage } = .ok .next _ :=
    run_step_of_lookup hlookup rfl rfl rfl
  have hmemory : (guardedProgram 0xD110).memory = .map (.clamp 24) _ := rfl
  obtain ⟨flags, -, -, -, hrepeats⟩ := faulted_step_repeats hmemory ⟨trivial, trivial, trivial⟩ rfl
    hrewrites (fun address hlies ↦ .inl rfl) hrun
  obtain ⟨trace, hrepeated⟩ := hrepeats _ _ _ rfl (.inr rfl) hallowed
  exact ⟨_, hrun, _, hrepeated, rfl⟩

/-- The machine after NEGX has been refused the byte. -/
def negationRefused : Machine :=
  { guardedProgram 0x4010 with
    registers := { (guardedProgram 0x4010).registers with
      flags := .ofCcr ⟨true, true, false, false, true⟩ }
    opcode := 0x4010 }

/-- Negates the byte with X, which is refused at first. X has been recorded then, and the byte comes
out different. -/
theorem flags_kept_negationRefused :
    (guardedProgram 0x4010).registers.statusRegister = 0x2000 ∧
      (step handlers).run (guardedProgram 0x4010) =
        .error (.bus ⟨0x2001, .supervisorData, .write⟩) negationRefused ∧
      negationRefused.registers.statusRegister = 0x2019 ∧
      (∃ done, (step handlers).run
          { guardedProgram 0x4010 with memory := guardedMemory 0x4010 writablePage } =
            .ok .next done ∧
        done.memory.getByte .supervisorData 0x2001 = .ok 0xFF) ∧
      ∃ done, (step handlers).run
          { negationRefused with memory := guardedMemory 0x4010 writablePage } =
            .ok .next done ∧
        done.memory.getByte .supervisorData 0x2001 = .ok 0xFE := by
  have hlookup : instructionSet.lookup 0x4010 = some (.unary .negx .byte) := by
    rw [lookup_instructionSet]
    decide +kernel
  refine ⟨rfl, ?refused, rfl, ?allowed, ?repeated⟩
  case refused => exact run_step_of_run_execute_eq_error hlookup rfl rfl
  case allowed => exact ⟨_, run_step_of_lookup hlookup rfl rfl rfl, rfl⟩
  case repeated => exact ⟨_, run_step_of_lookup hlookup rfl rfl rfl, rfl⟩

end M68000
