import M68000.Proofs.Run.Fetch
import M68000.Session

/-!
# Runs with and without a limit

A run without a limit goes on until one of its steps asks for the end of the run or faults. A limit
that is not lower than the number of steps until then makes no difference, not even where that step
is the last one allowed. A lower one cuts the run off after just as many steps as it allows.
-/

namespace M68000

variable {table : Table Handler} {machine next final : Machine} {count limit : Nat}
  {status : BitVec 32}

/-- A number of steps after each of which the run goes on lead from one machine to another. -/
inductive Continues (table : Table Handler) : Nat → Machine → Machine → Prop where
  | refl (machine : Machine) : Continues table 0 machine machine
  | next {count : Nat} {machine next final : Machine} :
    step table machine = .ok .next next → Continues table count next final →
      Continues table (count + 1) machine final

/-- The last of a number of steps is the first that asks for the end of the run or faults. What is
asked for is the exit status, and a fault has the status of its vector. -/
inductive StopsAfter (table : Table Handler) : Nat → Machine → BitVec 32 → Machine → Prop where
  | exit {machine final : Machine} {status : BitVec 32} :
    step table machine = .ok (.exit status) final → StopsAfter table 1 machine status final
  | fault {machine final : Machine} {reason : Fault} :
    step table machine = .error reason final →
      StopsAfter table 1 machine (128 + reason.vector.setWidth 32) final
  | next {count : Nat} {machine next final : Machine} {status : BitVec 32} :
    step table machine = .ok .next next → StopsAfter table count next status final →
      StopsAfter table (count + 1) machine status final

/-! ## Steps before the end -/

theorem Continues.runFor_eq (hcontinues : Continues table count machine final) :
    runFor table count machine = (none, final) := by
  induction hcontinues with
  | refl machine => rfl
  | next hstep _ ih =>
    rw [runFor, hstep]
    exact ih

/-- A limit cuts off a run that has gone on until then. -/
theorem Continues.runToExitFor_eq (hcontinues : Continues table limit machine final) :
    runToExitFor table limit machine = (1, final) := by
  simp [runToExitFor, hcontinues.runFor_eq, limitedStatus]

/-- A run that stops has gone on before. -/
theorem StopsAfter.exists_continues (hstops : StopsAfter table count machine status final)
    (hlt : limit < count) : ∃ middle, Continues table limit machine middle := by
  induction limit generalizing machine count with
  | zero => exact ⟨machine, .refl machine⟩
  | succ limit ih =>
    cases hstops with
    | exit | fault => omega
    | next hstep hrest =>
      obtain ⟨middle, hcontinues⟩ := ih hrest (by omega)
      exact ⟨middle, .next hstep hcontinues⟩

/-- Whatever the number, a run goes on for so many steps or stops by then. -/
theorem exists_continues_or_stopsAfter (table : Table Handler) (limit : Nat) (machine : Machine) :
    (∃ middle, Continues table limit machine middle) ∨
      ∃ count ≤ limit, ∃ status final, StopsAfter table count machine status final := by
  induction limit generalizing machine with
  | zero => exact .inl ⟨machine, .refl machine⟩
  | succ limit ih =>
    cases hstep : step table machine with
    | ok progress next =>
      cases progress with
      | next =>
        obtain ⟨middle, hcontinues⟩ | ⟨count, hle, status, final, hstops⟩ := ih next
        · exact .inl ⟨middle, .next hstep hcontinues⟩
        · exact .inr ⟨count + 1, by omega, status, final, .next hstep hstops⟩
      | exit status => exact .inr ⟨1, by omega, status, next, .exit hstep⟩
    | error reason next => exact .inr ⟨1, by omega, _, next, .fault hstep⟩

/-- A run that never stops is cut off by every limit. -/
theorem exists_runToExitFor_of_never_stops
    (hnever : ∀ count status final, ¬ StopsAfter table count machine status final) (limit : Nat) :
    ∃ middle, Continues table limit machine middle ∧
      runToExitFor table limit machine = (1, middle) := by
  obtain ⟨middle, hcontinues⟩ | ⟨count, -, status, final, hstops⟩ :=
    exists_continues_or_stopsAfter table limit machine
  · exact ⟨middle, hcontinues, hcontinues.runToExitFor_eq⟩
  · exact absurd hstops (hnever count status final)

/-! ## The end -/

/-- A run that stops has a reason to, which it ends with unless a limit cuts it off. -/
theorem StopsAfter.exists_stop (hstops : StopsAfter table count machine status final) :
    ∃ stop : Stop, stop.status = status ∧ run table machine = (stop, final) ∧
      runFor table count machine = (some stop, final) := by
  induction hstops with
  | @exit machine final status hstep =>
    exact ⟨.exit status, rfl, by rw [run_eq, advance, hstep], by rw [runFor, hstep]⟩
  | @fault machine final reason hstep =>
    exact ⟨.fault reason, rfl, by rw [run_eq, advance, hstep], by rw [runFor, hstep]⟩
  | next hstep _ ih =>
    obtain ⟨stop, hstatus, hrun, hrunFor⟩ := ih
    refine ⟨stop, hstatus, ?_, ?_⟩
    · rw [run_eq, advance, hstep]
      exact hrun
    · rw [runFor, hstep]
      exact hrunFor

/-- A run that stops after a number of steps exits as it does with any limit that allows as many.
With a lower limit it makes all the steps allowed, and exits with status one as they leave the
machine. -/
theorem limit_only_cuts_off (hstops : StopsAfter table count machine status final) :
    runToExit table machine = (status, final) ∧
      (∀ limit, count ≤ limit → runToExitFor table limit machine = (status, final)) ∧
      ∀ limit < count, ∃ middle, Continues table limit machine middle ∧
        runToExitFor table limit machine = (1, middle) := by
  obtain ⟨stop, rfl, hrun, hrunFor⟩ := hstops.exists_stop
  refine ⟨?_, fun limit hle ↦ ?_, fun limit hlt ↦ ?_⟩
  · simp [runToExit, hrun]
  · simp [runToExitFor, runFor_eq_of_le hrunFor hle, limitedStatus]
  · obtain ⟨middle, hcontinues⟩ := hstops.exists_continues hlt
    exact ⟨middle, hcontinues, hcontinues.runToExitFor_eq⟩

/-- A program of two instructions, of which the second ends it. -/
def endingProgram : Machine where
  registers := { pc := 0x400 }
  memory := .map (.clamp 24) (.mapped ⟨0, 1⟩ (.ram
    { size := 0x4000
      written := .ofList [((0x400 : Nat), (0x4E : Byte)), (0x401, 0x71), (0x402, 0xFF),
        (0x403, 0x00)] }) .empty)

/-- The program has made its first step. -/
def endingProgramNext : Machine :=
  { endingProgram with registers.pc := 0x402, opcode := 0x4E71 }

theorem limit_only_cuts_off_endingProgram :
    ∃ final, final.registers.pc = 0x404 ∧
      runToExit Session.table endingProgram = (0, final) ∧
      runToExitFor Session.table 2 endingProgram = (0, final) ∧
      runToExitFor Session.table 1 endingProgram = (1, endingProgramNext) := by
  have hnop : Session.table.lookup 0x4E71 = some (Operation.execute .noOperation) := by
    rw [Session.table, Table.lookup_install, Table.lookup_install, lookup_handlers,
      lookup_noOperation]
    rfl
  have hexit : Session.table.lookup 0xFF00 = some exitZero := by
    rw [Session.table, Table.lookup_install, Table.lookup_install]
    rfl
  have hfirst : (step Session.table).run endingProgram = .ok .next endingProgramNext :=
    run_step_of_handler hnop rfl rfl rfl
  obtain ⟨final, hlast, hpc⟩ : ∃ final,
      (step Session.table).run endingProgramNext = .ok (.exit 0) final ∧
        final.registers.pc = 0x404 :=
    ⟨_, run_step_of_handler hexit rfl rfl rfl, rfl⟩
  rw [EStateM.run] at hfirst hlast
  obtain ⟨hunlimited, hlimited, hcut⟩ :=
    limit_only_cuts_off (.next hfirst (.exit hlast))
  obtain ⟨_, hcontinues, hcut⟩ := hcut 1 (by decide)
  cases hcontinues with
  | next hstep hrest =>
    cases hrest
    cases hfirst.symm.trans hstep
    exact ⟨final, hpc, hunlimited, hlimited 2 le_rfl, hcut⟩

end M68000
