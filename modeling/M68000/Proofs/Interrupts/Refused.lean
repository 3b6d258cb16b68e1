import M68000.Proofs.Interrupts.Interleaving
import M68000.Proofs.Run.Faults

/-!
# Interrupts that cannot be entered

Entering an interrupt fails if the frame cannot be stacked or the vector cannot be read. The request
has been removed by then, and nothing puts it back: of all that steps do, with or without a fault,
only this loses a request. It also leaves the flag for requests set until it is brought up to date
by the next request or the next step that has none to lose.
-/

namespace M68000

open Exec

/-! ## The requests after a step -/

section Step

variable {machine next final : Machine} {level : InterruptLevel} {vector : Byte} {fault : Fault}

theorem pending_of_dueInterrupt? (hdue : machine.dueInterrupt? = some (level, vector)) :
    machine.interrupts.pending = true := by
  by_contra hpending
  rw [Machine.dueInterrupt?, if_neg hpending] at hdue
  cases hdue

theorem interrupts_after_bind {α β : Type} {action : Exec α} {rest : α → Exec β}
    (hrest : ∀ interrupts a, Maintains (·.interrupts = interrupts) (rest a)) :
    ((action >>= rest).after machine).interrupts = (action.after machine).interrupts := by
  rw [after, after, EStateM.run_bind]
  cases action.run machine with
  | ok a next => exact hrest next.interrupts a next rfl
  | error fault next => rfl

/-- What comes after the interrupts changes no request, whether it is done or not. -/
theorem interrupts_after_step (machine : Machine) :
    ((step handlers).after machine).interrupts =
      (acceptInterrupt.after machine.syncPrivilege).interrupts := by
  have hfetch (interrupts : Interrupts) : Maintains (·.interrupts = interrupts) fetchOpcode :=
    maintains_fetchOpcode_of_notes ((permanent_interrupts interrupts).maintains_fetchWord 0)
      fun _ _ h ↦ h
  have hexit (interrupts : Interrupts) : Maintains (·.interrupts = interrupts) takeExit :=
    maintains_takeExit_of_notes fun _ h ↦ h
  have hperform (interrupts : Interrupts) (opcode : Opcode) :
      Maintains (·.interrupts = interrupts) (perform handlers opcode) :=
    (permanent_interrupts interrupts).maintains_perform opcode
  calc ((step handlers).after machine).interrupts
    _ = (beginStep.after machine).interrupts := by
      rw [step_eq]
      exact interrupts_after_bind fun interrupts opcode ↦
        maintains_bind (hperform interrupts opcode) fun _ ↦ hexit interrupts
    _ = (acceptInterrupt.after machine.syncPrivilege).interrupts :=
      interrupts_after_bind fun interrupts _ ↦ hfetch interrupts

/-- An interrupt that has been entered brings the flag up to date. -/
theorem interrupts_of_run_acceptInterrupt (hdue : machine.dueInterrupt? = some (level, vector))
    (hrun : acceptInterrupt.run machine = .ok () final) :
    final.interrupts = (machine.interrupts.remove level).refresh := by
  obtain ⟨entered, hentered, rfl⟩ := exists_of_run_acceptInterrupt hdue hrun
  rw [hentered.interrupts]

/-- An interrupt that cannot be entered has been removed all the same, and the flag stays set. -/
theorem interrupts_of_run_acceptInterrupt_eq_error
    (hdue : machine.dueInterrupt? = some (level, vector))
    (hrun : acceptInterrupt.run machine = .error fault final) :
    final.interrupts = machine.interrupts.remove level := by
  have permanent := permanent_interrupts (machine.interrupts.remove level)
  rw [run_acceptInterrupt_of_due hdue] at hrun
  obtain henter | ⟨_, entered, -, hrun⟩ := run_bind_eq_error.1 hrun
  · have hentered := (permanent.lasting (.within .none)).maintains_enterException vector
      machine.registers.pc { machine with interrupts := machine.interrupts.remove level } rfl
    rwa [after_of_run_eq_error henter] at hentered
  · cases hrun

/-- Without an interrupt that is due, no request is removed. -/
theorem accurate_after_acceptInterrupt (hannounced : machine.interrupts.Announced)
    (hdue : machine.dueInterrupt? = none) :
    (acceptInterrupt.after machine).latches = machine.latches ∧
      (acceptInterrupt.after machine).interrupts.Accurate := by
  cases hpending : machine.interrupts.pending with
  | false =>
    rw [after_of_run_eq_ok (run_acceptInterrupt_of_not_pending hpending)]
    refine ⟨rfl, iff_of_false (Bool.eq_false_iff.1 hpending) ?_⟩
    rintro ⟨level, vector, hwaiting⟩
    rw [hannounced level vector hwaiting] at hpending
    cases hpending
  | true =>
    rw [after_of_run_eq_ok (run_acceptInterrupt_of_pending hpending hdue)]
    exact ⟨rfl, machine.interrupts.accurate_refresh⟩

end Step

/-! ## What may happen -/

/-- An interrupt is requested, anything but the requests is altered, or a step is taken, which may
fault: it enters an interrupt, or is refused to, or has none to enter. -/
inductive Occurrence where
  | requested (level : InterruptLevel) (vector : Byte)
  | altered
  | entered (level : InterruptLevel)
  | refused (level : InterruptLevel)
  | passed

/-- How a machine goes on. -/
inductive Machine.Undergoes (machine : Machine) : Occurrence → Machine → Prop
  | requested (level : InterruptLevel) (vector : Byte) :
    machine.Undergoes (.requested level vector) (machine.requestInterrupt level vector)
  | altered {next : Machine} (hkept : next.interrupts = machine.interrupts) :
    machine.Undergoes .altered next
  | entered {level : InterruptLevel} {vector : Byte} {next : Machine}
      (hdue : machine.latches.Due machine.registers.interruptMask level vector)
      (haccept : acceptInterrupt.run machine.syncPrivilege = .ok () next) :
    machine.Undergoes (.entered level) ((step handlers).after machine)
  | refused {level : InterruptLevel} {vector : Byte} {fault : Fault} {final : Machine}
      (hdue : machine.latches.Due machine.registers.interruptMask level vector)
      (haccept : acceptInterrupt.run machine.syncPrivilege = .error fault final) :
    machine.Undergoes (.refused level) ((step handlers).after machine)
  | passed
      (hdue : ∀ level vector, ¬ machine.latches.Due machine.registers.interruptMask level vector) :
    machine.Undergoes .passed ((step handlers).after machine)

/-- Every step is one of the three kinds. -/
theorem Machine.exists_undergoes_step (machine : Machine) :
    ∃ occurrence, machine.Undergoes occurrence ((step handlers).after machine) := by
  by_cases hdue : ∃ level vector, machine.latches.Due machine.registers.interruptMask level vector
  · obtain ⟨level, vector, hdue⟩ := hdue
    cases haccept : acceptInterrupt.run machine.syncPrivilege with
    | ok done next => exact ⟨_, .entered hdue haccept⟩
    | error fault final => exact ⟨_, .refused hdue haccept⟩
  · exact ⟨_, .passed fun level vector h ↦ hdue ⟨level, vector, h⟩⟩

/-- Occurrences in some order, the earliest first. -/
inductive Course (start : Machine) : List Occurrence → Machine → Prop
  | start : Course start [] start
  | next {occurrences : List Occurrence} {occurrence : Occurrence} {machine next : Machine}
      (hcourse : Course start occurrences machine) (hnext : machine.Undergoes occurrence next) :
    Course start (occurrences ++ [occurrence]) next

/-! ## What is recorded -/

/-- What a course leaves recorded. -/
structure Ledger where
  latches : Latches := fun _ ↦ none
  /-- The flag has been left set by an interrupt that could not be entered. -/
  stale : Bool := false

def Ledger.note (ledger : Ledger) : Occurrence → Ledger
  | .requested level vector => ⟨ledger.latches.fill level vector, false⟩
  | .altered => ledger
  | .entered level => ⟨ledger.latches.clear level, false⟩
  | .refused level => ⟨ledger.latches.clear level, true⟩
  | .passed => ⟨ledger.latches, false⟩

/-- The flag is stale only after an interrupt was refused. -/
theorem Ledger.stale_foldl_note {occurrences : List Occurrence}
    (hnone : ∀ level, .refused level ∉ occurrences) :
    (occurrences.foldl note {}).stale = false := by
  induction occurrences using List.reverseRecOn with
  | nil => rfl
  | append_singleton earlier last ih =>
    have hearlier (level : InterruptLevel) : .refused level ∉ earlier :=
      fun hmem ↦ hnone level (List.mem_append_left _ hmem)
    rw [List.foldl_append, List.foldl_cons, List.foldl_nil]
    cases last with
    | altered => exact ih hearlier
    | refused level =>
      have hmem : .refused level ∈ earlier ++ [.refused level] :=
        List.mem_append_right earlier (List.mem_singleton_self _)
      exact absurd hmem (hnone level)
    | _ => rfl

/-- The machine has the requests of the ledger, and the flag is set for these and while it is
stale. -/
structure Machine.Keeps (machine : Machine) (ledger : Ledger) : Prop where
  latches : machine.latches = ledger.latches
  pending : machine.interrupts.pending = true ↔
    ledger.stale = true ∨ ∃ level vector, machine.latches level = some vector

namespace Machine

variable {machine next : Machine} {ledger : Ledger} {occurrence : Occurrence}

theorem Keeps.announced (hkeeps : machine.Keeps ledger) : machine.interrupts.Announced :=
  fun level vector hwaiting ↦ hkeeps.pending.2 (.inr ⟨level, vector, hwaiting⟩)

theorem keeps_of_accurate (hlatches : machine.latches = ledger.latches)
    (hstale : ledger.stale = false) (haccurate : machine.interrupts.Accurate) :
    machine.Keeps ledger := by
  refine ⟨hlatches, ?_⟩
  rw [hstale]
  exact haccurate.trans (or_iff_right Bool.false_ne_true).symm

theorem Keeps.accurate (hkeeps : machine.Keeps ledger) (hstale : ledger.stale = false) :
    machine.interrupts.Accurate := by
  have hpending := hkeeps.pending
  rw [hstale] at hpending
  exact hpending.trans (or_iff_right Bool.false_ne_true)

/-- The requests after a step follow from what became of the interrupts. -/
theorem latches_after_step (machine : Machine) :
    ((step handlers).after machine).latches =
      (acceptInterrupt.after machine.syncPrivilege).latches :=
  congrArg Interrupts.waiting? (interrupts_after_step machine)

/-- What an occurrence does to the requests is what the ledger says. -/
theorem Undergoes.keeps (hkeeps : machine.Keeps ledger)
    (hnext : machine.Undergoes occurrence next) : next.Keeps (ledger.note occurrence) := by
  -- A stale flag does no harm here: what is due is read off the latches.
  have hannounced : machine.syncPrivilege.interrupts.Announced := hkeeps.announced
  have hsome {level : InterruptLevel} {vector : Byte}
      (hdue : machine.latches.Due machine.registers.interruptMask level vector) :
      machine.syncPrivilege.dueInterrupt? = some (level, vector) :=
    (dueInterrupt?_eq_some_iff_of_announced hannounced).2 hdue
  cases hnext with
  | requested level vector =>
    refine keeps_of_accurate ?_ rfl (machine.interrupts.accurate_request level vector)
    rw [Ledger.note, ← hkeeps.latches]
    exact machine.interrupts.waiting?_request level vector
  | altered hkept =>
    have hlatches : next.latches = machine.latches := congrArg Interrupts.waiting? hkept
    refine ⟨hlatches.trans hkeeps.latches, ?_⟩
    rw [hkept, hlatches]
    exact hkeeps.pending
  | @entered level vector accepted hdue haccept =>
    have hinterrupts := interrupts_of_run_acceptInterrupt (hsome hdue) haccept
    rw [← after_of_run_eq_ok haccept, ← interrupts_after_step] at hinterrupts
    refine keeps_of_accurate ?_ rfl ?_
    · rw [Ledger.note, ← hkeeps.latches]
      exact (congrArg Interrupts.waiting? hinterrupts).trans
        (machine.interrupts.waiting?_remove level)
    · rw [hinterrupts]
      exact Interrupts.accurate_refresh _
  | @refused level vector fault final hdue haccept =>
    have hinterrupts := interrupts_of_run_acceptInterrupt_eq_error (hsome hdue) haccept
    rw [← after_of_run_eq_error haccept, ← interrupts_after_step] at hinterrupts
    constructor
    case latches =>
      rw [Ledger.note, ← hkeeps.latches]
      exact (congrArg Interrupts.waiting? hinterrupts).trans
        (machine.interrupts.waiting?_remove level)
    case pending =>
      rw [hinterrupts]
      exact iff_of_true (pending_of_dueInterrupt? (hsome hdue)) (.inl rfl)
  | passed hdue =>
    have hnone : machine.syncPrivilege.dueInterrupt? = none :=
      (dueInterrupt?_eq_none_iff_of_announced hannounced).2 hdue
    obtain ⟨hlatches, haccurate⟩ := accurate_after_acceptInterrupt hannounced hnone
    refine keeps_of_accurate ?_ rfl ?_
    · rw [latches_after_step, hlatches]
      exact hkeeps.latches
    · rw [interrupts_after_step]
      exact haccurate

end Machine

theorem Course.keeps {start machine : Machine} {occurrences : List Occurrence}
    (hstart : start.interrupts = {}) (hcourse : Course start occurrences machine) :
    machine.Keeps (occurrences.foldl Ledger.note {}) := by
  induction hcourse with
  | start =>
    have hlatches : start.latches = fun _ ↦ none := by
      funext level
      rw [Machine.latches, hstart]
      exact Vector.getElem_replicate level.index.isLt
    refine Machine.keeps_of_accurate hlatches rfl (iff_of_false ?_ ?_)
    · rw [hstart]
      exact Bool.false_ne_true
    · rintro ⟨level, vector, hwaiting⟩
      have hnone := congrFun hlatches level
      rw [Machine.latches, hwaiting] at hnone
      cases hnone
  | next _ hnext ih =>
    rw [List.foldl_append]
    exact hnext.keeps ih

/-- However requests, changes of anything else and steps follow one another from a machine without
requests on, and whether the steps end in a fault or not, the requests are those that were recorded
and not replaced, entered or refused since, and the flag is set for these. It is set without any
only after an interrupt was refused. A step removes no request but that of the interrupt which is
due. If this cannot be entered, because an access was refused, the request is lost: the step leaves
the program counter where it was and the flag set. -/
theorem requests_lost_only_when_refused {start machine : Machine} {occurrences : List Occurrence}
    (hstart : start.interrupts = {}) (hcourse : Course start occurrences machine) :
    let final := (step handlers).after machine
    machine.Keeps (occurrences.foldl Ledger.note {}) ∧
    ((∀ level, .refused level ∉ occurrences) → machine.interrupts.Accurate) ∧
    (∃ occurrence, machine.Undergoes occurrence final) ∧
    ((∀ level vector, ¬ machine.latches.Due machine.registers.interruptMask level vector) →
      final.latches = machine.latches ∧ final.interrupts.Accurate) ∧
    ∀ level vector, machine.latches.Due machine.registers.interruptMask level vector →
      final.latches = machine.latches.clear level ∧
        ((∃ next, acceptInterrupt.run machine.syncPrivilege = .ok () next ∧
            (machine.MaskInRange → AcceptsInterrupt level vector machine next) ∧
            final.interrupts.Accurate) ∨
          ∃ refusal, (step handlers).run machine = .error (.bus refusal) final ∧
            final.registers.pc = machine.registers.pc ∧ final.interrupts.pending = true) := by
  have hkeeps := hcourse.keeps hstart
  refine ⟨hkeeps, fun hnone ↦ hkeeps.accurate (Ledger.stale_foldl_note hnone),
    machine.exists_undergoes_step, fun hdue ↦ ?_, fun level vector hdue ↦ ?_⟩
  · have hfinal := (Machine.Undergoes.passed hdue).keeps hkeeps
    exact ⟨hfinal.latches.trans hkeeps.latches.symm, hfinal.accurate rfl⟩
  · have hclear : machine.latches.clear level =
        (occurrences.foldl Ledger.note {}).latches.clear level := by
      rw [hkeeps.latches]
    have hdue' : machine.dueInterrupt? = some (level, vector) :=
      (Machine.dueInterrupt?_eq_some_iff_of_announced hkeeps.announced).2 hdue
    cases haccept : acceptInterrupt.run machine.syncPrivilege with
    | ok done next =>
      have hfinal := (Machine.Undergoes.entered hdue haccept).keeps hkeeps
      refine ⟨hfinal.latches.trans hclear.symm, .inl ⟨next, rfl, fun hmask ↦ ?_, ?_⟩⟩
      · exact (acceptsInterrupt_of_run hmask hdue' haccept).1
      · exact hfinal.accurate rfl
    | error fault failed =>
      have hfinal := (Machine.Undergoes.refused hdue haccept).keeps hkeeps
      have hrun := run_step_of_run_acceptInterrupt handlers haccept
      obtain ⟨⟨refusal, rfl⟩, hpc⟩ :=
        faultsInPlace_acceptInterrupt machine.syncPrivilege fault failed haccept
      have hfailed : (step handlers).after machine = failed := after_of_run_eq_error hrun
      refine ⟨hfinal.latches.trans hclear.symm, .inr ⟨refusal, ?_, ?_, ?_⟩⟩
      · rw [hfailed]
        exact hrun
      · rw [hfailed]
        exact hpc
      · exact hfinal.pending.2 (.inl rfl)

/-- The stack of the supervisor lies behind the end of the memory, which holds an instruction that
does nothing, and another where the handler of the interrupt is. -/
def strandedProgram : Machine where
  registers :=
    { a := #v[0, 0, 0, 0, 0, 0, 0, 0x20000]
      pc := 0x1000
      interruptMask := 0 }
  memory := .map (.clamp 24) (.mapped ⟨0, 7⟩ (.ram
    { size := 0x10000
      written := .ofList [(0x66, (0x20 : Byte)), (0x1000, 0x4E), (0x1001, 0x71), (0x2000, 0x4E),
        (0x2001, 0x71)] }) .empty)

/-- The interrupt is requested, and cannot be entered. -/
theorem exists_course_strandedProgram :
    ∃ refusal failed,
      (step handlers).run (strandedProgram.requestInterrupt ⟨0⟩ 25) =
        .error (.bus refusal) failed ∧
      Course strandedProgram [.requested ⟨0⟩ 25, .refused ⟨0⟩] failed := by
  obtain ⟨refusal, failed, haccept⟩ : ∃ refusal failed,
      acceptInterrupt.run (strandedProgram.requestInterrupt ⟨0⟩ 25).syncPrivilege =
        .error (.bus refusal) failed :=
    ⟨_, _, rfl⟩
  have hrun := run_step_of_run_acceptInterrupt handlers haccept
  have hsome : (strandedProgram.requestInterrupt ⟨0⟩ 25).dueInterrupt? = some (⟨0⟩, 25) := rfl
  have hdue := (Machine.dueInterrupt?_eq_some_iff (Interrupts.accurate_request _ ⟨0⟩ 25)).1 hsome
  have hrefused := Machine.Undergoes.refused hdue haccept
  rw [after_of_run_eq_error hrun] at hrefused
  exact ⟨refusal, failed, hrun, .next (.next .start (.requested ⟨0⟩ 25)) hrefused⟩

theorem requests_lost_only_when_refused_strandedProgram :
    ∃ failed, Course strandedProgram [.requested ⟨0⟩ 25, .refused ⟨0⟩] failed ∧
      failed.interrupts.pending = true ∧ failed.latches ⟨0⟩ = none := by
  obtain ⟨refusal, failed, -, hcourse⟩ := exists_course_strandedProgram
  obtain ⟨hkeeps, -⟩ := requests_lost_only_when_refused rfl hcourse
  exact ⟨failed, hcourse, hkeeps.pending.2 (.inl rfl), congrFun hkeeps.latches ⟨0⟩⟩

/-- The request that could not be entered is recorded no longer, although the flag is set, and it
is not accepted whatever is done about memory and stack. -/
theorem request_lost_strandedProgram :
    (strandedProgram.requestInterrupt ⟨0⟩ 25).latches ⟨0⟩ = some 25 ∧
    ∃ refusal failed,
      (step handlers).run (strandedProgram.requestInterrupt ⟨0⟩ 25) =
        .error (.bus refusal) failed ∧
      failed.interrupts.pending = true ∧ (∀ level, failed.latches level = none) ∧
      ∀ machine : Machine, machine.interrupts = failed.interrupts →
        machine.dueInterrupt? = none := by
  obtain ⟨refusal, failed, hrun, hcourse⟩ := exists_course_strandedProgram
  have hkeeps := hcourse.keeps rfl
  have hnone (level : InterruptLevel) : failed.latches level = none := by
    rw [hkeeps.latches]
    change Latches.clear (Latches.fill (fun _ ↦ none) ⟨0⟩ 25) ⟨0⟩ level = none
    rw [Latches.clear, Latches.fill, Function.update_idem]
    exact congrFun (Function.update_eq_self _ _) level
  refine ⟨rfl, refusal, failed, hrun, hkeeps.pending.2 (.inl rfl), hnone, fun machine hsame ↦ ?_⟩
  have hannounced : machine.interrupts.Announced := by
    rw [hsame]
    exact hkeeps.announced
  refine (Machine.dueInterrupt?_eq_none_iff_of_announced hannounced).2 fun level vector hdue ↦ ?_
  have hwaiting : failed.latches level = some vector := by
    rw [Machine.latches, ← hsame]
    exact hdue.waiting
  rw [hnone] at hwaiting
  cases hwaiting

end M68000
