import M68000.Proofs.Interrupts.Latches
import M68000.Proofs.Privilege.InterruptMask
import M68000.Proofs.Run.Executes
import Mathlib.Data.List.Induction

/-!
# Requests between steps

Interrupts are requested between the steps of a program, which change the mask and the privilege
state themselves. In whatever order this happens, a request waits until it is accepted or replaced
by a later one at its level, and a step accepts the highest request if the mask lets it pass.
-/

namespace M68000

open Exec

/-! ## Accepting an interrupt -/

/-- The request of the level has been accepted: it is removed, the program counter and the status
register of the program lie on the supervisor stack, and its handler comes next, with the level
for a mask. -/
structure AcceptsInterrupt (level : InterruptLevel) (vector : Byte) (before after : Machine) :
    Prop where
  latches : after.latches = before.latches.clear level
  supervisor : after.registers.supervisor = true
  stackPointer : after.registers.getA stackPointer = before.registers.supervisorStack - 6
  returnAddress : ∀ code, after.memory.read code (before.registers.supervisorStack - 4) .long =
    .ok before.registers.pc
  /-- The status register holds the mask from before. -/
  status : ∃ status : BitVec 16,
    (∀ code, after.memory.read code (before.registers.supervisorStack - 6) .word = .ok status) ∧
      status = before.registers.statusRegister ∧
      (status.extractLsb' 8 3).setWidth 8 = before.registers.interruptMask
  interruptMask : after.registers.interruptMask = BitVec.ofNat 8 level.number
  handler : after.memory.read .supervisorData (vector.setWidth 32 * 4) .long =
    .ok after.registers.pc

theorem InterruptLevel.and_seven (level : InterruptLevel) :
    BitVec.ofNat 8 level.number &&& 7 = BitVec.ofNat 8 level.number := by
  obtain ⟨index⟩ := level
  revert index
  decide

section Step

variable {machine next final : Machine} {level : InterruptLevel} {vector : Byte}
  {progress : Progress}

/-- The part of a step before its instruction, where an interrupt is due. -/
theorem acceptsInterrupt_of_run (hmask : machine.MaskInRange)
    (hdue : machine.dueInterrupt? = some (level, vector))
    (hrun : acceptInterrupt.run machine.syncPrivilege = .ok () next) :
    AcceptsInterrupt level vector machine next ∧ next.busSupervisor = next.registers.supervisor ∧
      next.interrupts.Accurate := by
  have hsynced : machine.syncPrivilege.dueInterrupt? = some (level, vector) := hdue
  obtain ⟨entered, henters, rfl⟩ := exists_of_run_acceptInterrupt hsynced hrun
  have hreturn (code : FunctionCode) := henters.read_returnAddress code
  have hstatus (code : FunctionCode) := henters.read_status code
  have hplace (top : Address) : top - 6 + 2 = top - 4 := by bv_omega
  simp only [henters.getA_stackPointer, hplace] at hreturn hstatus
  refine ⟨?_, henters.busSupervisor.trans henters.supervisor.symm, Interrupts.accurate_refresh _⟩
  constructor
  case latches =>
    change entered.interrupts.waiting? = _
    rw [henters.interrupts]
    exact Interrupts.waiting?_remove _ level
  case supervisor => exact henters.supervisor
  case stackPointer => exact henters.getA_stackPointer
  case returnAddress => exact hreturn
  case status =>
    exact ⟨_, hstatus, rfl, machine.registers.interruptMask_of_statusRegister hmask⟩
  case interruptMask => exact level.and_seven
  case handler => exact henters.handler

/-- A step that finds an interrupt due accepts it and executes the opcode at its handler. -/
theorem exists_executes_of_due (hmask : machine.MaskInRange)
    (hdue : machine.dueInterrupt? = some (level, vector))
    (hrun : (step handlers).run machine = .ok progress final) :
    ∃ entered opcode, AcceptsInterrupt level vector machine entered ∧
      Executes opcode entered final ∧ entered.interrupts.Accurate := by
  obtain ⟨entered, haccept, hexecutes⟩ := exists_of_run_step hrun
  obtain ⟨haccepts, hsync, haccurate⟩ := acceptsInterrupt_of_run hmask hdue haccept
  obtain ⟨opcode, hopcode⟩ := hexecutes hsync
  exact ⟨entered, opcode, haccepts, hopcode, haccurate⟩

/-- Any other step executes the opcode at the program counter. -/
theorem exists_executes_of_not_due (haccurate : machine.interrupts.Accurate)
    (hdue : machine.dueInterrupt? = none)
    (hrun : (step handlers).run machine = .ok progress final) :
    ∃ opcode, Executes opcode machine final := by
  obtain ⟨interrupts, opcode, hopcode, hinterrupts⟩ := exists_executes_of_run_step hdue hrun
  obtain rfl : interrupts = machine.interrupts := by
    obtain hsame | hrefreshed := hinterrupts
    · exact hsame
    · exact hrefreshed.trans haccurate.refresh_eq
  exact ⟨opcode, hopcode⟩

end Step

/-! ## Histories -/

/-- What may happen to a machine: an interrupt is requested, or a step is done, which accepts one or
passes without. -/
inductive InterruptEvent where
  | requested (level : InterruptLevel) (vector : Byte)
  | accepted (level : InterruptLevel) (vector : Byte)
  | passed

/-- The level whose latch changes. -/
def InterruptEvent.level? : InterruptEvent → Option InterruptLevel
  | requested level _ | accepted level _ => some level
  | passed => none

/-- How a machine goes on. -/
inductive Machine.Happens (machine : Machine) : InterruptEvent → Machine → Prop
  | requested (level : InterruptLevel) (vector : Byte) :
    machine.Happens (.requested level vector) (machine.requestInterrupt level vector)
  | accepted {level : InterruptLevel} {vector : Byte} {progress : Progress} {next : Machine}
      (hdue : machine.latches.Due machine.registers.interruptMask level vector)
      (hrun : (step handlers).run machine = .ok progress next) :
    machine.Happens (.accepted level vector) next
  | passed {progress : Progress} {next : Machine}
      (hdue : ∀ level vector, ¬ machine.latches.Due machine.registers.interruptMask level vector)
      (hrun : (step handlers).run machine = .ok progress next) :
    machine.Happens .passed next

/-- Requests and steps in some order, the earliest first. -/
inductive History (start : Machine) : List InterruptEvent → Machine → Prop
  | start : History start [] start
  | next {events : List InterruptEvent} {event : InterruptEvent} {machine next : Machine}
      (hhistory : History start events machine) (hnext : machine.Happens event next) :
    History start (events ++ [event]) next

/-- The latches after an event. -/
def Latches.record (latches : Latches) : InterruptEvent → Latches
  | .requested level vector => latches.fill level vector
  | .accepted level _ => latches.clear level
  | .passed => latches

/-! ### One event -/

/-- What holds between any two events. -/
structure Machine.Orderly (machine : Machine) : Prop where
  accurate : machine.interrupts.Accurate
  maskInRange : machine.MaskInRange

section Event

variable {machine next : Machine} {event : InterruptEvent}

theorem Machine.Orderly.maskInRange_of_run {progress : Progress} (horderly : machine.Orderly)
    (hrun : (step handlers).run machine = .ok progress next) : next.MaskInRange := by
  have hnext := maintains_step machine horderly.maskInRange
  rwa [after_of_run_eq_ok hrun] at hnext

/-- The machine keeps the latches. -/
theorem Machine.Happens.latches_and_orderly (horderly : machine.Orderly)
    (hnext : machine.Happens event next) :
    next.latches = machine.latches.record event ∧ next.Orderly := by
  cases hnext with
  | requested level vector =>
    exact ⟨machine.interrupts.waiting?_request level vector,
      machine.interrupts.accurate_request level vector, horderly.maskInRange⟩
  | @accepted level vector _ _ hdue hrun =>
    have hdue' := (dueInterrupt?_eq_some_iff horderly.accurate).2 hdue
    obtain ⟨entered, opcode, haccepts, hopcode, haccurate⟩ :=
      exists_executes_of_due horderly.maskInRange hdue' hrun
    refine ⟨?_, ?_, horderly.maskInRange_of_run hrun⟩
    · rw [Machine.latches, hopcode.interrupts]
      exact haccepts.latches
    · rw [hopcode.interrupts]
      exact haccurate
  | passed hdue hrun =>
    have hdue' := (dueInterrupt?_eq_none_iff horderly.accurate).2 hdue
    obtain ⟨opcode, hopcode⟩ := exists_executes_of_not_due horderly.accurate hdue' hrun
    refine ⟨?_, ?_, horderly.maskInRange_of_run hrun⟩
    · rw [Machine.latches, hopcode.interrupts]
      rfl
    · rw [hopcode.interrupts]
      exact horderly.accurate

end Event

/-! ### Any number of events -/

/-- The last event of the level is a request with the vector. -/
def WaitsAfter (events : List InterruptEvent) (level : InterruptLevel) (vector : Byte) : Prop :=
  ∃ before between, events = before ++ .requested level vector :: between ∧
    ∀ event ∈ between, event.level? ≠ some level

section Waiting

variable {events : List InterruptEvent} {event : InterruptEvent} {level : InterruptLevel}
  {vector : Byte}

theorem Latches.record_eq_some_iff {latches : Latches} :
    latches.record event level = some vector ↔
      event = .requested level vector ∨
        event.level? ≠ some level ∧ latches level = some vector := by
  cases event with
  | requested level' vector' =>
    by_cases hlevel : level = level'
    · subst hlevel
      simp [record, fill, InterruptEvent.level?]
    · simp [record, fill, InterruptEvent.level?, hlevel, Ne.symm hlevel]
  | accepted level' vector' =>
    by_cases hlevel : level = level'
    · subst hlevel
      simp [record, clear, InterruptEvent.level?]
    · simp [record, clear, InterruptEvent.level?, hlevel, Ne.symm hlevel]
  | passed => simp [record, InterruptEvent.level?]

/-- The last event is the one that the list is split at, or lies behind it. -/
theorem split_append_singleton {before after : List InterruptEvent} {middle : InterruptEvent}
    (h : events ++ [event] = before ++ middle :: after) :
    (after = [] ∧ before = events ∧ middle = event) ∨
      ∃ rest, after = rest ++ [event] ∧ events = before ++ middle :: rest := by
  obtain rfl | ⟨rest, last, rfl⟩ := List.eq_nil_or_concat after
  · obtain ⟨hbefore, hmiddle⟩ := List.append_inj' h rfl
    exact .inl ⟨rfl, hbefore.symm, (List.singleton_inj.1 hmiddle).symm⟩
  · rw [List.concat_eq_append, ← List.cons_append, ← List.append_assoc] at h
    obtain ⟨hevents, hlast⟩ := List.append_inj' h rfl
    rw [List.singleton_inj.1 hlast]
    exact .inr ⟨rest, List.concat_eq_append, hevents⟩

theorem waitsAfter_append_iff :
    WaitsAfter (events ++ [event]) level vector ↔
      event = .requested level vector ∨
        event.level? ≠ some level ∧ WaitsAfter events level vector := by
  constructor
  · rintro ⟨before, between, hevents, hbetween⟩
    obtain ⟨-, -, hevent⟩ | ⟨rest, rfl, hrest⟩ := split_append_singleton hevents
    · exact .inl hevent.symm
    · have hlevel := hbetween event (by simp)
      refine .inr ⟨hlevel, before, rest, hrest, fun other hother ↦ ?_⟩
      exact hbetween other (List.mem_append_left _ hother)
  · rintro (rfl | ⟨hlevel, before, between, rfl, hbetween⟩)
    · exact ⟨events, [], rfl, nofun⟩
    · refine ⟨before, between ++ [event], by simp, fun other hother ↦ ?_⟩
      obtain hother | hother := List.mem_append.1 hother
      · exact hbetween other hother
      · rw [List.mem_singleton.1 hother]
        exact hlevel

/-- What waits was requested after any other event of its level. -/
theorem WaitsAfter.mem_of_append {later : List InterruptEvent}
    (hwaits : WaitsAfter (events ++ event :: later) level vector)
    (hlevel : event.level? = some level) (hevent : event ≠ .requested level vector) :
    .requested level vector ∈ later := by
  induction later using List.reverseRecOn with
  | nil =>
    obtain heq | ⟨hne, -⟩ := waitsAfter_append_iff.1 hwaits
    · exact absurd heq hevent
    · exact absurd hlevel hne
  | append_singleton rest last ih =>
    rw [← List.cons_append, ← List.append_assoc] at hwaits
    obtain rfl | ⟨-, hrest⟩ := waitsAfter_append_iff.1 hwaits
    · exact List.mem_append_right rest (List.mem_singleton_self _)
    · exact List.mem_append_left _ (ih hrest)

theorem not_waitsAfter_nil : ¬ WaitsAfter [] level vector := by
  rintro ⟨before, between, hevents, -⟩
  simp at hevents

end Waiting

/-- A machine that has just been made: no interrupt has been requested. -/
structure Machine.Fresh (machine : Machine) : Prop where
  interrupts : machine.interrupts = {}
  maskInRange : machine.MaskInRange

section Fresh

variable {start : Machine} (hfresh : start.Fresh)

include hfresh

theorem Machine.Fresh.latches (level : InterruptLevel) : start.latches level = none := by
  rw [Machine.latches, hfresh.interrupts]
  exact Vector.getElem_replicate level.index.isLt

theorem Machine.Fresh.orderly : start.Orderly := by
  refine ⟨?_, hfresh.maskInRange⟩
  rw [hfresh.interrupts]
  refine iff_of_false nofun ?_
  rintro ⟨level, vector, hwaiting⟩
  have hnone := hfresh.latches level
  rw [Machine.latches, hfresh.interrupts, hwaiting] at hnone
  cases hnone

end Fresh

namespace History

variable {start machine : Machine} {events : List InterruptEvent}

theorem orderly (hfresh : start.Fresh) (hhistory : History start events machine) :
    machine.Orderly := by
  induction hhistory with
  | start => exact hfresh.orderly
  | next _ hnext ih => exact (hnext.latches_and_orderly ih).2

/-- What waits is what the history says. -/
theorem latches_eq_some_iff (hfresh : start.Fresh) (hhistory : History start events machine)
    (level : InterruptLevel) (vector : Byte) :
    machine.latches level = some vector ↔ WaitsAfter events level vector := by
  induction hhistory with
  | start =>
    rw [hfresh.latches]
    exact iff_of_false nofun not_waitsAfter_nil
  | next hhistory hnext ih =>
    rw [(hnext.latches_and_orderly (hhistory.orderly hfresh)).1, Latches.record_eq_some_iff,
      waitsAfter_append_iff, ih]

/-- Any event of a history happened to the machine that the events before it had led to. -/
theorem exists_happens {later : List InterruptEvent} {event : InterruptEvent}
    (hhistory : History start (events ++ event :: later) machine) :
    ∃ before after, History start events before ∧ before.Happens event after := by
  generalize hall : events ++ event :: later = all at hhistory
  induction hhistory generalizing later with
  | start => simp at hall
  | @next earlier last before after hhistory hnext ih =>
    obtain ⟨-, rfl, rfl⟩ | ⟨rest, -, hrest⟩ := split_append_singleton hall.symm
    · exact ⟨before, after, hhistory, hnext⟩
    · exact ih hrest.symm

end History

/-- However requests and steps follow one another from a fresh machine on, the levels are latches.
The flag tells whether one of them is filled. A request waits until the next event of its level,
another request or an acceptance. What is accepted waited until then, and between two acceptances
of a level there is a request. A step accepts the highest request if the mask lets it pass, and
executes the opcode at the handler. Any other step leaves the latches alone and executes the opcode
at the program counter. -/
theorem interrupts_are_latches {start machine : Machine} {events : List InterruptEvent}
    (hfresh : start.Fresh) (hhistory : History start events machine) :
    (machine.interrupts.pending = true ↔ ∃ level vector, machine.latches level = some vector) ∧
    (∀ level vector, machine.latches level = some vector ↔ WaitsAfter events level vector) ∧
    (∀ earlier later level vector, events = earlier ++ .accepted level vector :: later →
      WaitsAfter earlier level vector ∧
        ∀ before between previous, earlier = before ++ .accepted level previous :: between →
          .requested level vector ∈ between) ∧
    ∀ progress final, (step handlers).run machine = .ok progress final →
      (∀ level vector, machine.latches.Due machine.registers.interruptMask level vector →
        final.latches = machine.latches.clear level ∧
          ∃ entered opcode, AcceptsInterrupt level vector machine entered ∧
            Executes opcode entered final) ∧
      ((∀ level vector, ¬ machine.latches.Due machine.registers.interruptMask level vector) →
        final.latches = machine.latches ∧ ∃ opcode, Executes opcode machine final) := by
  have horderly := hhistory.orderly hfresh
  refine ⟨horderly.accurate, hhistory.latches_eq_some_iff hfresh, ?_, ?_⟩
  · rintro earlier later level vector rfl
    obtain ⟨before, after, hearlier, hnext⟩ := hhistory.exists_happens
    cases hnext with
    | accepted hdue _ =>
      have hwaits := (hearlier.latches_eq_some_iff hfresh level vector).1 hdue.waiting
      refine ⟨hwaits, ?_⟩
      rintro before between previous rfl
      exact hwaits.mem_of_append rfl nofun
  · intro progress final hrun
    constructor
    · intro level vector hdue
      have hdue' := (Machine.dueInterrupt?_eq_some_iff horderly.accurate).2 hdue
      obtain ⟨entered, opcode, haccepts, hopcode, -⟩ :=
        exists_executes_of_due horderly.maskInRange hdue' hrun
      exact ⟨((Machine.Happens.accepted hdue hrun).latches_and_orderly horderly).1, entered, opcode,
        haccepts, hopcode⟩
    · intro hdue
      have hdue' := (Machine.dueInterrupt?_eq_none_iff horderly.accurate).2 hdue
      exact ⟨((Machine.Happens.passed hdue hrun).latches_and_orderly horderly).1,
        exists_executes_of_not_due horderly.accurate hdue' hrun⟩

/-- A user program and a handler of one instruction each, which does nothing. -/
def idleProgram : Machine where
  registers := (userProgram 0x4E71).registers
  memory := .map (.clamp 24) (.mapped ⟨0, 1⟩ (.ram
    { size := 0x4000
      supervisorArea := 0x400
      written := .ofList [(0x82, (0x04 : Byte)), (0x83, 0x10), (0x400, 0x4E), (0x401, 0x71),
        (0x410, 0x4E), (0x411, 0x71)] }) .empty)

theorem interrupts_are_latches_idleProgram :
    idleProgram.Fresh ∧ ∃ final entered opcode,
      History idleProgram [.requested ⟨1⟩ 32, .accepted ⟨1⟩ 32] final ∧
        AcceptsInterrupt ⟨1⟩ 32 (idleProgram.requestInterrupt ⟨1⟩ 32) entered ∧
        Executes opcode entered final ∧ ¬ final.interrupts.pending = true := by
  have hfresh : idleProgram.Fresh := ⟨rfl, by decide⟩
  obtain ⟨final, hrun⟩ : ∃ final,
      (step handlers).run (idleProgram.requestInterrupt ⟨1⟩ 32) = .ok .next final :=
    ⟨_, run_step_of_lookup lookup_noOperation rfl rfl rfl⟩
  have hrequested : History idleProgram [.requested ⟨1⟩ 32]
      (idleProgram.requestInterrupt ⟨1⟩ 32) :=
    .next .start (.requested ⟨1⟩ 32)
  have hsome : (idleProgram.requestInterrupt ⟨1⟩ 32).dueInterrupt? = some (⟨1⟩, 32) := rfl
  have hdue := (Machine.dueInterrupt?_eq_some_iff (Interrupts.accurate_request _ ⟨1⟩ 32)).1 hsome
  have haccepted : History idleProgram [.requested ⟨1⟩ 32, .accepted ⟨1⟩ 32] final :=
    .next hrequested (.accepted hdue hrun)
  obtain ⟨-, entered, opcode, haccepts, hopcode⟩ :=
    ((interrupts_are_latches hfresh hrequested).2.2.2 _ final hrun).1 ⟨1⟩ 32 hdue
  obtain ⟨hpending, hwaiting, -⟩ := interrupts_are_latches hfresh haccepted
  refine ⟨hfresh, final, entered, opcode, haccepted, haccepts, hopcode, fun hset ↦ ?_⟩
  obtain ⟨level, vector, hlevel⟩ := hpending.1 hset
  -- The only request was that of the level that was accepted last.
  have hwaits : WaitsAfter ([.requested ⟨1⟩ 32] ++ [.accepted ⟨1⟩ 32]) level vector :=
    (hwaiting level vector).1 hlevel
  obtain hevent | ⟨hother, hfirst⟩ := waitsAfter_append_iff.1 hwaits
  · cases hevent
  · have hwaits' : WaitsAfter ([] ++ [.requested ⟨1⟩ 32]) level vector := hfirst
    obtain hevent | ⟨-, hnone⟩ := waitsAfter_append_iff.1 hwaits'
    · cases hevent
      exact hother rfl
    · exact not_waitsAfter_nil hnone

end M68000
