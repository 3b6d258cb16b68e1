import Mathlib.Data.List.Forall2
import M68000.Proofs.Bus.Purpose
import M68000.Proofs.Exec.Faults

/-!
# The accesses that actions issue

An action that starts in step with the status register, so that accesses are announced with its
privilege state, issues accesses for a list of purposes, one after the other. It ends early only at
a fault, and it is in step again when it ends. Along with that goes how far it moves the program
counter: what an instruction does before its end leaves it where the opcode was fetched, so that its
fetches keep their distance from it.
-/

namespace M68000

/-- Accesses are announced with the privilege state of the status register. -/
def Machine.Synced (machine : Machine) : Prop :=
  machine.busSupervisor = machine.registers.supervisor

/-! ## What was seen on the bus -/

/-- Since the start, accesses for these purposes were seen on the bus. -/
structure Machine.Saw (pc : Address) (start : Machine) (purposes : List Purpose)
    (final : Machine) : Prop where
  synced : final.Synced
  trace : ∀ before, start.trace = some before →
    ∃ accesses, final.trace = some (accesses.reverse ++ before) ∧
      List.Forall₂ (BusAccess.Serves pc) accesses purposes

namespace Machine

variable {pc : Address} {start middle final : Machine} {first second : List Purpose}

theorem saw_of_trace_eq (hsynced : final.Synced) (htrace : final.trace = start.trace) :
    start.Saw pc [] final where
  synced := hsynced
  trace _ hbefore := ⟨[], htrace.trans hbefore, .nil⟩

theorem Saw.append (hfirst : start.Saw pc first middle) (hsecond : middle.Saw pc second final) :
    start.Saw pc (first ++ second) final where
  synced := hsecond.synced
  trace before hbefore := by
    obtain ⟨earlier, hearlier, hserves⟩ := hfirst.trace before hbefore
    obtain ⟨later, hlater, hserves'⟩ := hsecond.trace _ hearlier
    refine ⟨earlier ++ later, ?_, List.rel_append hserves hserves'⟩
    rw [hlater, List.reverse_append, List.append_assoc]

/-- Where accesses are that fetch nothing does not depend on the program counter. -/
theorem Saw.rebase {purposes : List Purpose} (h : start.Saw pc purposes final)
    (hno : ∀ purpose ∈ purposes, purpose.isFetch = false) (pc' : Address) :
    start.Saw pc' purposes final where
  synced := h.synced
  trace before hbefore := by
    obtain ⟨accesses, htrace, hserves⟩ := h.trace before hbefore
    refine ⟨accesses, htrace, ?_⟩
    clear htrace h
    induction hserves with
    | nil => exact .nil
    | @cons access purpose _ _ hserves _ ih =>
      refine .cons ?_ (ih fun other hother ↦ hno other (List.mem_cons_of_mem _ hother))
      have hpurpose := hno purpose List.mem_cons_self
      cases purpose with
      | instruction => cases hpurpose
      | _ => exact ⟨hserves.kind, hserves.size, hserves.supervisor, hserves.program,
          hserves.situation⟩

/-- One access is seen. -/
theorem saw_observe {machine : Machine} (hsynced : machine.Synced) (memory : Space)
    {kind : AccessKind} {size : Size} {code : FunctionCode} {address : Address}
    {value : Option size.Value} {purpose : Purpose}
    (hserves : BusAccess.Serves pc
      ⟨kind, size, code, address, value.map (·.setWidth 32), machine.registers.supervisor⟩
      purpose) :
    machine.Saw pc [purpose] ({ machine with memory }.observe kind size code address value) where
  synced := hsynced
  trace before hbefore := by
    refine ⟨_, ?_, .cons hserves .nil⟩
    change machine.trace.map _ = _
    rw [hbefore]
    rfl

end Machine

namespace Exec

variable {α β : Type}

/-- From a machine that is in step, the action issues accesses for these purposes, or for the first
of them if it faults, and moves the program counter by so many bytes if that is known. -/
structure Issues (action : Exec α) (purposes : List Purpose) (bytes : Option Nat)
    (machine : Machine) : Prop where
  done : ∀ a final, machine.Synced → action.run machine = .ok a final →
    machine.Saw machine.registers.pc purposes final ∧
      ∀ n ∈ bytes, final.registers.pc = machine.registers.pc + BitVec.ofNat 32 n
  fault : ∀ fault final, machine.Synced → action.run machine = .error fault final →
    ∃ made, made <+: purposes ∧ machine.Saw machine.registers.pc made final

/-! ## Composition -/

section Composition

variable {action : Exec α} {rest : α → Exec β} {first second purposes : List Purpose}
  {bytes : Option Nat} {machine : Machine}

theorem Issues.pc (h : action.Issues purposes (some 0) machine) (hsynced : machine.Synced) {a : α}
    {final : Machine} (hrun : action.run machine = .ok a final) :
    final.registers.pc = machine.registers.pc := by
  have hpc := (h.done a final hsynced hrun).2 0 rfl
  rw [hpc]
  exact BitVec.add_zero _

theorem Issues.bind (haction : action.Issues first (some 0) machine)
    (hrest : ∀ a next, action.run machine = .ok a next → (rest a).Issues second bytes next) :
    (action >>= rest).Issues (first ++ second) bytes machine where
  done b final hsynced hrun := by
    obtain ⟨a, next, hnext, hrun⟩ := run_bind_eq_ok.1 hrun
    obtain ⟨hsaw, -⟩ := haction.done a next hsynced hnext
    have hpc := haction.pc hsynced hnext
    obtain ⟨hsaw', hadvance⟩ := (hrest a next hnext).done b final hsaw.synced hrun
    rw [hpc] at hsaw' hadvance
    exact ⟨hsaw.append hsaw', hadvance⟩
  fault fault final hsynced hrun := by
    obtain hrun | ⟨a, next, hnext, hrun⟩ := run_bind_eq_error.1 hrun
    · obtain ⟨made, hmade, hsaw⟩ := haction.fault fault final hsynced hrun
      exact ⟨made, hmade.trans (List.prefix_append first second), hsaw⟩
    · obtain ⟨hsaw, -⟩ := haction.done a next hsynced hnext
      obtain ⟨made, hmade, hsaw'⟩ := (hrest a next hnext).fault fault final hsaw.synced hrun
      rw [haction.pc hsynced hnext] at hsaw'
      exact ⟨first ++ made, List.prefix_append_right_inj first |>.2 hmade, hsaw.append hsaw'⟩

/-- An action without an access may come before others. -/
theorem Issues.after (haction : action.Issues [] (some 0) machine)
    (hrest : ∀ a next, action.run machine = .ok a next → (rest a).Issues purposes bytes next) :
    (action >>= rest).Issues purposes bytes machine :=
  haction.bind hrest

/-- The last accesses may be followed by actions without one. -/
theorem Issues.before (haction : action.Issues purposes (some 0) machine)
    (hrest : ∀ a next, action.run machine = .ok a next → (rest a).Issues [] bytes next) :
    (action >>= rest).Issues purposes bytes machine := by
  have hbind := haction.bind hrest
  rw [List.append_nil] at hbind
  exact hbind

/-- The program counter may have moved before actions without an access. -/
theorem Issues.settle (haction : action.Issues purposes bytes machine)
    (hrest : ∀ a next, action.run machine = .ok a next → (rest a).Issues [] (some 0) next) :
    (action >>= rest).Issues purposes bytes machine where
  done b final hsynced hrun := by
    obtain ⟨a, next, hnext, hrun⟩ := run_bind_eq_ok.1 hrun
    obtain ⟨hsaw, hadvance⟩ := haction.done a next hsynced hnext
    have hquiet := (hrest a next hnext).done b final hsaw.synced hrun
    have hsaw' := hsaw.append (hquiet.1.rebase (fun _ hmem ↦ absurd hmem List.not_mem_nil) _)
    rw [List.append_nil] at hsaw'
    rw [(hrest a next hnext).pc hsaw.synced hrun]
    exact ⟨hsaw', hadvance⟩
  fault fault final hsynced hrun := by
    obtain hrun | ⟨a, next, hnext, hrun⟩ := run_bind_eq_error.1 hrun
    · exact haction.fault fault final hsynced hrun
    · obtain ⟨hsaw, -⟩ := haction.done a next hsynced hnext
      obtain ⟨made, hmade, hquiet⟩ := (hrest a next hnext).fault fault final hsaw.synced hrun
      rw [List.prefix_nil.1 hmade] at hquiet
      have hsaw' := hsaw.append (hquiet.rebase (fun _ hmem ↦ absurd hmem List.not_mem_nil) _)
      rw [List.append_nil] at hsaw'
      exact ⟨purposes, List.prefix_refl _, hsaw'⟩

/-- An action may start from a machine that looks the same on the bus. -/
theorem Issues.of_run_eq {other : Exec α} {start : Machine}
    (hrun : action.run machine = other.run start) (hsynced : machine.Synced → start.Synced)
    (htrace : start.trace = machine.trace) (hpc : start.registers.pc = machine.registers.pc)
    (h : other.Issues purposes bytes start) : action.Issues purposes bytes machine where
  done a final hstart hfinal := by
    rw [hrun] at hfinal
    obtain ⟨⟨hfinalSynced, hfinalTrace⟩, hadvance⟩ := h.done a final (hsynced hstart) hfinal
    rw [htrace, hpc] at hfinalTrace
    rw [hpc] at hadvance
    exact ⟨⟨hfinalSynced, hfinalTrace⟩, hadvance⟩
  fault fault final hstart hfinal := by
    rw [hrun] at hfinal
    obtain ⟨made, hmade, ⟨hfinalSynced, hfinalTrace⟩⟩ := h.fault fault final (hsynced hstart) hfinal
    rw [htrace, hpc] at hfinalTrace
    exact ⟨made, hmade, ⟨hfinalSynced, hfinalTrace⟩⟩

/-- Nothing needs to be known of the program counter. -/
theorem Issues.forget (h : action.Issues purposes bytes machine) :
    action.Issues purposes none machine where
  done a final hsynced hrun :=
    ⟨(h.done a final hsynced hrun).1, fun n hn ↦ absurd hn (Option.not_mem_none n)⟩
  fault := h.fault

end Composition

/-! ## Registers -/

section Registers

variable {machine : Machine}

theorem issues_pure (a : α) : (pure a : Exec α).Issues [] (some 0) machine where
  done b final hsynced hrun := by
    cases hrun
    refine ⟨Machine.saw_of_trace_eq hsynced rfl, fun n hn ↦ ?_⟩
    cases hn
    exact (BitVec.add_zero _).symm
  fault fault final hsynced hrun := by cases hrun

theorem issues_get : (get : Exec Machine).Issues [] (some 0) machine where
  done b final hsynced hrun := by
    cases hrun
    refine ⟨Machine.saw_of_trace_eq hsynced rfl, fun n hn ↦ ?_⟩
    cases hn
    exact (BitVec.add_zero _).symm
  fault fault final hsynced hrun := by cases hrun

/-- A change that leaves the trace alone and is in step. -/
theorem issues_modify {f : Machine → Machine} {bytes : Option Nat}
    (hsynced : machine.Synced → (f machine).Synced) (htrace : (f machine).trace = machine.trace)
    (hpc : ∀ n ∈ bytes,
      (f machine).registers.pc = machine.registers.pc + BitVec.ofNat 32 n) :
    (modify f : Exec Unit).Issues [] bytes machine where
  done b final hstart hrun := by
    cases hrun
    exact ⟨Machine.saw_of_trace_eq (hsynced hstart) htrace, hpc⟩
  fault fault final hstart hrun := by cases hrun

theorem issues_modify_of_pc {f : Machine → Machine}
    (hsynced : machine.Synced → (f machine).Synced) (htrace : (f machine).trace = machine.trace)
    (hpc : (f machine).registers.pc = machine.registers.pc) :
    (modify f : Exec Unit).Issues [] (some 0) machine := by
  refine issues_modify hsynced htrace fun n hn ↦ ?_
  cases hn
  exact hpc.trans (BitVec.add_zero _).symm

theorem issues_modifyRegisters {f : Registers → Registers}
    (hstate : (f machine.registers).supervisor = machine.registers.supervisor)
    (hpc : (f machine.registers).pc = machine.registers.pc) :
    (modifyRegisters f).Issues [] (some 0) machine :=
  issues_modify_of_pc (fun hsynced ↦ hsynced.trans hstate.symm) rfl hpc

theorem issues_registers : registers.Issues [] (some 0) machine :=
  issues_get.after fun _ _ _ ↦ issues_pure _

theorem issues_flags : flags.Issues [] (some 0) machine :=
  issues_registers.after fun _ _ _ ↦ issues_pure _

theorem issues_getD (number : Fin 8) : (getD number).Issues [] (some 0) machine :=
  issues_registers.after fun _ _ _ ↦ issues_pure _

theorem issues_getA (number : Fin 8) : (getA number).Issues [] (some 0) machine :=
  issues_registers.after fun _ _ _ ↦ issues_pure _

theorem issues_pc : Exec.pc.Issues [] (some 0) machine :=
  issues_registers.after fun _ _ _ ↦ issues_pure _

theorem issues_setD (number : Fin 8) (value : BitVec 32) :
    (setD number value).Issues [] (some 0) machine :=
  issues_modifyRegisters rfl rfl

theorem issues_setA (number : Fin 8) (value : Address) :
    (setA number value).Issues [] (some 0) machine :=
  issues_modifyRegisters rfl rfl

theorem issues_set (register : Register) (value : BitVec 32) :
    (modifyRegisters (·.set register value)).Issues [] (some 0) machine := by
  cases register with
  | data number => exact issues_setD number value
  | address number => exact issues_setA number value

theorem issues_modifyFlags (f : Flags → Flags) : (modifyFlags f).Issues [] (some 0) machine :=
  issues_modifyRegisters rfl rfl

theorem issues_setCcr (ccr : Ccr) : (setCcr ccr).Issues [] (some 0) machine :=
  issues_modifyRegisters rfl rfl

theorem issues_advancePc (bytes : Nat) : (advancePc bytes).Issues [] (some bytes) machine :=
  issues_modify id rfl fun n hn ↦ by
    cases hn
    rfl

theorem issues_setPc (address : Address) : (setPc address).Issues [] none machine :=
  issues_modify id rfl fun n hn ↦ absurd hn (Option.not_mem_none n)

/-! ## Faults -/

theorem issues_illegal (purposes : List Purpose) (bytes : Option Nat) :
    (illegal : Exec α).Issues purposes bytes machine where
  done a final hsynced hrun := by cases hrun
  fault fault final hsynced hrun := by
    cases hrun
    exact ⟨[], List.nil_prefix, Machine.saw_of_trace_eq hsynced rfl⟩

theorem issues_requireSupervisor : requireSupervisor.Issues [] (some 0) machine := by
  refine issues_registers.after fun registers _ hrun ↦ ?_
  cases hrun
  split
  next => exact issues_pure ()
  next =>
    refine issues_get.after fun _ _ _ ↦ issues_pc.after fun pc next _ ↦ ?_
    constructor
    · intro a final hsynced hrun
      cases hrun
    · intro fault final hsynced hrun
      cases hrun
      exact ⟨[], List.nil_prefix, Machine.saw_of_trace_eq hsynced rfl⟩

/-! ## The bus -/

theorem issues_readAs {code : FunctionCode} {size : Size} {address : Address} {purpose : Purpose}
    (hserves : machine.Synced → ∀ value, BusAccess.Serves machine.registers.pc
      ⟨.read, size, code, address, value, machine.registers.supervisor⟩ purpose) :
    (readAs code size address).Issues [purpose] (some 0) machine where
  done value final hsynced hrun := by
    obtain ⟨-, rfl⟩ := run_readAs_eq_ok.1 hrun
    refine ⟨Machine.saw_observe hsynced machine.memory (hserves hsynced _), fun n hn ↦ ?_⟩
    cases hn
    exact (BitVec.add_zero _).symm
  fault fault final hsynced hrun := by
    obtain ⟨refusal, -, -, rfl⟩ := run_readAs_eq_error.1 hrun
    exact ⟨_, List.prefix_refl _, Machine.saw_observe hsynced machine.memory (hserves hsynced none)⟩

theorem issues_writeAs {code : FunctionCode} {size : Size} {address : Address} {value : size.Value}
    {purpose : Purpose}
    (hserves : machine.Synced → ∀ value, BusAccess.Serves machine.registers.pc
      ⟨.write, size, code, address, value, machine.registers.supervisor⟩ purpose) :
    (writeAs code size address value).Issues [purpose] (some 0) machine where
  done value final hsynced hrun := by
    obtain ⟨memory, -, rfl⟩ := run_writeAs_eq_ok.1 hrun
    refine ⟨Machine.saw_observe hsynced memory (hserves hsynced _), fun n hn ↦ ?_⟩
    cases hn
    exact (BitVec.add_zero _).symm
  fault fault final hsynced hrun := by
    obtain ⟨refusal, memory, -, -, rfl⟩ := run_writeAs_eq_error.1 hrun
    exact ⟨_, List.prefix_refl _, Machine.saw_observe hsynced memory (hserves hsynced none)⟩

theorem issues_read (size : Size) (address : Address) :
    (Exec.read size address).Issues [.data .read size] (some 0) machine := by
  refine issues_get.after fun _ _ hrun ↦ ?_
  cases hrun
  exact issues_readAs fun hsynced _ ↦ ⟨rfl, rfl, hsynced, rfl, trivial⟩

theorem issues_write (size : Size) (address : Address) (value : size.Value) :
    (Exec.write size address value).Issues [.data .write size] (some 0) machine := by
  refine issues_get.after fun _ _ hrun ↦ ?_
  cases hrun
  exact issues_writeAs fun hsynced _ ↦ ⟨rfl, rfl, hsynced, rfl, trivial⟩

theorem issues_readProgram (size : Size) (address : Address) :
    (readProgram size address).Issues [.programOperand size] (some 0) machine := by
  refine issues_get.after fun _ _ hrun ↦ ?_
  cases hrun
  exact issues_readAs fun hsynced _ ↦ ⟨rfl, rfl, hsynced, rfl, trivial⟩

/-- What lies at a distance from the program counter is part of the instruction. -/
theorem issues_readInstruction (size : Size) (offset : Nat) :
    (do readProgram size ((← Exec.pc) + BitVec.ofNat 32 offset)).Issues [.instruction size offset]
      (some 0) machine := by
  refine issues_pc.after fun _ _ hrun ↦ ?_
  cases hrun
  refine issues_get.after fun _ _ hrun ↦ ?_
  cases hrun
  exact issues_readAs fun hsynced _ ↦ ⟨rfl, rfl, hsynced, rfl, rfl⟩

theorem issues_fetchWord (offset : Nat) :
    (fetchWord offset).Issues [.instruction .word offset] (some 0) machine :=
  issues_readInstruction .word offset

theorem issues_fetch (size : Size) (offset : Nat) :
    (fetch size offset).Issues [.instruction size.aligned offset] (some 0) machine := by
  cases size with
  | byte => exact (issues_fetchWord offset).before fun _ _ _ ↦ issues_pure _
  | word => exact issues_fetchWord offset
  | long => exact issues_readInstruction .long offset

/-! ## The stack -/

/-- What the access that stacks a value is for depends on the machine. -/
theorem issues_push_of_serves {size : Size} {value : size.Value} {purpose : Purpose}
    (hserves : machine.Synced → ∀ address value, BusAccess.Serves machine.registers.pc
      ⟨.write, size, machine.dataCode, address, value, machine.registers.supervisor⟩ purpose) :
    (push size value).Issues [purpose] (some 0) machine := by
  refine (issues_getA stackPointer).after fun top _ hrun ↦ ?_
  cases hrun
  have hwrite (address : Address) :
      (Exec.write size address value).Issues [purpose] (some 0) machine :=
    issues_get.after fun _ _ hrun ↦ by
      cases hrun
      exact issues_writeAs fun hsynced value ↦ hserves hsynced address value
  exact (hwrite _).before fun _ _ _ ↦ issues_setA stackPointer _

theorem issues_push (size : Size) (value : size.Value) :
    (push size value).Issues [.data .write size] (some 0) machine :=
  issues_push_of_serves fun hsynced _ _ ↦ ⟨rfl, rfl, hsynced, rfl, trivial⟩

theorem issues_pop (size : Size) : (pop size).Issues [.data .read size] (some 0) machine := by
  refine (issues_getA stackPointer).after fun top _ _ ↦ ?_
  refine (issues_read size top).before fun value _ _ ↦ ?_
  exact (issues_setA stackPointer _).after fun _ _ _ ↦ issues_pure value

end Registers

/-! ## Operands -/

section Operand

variable {machine : Machine} {size : Size} (operand : Operand size)

theorem issues_indexedAddress (base : Address) (offset : Nat) :
    (Operand.indexedAddress base offset).Issues [.instruction .word offset] (some 0) machine := by
  refine (issues_fetchWord offset).before fun extension _ _ ↦ ?_
  exact issues_registers.after fun _ _ _ ↦ issues_pure _

theorem issues_address :
    operand.address.Issues (operand.mode.fetches size operand.offset) (some 0) machine := by
  obtain ⟨mode, offset⟩ := operand
  cases mode with
  | indirect number => exact issues_getA number
  | postIncrement number => exact issues_getA number
  | preDecrement number => exact (issues_getA number).after fun _ _ _ ↦ issues_pure _
  | displacement number =>
    refine (issues_getA number).after fun base _ _ ↦ ?_
    exact (issues_fetchWord offset).before fun _ _ _ ↦ issues_pure _
  | indexed number =>
    exact (issues_getA number).after fun base _ _ ↦ issues_indexedAddress base offset
  | absoluteShort => exact (issues_fetchWord offset).before fun _ _ _ ↦ issues_pure _
  | absoluteLong => exact issues_fetch .long offset
  | pcDisplacement =>
    refine issues_pc.after fun pc _ _ ↦ ?_
    exact (issues_fetchWord offset).before fun _ _ _ ↦ issues_pure _
  | pcIndexed => exact issues_pc.after fun pc _ _ ↦ issues_indexedAddress _ offset
  | dataRegister | addressRegister | immediate => exact issues_illegal _ _

theorem issues_operandGet :
    operand.get.Issues (OperandUse.read.purposes size operand.mode operand.offset) (some 0)
      machine := by
  obtain ⟨mode, offset⟩ := operand
  cases mode with
  | dataRegister number => exact (issues_getD number).after fun _ _ _ ↦ issues_pure _
  | addressRegister number => exact (issues_getA number).after fun _ _ _ ↦ issues_pure _
  | immediate => exact issues_fetch size offset
  | pcDisplacement | pcIndexed =>
    exact (issues_address _).bind fun address _ _ ↦ issues_readProgram size address
  | _ => exact (issues_address _).bind fun address _ _ ↦ issues_read size address

theorem issues_put (value : size.Value) :
    (operand.put value).Issues (OperandUse.write.purposes size operand.mode operand.offset) (some 0)
      machine := by
  obtain ⟨mode, offset⟩ := operand
  cases mode with
  | dataRegister number => exact (issues_getD number).after fun _ _ _ ↦ issues_setD number _
  | addressRegister number => exact issues_setA number _
  | immediate | pcDisplacement | pcIndexed => exact issues_illegal _ _
  | _ => exact (issues_address _).bind fun address _ _ ↦ issues_write size address value

theorem issues_finish : operand.finish.Issues [] (some 0) machine := by
  unfold Operand.finish
  split
  next number _ => exact (issues_getA number).after fun _ _ _ ↦ issues_setA number _
  next number _ => exact (issues_getA number).after fun _ _ _ ↦ issues_setA number _
  next => exact issues_pure ()

theorem issues_ofField {field : BitVec 6} {offset : Nat} {rest : Operand size → Exec α}
    {purposes : List Purpose} {bytes : Option Nat}
    (hrest : ∀ mode, Mode.ofField? field = some mode →
      (rest ⟨mode, offset⟩).Issues purposes bytes machine) :
    (Operand.ofField size field offset >>= rest).Issues purposes bytes machine := by
  cases hmode : Mode.ofField? field with
  | some mode =>
    rw [ofField_bind hmode]
    exact hrest mode hmode
  | none =>
    unfold Operand.ofField
    rw [hmode]
    exact (issues_illegal purposes (some 0)).before fun _ _ hrun ↦ by cases hrun

end Operand

/-! ## Exceptions -/

section Exception

variable {machine : Machine}

theorem supervisor_of_run_push {size : Size} {value : size.Value} {done : Unit} {next : Machine}
    (hrun : (push size value).run machine = .ok done next) :
    next.registers.supervisor = machine.registers.supervisor := by
  obtain ⟨memory, trace, -, rfl⟩ := exists_of_run_push hrun
  rfl

theorem issues_push_of_supervisor (hsupervisor : machine.registers.supervisor = true) (size : Size)
    (value : size.Value) : (push size value).Issues [.exception .write size] (some 0) machine :=
  issues_push_of_serves fun hsynced _ _ ↦ ⟨rfl, rfl, hsynced, rfl, hsupervisor⟩

/-- An exception is entered in supervisor state. -/
theorem issues_enterException (vector : Byte) (returnAddress : Address) :
    (enterException vector returnAddress).Issues Purpose.exceptionEntry none machine := by
  have hstate : (modify (·.setSupervisor true) : Exec Unit).Issues [] (some 0) machine :=
    issues_modify_of_pc (fun _ ↦ rfl) rfl (machine.registers.pc_setSupervisor true)
  refine issues_registers.after fun before _ hrun ↦ ?_
  cases hrun
  refine hstate.after fun _ entering hrun ↦ ?_
  have hentering : entering.registers.supervisor = true := by
    cases hrun
    exact machine.registers.supervisor_setSupervisor true
  refine (issues_push_of_supervisor hentering .long returnAddress).bind fun _ stacking hrun ↦ ?_
  have hstacking := (supervisor_of_run_push hrun).trans hentering
  refine (issues_push_of_supervisor hstacking .word _).bind fun _ stacked hrun ↦ ?_
  have hstacked := (supervisor_of_run_push hrun).trans hstacking
  have hvector (address : Address) :
      (readAs .supervisorData .long address).Issues [.exception .read .long] (some 0) stacked :=
    issues_readAs fun _ _ ↦ ⟨rfl, rfl, hstacked.symm, rfl, hstacked⟩
  exact (hvector _).before fun handler _ _ ↦ issues_setPc handler

/-- The entry of an interrupt that is due is all that comes before the opcode. -/
theorem issues_acceptInterrupt : acceptInterrupt.Issues
    (if machine.dueInterrupt?.isSome then Purpose.exceptionEntry else []) none machine := by
  cases hdue : machine.dueInterrupt? with
  | none =>
    obtain ⟨interrupts, haccept, -⟩ := run_acceptInterrupt_of_not_due hdue
    have hquiet : (pure () : Exec Unit).Issues [] none { machine with interrupts } :=
      (issues_pure ()).forget
    exact hquiet.of_run_eq haccept id rfl rfl
  | some request =>
    obtain ⟨level, vector⟩ := request
    refine Issues.of_run_eq (run_acceptInterrupt_of_due hdue) id rfl rfl ?_
    refine (issues_enterException vector _).settle fun _ entered _ ↦ ?_
    exact (issues_modifyRegisters rfl rfl).after fun _ _ _ ↦ issues_modify_of_pc id rfl rfl

end Exception

end Exec

end M68000
