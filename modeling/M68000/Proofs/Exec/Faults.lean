import M68000.Proofs.Dispatch.Modes
import M68000.Proofs.Exec.Run
import M68000.Proofs.Registers.Status

/-!
# Where actions fault

An action faults in place if an access that was refused is all that can end it, and the program
counter is then where it was before. What an instruction does before it moves the program counter
is steady, which means that it leaves the program counter alone and faults in place, and what comes
after that cannot fail. So instructions fault in place, if only their operands have the modes that
the instruction can deal with.
-/

namespace M68000

namespace Exec

variable {α β : Type}

/-- A sequence faults in its first action or, after that is done, in the rest. -/
theorem run_bind_eq_error {action : Exec α} {rest : α → Exec β} {machine final : Machine}
    {fault : Fault} :
    (action >>= rest).run machine = .error fault final ↔
      action.run machine = .error fault final ∨
        ∃ a next, action.run machine = .ok a next ∧ (rest a).run next = .error fault final := by
  rw [EStateM.run_bind]
  cases action.run machine with
  | ok a next =>
    constructor
    · intro h
      exact .inr ⟨a, next, rfl, h⟩
    · rintro (h | ⟨_, _, heq, h⟩)
      · cases h
      · cases heq
        exact h
  | error fault' next =>
    constructor
    · intro h
      cases h
      exact .inl rfl
    · rintro (h | ⟨_, _, heq, _⟩)
      · cases h
        rfl
      · cases heq

/-! ## Three kinds of actions -/

/-- Whenever the action faults, an access was refused, and the program counter is where it was. -/
def FaultsInPlace (action : Exec α) : Prop :=
  ∀ machine fault final, action.run machine = .error fault final →
    (∃ refusal, fault = .bus refusal) ∧ final.registers.pc = machine.registers.pc

/-- The action leaves the program counter alone and faults in place. -/
structure Steady (action : Exec α) : Prop where
  pc : ∀ machine a final, action.run machine = .ok a final →
    final.registers.pc = machine.registers.pc
  faultsInPlace : FaultsInPlace action

/-- The action always ends in a value. -/
def Infallible (action : Exec α) : Prop :=
  ∀ machine, ∃ a final, action.run machine = .ok a final

/-! ### Composition -/

namespace Infallible

variable {action : Exec α} (h : Infallible action)

include h

theorem run_ne_error (machine : Machine) (fault : Fault) (final : Machine) :
    action.run machine ≠ .error fault final := by
  obtain ⟨a, next, hrun⟩ := h machine
  rw [hrun]
  intro heq
  cases heq

theorem faultsInPlace : FaultsInPlace action :=
  fun machine fault final hrun ↦ absurd hrun (h.run_ne_error machine fault final)

/-- An action that cannot fail is steady if it leaves the program counter alone. -/
theorem steady (hpc : ∀ machine, (action.after machine).registers.pc = machine.registers.pc) :
    Steady action where
  pc machine a final hrun := by
    rw [← hpc machine, after_of_run_eq_ok hrun]
  faultsInPlace := h.faultsInPlace

end Infallible

theorem infallible_modify (f : Machine → Machine) : Infallible (modify f : Exec Unit) :=
  fun machine ↦ ⟨(), f machine, rfl⟩

theorem infallible_bind {action : Exec α} {rest : α → Exec β} (haction : Infallible action)
    (hrest : ∀ a, Infallible (rest a)) : Infallible (action >>= rest) := by
  intro machine
  obtain ⟨a, next, hnext⟩ := haction machine
  obtain ⟨b, final, hfinal⟩ := hrest a next
  exact ⟨b, final, run_bind_eq_ok.2 ⟨a, next, hnext, hfinal⟩⟩

theorem faultsInPlace_bind {action : Exec α} {rest : α → Exec β} (haction : Steady action)
    (hrest : ∀ a, FaultsInPlace (rest a)) : FaultsInPlace (action >>= rest) := by
  intro machine fault final hrun
  obtain hrun | ⟨a, next, hnext, hrun⟩ := run_bind_eq_error.1 hrun
  · exact haction.faultsInPlace machine fault final hrun
  · obtain ⟨hrefusal, hpc⟩ := hrest a next fault final hrun
    exact ⟨hrefusal, hpc.trans (haction.pc machine a next hnext)⟩

/-- The last action that can fail may move the program counter. -/
theorem faultsInPlace_bind_infallible {action : Exec α} {rest : α → Exec β}
    (haction : FaultsInPlace action) (hrest : ∀ a, Infallible (rest a)) :
    FaultsInPlace (action >>= rest) := by
  intro machine fault final hrun
  obtain hrun | ⟨a, next, -, hrun⟩ := run_bind_eq_error.1 hrun
  · exact haction machine fault final hrun
  · exact absurd hrun ((hrest a).run_ne_error next fault final)

theorem steady_bind {action : Exec α} {rest : α → Exec β} (haction : Steady action)
    (hrest : ∀ a, Steady (rest a)) : Steady (action >>= rest) where
  pc machine b final hrun := by
    obtain ⟨a, next, hnext, hrun⟩ := run_bind_eq_ok.1 hrun
    exact ((hrest a).pc next b final hrun).trans (haction.pc machine a next hnext)
  faultsInPlace := faultsInPlace_bind haction fun a ↦ (hrest a).faultsInPlace

/-! ## Registers -/

theorem steady_pure (a : α) : Steady (pure a : Exec α) :=
  Infallible.steady (fun machine ↦ ⟨a, machine, rfl⟩) fun _ ↦ rfl

theorem steady_get : Steady (get : Exec Machine) :=
  Infallible.steady (fun machine ↦ ⟨machine, machine, rfl⟩) fun _ ↦ rfl

theorem steady_modify {f : Machine → Machine}
    (hpc : ∀ machine, (f machine).registers.pc = machine.registers.pc) :
    Steady (modify f : Exec Unit) :=
  (infallible_modify f).steady hpc

theorem steady_registers : Steady registers :=
  steady_bind steady_get fun _ ↦ steady_pure _

theorem steady_flags : Steady flags :=
  steady_bind steady_registers fun _ ↦ steady_pure _

theorem steady_getD (number : Fin 8) : Steady (getD number) :=
  steady_bind steady_registers fun _ ↦ steady_pure _

theorem steady_getA (number : Fin 8) : Steady (getA number) :=
  steady_bind steady_registers fun _ ↦ steady_pure _

theorem steady_pc : Steady Exec.pc :=
  steady_bind steady_registers fun _ ↦ steady_pure _

theorem steady_setD (number : Fin 8) (value : BitVec 32) : Steady (setD number value) :=
  steady_modify fun _ ↦ rfl

theorem steady_setA (number : Fin 8) (value : Address) : Steady (setA number value) :=
  steady_modify fun _ ↦ rfl

theorem steady_set (register : Register) (value : BitVec 32) :
    Steady (modifyRegisters (·.set register value)) := by
  cases register with
  | data number => exact steady_setD number value
  | address number => exact steady_setA number value

theorem steady_modifyFlags (f : Flags → Flags) : Steady (modifyFlags f) :=
  steady_modify fun _ ↦ rfl

theorem steady_setCcr (ccr : Ccr) : Steady (setCcr ccr) :=
  steady_modify fun _ ↦ rfl

theorem infallible_setPc (address : Address) : Infallible (setPc address) :=
  infallible_modify _

theorem infallible_advancePc (bytes : Nat) : Infallible (advancePc bytes) :=
  infallible_modify _

/-! ## The bus -/

theorem steady_readAs (code : FunctionCode) (size : Size) (address : Address) :
    Steady (readAs code size address) where
  pc machine value final hrun := by
    obtain ⟨-, rfl⟩ := run_readAs_eq_ok.1 hrun
    rfl
  faultsInPlace machine fault final hrun := by
    obtain ⟨refusal, -, rfl, rfl⟩ := run_readAs_eq_error.1 hrun
    exact ⟨⟨refusal, rfl⟩, rfl⟩

theorem steady_writeAs (code : FunctionCode) (size : Size) (address : Address)
    (value : size.Value) : Steady (writeAs code size address value) where
  pc machine done final hrun := by
    obtain ⟨memory, -, rfl⟩ := run_writeAs_eq_ok.1 hrun
    rfl
  faultsInPlace machine fault final hrun := by
    obtain ⟨refusal, memory, -, rfl, rfl⟩ := run_writeAs_eq_error.1 hrun
    exact ⟨⟨refusal, rfl⟩, rfl⟩

theorem steady_read (size : Size) (address : Address) : Steady (Exec.read size address) :=
  steady_bind steady_get fun machine ↦ steady_readAs machine.dataCode size address

theorem steady_readProgram (size : Size) (address : Address) :
    Steady (readProgram size address) :=
  steady_bind steady_get fun machine ↦ steady_readAs machine.programCode size address

theorem steady_write (size : Size) (address : Address) (value : size.Value) :
    Steady (Exec.write size address value) :=
  steady_bind steady_get fun machine ↦ steady_writeAs machine.dataCode size address value

theorem steady_fetchWord (offset : Nat) : Steady (fetchWord offset) :=
  steady_bind steady_pc fun _ ↦ steady_readProgram .word _

theorem steady_fetch (size : Size) (offset : Nat) : Steady (fetch size offset) := by
  cases size with
  | byte => exact steady_bind (steady_fetchWord offset) fun word ↦ steady_pure _
  | word => exact steady_fetchWord offset
  | long => exact steady_bind steady_pc fun _ ↦ steady_readProgram .long _

/-! ## The stack -/

theorem steady_push (size : Size) (value : size.Value) : Steady (push size value) := by
  refine steady_bind (steady_getA stackPointer) fun top ↦ ?_
  exact steady_bind (steady_write size _ value) fun _ ↦ steady_setA stackPointer _

theorem steady_pop (size : Size) : Steady (pop size) := by
  refine steady_bind (steady_getA stackPointer) fun top ↦ ?_
  refine steady_bind (steady_read size top) fun value ↦ ?_
  exact steady_bind (steady_setA stackPointer _) fun _ ↦ steady_pure value

/-! ## Operands -/

section Operand

variable {size : Size} (operand : Operand size)

theorem steady_indexedAddress (base : Address) (offset : Nat) :
    Steady (Operand.indexedAddress base offset) := by
  refine steady_bind (steady_fetchWord offset) fun extension ↦ ?_
  exact steady_bind steady_registers fun registers ↦ steady_pure _

theorem steady_address (hmode : ModeSet.addressed.contains operand.mode = true) :
    Steady operand.address := by
  obtain ⟨mode, offset⟩ := operand
  rw [ModeSet.contains_addressed] at hmode
  cases mode with
  | dataRegister number => cases hmode
  | addressRegister number => cases hmode
  | indirect number => exact steady_getA number
  | postIncrement number => exact steady_getA number
  | preDecrement number => exact steady_bind (steady_getA number) fun _ ↦ steady_pure _
  | displacement number =>
    refine steady_bind (steady_getA number) fun base ↦ ?_
    exact steady_bind (steady_fetchWord offset) fun _ ↦ steady_pure _
  | indexed number =>
    exact steady_bind (steady_getA number) fun base ↦ steady_indexedAddress base offset
  | absoluteShort => exact steady_bind (steady_fetchWord offset) fun _ ↦ steady_pure _
  | absoluteLong => exact steady_fetch .long offset
  | pcDisplacement =>
    refine steady_bind steady_pc fun pc ↦ ?_
    exact steady_bind (steady_fetchWord offset) fun _ ↦ steady_pure _
  | pcIndexed => exact steady_bind steady_pc fun pc ↦ steady_indexedAddress _ offset
  | immediate => cases hmode

/-- Every mode can be read. -/
theorem steady_operandGet : Steady operand.get := by
  obtain ⟨mode, offset⟩ := operand
  cases mode with
  | dataRegister number => exact steady_bind (steady_getD number) fun _ ↦ steady_pure _
  | addressRegister number => exact steady_bind (steady_getA number) fun _ ↦ steady_pure _
  | immediate => exact steady_fetch size offset
  | pcDisplacement =>
    exact steady_bind (steady_address _ (ModeSet.contains_addressed _)) (steady_readProgram size)
  | pcIndexed =>
    exact steady_bind (steady_address _ (ModeSet.contains_addressed _)) (steady_readProgram size)
  | _ => exact steady_bind (steady_address _ (ModeSet.contains_addressed _)) (steady_read size)

theorem steady_put (hmode : ModeSet.alterable.contains operand.mode = true)
    (value : size.Value) : Steady (operand.put value) := by
  obtain ⟨mode, offset⟩ := operand
  rw [ModeSet.contains_alterable] at hmode
  cases mode with
  | dataRegister number => exact steady_bind (steady_getD number) fun _ ↦ steady_setD number _
  | addressRegister number => exact steady_setA number _
  | immediate => cases hmode
  | pcDisplacement => cases hmode
  | pcIndexed => cases hmode
  | _ =>
    exact steady_bind (steady_address _ (ModeSet.contains_addressed _)) fun address ↦
      steady_write size address value

theorem steady_finish : Steady operand.finish := by
  unfold Operand.finish
  split
  next number _ => exact steady_bind (steady_getA number) fun _ ↦ steady_setA number _
  next number _ => exact steady_bind (steady_getA number) fun _ ↦ steady_setA number _
  next => exact steady_pure ()

theorem ofField_bind {field : BitVec 6} {offset : Nat} {mode : Mode} {rest : Operand size → Exec α}
    (hmode : Mode.ofField? field = some mode) :
    (Operand.ofField size field offset >>= rest) = rest ⟨mode, offset⟩ := by
  unfold Operand.ofField
  rw [hmode]
  rfl

theorem steady_ofField {field : BitVec 6} {offset : Nat} {modes : ModeSet}
    {rest : Operand size → Exec α} (hfield : modes.Names field)
    (hrest : ∀ mode, modes.contains mode = true → Steady (rest ⟨mode, offset⟩)) :
    Steady (Operand.ofField size field offset >>= rest) := by
  obtain ⟨mode, hmode, hcontains⟩ := hfield
  rw [ofField_bind hmode]
  exact hrest mode hcontains

theorem faultsInPlace_ofField {field : BitVec 6} {offset : Nat} {modes : ModeSet}
    {rest : Operand size → Exec α} (hfield : modes.Names field)
    (hrest : ∀ mode, modes.contains mode = true → FaultsInPlace (rest ⟨mode, offset⟩)) :
    FaultsInPlace (Operand.ofField size field offset >>= rest) := by
  obtain ⟨mode, hmode, hcontains⟩ := hfield
  rw [ofField_bind hmode]
  exact hrest mode hcontains

/-- An operand that is only read may have any mode. -/
theorem faultsInPlace_source {field : BitVec 6} {offset : Nat}
    {rest : Operand size → size.Value → Exec α} (hfield : ModeSet.all.Names field)
    (hrest : ∀ operand value, FaultsInPlace (rest operand value)) :
    FaultsInPlace (do
      let operand ← Operand.ofField size field offset
      let value ← operand.get
      operand.finish
      rest operand value) := by
  refine faultsInPlace_ofField hfield fun mode _ ↦ ?_
  refine faultsInPlace_bind (steady_operandGet _) fun value ↦ ?_
  exact faultsInPlace_bind (steady_finish _) fun _ ↦ hrest _ value

/-- The last thing that happens to an operand that is written, before the instruction ends. -/
theorem faultsInPlace_finish (bytes : Nat) :
    FaultsInPlace (do
      operand.finish
      advancePc bytes) :=
  faultsInPlace_bind (steady_finish operand) fun _ ↦ (infallible_advancePc bytes).faultsInPlace

end Operand

/-! ## Exceptions -/

theorem faultsInPlace_enterException (vector : Byte) (returnAddress : Address) :
    FaultsInPlace (enterException vector returnAddress) := by
  have hstate : Steady (modify (·.setSupervisor true)) :=
    steady_modify fun machine ↦ machine.registers.pc_setSupervisor true
  refine faultsInPlace_bind steady_registers fun before ↦ ?_
  refine faultsInPlace_bind hstate fun _ ↦ ?_
  refine faultsInPlace_bind (steady_push .long returnAddress) fun _ ↦ ?_
  refine faultsInPlace_bind (steady_push .word _) fun _ ↦ ?_
  refine faultsInPlace_bind (steady_readAs _ .long _) fun handler ↦ ?_
  exact (infallible_setPc handler).faultsInPlace

theorem faultsInPlace_acceptInterrupt : FaultsInPlace acceptInterrupt := by
  have hrefresh : Infallible (modify fun machine ↦
      { machine with interrupts := machine.interrupts.refresh }) :=
    infallible_modify _
  unfold acceptInterrupt
  refine faultsInPlace_bind steady_get fun machine ↦ ?_
  split
  next =>
    dsimp only
    split
    next level vector _ =>
      split
      next =>
        refine faultsInPlace_bind (steady_modify fun _ ↦ rfl) fun _ ↦ ?_
        refine faultsInPlace_bind steady_pc fun pc ↦ ?_
        -- The entry moves the program counter, but nothing after it can fail.
        refine faultsInPlace_bind_infallible (faultsInPlace_enterException vector pc) fun _ ↦ ?_
        exact infallible_bind (infallible_modify _) fun _ ↦ hrefresh
      next => exact hrefresh.faultsInPlace
    next => exact hrefresh.faultsInPlace
  next => exact (steady_pure ()).faultsInPlace

end Exec

end M68000
