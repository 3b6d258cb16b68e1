import M68000.Proofs.Exec.Operand

/-!
# Actions that ignore the flags

Finding an operand, reading it and writing it depend on the registers and the memory, but neither on
the flags nor on what has been noted down about the instruction. So an action of this kind that is
done on one machine is done in the same way on a machine that differs in these only. In particular
an operand that has been read is found again at the same place when its flags have been recorded.
-/

namespace M68000

/-- The machine with other flags, another opcode noted and other accesses seen. -/
def Machine.marked (machine : Machine) (flags : Flags) (opcode : Opcode)
    (trace : Option (List BusAccess)) : Machine :=
  { machine with registers := { machine.registers with flags }, opcode, trace }

namespace Exec

variable {α β : Type}

/-- Where the action is done, it is done alike whatever the flags, the noted opcode and the accesses
seen before are, and it leaves flags and opcode alone. -/
def Blind (action : Exec α) : Prop :=
  ∀ machine a next, action.run machine = .ok a next → ∀ flags opcode trace,
    ∃ trace', action.run (machine.marked flags opcode trace) =
      .ok a (next.marked flags opcode trace')

/-! ## Composition -/

theorem blind_pure (a : α) : Blind (pure a : Exec α) := by
  intro machine b next hrun flags opcode trace
  cases hrun
  exact ⟨trace, rfl⟩

theorem blind_bind {action : Exec α} {rest : α → Exec β} (haction : Blind action)
    (hrest : ∀ a, Blind (rest a)) : Blind (action >>= rest) := by
  intro machine b next hrun flags opcode trace
  obtain ⟨a, middle, ha, hb⟩ := run_bind_eq_ok.1 hrun
  obtain ⟨trace', ha'⟩ := haction machine a middle ha flags opcode trace
  obtain ⟨trace'', hb'⟩ := hrest a middle b next hb flags opcode trace'
  exact ⟨trace'', run_bind_eq_ok.2 ⟨a, _, ha', hb'⟩⟩

theorem blind_illegal : Blind (illegal : Exec α) := by
  intro machine a next hrun
  cases hrun

/-! ## Registers -/

/-- What follows from the registers apart from the flags. -/
theorem blind_registers {rest : Registers → Exec α}
    (hflags : ∀ registers flags, rest { registers with flags } = rest registers)
    (hrest : ∀ registers, Blind (rest registers)) : Blind (registers >>= rest) := by
  intro machine a next hrun flags opcode trace
  obtain ⟨trace', hrun'⟩ := hrest machine.registers machine a next hrun flags opcode trace
  refine ⟨trace', ?_⟩
  rw [EStateM.run_bind, run_registers]
  change (rest { machine.registers with flags }).run _ = _
  rw [hflags]
  exact hrun'

theorem blind_getD (number : Fin 8) : Blind (getD number) :=
  blind_registers (fun _ _ ↦ rfl) fun _ ↦ blind_pure _

theorem blind_getA (number : Fin 8) : Blind (getA number) :=
  blind_registers (fun _ _ ↦ rfl) fun _ ↦ blind_pure _

theorem blind_pc : Blind pc :=
  blind_registers (fun _ _ ↦ rfl) fun _ ↦ blind_pure _

theorem blind_modifyRegisters {f : Registers → Registers}
    (hf : ∀ registers flags, f { registers with flags } = { f registers with flags }) :
    Blind (modifyRegisters f) := by
  intro machine a next hrun flags opcode trace
  cases hrun
  refine ⟨trace, ?_⟩
  rw [run_modifyRegisters, Machine.marked, hf]
  rfl

theorem blind_setD (number : Fin 8) (value : BitVec 32) : Blind (setD number value) :=
  blind_modifyRegisters fun _ _ ↦ rfl

theorem blind_setA (number : Fin 8) (value : Address) : Blind (setA number value) :=
  blind_modifyRegisters fun _ _ ↦ rfl

/-! ## The bus -/

theorem blind_readAs (code : FunctionCode) (size : Size) (address : Address) :
    Blind (readAs code size address) := by
  intro machine value next hrun flags opcode trace
  obtain ⟨trace', hread, rfl⟩ := exists_of_run_readAs hrun
  exact ⟨_, run_readAs_eq_ok.2 ⟨hread, rfl⟩⟩

theorem blind_read (size : Size) (address : Address) : Blind (Exec.read size address) :=
  fun machine ↦ blind_readAs machine.dataCode size address machine

theorem blind_readProgram (size : Size) (address : Address) : Blind (readProgram size address) :=
  fun machine ↦ blind_readAs machine.programCode size address machine

theorem blind_write (size : Size) (address : Address) (value : size.Value) :
    Blind (Exec.write size address value) := by
  intro machine done next hrun flags opcode trace
  obtain ⟨memory, hwrite, rfl⟩ := run_writeAs_eq_ok.1 hrun
  exact ⟨_, run_writeAs_eq_ok.2 ⟨memory, hwrite, rfl⟩⟩

theorem blind_fetchWord (offset : Nat) : Blind (fetchWord offset) :=
  blind_bind blind_pc fun _ ↦ blind_readProgram .word _

theorem blind_fetch (size : Size) (offset : Nat) : Blind (fetch size offset) := by
  cases size with
  | byte => exact blind_bind (blind_fetchWord offset) fun word ↦ blind_pure _
  | word => exact blind_fetchWord offset
  | long => exact blind_bind blind_pc fun _ ↦ blind_readProgram .long _

/-! ## Operands -/

section Operands

variable {size : Size} (operand : Operand size)

theorem blind_indexedAddress (base : Address) (offset : Nat) :
    Blind (Operand.indexedAddress base offset) := by
  refine blind_bind (blind_fetchWord offset) fun extension ↦ ?_
  refine blind_registers (fun registers flags ↦ ?_) fun registers ↦ blind_pure _
  dsimp only
  cases Register.ofNumber (extension.extractLsb' 12 4).toFin <;> rfl

theorem blind_address : Blind operand.address := by
  obtain ⟨mode, offset⟩ := operand
  have hword (base : Address) : Blind (do return base + (← fetchWord offset).signExtend 32) :=
    blind_bind (blind_fetchWord offset) fun _ ↦ blind_pure _
  cases mode with
  | dataRegister number | addressRegister number | immediate => exact blind_illegal
  | indirect number | postIncrement number => exact blind_getA number
  | preDecrement number => exact blind_bind (blind_getA number) fun _ ↦ blind_pure _
  | displacement number => exact blind_bind (blind_getA number) hword
  | indexed number =>
    exact blind_bind (blind_getA number) fun base ↦ blind_indexedAddress base offset
  | absoluteShort => exact blind_bind (blind_fetchWord offset) fun _ ↦ blind_pure _
  | absoluteLong => exact blind_fetch .long offset
  | pcDisplacement => exact blind_bind blind_pc fun _ ↦ hword _
  | pcIndexed => exact blind_bind blind_pc fun pc ↦ blind_indexedAddress _ offset

theorem blind_operandGet : Blind operand.get := by
  have hread : Blind (do Exec.read size (← operand.address)) :=
    blind_bind (blind_address operand) fun address ↦ blind_read size address
  have hprogram : Blind (do readProgram size (← operand.address)) :=
    blind_bind (blind_address operand) fun address ↦ blind_readProgram size address
  unfold Operand.get
  split
  · exact blind_bind (blind_getD _) fun _ ↦ blind_pure _
  · exact blind_bind (blind_getA _) fun _ ↦ blind_pure _
  · exact blind_fetch size _
  · exact hprogram
  · exact hprogram
  · exact hread

theorem blind_put (value : size.Value) : Blind (operand.put value) := by
  have hwrite : Blind (do Exec.write size (← operand.address) value) :=
    blind_bind (blind_address operand) fun address ↦ blind_write size address value
  unfold Operand.put
  split
  · exact blind_bind (blind_getD _) fun _ ↦ blind_setD _ _
  · exact blind_setA _ _
  · exact blind_illegal
  · exact blind_illegal
  · exact blind_illegal
  · exact hwrite

end Operands

end Exec

end M68000
