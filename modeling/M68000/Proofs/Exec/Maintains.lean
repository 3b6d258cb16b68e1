import M68000.Proofs.Exec.Run
import M68000.Proofs.Memory.Written

/-!
# Properties that actions maintain

An action maintains a property of the machine if it leaves a machine with the property wherever
it ends, in a value or in a fault. What is composed of such actions maintains the property too.
Reading maintains every property that does not depend on the accesses seen. A property is stable if
it does not depend on anything that every program may change, and then all that instructions are
made of maintains it, apart from changes of the privilege state.
-/

namespace M68000

attribute [local grind] Size.bits Size.Value

namespace Exec

variable {inv : Machine → Prop}

/-- The action keeps a property of the machine, also if it ends in a fault. -/
def Maintains (inv : Machine → Prop) (action : Exec α) : Prop :=
  ∀ machine, inv machine → inv (action.after machine)

/-! ## Composition -/

@[grind ←]
theorem maintains_pure (a : α) : Maintains inv (pure a : Exec α) :=
  fun _ hinv ↦ hinv

theorem inv_after_bind {action : Exec α} {rest : α → Exec β} {machine : Machine}
    (hnext : inv (action.after machine))
    (hrest : ∀ a next, action.run machine = .ok a next → inv next → inv ((rest a).after next)) :
    inv ((action >>= rest).after machine) := by
  rw [after] at hnext ⊢
  rw [EStateM.run_bind]
  cases hrun : action.run machine with
  | ok a next =>
    rw [hrun] at hnext
    exact hrest a next hrun hnext
  | error fault next =>
    rw [hrun] at hnext
    exact hnext

@[grind ←]
theorem maintains_bind {action : Exec α} {rest : α → Exec β} (haction : Maintains inv action)
    (hrest : ∀ a, Maintains inv (rest a)) : Maintains inv (action >>= rest) :=
  fun machine hinv ↦ inv_after_bind (haction machine hinv) fun a next _ ↦ hrest a next

theorem maintains_of_run_eq_error {action : Exec α}
    (h : ∀ machine, inv machine → ∃ fault, action.run machine = .error fault machine) :
    Maintains inv action := by
  intro machine hinv
  obtain ⟨fault, hrun⟩ := h machine hinv
  rw [after_of_run_eq_error hrun]
  exact hinv

theorem maintains_get : Maintains inv (get : Exec Machine) :=
  fun _ hinv ↦ hinv

theorem maintains_modify {f : Machine → Machine} (h : ∀ machine, inv machine → inv (f machine)) :
    Maintains inv (modify f) :=
  h

@[grind ←]
theorem maintains_illegal : Maintains inv (illegal : Exec α) :=
  maintains_of_run_eq_error fun machine _ ↦ ⟨_, run_illegal machine⟩

theorem maintains_requireSupervisor : Maintains inv requireSupervisor := by
  intro machine hinv
  cases hstate : machine.registers.supervisor with
  | false =>
    rw [after_of_run_eq_error (run_requireSupervisor_of_user machine hstate)]
    exact hinv
  | true =>
    rw [after_of_run_eq_ok (run_requireSupervisor_of_supervisor machine hstate)]
    exact hinv

/-- An action reserved to the supervisor changes nothing for users. -/
theorem maintains_requireSupervisor_bind
    (huser : ∀ machine, inv machine → machine.registers.supervisor = false)
    (rest : Unit → Exec α) : Maintains inv (requireSupervisor >>= rest) := by
  refine maintains_of_run_eq_error fun machine hinv ↦ ?_
  rw [EStateM.run_bind, run_requireSupervisor_of_user _ (huser machine hinv)]
  exact ⟨_, rfl⟩

@[grind ←]
theorem maintains_ofField (size : Size) (field : BitVec 6) (offset : Nat) :
    Maintains inv (Operand.ofField size field offset) := by
  unfold Operand.ofField
  grind

/-- The rest of an instruction needs to be looked at only for the mode that its field names. -/
theorem maintains_ofField_bind {size : Size} {field : BitVec 6} {offset : Nat}
    {rest : Operand size → Exec α}
    (hrest : ∀ mode, Mode.ofField? field = some mode → Maintains inv (rest ⟨mode, offset⟩)) :
    Maintains inv (Operand.ofField size field offset >>= rest) := by
  unfold Operand.ofField
  cases hmode : Mode.ofField? field with
  | none => exact maintains_of_run_eq_error fun machine _ ↦ ⟨_, rfl⟩
  | some mode => exact hrest mode hmode

/-! ## Reading registers -/

@[grind ←]
theorem maintains_registers : Maintains inv registers :=
  fun _ hinv ↦ hinv

@[grind ←]
theorem maintains_flags : Maintains inv flags :=
  fun _ hinv ↦ hinv

@[grind ←]
theorem maintains_getD (number : Fin 8) : Maintains inv (getD number) :=
  fun _ hinv ↦ hinv

@[grind ←]
theorem maintains_getA (number : Fin 8) : Maintains inv (getA number) :=
  fun _ hinv ↦ hinv

@[grind ←]
theorem maintains_pc : Maintains inv pc :=
  fun _ hinv ↦ hinv

end Exec

/-! ## Reading -/

/-- The property does not depend on the accesses seen. -/
structure IgnoresTrace (inv : Machine → Prop) : Prop where
  trace : ∀ machine trace, inv machine → inv { machine with trace }

namespace IgnoresTrace

open Exec

variable {inv : Machine → Prop} (ignores : IgnoresTrace inv)

include ignores

@[grind ←]
theorem maintains_readAs (code : FunctionCode) (size : Size) (address : Address) :
    Maintains inv (readAs code size address) := by
  intro machine hinv
  rw [after, run_readAs]
  cases machine.memory.read code address size <;> exact ignores.trace machine _ hinv

@[grind ←]
theorem maintains_read (size : Size) (address : Address) :
    Maintains inv (Exec.read size address) :=
  fun machine hinv ↦ ignores.maintains_readAs machine.dataCode size address machine hinv

@[grind ←]
theorem maintains_readProgram (size : Size) (address : Address) :
    Maintains inv (readProgram size address) :=
  fun machine hinv ↦ ignores.maintains_readAs machine.programCode size address machine hinv

@[grind ←]
theorem maintains_fetchWord (offset : Nat) : Maintains inv (fetchWord offset) := by
  unfold fetchWord
  grind

@[grind ←]
theorem maintains_fetch (size : Size) (offset : Nat) : Maintains inv (fetch size offset) := by
  cases size <;> unfold fetch <;> grind

@[grind ←]
theorem maintains_indexedAddress (base : Address) (offset : Nat) :
    Maintains inv (Operand.indexedAddress base offset) := by
  unfold Operand.indexedAddress
  grind

/-- A write maintains what the written bytes do not touch. -/
theorem maintains_write {size : Size} {address : Address} {value : size.Value}
    (hwrite : ∀ machine, inv machine → inv { machine with
      memory := (machine.memory.write machine.dataCode address size value).space }) :
    Maintains inv (Exec.write size address value) := by
  intro machine hinv
  have hwritten := hwrite machine hinv
  rw [after, run_write, run_writeAs]
  cases hresult : machine.memory.write machine.dataCode address size value with
  | ok _ memory =>
    rw [hresult] at hwritten
    exact ignores.trace _ _ hwritten
  | error refusal memory =>
    rw [hresult] at hwritten
    exact ignores.trace _ _ hwritten

variable {size : Size} (operand : Operand size)

@[grind ←]
theorem maintains_address : Maintains inv operand.address := by
  unfold Operand.address
  grind

@[grind ←]
theorem maintains_get : Maintains inv operand.get := by
  unfold Operand.get
  grind

end IgnoresTrace

/-! ## Stable properties -/

/-- The property does not depend on the data and address registers, the program counter and the
flags either, and is kept by writes to memory in the current state. -/
structure Stable (inv : Machine → Prop) : Prop extends IgnoresTrace inv where
  registers : ∀ machine d a pc flags, inv machine →
    inv { machine with registers := { machine.registers with d, a, pc, flags } }
  write : ∀ machine size address value, inv machine →
    inv { machine with
      memory := (machine.memory.write machine.dataCode address size value).space }

namespace Stable

variable {inv : Machine → Prop} (stable : Stable inv)

include stable

theorem ignoresTrace : IgnoresTrace inv :=
  stable.toIgnoresTrace

end Stable

end M68000
