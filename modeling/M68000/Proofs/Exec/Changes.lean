import M68000.Proofs.Exec.Maintains
import M68000.Proofs.Flags.Scope
import M68000.Proofs.Registers.Values
import Mathlib.Data.Nat.ModEq

/-!
# Changes of the flags and of the stack pointer

Much that is to be known of instructions depends on no register but on the flags and the stack
pointer. It is maintained by all actions that change the flags only in certain ways and move the
stack pointer only so far. Pushes and pops, and the steps of post-increment and pre-decrement modes,
also those of bytes, move it by even amounts.
-/

namespace M68000

open Exec

attribute [local grind] Size.bits Size.Value

/-! ## Even amounts -/

namespace Size

theorem two_dvd_alignedBytes (size : Size) : 2 ∣ size.alignedBytes := by
  cases size <;> decide

/-- The stack pointer steps by a word where other registers step by a byte. -/
theorem two_dvd_step (size : Size) : 2 ∣ size.step stackPointer :=
  size.two_dvd_alignedBytes

theorem two_dvd_bytes {size : Size} (hsize : size ≠ .byte) : 2 ∣ size.bytes := by
  cases size with
  | byte => exact absurd rfl hsize
  | word | long => decide

end Size

namespace Address

theorem add_modEq_two (address : Address) {bytes : Nat} (hbytes : 2 ∣ bytes) :
    (address + BitVec.ofNat 32 bytes).toNat ≡ address.toNat [MOD 2] := by
  rw [Nat.ModEq, BitVec.toNat_add, BitVec.toNat_ofNat]
  omega

theorem sub_modEq_two (address : Address) {bytes : Nat} (hbytes : 2 ∣ bytes) :
    (address - BitVec.ofNat 32 bytes).toNat ≡ address.toNat [MOD 2] := by
  rw [Nat.ModEq, BitVec.toNat_sub, BitVec.toNat_ofNat]
  omega

end Address

/-! ## What may change -/

/-- How far the stack pointer may be moved. -/
inductive StackMoves where
  | even
  | any
  deriving DecidableEq

namespace StackMoves

/-- The stack pointer may be moved from one address to the other. -/
def Allows : StackMoves → Address → Address → Prop
  | even, before, after => after.toNat ≡ before.toNat [MOD 2]
  | any, _, _ => True

variable {moves : StackMoves} {before middle after : Address}

theorem allows_refl (moves : StackMoves) (address : Address) : moves.Allows address address := by
  cases moves with
  | even => exact Nat.ModEq.refl _
  | any => trivial

theorem Allows.symm (h : moves.Allows before after) : moves.Allows after before := by
  cases moves with
  | even => exact Nat.ModEq.symm h
  | any => trivial

theorem Allows.trans (h : moves.Allows before middle) (h' : moves.Allows middle after) :
    moves.Allows before after := by
  cases moves with
  | even => exact Nat.ModEq.trans h' h
  | any => trivial

/-- All moves include the even ones. -/
theorem allows_of_modEq (moves : StackMoves) (h : after.toNat ≡ before.toNat [MOD 2]) :
    moves.Allows before after := by
  cases moves with
  | even => exact h
  | any => trivial

end StackMoves

/-- The ways in which the flags may be recorded, and the moves of the stack pointer. -/
structure Changes where
  flags : (Flags → Flags) → Prop
  stack : StackMoves

/-- Any changes of the flags in the scope, and any moves of the stack pointer. -/
def Changes.within (scope : FlagScope) : Changes where
  flags f := ∀ flags, scope.Keeps flags.ccr (f flags).ccr
  stack := .any

/-- The property does not depend on the accesses seen nor on registers other than the flags and the
stack pointer, and is kept by the changes of these two and by writes to memory in the current
state. -/
structure KeptBy (changes : Changes) (inv : Machine → Prop) : Prop extends IgnoresTrace inv where
  values : ∀ machine d a pc,
    changes.stack.Allows (machine.registers.getA stackPointer) (a.get stackPointer) → inv machine →
      inv { machine with registers := { machine.registers with d, a, pc } }
  flags : ∀ f, changes.flags f → ∀ machine, inv machine →
    inv { machine with
      registers := { machine.registers with flags := f machine.registers.flags } }
  write : ∀ machine size address value, inv machine →
    inv { machine with
      memory := (machine.memory.write machine.dataCode address size value).space }

theorem Stable.keptBy {inv : Machine → Prop} (stable : Stable inv) (changes : Changes) :
    KeptBy changes inv where
  trace := stable.trace
  values machine d a pc _ hinv :=
    stable.registers machine d a pc machine.registers.flags hinv
  flags _ _ machine hinv := stable.registers machine _ _ _ _ hinv
  write := stable.write

namespace KeptBy

variable {changes : Changes} {inv : Machine → Prop} (kept : KeptBy changes inv)

include kept

@[grind →]
theorem ignoresTrace : IgnoresTrace inv :=
  kept.toIgnoresTrace

/-- It may be known too where the stack pointer came from. -/
theorem and_allows (top : Address) :
    KeptBy changes fun machine ↦
      inv machine ∧ changes.stack.Allows top (machine.registers.getA stackPointer) where
  trace machine trace hinv := ⟨kept.trace machine trace hinv.1, hinv.2⟩
  values machine d a pc ha hinv := ⟨kept.values machine d a pc ha hinv.1, hinv.2.trans ha⟩
  flags f hf machine hinv := ⟨kept.flags f hf machine hinv.1, hinv.2⟩
  write machine size address value hinv :=
    ⟨kept.write machine size address value hinv.1, hinv.2⟩

/-! ## Registers -/

theorem maintains_modifyFlags {f : Flags → Flags} (hf : changes.flags f) :
    Maintains inv (modifyFlags f) :=
  kept.flags f hf

theorem maintains_setCcr {ccr : Ccr} (hccr : changes.flags fun _ ↦ .ofCcr ccr) :
    Maintains inv (setCcr ccr) :=
  kept.flags _ hccr

@[grind <=]
theorem maintains_setD (number : Fin 8) (value : BitVec 32) :
    Maintains inv (setD number value) :=
  fun machine hinv ↦ kept.values machine _ _ _ (changes.stack.allows_refl _) hinv

@[grind <=]
theorem maintains_setPc (address : Address) : Maintains inv (setPc address) :=
  fun machine hinv ↦ kept.values machine _ _ _ (changes.stack.allows_refl _) hinv

@[grind <=]
theorem maintains_advancePc (bytes : Nat) : Maintains inv (advancePc bytes) :=
  fun machine hinv ↦ kept.values machine _ _ _ (changes.stack.allows_refl _) hinv

/-- The stack pointer is set to where it may be moved. -/
theorem maintains_setStack {value : Address} (hvalue : ∀ machine, inv machine →
      changes.stack.Allows (machine.registers.getA stackPointer) value) :
    Maintains inv (setA stackPointer value) := by
  intro machine hinv
  refine kept.values machine _ _ _ ?_ hinv
  have hset := machine.registers.getA_setA_self stackPointer value
  exact (congrArg (changes.stack.Allows _) hset).mpr (hvalue machine hinv)

@[grind <=]
theorem maintains_setA {number : Fin 8} (hnumber : changes.stack = .any ∨ number ≠ stackPointer)
    (value : Address) : Maintains inv (setA number value) := by
  intro machine hinv
  refine kept.values machine _ _ _ ?_ hinv
  obtain hany | hne := hnumber
  · rw [hany]
    trivial
  · have hkept := machine.registers.getA_setA_of_ne hne.symm value
    exact (congrArg (changes.stack.Allows _) hkept).mpr (changes.stack.allows_refl _)

theorem maintains_set {register : Register}
    (hregister : changes.stack = .any ∨ register ≠ .address stackPointer) (value : BitVec 32) :
    Maintains inv (modifyRegisters (·.set register value)) := by
  cases register with
  | data number => exact kept.maintains_setD number value
  | address number =>
    have hnumber : changes.stack = .any ∨ number ≠ stackPointer :=
      hregister.imp_right fun hne heq ↦ hne (congrArg Register.address heq)
    exact kept.maintains_setA hnumber value

omit kept in
/-- What follows may use that the stack pointer comes from the value that was read. -/
theorem maintains_getA_bind (changes : Changes) {rest : Address → Exec α}
    (hrest : ∀ top, Maintains (fun machine ↦ inv machine ∧
      changes.stack.Allows top (machine.registers.getA stackPointer)) (rest top)) :
    Maintains inv (getA stackPointer >>= rest) :=
  fun machine hinv ↦ (hrest _ machine ⟨hinv, changes.stack.allows_refl _⟩).1

/-! ## The stack and operands -/

@[grind <=]
theorem maintains_write (size : Size) (address : Address) (value : size.Value) :
    Maintains inv (Exec.write size address value) :=
  kept.ignoresTrace.maintains_write fun machine ↦ kept.write machine size address value

@[grind <=]
theorem maintains_push (size : Size) (value : size.Value) : Maintains inv (push size value) := by
  refine maintains_getA_bind changes fun top ↦ ?_
  have level := kept.and_allows top
  have hmove := changes.stack.allows_of_modEq (top.sub_modEq_two size.two_dvd_alignedBytes)
  refine maintains_bind (level.maintains_write size _ value) fun _ ↦ ?_
  exact level.maintains_setStack fun _ hinv ↦ hinv.2.symm.trans hmove

@[grind <=]
theorem maintains_pop (size : Size) : Maintains inv (pop size) := by
  refine maintains_getA_bind changes fun top ↦ ?_
  have level := kept.and_allows top
  have hmove := changes.stack.allows_of_modEq (top.add_modEq_two size.two_dvd_alignedBytes)
  refine maintains_bind (level.ignoresTrace.maintains_read size _) fun value ↦ ?_
  refine maintains_bind ?_ fun _ ↦ maintains_pure value
  exact level.maintains_setStack fun _ hinv ↦ hinv.2.symm.trans hmove

variable {size : Size} (operand : Operand size)

@[grind <=]
theorem maintains_put
    (hmode : changes.stack = .any ∨ operand.mode ≠ .addressRegister stackPointer)
    (value : size.Value) : Maintains inv (operand.put value) := by
  unfold Operand.put
  grind

/-- An address register steps by an even amount if it is the stack pointer. -/
theorem maintains_step {number : Fin 8} {step : Address → Address}
    (hstep : ∀ address, number = stackPointer → (step address).toNat ≡ address.toNat [MOD 2]) :
    Maintains inv (do setA number (step (← getA number))) := by
  by_cases hnumber : number = stackPointer
  · subst hnumber
    refine maintains_getA_bind changes fun top ↦ ?_
    have hmove := changes.stack.allows_of_modEq (hstep top rfl)
    exact (kept.and_allows top).maintains_setStack fun _ hinv ↦ hinv.2.symm.trans hmove
  · exact maintains_bind (maintains_getA number) fun _ ↦ kept.maintains_setA (.inr hnumber) _

@[grind <=]
theorem maintains_finish : Maintains inv operand.finish := by
  unfold Operand.finish
  split
  next number _ =>
    refine kept.maintains_step fun address heq ↦ ?_
    exact address.add_modEq_two (heq ▸ size.two_dvd_step)
  next number _ =>
    refine kept.maintains_step fun address heq ↦ ?_
    exact address.sub_modEq_two (heq ▸ size.two_dvd_step)
  next => exact maintains_pure ()

omit kept in
/-- The rest of an instruction may use that its operand is not the stack pointer. -/
@[grind <=]
theorem maintains_ofField_bind (changes : Changes) {field : BitVec 6} {offset : Nat}
    {rest : Operand size → Exec α}
    (hfield : changes.stack = .any ∨ Mode.ofField? field ≠ some (.addressRegister stackPointer))
    (hrest : ∀ operand : Operand size,
      changes.stack = .any ∨ operand.mode ≠ .addressRegister stackPointer →
        Maintains inv (rest operand)) :
    Maintains inv (Operand.ofField size field offset >>= rest) :=
  Exec.maintains_ofField_bind fun mode hmode ↦
    hrest ⟨mode, offset⟩ (hfield.imp_right fun hne (heq : mode = _) ↦ hne (heq ▸ hmode))

end KeptBy

end M68000
