import M68000.Registers

/-!
# Register values

What a write of one register leaves in it and in the others, and how a mask tests one bit of a
value.
-/

namespace M68000.Registers

variable (registers : Registers)

/-! ## Data registers -/

theorem getD_setD_self (number : Fin 8) (value : BitVec 32) :
    (registers.setD number value).getD number = value :=
  Vector.getElem_set_self number.isLt

theorem getD_setD_of_ne (number other : Fin 8) (value : BitVec 32) (hne : other ≠ number) :
    (registers.setD number value).getD other = registers.getD other := by
  have hval : number.val ≠ other.val := fun heq ↦ hne (Fin.ext heq.symm)
  exact Vector.getElem_set_ne number.isLt other.isLt hval

theorem setD_getD_self (number : Fin 8) :
    registers.setD number (registers.getD number) = registers := by
  have hd : registers.d.set number (registers.d.get number) = registers.d :=
    Vector.set_getElem_self number.isLt
  rw [setD, getD, hd]

/-! ## Address registers -/

@[simp]
theorem getA_setA_self (number : Fin 8) (value : BitVec 32) :
    (registers.setA number value).getA number = value :=
  Vector.getElem_set_self number.isLt

theorem getA_setA_of_ne {number other : Fin 8} (hne : number ≠ other) (value : BitVec 32) :
    (registers.setA other value).getA number = registers.getA number := by
  have hval : other.val ≠ number.val := fun heq ↦ hne (Fin.ext heq.symm)
  exact Vector.getElem_set_ne other.isLt number.isLt hval

@[simp]
theorem setA_setA (number : Fin 8) (value value' : BitVec 32) :
    (registers.setA number value).setA number value' = registers.setA number value' := by
  simp [setA]

theorem setA_getA_self (number : Fin 8) :
    registers.setA number (registers.getA number) = registers := by
  have ha : registers.a.set number (registers.a.get number) = registers.a :=
    Vector.set_getElem_self number.isLt
  rw [setA, getA, ha]

theorem setA_comm {number other : Fin 8} (hne : number ≠ other) (value value' : BitVec 32) :
    (registers.setA number value).setA other value' =
      (registers.setA other value').setA number value := by
  have hval : number.val ≠ other.val := fun heq ↦ hne (Fin.ext heq)
  rw [setA, setA, setA, setA]
  exact congrArg (fun a ↦ { registers with a }) (Vector.set_comm _ _ hval)

/-! ## Registers by name -/

theorem get_set (register other : Register) (value : BitVec 32) :
    (registers.set register value).get other =
      if other = register then value else registers.get other := by
  split
  next heq =>
    subst heq
    cases other with
    | data number => exact registers.getD_setD_self number value
    | address number => exact registers.getA_setA_self number value
  next hne =>
    cases register with
    | data number =>
      cases other with
      | data number' =>
        exact registers.getD_setD_of_ne _ _ _ fun heq ↦ hne (congrArg Register.data heq)
      | address number' => rfl
    | address number =>
      cases other with
      | data number' => rfl
      | address number' =>
        exact registers.getA_setA_of_ne (fun heq ↦ hne (congrArg Register.address heq)) value

theorem get_setA (number : Fin 8) (value : BitVec 32) (register : Register) :
    (registers.setA number value).get register =
      if register = .address number then value else registers.get register :=
  registers.get_set (.address number) register value

theorem get_with_pc (pc : BitVec 32) (register : Register) :
    ({ registers with pc } : Registers).get register = registers.get register := by
  cases register <;> rfl

end M68000.Registers

namespace M68000

/-! ## Single bits -/

theorem and_twoPow_beq_zero (value : BitVec n) {i : Nat} (hi : i < n) :
    (value &&& .twoPow n i == 0) = !value.getLsbD i := by
  have hne : BitVec.twoPow n i ≠ 0 := fun heq ↦ by
    have hbit := congrArg (·.getLsbD i) heq
    simp [hi] at hbit
  rw [BitVec.and_twoPow]
  cases value.getLsbD i with
  | true => exact beq_eq_false_iff_ne.2 hne
  | false => rfl

end M68000
