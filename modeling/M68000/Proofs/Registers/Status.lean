import M68000.Proofs.Registers.Values

/-!
# Stack pointers and status register

There are two stack pointers, whichever of them is live: exchanging them changes neither, and a
change of the live one is a change of the one that belongs to the current state. A status
register that has been read restores everything it tells of when it is written back.
-/

namespace M68000.Registers

variable (registers : Registers)

/-! ## The privilege state -/

@[simp]
theorem supervisor_setSupervisor (supervisor : Bool) :
    (registers.setSupervisor supervisor).supervisor = supervisor := by
  unfold setSupervisor
  grind

@[simp]
theorem userStack_setSupervisor (supervisor : Bool) :
    (registers.setSupervisor supervisor).userStack = registers.userStack := by
  cases hstate : registers.supervisor with
  | false => cases supervisor <;> simp [setSupervisor, userStack, hstate]
  | true =>
    cases supervisor with
    | false =>
      simp only [setSupervisor, userStack, hstate]
      exact registers.getA_setA_self stackPointer registers.userSlot
    | true => simp [setSupervisor, userStack, hstate]

@[simp]
theorem supervisorStack_setSupervisor (supervisor : Bool) :
    (registers.setSupervisor supervisor).supervisorStack = registers.supervisorStack := by
  cases hstate : registers.supervisor with
  | false =>
    cases supervisor with
    | false => simp [setSupervisor, supervisorStack, hstate]
    | true =>
      simp only [setSupervisor, supervisorStack, hstate]
      exact registers.getA_setA_self stackPointer registers.supervisorSlot
  | true => cases supervisor <;> simp [setSupervisor, supervisorStack, hstate]

theorem userStack_setA_of_supervisor (h : registers.supervisor = true) (number : Fin 8)
    (value : BitVec 32) : (registers.setA number value).userStack = registers.userStack := by
  simp [userStack, setA, h]

theorem supervisorStack_setA_of_supervisor (h : registers.supervisor = true)
    (value : BitVec 32) : (registers.setA stackPointer value).supervisorStack = value := by
  have hstate : (registers.setA stackPointer value).supervisor = true := h
  rw [supervisorStack, if_pos hstate, getA_setA_self]

/-- The live stack pointer is the one of the current state. -/
theorem getA_stackPointer :
    registers.getA stackPointer =
      if registers.supervisor then registers.supervisorStack else registers.userStack := by
  cases hstate : registers.supervisor <;> simp [supervisorStack, userStack, hstate]

theorem getA_stackPointer_setSupervisor (supervisor : Bool) :
    (registers.setSupervisor supervisor).getA stackPointer =
      if supervisor then registers.supervisorStack else registers.userStack := by
  rw [getA_stackPointer, supervisor_setSupervisor, supervisorStack_setSupervisor,
    userStack_setSupervisor]

@[simp]
theorem d_setSupervisor (supervisor : Bool) :
    (registers.setSupervisor supervisor).d = registers.d := by
  unfold setSupervisor setA
  grind

@[simp]
theorem flags_setSupervisor (supervisor : Bool) :
    (registers.setSupervisor supervisor).flags = registers.flags := by
  unfold setSupervisor setA
  grind

@[simp]
theorem interruptMask_setSupervisor (supervisor : Bool) :
    (registers.setSupervisor supervisor).interruptMask = registers.interruptMask := by
  unfold setSupervisor setA
  grind

@[simp]
theorem pc_setSupervisor (supervisor : Bool) :
    (registers.setSupervisor supervisor).pc = registers.pc := by
  unfold setSupervisor setA
  grind

/-! ## The status register -/

theorem getLsbD_toByte_of_le (ccr : Ccr) {i : Nat} (hi : 5 ≤ i) :
    ccr.toByte.getLsbD i = false := by
  rcases Nat.lt_or_ge i 8 with hlt | hge
  · rcases ccr with ⟨_ | _, _ | _, _ | _, _ | _, _ | _⟩ <;>
      (obtain rfl | rfl | rfl : i = 5 ∨ i = 6 ∨ i = 7 := by omega) <;> rfl
  · exact BitVec.getLsbD_of_ge _ _ hge

/-- The bits of the status register. -/
theorem getLsbD_statusRegister {i : Nat} (hi : i < 16) :
    registers.statusRegister.getLsbD i =
      ((i = 13 && registers.supervisor) ||
        (!decide (i < 8) && registers.interruptMask.getLsbD (i - 8)) ||
          registers.flags.ccr.toByte.getLsbD i) := by
  have hstate : ((if registers.supervisor then 0x2000 else 0 : Nat) : BitVec 16).getLsbD i =
      (i = 13 && registers.supervisor) := by
    cases registers.supervisor with
    | true =>
      have hpow : ((0x2000 : Nat) : BitVec 16) = BitVec.twoPow 16 13 := by decide
      rw [if_pos rfl, hpow, BitVec.getLsbD_twoPow]
      simp [eq_comm]
    | false => simp
  rw [statusRegister, BitVec.getLsbD_or, BitVec.getLsbD_or, hstate]
  simp [hi]

section MaskInRange

variable (hmask : registers.interruptMask.toNat < 8)

include hmask

theorem getLsbD_interruptMask_of_le {i : Nat} (hi : 3 ≤ i) :
    registers.interruptMask.getLsbD i = false := by
  rw [BitVec.getLsbD]
  exact Nat.testBit_lt_two_pow
    (Nat.lt_of_lt_of_le hmask (Nat.pow_le_pow_right (by decide) hi : 2 ^ 3 ≤ 2 ^ i))

/-- The S bit tells the privilege state. -/
theorem supervisor_of_statusRegister :
    registers.statusRegister.getLsbD 13 = registers.supervisor := by
  rw [getLsbD_statusRegister _ (by decide),
    registers.getLsbD_interruptMask_of_le hmask (by decide), getLsbD_toByte_of_le _ (by decide)]
  simp

theorem interruptMask_of_statusRegister :
    (registers.statusRegister.extractLsb' 8 3).setWidth 8 = registers.interruptMask := by
  apply BitVec.eq_of_getLsbD_eq
  intro i hi
  rw [BitVec.getLsbD_setWidth, BitVec.getLsbD_extractLsb']
  by_cases h : i < 3
  · rw [getLsbD_statusRegister _ (by omega), getLsbD_toByte_of_le _ (by omega)]
    have hne : 8 + i ≠ 13 := by omega
    simp [hi, h, hne]
  · rw [registers.getLsbD_interruptMask_of_le hmask (by omega)]
    simp [h]

end MaskInRange

theorem ccr_of_statusRegister :
    Ccr.ofByte (registers.statusRegister.setWidth 8) = registers.flags.ccr := by
  have hbyte : registers.statusRegister.setWidth 8 = registers.flags.ccr.toByte := by
    apply BitVec.eq_of_getLsbD_eq
    intro i hi
    have hne : i ≠ 13 := by omega
    rw [BitVec.getLsbD_setWidth, getLsbD_statusRegister _ (by omega)]
    simp [hi, hne]
  rw [hbyte, Ccr.ofByte_toByte]

/-! ## Writing the status register -/

section Write

variable (value : BitVec 16)

@[simp]
theorem supervisor_setStatusRegister :
    (registers.setStatusRegister value).supervisor = value.getLsbD 13 :=
  supervisor_setSupervisor _ _

@[simp]
theorem interruptMask_setStatusRegister :
    (registers.setStatusRegister value).interruptMask = (value.extractLsb' 8 3).setWidth 8 :=
  interruptMask_setSupervisor _ _

@[simp]
theorem flags_setStatusRegister :
    (registers.setStatusRegister value).flags = .ofCcr (.ofByte (value.setWidth 8)) :=
  flags_setSupervisor _ _

@[simp]
theorem pc_setStatusRegister : (registers.setStatusRegister value).pc = registers.pc :=
  pc_setSupervisor _ _

@[simp]
theorem userStack_setStatusRegister :
    (registers.setStatusRegister value).userStack = registers.userStack :=
  userStack_setSupervisor _ _

@[simp]
theorem supervisorStack_setStatusRegister :
    (registers.setStatusRegister value).supervisorStack = registers.supervisorStack :=
  supervisorStack_setSupervisor _ _

end Write

/-- The status register is made of the privilege state, the mask and the five flags. -/
theorem statusRegister_congr {registers other : Registers}
    (hsupervisor : registers.supervisor = other.supervisor)
    (hmask : registers.interruptMask = other.interruptMask)
    (hccr : registers.flags.ccr = other.flags.ccr) :
    registers.statusRegister = other.statusRegister := by
  rw [statusRegister, statusRegister, hsupervisor, hmask, hccr]

/-- A status register that was read is read again after it has been written. -/
theorem statusRegister_setStatusRegister (other : Registers)
    (hmask : other.interruptMask.toNat < 8) :
    (registers.setStatusRegister other.statusRegister).statusRegister =
      other.statusRegister := by
  apply statusRegister_congr
  · rw [supervisor_setStatusRegister, other.supervisor_of_statusRegister hmask]
  · rw [interruptMask_setStatusRegister, other.interruptMask_of_statusRegister hmask]
  · rw [flags_setStatusRegister, Flags.ccr_ofCcr, ccr_of_statusRegister]

/-! ## The interrupt mask -/

theorem interruptMask_setInterruptMask_lt (level : BitVec 8) :
    (registers.setInterruptMask level).interruptMask.toNat < 8 := by
  have hle : (level &&& 7).toNat ≤ 7 := by
    rw [BitVec.toNat_and]
    exact Nat.and_le_right
  exact Nat.lt_succ_of_le hle

theorem interruptMask_setStatusRegister_lt (value : BitVec 16) :
    (registers.setStatusRegister value).interruptMask.toNat < 8 := by
  rw [interruptMask_setStatusRegister, BitVec.toNat_setWidth]
  exact Nat.lt_of_le_of_lt (Nat.mod_le ..) (value.extractLsb' 8 3).isLt

end M68000.Registers
