import M68000.Proofs.Registers.Status

/-!
# Two stack pointers, one live

Address register 7 and the two slots are a way to keep two stack pointers that have nothing to do
with each other. What can be seen of them after any changes of the register file is what a machine
shows that has both pointers apart and uses the one of its privilege state as address register 7.

The same machine has the status register in fields, so a status word that is written loses the bits
that no field holds and no others.
-/

namespace M68000

/-- A change of the register file that may touch the stack pointers or the status register. -/
inductive RegisterChange where
  | supervisor (supervisor : Bool)
  | statusRegister (value : BitVec 16)
  | userStack (value : BitVec 32)
  | supervisorStack (value : BitVec 32)
  | interruptMask (level : BitVec 8)
  | flags (update : Flags → Flags)
  | register (register : Register) (value : BitVec 32)

namespace Registers

/-- Makes the change. -/
def change (registers : Registers) : RegisterChange → Registers
  | .supervisor supervisor => registers.setSupervisor supervisor
  | .statusRegister value => registers.setStatusRegister value
  | .userStack value => registers.setUserStack value
  | .supervisorStack value => registers.setSupervisorStack value
  | .interruptMask level => registers.setInterruptMask level
  | .flags update => { registers with flags := update registers.flags }
  | .register register value => registers.set register value

/-- A new register file after changes. -/
def changeAll (changes : List RegisterChange) : Registers :=
  changes.foldl change {}

end Registers

/-! ## The machine with both pointers -/

/-- Two stack pointers that are always there, the privilege state, the interrupt mask and the
flags. -/
structure TwoStacks where
  user : BitVec 32 := 0
  supervisor : BitVec 32 := 0
  privileged : Bool := true
  mask : BitVec 3 := 7
  flags : Flags := {}

namespace TwoStacks

variable (pointers : TwoStacks)

/-- The stack pointer of the privilege state. -/
def live : BitVec 32 :=
  if pointers.privileged then pointers.supervisor else pointers.user

def setLive (value : BitVec 32) : TwoStacks :=
  if pointers.privileged then { pointers with supervisor := value }
  else { pointers with user := value }

/-- The fields of the status register from bit 15 down. -/
def statusRegister : BitVec 16 :=
  0#2 ++ BitVec.ofBool pointers.privileged ++ 0#2 ++ pointers.mask ++ pointers.flags.ccr.toByte

/-- Writes the fields of the status register. The stack pointers stay. -/
def setStatusRegister (value : BitVec 16) : TwoStacks :=
  { pointers with
    privileged := value.getLsbD 13
    mask := value.extractLsb' 8 3
    flags := .ofCcr (.ofByte (value.setWidth 8)) }

/-- Makes the change. Of the registers only address register 7 matters here. -/
def change : RegisterChange → TwoStacks
  | .supervisor supervisor => { pointers with privileged := supervisor }
  | .statusRegister value => pointers.setStatusRegister value
  | .userStack value => { pointers with user := value }
  | .supervisorStack value => { pointers with supervisor := value }
  | .interruptMask level => { pointers with mask := level.setWidth 3 }
  | .flags update => { pointers with flags := update pointers.flags }
  | .register register value =>
    if register = .address stackPointer then pointers.setLive value else pointers

/-- A new machine after changes. -/
def changeAll (changes : List RegisterChange) : TwoStacks :=
  changes.foldl change {}

end TwoStacks

namespace Registers

/-! ## Writing the pointers -/

section Writes

variable (registers : Registers) (value : BitVec 32)

theorem userStack_setA_stackPointer :
    (registers.setA stackPointer value).userStack =
      if registers.supervisor then registers.userStack else value := by
  cases hstate : registers.supervisor with
  | true => exact userStack_setA_of_supervisor registers hstate stackPointer value
  | false =>
    have hstate' : (registers.setA stackPointer value).supervisor = false := hstate
    rw [userStack, hstate']
    exact getA_setA_self registers stackPointer value

theorem supervisorStack_setA_stackPointer :
    (registers.setA stackPointer value).supervisorStack =
      if registers.supervisor then value else registers.supervisorStack := by
  cases hstate : registers.supervisor with
  | true => exact supervisorStack_setA_of_supervisor registers hstate value
  | false =>
    have hstate' : (registers.setA stackPointer value).supervisor = false := hstate
    rw [supervisorStack, supervisorStack, hstate, hstate']
    rfl

end Writes

/-! ## What the register file shows -/

variable {registers : Registers} {pointers : TwoStacks}

/-- The register file has the state of the machine with both pointers. -/
structure Shows (registers : Registers) (pointers : TwoStacks) : Prop where
  userStack : registers.userStack = pointers.user
  supervisorStack : registers.supervisorStack = pointers.supervisor
  supervisor : registers.supervisor = pointers.privileged
  interruptMask : registers.interruptMask = pointers.mask.setWidth 8
  flags : registers.flags = pointers.flags

theorem shows_new : Shows {} {} :=
  ⟨rfl, rfl, rfl, rfl, rfl⟩

/-- Of the status register nothing is left from before it is written. -/
theorem shows_setStatusRegister (registers : Registers) (value : BitVec 16) :
    (registers.setStatusRegister value).Shows
      { user := registers.userStack
        supervisor := registers.supervisorStack
        privileged := value.getLsbD 13
        mask := value.extractLsb' 8 3
        flags := .ofCcr (.ofByte (value.setWidth 8)) } where
  userStack := userStack_setStatusRegister _ _
  supervisorStack := supervisorStack_setStatusRegister _ _
  supervisor := supervisor_setStatusRegister _ _
  interruptMask := interruptMask_setStatusRegister _ _
  flags := flags_setStatusRegister _ _

namespace Shows

theorem getA_stackPointer (h : registers.Shows pointers) :
    registers.getA stackPointer = pointers.live := by
  rw [Registers.getA_stackPointer, h.supervisor, h.supervisorStack, h.userStack]
  rfl

theorem interruptMask_lt (h : registers.Shows pointers) : registers.interruptMask.toNat < 8 := by
  rw [h.interruptMask, BitVec.toNat_setWidth]
  exact Nat.lt_of_le_of_lt (Nat.mod_le _ _) pointers.mask.isLt

theorem statusRegister (h : registers.Shows pointers) :
    registers.statusRegister = pointers.statusRegister := by
  apply BitVec.eq_of_getLsbD_eq
  intro i hi
  have hcodes : 8 ≤ i → pointers.flags.ccr.toByte.getLsbD i = false := BitVec.getLsbD_of_ge _ _
  rw [getLsbD_statusRegister _ hi, h.supervisor, h.interruptMask, h.flags]
  simp only [TwoStacks.statusRegister, BitVec.getLsbD_append, BitVec.getLsbD_zero,
    BitVec.getLsbD_setWidth, BitVec.getLsbD_ofBool]
  grind

/-! ### One change -/

theorem setSupervisor (h : registers.Shows pointers) (supervisor : Bool) :
    (registers.setSupervisor supervisor).Shows { pointers with privileged := supervisor } where
  userStack := by rw [userStack_setSupervisor, h.userStack]
  supervisorStack := by rw [supervisorStack_setSupervisor, h.supervisorStack]
  supervisor := supervisor_setSupervisor _ _
  interruptMask := by rw [interruptMask_setSupervisor, h.interruptMask]
  flags := by rw [flags_setSupervisor, h.flags]

theorem setStatusRegister (h : registers.Shows pointers) (value : BitVec 16) :
    (registers.setStatusRegister value).Shows (pointers.setStatusRegister value) := by
  have hwritten := registers.shows_setStatusRegister value
  rwa [h.userStack, h.supervisorStack] at hwritten

/-- A write of the live pointer is a write of the one that belongs to the state. -/
theorem setA_stackPointer (h : registers.Shows pointers) (value : BitVec 32) :
    (registers.setA stackPointer value).Shows (pointers.setLive value) := by
  have huser := registers.userStack_setA_stackPointer value
  have hsupervisor := registers.supervisorStack_setA_stackPointer value
  rw [h.supervisor, h.userStack] at huser
  rw [h.supervisor, h.supervisorStack] at hsupervisor
  rw [TwoStacks.setLive]
  split
  next hprivileged =>
    rw [if_pos hprivileged] at huser hsupervisor
    exact ⟨huser, hsupervisor, h.supervisor, h.interruptMask, h.flags⟩
  next hprivileged =>
    rw [if_neg hprivileged] at huser hsupervisor
    exact ⟨huser, hsupervisor, h.supervisor, h.interruptMask, h.flags⟩

theorem setUserStack (h : registers.Shows pointers) (value : BitVec 32) :
    (registers.setUserStack value).Shows { pointers with user := value } := by
  rw [Registers.setUserStack]
  split
  next hstate =>
    have hsupervisor := h.supervisorStack
    rw [Registers.supervisorStack, if_pos hstate] at hsupervisor
    exact ⟨if_pos hstate, (if_pos hstate).trans hsupervisor, h.supervisor, h.interruptMask, h.flags⟩
  next hstate =>
    have hlive := h.setA_stackPointer value
    rw [h.supervisor] at hstate
    rwa [TwoStacks.setLive, if_neg hstate] at hlive

theorem setSupervisorStack (h : registers.Shows pointers) (value : BitVec 32) :
    (registers.setSupervisorStack value).Shows { pointers with supervisor := value } := by
  rw [Registers.setSupervisorStack]
  split
  next hstate =>
    have hlive := h.setA_stackPointer value
    rw [h.supervisor] at hstate
    rwa [TwoStacks.setLive, if_pos hstate] at hlive
  next hstate =>
    have huser := h.userStack
    rw [Registers.userStack, if_neg hstate] at huser
    exact ⟨(if_neg hstate).trans huser, if_neg hstate, h.supervisor, h.interruptMask, h.flags⟩

theorem setInterruptMask (h : registers.Shows pointers) (level : BitVec 8) :
    (registers.setInterruptMask level).Shows { pointers with mask := level.setWidth 3 } := by
  have hmask : level &&& 7 = (level.setWidth 3).setWidth 8 := by
    revert level
    decide +kernel
  exact ⟨h.userStack, h.supervisorStack, h.supervisor, hmask, h.flags⟩

/-- The other registers have nothing to do with the pointers. -/
theorem set_of_ne (h : registers.Shows pointers) {register : Register} (value : BitVec 32)
    (hne : register ≠ .address stackPointer) : (registers.set register value).Shows pointers := by
  have hlive : (registers.set register value).getA stackPointer = registers.getA stackPointer :=
    (registers.get_set register (.address stackPointer) value).trans (if_neg hne.symm)
  obtain ⟨huser, hsupervisor, hstate, hmask, hflags⟩ := h
  rw [Registers.userStack, ← hlive] at huser
  rw [Registers.supervisorStack, ← hlive] at hsupervisor
  cases register <;> exact ⟨huser, hsupervisor, hstate, hmask, hflags⟩

/-- Every change of the register file is the same change of the machine with both pointers. -/
theorem change (h : registers.Shows pointers) (change : RegisterChange) :
    (registers.change change).Shows (pointers.change change) := by
  cases change with
  | supervisor supervisor => exact h.setSupervisor supervisor
  | statusRegister value => exact h.setStatusRegister value
  | userStack value => exact h.setUserStack value
  | supervisorStack value => exact h.setSupervisorStack value
  | interruptMask level => exact h.setInterruptMask level
  | flags update =>
    exact ⟨h.userStack, h.supervisorStack, h.supervisor, h.interruptMask, congrArg update h.flags⟩
  | register register value =>
    rw [TwoStacks.change]
    split
    next heq =>
      subst heq
      exact h.setA_stackPointer value
    next hne => exact h.set_of_ne value hne

theorem foldl_change (h : registers.Shows pointers) (changes : List RegisterChange) :
    (changes.foldl Registers.change registers).Shows (changes.foldl TwoStacks.change pointers) := by
  induction changes generalizing registers pointers with
  | nil => exact h
  | cons first rest ih => exact ih (h.change first)

end Shows

theorem shows_changeAll (changes : List RegisterChange) :
    (changeAll changes).Shows (TwoStacks.changeAll changes) :=
  shows_new.foldl_change changes

/-! ## Status words -/

/-- The bits of a status word that have a meaning are the S bit, the mask and the five flags. -/
theorem fields_eq_and (value : BitVec 16) :
    0#2 ++ BitVec.ofBool (value.getLsbD 13) ++ 0#2 ++ value.extractLsb' 8 3 ++
      (value.setWidth 8 &&& 0x1F) = value &&& 0x271F := by
  apply BitVec.eq_of_getLsbD_eq
  intro i hi
  have hmeaning : (0x271F#16).getLsbD i =
      (decide (i < 5) || (decide (8 ≤ i) && decide (i < 11)) || decide (i = 13)) := by
    revert i
    decide
  have hflags : i < 8 → (0x1F#8).getLsbD i = decide (i < 5) := by
    revert i
    decide
  simp only [BitVec.getLsbD_append, BitVec.getLsbD_zero, BitVec.getLsbD_setWidth,
    BitVec.getLsbD_ofBool, BitVec.getLsbD_and, BitVec.getLsbD_extractLsb']
  grind

/-- A status word is read back without the bits that have no meaning. -/
theorem statusRegister_setStatusRegister_eq_and (registers : Registers) (value : BitVec 16) :
    (registers.setStatusRegister value).statusRegister = value &&& 0x271F := by
  rw [(registers.shows_setStatusRegister value).statusRegister, TwoStacks.statusRegister,
    Flags.ccr_ofCcr, Ccr.toByte_ofByte]
  exact fields_eq_and value

/-- Writing the status register back leaves the flags recorded at once and changes nothing else. -/
theorem setStatusRegister_statusRegister (hmask : registers.interruptMask.toNat < 8) :
    registers.setStatusRegister registers.statusRegister =
      { registers with flags := .ofCcr registers.flags.ccr } := by
  rw [setStatusRegister, registers.supervisor_of_statusRegister hmask,
    registers.interruptMask_of_statusRegister hmask, ccr_of_statusRegister]
  exact if_pos rfl

/-- After any changes of a new register file, in any order, it shows what the machine with both
stack pointers shows after the same changes. A status word is read back without its meaningless
bits, and writing back the one that was read changes no register, no pointer, no flag and no
condition. -/
theorem stack_pointers_independent :
    (∀ changes : List RegisterChange,
      let registers := changeAll changes
      let pointers := TwoStacks.changeAll changes
      registers.getA stackPointer = pointers.live ∧
        registers.userStack = pointers.user ∧
        registers.supervisorStack = pointers.supervisor ∧
        registers.supervisor = pointers.privileged ∧
        registers.interruptMask = pointers.mask.setWidth 8 ∧
        registers.statusRegister = pointers.statusRegister) ∧
    (∀ (registers : Registers) (value : BitVec 16),
      (registers.setStatusRegister value).statusRegister = value &&& 0x271F) ∧
    ∀ changes : List RegisterChange,
      let registers := changeAll changes
      let again := registers.setStatusRegister registers.statusRegister
      again = { registers with flags := again.flags } ∧
        again.flags.ccr = registers.flags.ccr ∧
        (∀ condition, again.flags.holds condition = registers.flags.holds condition) ∧
        again.statusRegister = registers.statusRegister := by
  refine ⟨fun changes ↦ ?_, statusRegister_setStatusRegister_eq_and, fun changes ↦ ?_⟩
  · have h := shows_changeAll changes
    exact ⟨h.getA_stackPointer, h.userStack, h.supervisorStack, h.supervisor, h.interruptMask,
      h.statusRegister⟩
  · have hmask := (shows_changeAll changes).interruptMask_lt
    intro registers again
    have hagain : again = { registers with flags := .ofCcr registers.flags.ccr } :=
      setStatusRegister_statusRegister hmask
    have hccr : again.flags.ccr = registers.flags.ccr := by rw [hagain, Flags.ccr_ofCcr]
    refine ⟨?_, hccr, fun condition ↦ ?_, ?_⟩
    · rw [hagain]
    · rw [Flags.holds_eq_eval, Flags.holds_eq_eval, hccr]
    · exact statusRegister_setStatusRegister registers registers hmask

end Registers

end M68000
