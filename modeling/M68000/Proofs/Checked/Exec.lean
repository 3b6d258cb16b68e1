import M68000.Proofs.Checked.Flags
import M68000.Proofs.Checked.Memory
import M68000.Proofs.Run.FlagFrame

/-!
# Checked actions

An action of the processor whose computations are checked does what the action does, or it fails. In
a machine with sound flags it does not fail, and leaves the flags sound for the actions after it.
Registers and memory are looked up in tables here, and the flags are computed from their records.
-/

namespace M68000.Checked

open M68000.Exec (Maintains registers flags pc setPc advancePc modifyRegisters)

variable {α β : Type}

/-- An action whose computations may fail, which is not a fault of the machine. -/
def Action (α : Type) : Type :=
  Machine → Checked (EStateM.Result Fault Machine α)

namespace Action

instance : Monad Action where
  pure a machine := .ok (.ok a machine)
  bind action rest machine := do
    match ← action machine with
    | .ok a next => rest a next
    | .error fault next => return .error fault next

/-- An action without a computation. -/
instance : MonadLift Exec Action where
  monadLift action machine := .ok (action.run machine)

/-- A computation that leaves the machine alone. -/
instance : MonadLift Checked Action where
  monadLift value machine := do return .ok (← value) machine

@[simp]
theorem lift_ok_bind (a : α) (rest : α → Action β) :
    ((liftM (Except.ok a : Checked α) : Action α) >>= rest) = rest a :=
  rfl

@[simp]
theorem lift_ok (a : α) : (liftM (Except.ok a : Checked α) : Action α) = pure a :=
  rfl

end Action

/-! ## Agreement -/

/-- The flags may be recorded in ways that keep them sound. -/
def recording : Changes where
  flags f := ∀ flags : Flags, flags.Sound → (f flags).Sound
  stack := .any

def SoundFlags (machine : Machine) : Prop :=
  machine.registers.flags.Sound

theorem lasting_soundFlags : LastingInSteps recording SoundFlags :=
  lastingInSteps_of_flags Flags.Sound fun _ hf ↦ hf

/-- In machines with sound flags the checked action does not fail and does what the action does, and
the flags stay sound. -/
structure Agrees (checked : Action α) (action : Exec α) : Prop where
  outcome : ∀ machine, SoundFlags machine → checked machine = .ok (action.run machine)
  sound : Maintains SoundFlags action

theorem agrees_pure (a : α) : Agrees (pure a) (pure a) where
  outcome _ _ := rfl
  sound := Exec.maintains_pure a

/-- What follows an action that does not fail has to be looked at only where it begins. -/
theorem outcome_bind {checked : Action α} {action : Exec α} {rest : α → Action β}
    {rest' : α → Exec β} {machine : Machine} (h : checked machine = .ok (action.run machine))
    (hsound : SoundFlags (action.after machine))
    (hrest : ∀ a next, action.run machine = .ok a next → SoundFlags next →
      rest a next = .ok ((rest' a).run next)) :
    (checked >>= rest) machine = .ok ((action >>= rest').run machine) := by
  change (checked machine >>= _) = _
  rw [EStateM.run_bind, h, ok_bind]
  rw [Exec.after] at hsound
  cases hresult : action.run machine with
  | ok a next =>
    rw [hresult] at hsound
    exact hrest a next hresult hsound
  | error fault next => rfl

theorem Agrees.bind {checked : Action α} {action : Exec α} {rest : α → Action β}
    {rest' : α → Exec β} (h : Agrees checked action) (hrest : ∀ a, Agrees (rest a) (rest' a)) :
    Agrees (checked >>= rest) (action >>= rest') where
  outcome machine hsound :=
    outcome_bind (h.outcome machine hsound) (h.sound machine hsound) fun a next _ ↦
      (hrest a).outcome next
  sound := Exec.maintains_bind h.sound fun a ↦ (hrest a).sound

/-- An action without a computation agrees with itself. -/
theorem agrees_lift {action : Exec α} (h : Maintains SoundFlags action) :
    Agrees (liftM action) action where
  outcome _ _ := rfl
  sound := h

/-- The condition may be computed in two ways. -/
theorem agrees_ite {p q : Prop} [Decidable p] [Decidable q] (h : p ↔ q)
    {checked checked' : Action α} {action action' : Exec α} (hpos : Agrees checked action)
    (hneg : Agrees checked' action') :
    Agrees (if p then checked else checked') (if q then action else action') := by
  by_cases hq : q
  · rw [if_pos (h.2 hq), if_pos hq]
    exact hpos
  · rw [if_neg (mt h.1 hq), if_neg hq]
    exact hneg

/-- What follows may use that the flags of the registers that were read are sound. -/
theorem agrees_registers_bind {rest : Registers → Action β} {rest' : Registers → Exec β}
    (hrest : ∀ registers, registers.flags.Sound → Agrees (rest registers) (rest' registers)) :
    Agrees (liftM registers >>= rest) (registers >>= rest') where
  outcome machine hsound := (hrest _ hsound).outcome machine hsound
  sound machine hsound := (hrest _ hsound).sound machine hsound

/-- A computation is seen not to fail. -/
theorem agrees_computed_bind {checked : Checked α} {a : α} {rest : α → Action β} {action : Exec β}
    (h : checked = .ok a) (hrest : Agrees (rest a) action) :
    Agrees (liftM checked >>= rest) action := by
  rw [h, Action.lift_ok_bind]
  exact hrest

theorem agrees_flags_bind {rest : Flags → Action β} {rest' : Flags → Exec β}
    (hrest : ∀ flags, flags.Sound → Agrees (rest flags) (rest' flags)) :
    Agrees (liftM flags >>= rest) (flags >>= rest') where
  outcome machine hsound := (hrest _ hsound).outcome machine hsound
  sound machine hsound := (hrest _ hsound).sound machine hsound

/-! ## Registers -/

/-- The status register, with the flags computed. -/
def Registers.statusRegister (registers : Registers) : Checked (BitVec 16) := do
  let codes ← Flags.ccr registers.flags
  let level ← shiftLeft (registers.interruptMask.setWidth 16) 8
  return (if registers.supervisor then 0x2000 else 0) ||| level ||| codes.toByte.setWidth 16

theorem Registers.statusRegister_eq {registers : Registers} (h : registers.flags.Sound) :
    statusRegister registers = .ok registers.statusRegister := by
  rw [statusRegister, Flags.ccr_eq h, ok_bind, shiftLeft_of_lt (by decide), ok_bind,
    M68000.Registers.statusRegister]
  cases registers.supervisor <;> rfl

namespace Exec

/-- Records flags that may be computed from those before. -/
def modifyFlags (f : Flags → Checked Flags) : Action Unit := do
  let recorded ← f (← flags)
  M68000.Exec.modifyFlags fun _ ↦ recorded

def getD (number : Nat) : Action (BitVec 32) := do
  entry (← registers).d number

def setD (number : Nat) (value : BitVec 32) : Action Unit := do
  let d ← setEntry (← registers).d number value
  modifyRegisters fun registers ↦ { registers with d }

def getA (number : Nat) : Action Address := do
  entry (← registers).a number

def setA (number : Nat) (value : Address) : Action Unit := do
  let a ← setEntry (← registers).a number value
  modifyRegisters fun registers ↦ { registers with a }

/-! ## The bus -/

def readAs (code : FunctionCode) (size : Size) (address : Address) : Action size.Value :=
  fun machine ↦ do
    match ← (Space.read code address machine.memory size).run with
    | .ok value => return .ok value (machine.observe .read size code address (some value))
    | .error refusal =>
      return .error (.bus refusal) (machine.observe .read size code address none)

def writeAs (code : FunctionCode) (size : Size) (address : Address) (value : size.Value) :
    Action Unit :=
  fun machine ↦ do
    match ← Space.write code address machine.memory size value with
    | .ok () memory =>
      return .ok () ({ machine with memory }.observe .write size code address (some value))
    | .error refusal memory =>
      return .error (.bus refusal)
        ({ machine with memory }.observe .write size code address none)

def read (size : Size) (address : Address) : Action size.Value := do
  readAs (← (get : Exec Machine)).dataCode size address

def readProgram (size : Size) (address : Address) : Action size.Value := do
  readAs (← (get : Exec Machine)).programCode size address

def write (size : Size) (address : Address) (value : size.Value) : Action Unit := do
  writeAs (← (get : Exec Machine)).dataCode size address value

def fetchWord (offset : Nat) : Action (BitVec 16) := do
  readProgram .word ((← pc) + BitVec.ofNat 32 offset)

def fetch (size : Size) (offset : Nat) : Action size.Value :=
  match size with
  | .byte => do Size.low .byte ((← fetchWord offset).setWidth 32)
  | .word => do Size.low .word ((← fetchWord offset).setWidth 32)
  | .long => do readProgram .long ((← pc) + BitVec.ofNat 32 offset)

/-! ## The stack -/

def push (size : Size) (value : size.Value) : Action Unit := do
  let top := (← getA stackPointer) - BitVec.ofNat 32 (← Size.alignedBytes size)
  write size top value
  setA stackPointer top

def pop (size : Size) : Action size.Value := do
  let top ← getA stackPointer
  let value ← read size top
  setA stackPointer (top + BitVec.ofNat 32 (← Size.alignedBytes size))
  return value

/-! ## Exceptions -/

def enterException (vector : Byte) (returnAddress : Address) : Action Unit := do
  let status ← Registers.statusRegister (← registers)
  (modify (·.setSupervisor true) : Exec Unit)
  push .long returnAddress
  push .word status
  setPc (← readAs .supervisorData .long (← mul (vector.setWidth 32) 4))

/-! ## Agreement of the parts -/

variable (size : Size)

theorem agrees_modifyFlags {checked : Flags → Checked Flags} {f : Flags → Flags}
    (h : ∀ flags, flags.Sound → checked flags = .ok (f flags) ∧ (f flags).Sound) :
    Agrees (modifyFlags checked) (M68000.Exec.modifyFlags f) where
  outcome machine hsound := by
    change (checked machine.registers.flags >>= _) >>= _ = _
    rw [(h _ hsound).1]
    rfl
  sound := lasting_soundFlags.maintains_modifyFlags fun flags hflags ↦ (h flags hflags).2

theorem agrees_setCcr (ccr : Ccr) :
    Agrees (liftM (M68000.Exec.setCcr ccr)) (M68000.Exec.setCcr ccr) :=
  agrees_lift (lasting_soundFlags.maintains_setCcr fun _ _ ↦ Flags.sound_ofCcr ccr)

theorem agrees_getD (number : Fin 8) : Agrees (getD number) (M68000.Exec.getD number) := by
  refine agrees_registers_bind fun registers _ ↦ ?_
  rw [entry_fin]
  exact agrees_pure _

theorem agrees_setD (number : Fin 8) (value : BitVec 32) :
    Agrees (setD number value) (M68000.Exec.setD number value) where
  outcome machine _ := by
    have hset := setEntry_fin machine.registers.d number value
    change (setEntry machine.registers.d number value >>= _) >>= _ = _
    rw [hset]
    rfl
  sound := lasting_soundFlags.maintains_setD number value

theorem agrees_getA (number : Fin 8) : Agrees (getA number) (M68000.Exec.getA number) := by
  refine agrees_registers_bind fun registers _ ↦ ?_
  rw [entry_fin]
  exact agrees_pure _

theorem agrees_setA (number : Fin 8) (value : BitVec 32) :
    Agrees (setA number value) (M68000.Exec.setA number value) where
  outcome machine _ := by
    have hset := setEntry_fin machine.registers.a number value
    change (setEntry machine.registers.a number value >>= _) >>= _ = _
    rw [hset]
    rfl
  sound := lasting_soundFlags.maintains_setA (.inl rfl) value

/-! ### The bus -/

theorem agrees_readAs (code : FunctionCode) (address : Address) :
    Agrees (readAs code size address) (M68000.Exec.readAs code size address) where
  outcome machine _ := by
    rw [readAs, Space.read_eq, M68000.Exec.run_readAs]
    cases machine.memory.read code address size <;> rfl
  sound := lasting_soundFlags.ignoresTrace.maintains_readAs code size address

theorem agrees_read (address : Address) :
    Agrees (read size address) (M68000.Exec.read size address) where
  outcome machine := (agrees_readAs size machine.dataCode address).outcome machine
  sound := lasting_soundFlags.ignoresTrace.maintains_read size address

theorem agrees_readProgram (address : Address) :
    Agrees (readProgram size address) (M68000.Exec.readProgram size address) where
  outcome machine := (agrees_readAs size machine.programCode address).outcome machine
  sound := lasting_soundFlags.ignoresTrace.maintains_readProgram size address

theorem agrees_write (address : Address) (value : size.Value) :
    Agrees (write size address value) (M68000.Exec.write size address value) where
  outcome machine _ := by
    change writeAs machine.dataCode size address value machine = _
    rw [writeAs, Space.write_eq, ok_bind, M68000.Exec.run_write, M68000.Exec.run_writeAs]
    cases machine.memory.write machine.dataCode address size value <;> rfl
  sound := lasting_soundFlags.maintains_write size address value

theorem agrees_pc : Agrees (liftM pc) pc :=
  agrees_lift Exec.maintains_pc

theorem agrees_setPc (address : Address) : Agrees (liftM (setPc address)) (setPc address) :=
  agrees_lift (lasting_soundFlags.maintains_setPc address)

theorem agrees_advancePc (bytes : Nat) :
    Agrees (liftM (advancePc bytes)) (advancePc bytes) :=
  agrees_lift (lasting_soundFlags.maintains_advancePc bytes)

theorem agrees_fetchWord (offset : Nat) :
    Agrees (fetchWord offset) (M68000.Exec.fetchWord offset) :=
  agrees_pc.bind fun _ ↦ agrees_readProgram .word _

theorem agrees_fetch (offset : Nat) :
    Agrees (fetch size offset) (M68000.Exec.fetch size offset) := by
  cases size with
  | byte =>
    refine (agrees_fetchWord offset).bind fun word ↦ ?_
    have hlow : Size.byte.low (word.setWidth 32) = word.setWidth 8 :=
      BitVec.setWidth_setWidth_of_le word (by decide)
    rw [Size.low_eq, Action.lift_ok, hlow]
    exact agrees_pure _
  | word =>
    change Agrees _ (M68000.Exec.fetchWord offset)
    rw [← bind_pure (M68000.Exec.fetchWord offset)]
    refine (agrees_fetchWord offset).bind fun word ↦ ?_
    have hlow : Size.word.low (word.setWidth 32) = word :=
      (BitVec.setWidth_setWidth_of_le word (by decide)).trans (BitVec.setWidth_eq word)
    rw [Size.low_eq, Action.lift_ok, hlow]
    exact agrees_pure _
  | long => exact agrees_pc.bind fun _ ↦ agrees_readProgram .long _

/-! ### The stack -/

theorem agrees_push (value : size.Value) :
    Agrees (push size value) (M68000.Exec.push size value) := by
  refine (agrees_getA _).bind fun top ↦ ?_
  rw [Size.alignedBytes_eq, Action.lift_ok_bind]
  exact (agrees_write size _ value).bind fun _ ↦ agrees_setA _ _

theorem agrees_pop : Agrees (pop size) (M68000.Exec.pop size) := by
  refine (agrees_getA _).bind fun top ↦ (agrees_read size _).bind fun value ↦ ?_
  rw [Size.alignedBytes_eq, Action.lift_ok_bind]
  exact (agrees_setA _ _).bind fun _ ↦ agrees_pure value

/-! ### Exceptions -/

theorem agrees_enterException (vector : Byte) (returnAddress : Address) :
    Agrees (enterException vector returnAddress)
      (M68000.Exec.enterException vector returnAddress) := by
  refine agrees_registers_bind fun registers hsound ↦ ?_
  rw [Registers.statusRegister_eq hsound, Action.lift_ok_bind]
  refine (agrees_lift ?_).bind fun _ ↦ ?_
  · exact Exec.maintains_modify fun machine ↦ lasting_soundFlags.setSupervisor machine true
  have hplace : mul (vector.setWidth 32) 4 = .ok (vector.setWidth 32 * 4) := by
    refine mul_of_lt ?_
    rw [BitVec.toNat_setWidth_of_le (by decide)]
    exact Nat.lt_of_lt_of_le (Nat.mul_lt_mul_of_pos_right vector.isLt (by decide)) (by decide)
  rw [hplace, Action.lift_ok_bind]
  refine (agrees_push .long _).bind fun _ ↦ (agrees_push .word _).bind fun _ ↦ ?_
  exact (agrees_readAs .long _ _).bind fun _ ↦ agrees_setPc _

end Exec

/-! ## Operands -/

namespace Operand

open M68000.Checked.Exec

/-- Bytes that an address register moves by. -/
def step (size : Size) (number : Fin 8) : Checked Nat :=
  if number = stackPointer then Size.alignedBytes size else return size.bits / 8

@[simp]
theorem step_eq (size : Size) (number : Fin 8) : step size number = .ok (size.step number) := by
  unfold step M68000.Size.step
  split
  next => exact Size.alignedBytes_eq size
  next => cases size <;> rfl

def indexedAddress (base : Address) (offset : Nat) : Action Address := do
  let extension ← fetchWord offset
  let number ← register (← shiftRight extension 12).toNat
  let index := (← registers).get number
  let index := if extension.getLsbD 11 then index else (index.setWidth 16).signExtend 32
  return base + (extension.setWidth 8).signExtend 32 + index

variable {size : Size} (operand : Operand size)

def address : Action Address :=
  match operand.mode with
  | .indirect number | .postIncrement number => getA number
  | .preDecrement number => do
    return (← getA number) - BitVec.ofNat 32 (← step size number)
  | .displacement number => do
    let base ← getA number
    return base + (← fetchWord operand.offset).signExtend 32
  | .indexed number => do indexedAddress (← getA number) operand.offset
  | .absoluteShort => do return (← fetchWord operand.offset).signExtend 32
  | .absoluteLong => fetch .long operand.offset
  | .pcDisplacement => do
    let base := (← pc) + BitVec.ofNat 32 operand.offset
    return base + (← fetchWord operand.offset).signExtend 32
  | .pcIndexed => do
    indexedAddress ((← pc) + BitVec.ofNat 32 operand.offset) operand.offset
  | .dataRegister _ | .addressRegister _ | .immediate => liftM (M68000.Exec.illegal (α := Address))

def get : Action size.Value :=
  match operand.mode with
  | .dataRegister number => do Size.low size (← getD number)
  | .addressRegister number => do Size.low size (← getA number)
  | .immediate => fetch size operand.offset
  | .pcDisplacement | .pcIndexed => do readProgram size (← address operand)
  | _ => do read size (← address operand)

def put (value : size.Value) : Action Unit :=
  match operand.mode with
  | .dataRegister number => do setD number (← Size.replaceLow size (← getD number) value)
  | .addressRegister number => do setA number (← Size.signExtend size value)
  | .immediate | .pcDisplacement | .pcIndexed => liftM (M68000.Exec.illegal (α := Unit))
  | _ => do write size (← address operand) value

def finish : Action Unit :=
  match operand.mode with
  | .postIncrement number => do
    setA number ((← getA number) + BitVec.ofNat 32 (← step size number))
  | .preDecrement number => do
    setA number ((← getA number) - BitVec.ofNat 32 (← step size number))
  | _ => pure ()

/-! ### Agreement of operands -/

theorem agrees_indexedAddress (base : Address) (offset : Nat) :
    Agrees (indexedAddress base offset) (M68000.Operand.indexedAddress base offset) := by
  refine (agrees_fetchWord offset).bind fun extension ↦ ?_
  have hnumber : (extension >>> 12).toNat = (extension.extractLsb' 12 4).toFin.val := by
    have hlt : extension.toNat >>> 12 < 2 ^ 4 := by
      have := extension.isLt
      rw [Nat.shiftRight_eq_div_pow]
      omega
    change _ = (extension.extractLsb' 12 4).toNat
    rw [BitVec.toNat_ushiftRight, BitVec.extractLsb'_toNat, Nat.mod_eq_of_lt hlt]
  rw [shiftRight_of_lt (by decide), Action.lift_ok_bind, hnumber, register_eq, Action.lift_ok_bind]
  exact (agrees_lift Exec.maintains_registers).bind fun registers ↦ agrees_pure _

theorem agrees_address : Agrees (address operand) operand.address := by
  unfold address M68000.Operand.address
  cases operand.mode with
  | indirect number | postIncrement number => exact agrees_getA number
  | preDecrement number =>
    refine (agrees_getA number).bind fun _ ↦ ?_
    rw [step_eq, Action.lift_ok_bind]
    exact agrees_pure _
  | displacement number =>
    exact (agrees_getA number).bind fun _ ↦ (agrees_fetchWord _).bind fun _ ↦ agrees_pure _
  | indexed number => exact (agrees_getA number).bind fun _ ↦ agrees_indexedAddress _ _
  | absoluteShort => exact (agrees_fetchWord _).bind fun _ ↦ agrees_pure _
  | absoluteLong => exact agrees_fetch _ _
  | pcDisplacement =>
    exact agrees_pc.bind fun _ ↦ (agrees_fetchWord _).bind fun _ ↦ agrees_pure _
  | pcIndexed => exact agrees_pc.bind fun _ ↦ agrees_indexedAddress _ _
  | dataRegister | addressRegister | immediate => exact agrees_lift Exec.maintains_illegal

theorem agrees_get : Agrees (get operand) operand.get := by
  unfold get M68000.Operand.get
  cases operand.mode with
  | dataRegister number =>
    refine (agrees_getD number).bind fun register ↦ ?_
    rw [Size.low_eq, Action.lift_ok]
    exact agrees_pure _
  | addressRegister number =>
    refine (agrees_getA number).bind fun register ↦ ?_
    rw [Size.low_eq, Action.lift_ok]
    exact agrees_pure _
  | immediate => exact agrees_fetch _ _
  | pcDisplacement | pcIndexed =>
    exact (agrees_address operand).bind fun _ ↦ agrees_readProgram size _
  | _ => exact (agrees_address operand).bind fun _ ↦ agrees_read size _

theorem agrees_put (value : size.Value) : Agrees (put operand value) (operand.put value) := by
  unfold put M68000.Operand.put
  cases operand.mode with
  | dataRegister number =>
    refine (agrees_getD number).bind fun register ↦ ?_
    rw [Size.replaceLow_eq, Action.lift_ok_bind]
    exact agrees_setD number _
  | addressRegister number =>
    simp only [Size.signExtend_eq, Action.lift_ok_bind]
    exact agrees_setA number _
  | immediate | pcDisplacement | pcIndexed => exact agrees_lift Exec.maintains_illegal
  | _ => exact (agrees_address operand).bind fun _ ↦ agrees_write size _ value

theorem agrees_finish : Agrees (finish operand) operand.finish := by
  unfold finish M68000.Operand.finish
  cases operand.mode with
  | postIncrement number | preDecrement number =>
    refine (agrees_getA number).bind fun _ ↦ ?_
    rw [step_eq, Action.lift_ok_bind]
    exact agrees_setA number _
  | _ => exact agrees_pure ()

/-- Goes on after the extension words of an operand. -/
def advancePast (start : Nat) : Action Unit := do
  advancePc (← sum 32 start operand.extensionBytes)

theorem extensionBytes_le : operand.extensionBytes ≤ 4 := by
  unfold M68000.Operand.extensionBytes
  cases operand.mode with
  | immediate => cases size <;> decide
  | _ => simp [Mode.extensionBytes]

theorem sum_extensionBytes {start : Nat} (hstart : start ≤ 10) :
    sum 32 start operand.extensionBytes = .ok (start + operand.extensionBytes) := by
  have hbytes := extensionBytes_le operand
  exact sum_of_lt (by omega)

theorem agrees_advancePast {start : Nat} (hstart : start ≤ 10) :
    Agrees (advancePast operand start) (advancePc (start + operand.extensionBytes)) := by
  rw [advancePast, sum_extensionBytes operand hstart, Action.lift_ok_bind]
  exact agrees_advancePc _

theorem agrees_ofField (size : Size) (field : BitVec 6) (offset : Nat) :
    Agrees (liftM (M68000.Operand.ofField size field offset))
      (M68000.Operand.ofField size field offset) :=
  agrees_lift (Exec.maintains_ofField size field offset)

end Operand

end M68000.Checked
