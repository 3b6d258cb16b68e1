import M68000.Condition

/-!
# The register file

Eight data registers, eight address registers, the program counter and the status register.
There are two stack pointers: address register 7 is the one of the current privilege state, and
the other waits in its own slot until the state changes. The slot of the live pointer keeps
whatever it held when that pointer was last exchanged, and nothing reads it.
-/

namespace M68000

/-- A data or address register. -/
inductive Register where
  | data (number : Fin 8)
  | address (number : Fin 8)
  deriving DecidableEq

/-- Extension words number the data registers from 0 to 7 and the address registers from 8
to 15. -/
def Register.ofNumber (number : Fin 16) : Register :=
  if h : number.val < 8 then .data ⟨number, h⟩
  else .address ⟨number - 8, by omega⟩

/-- The register file as it is after a reset: supervisor state, all interrupts masked. -/
structure Registers where
  d : Vector (BitVec 32) 8 := .replicate 8 0
  a : Vector (BitVec 32) 8 := .replicate 8 0
  pc : BitVec 32 := 0
  flags : Flags := {}
  /-- The user stack pointer while it is not live. -/
  userSlot : BitVec 32 := 0
  /-- The supervisor stack pointer while it is not live. -/
  supervisorSlot : BitVec 32 := 0
  supervisor : Bool := true
  interruptMask : BitVec 8 := 7
  deriving DecidableEq

/-- The address register that points to the top of the stack. -/
def stackPointer : Fin 8 :=
  ⟨7, by decide⟩

namespace Registers

variable (registers : Registers)

def getD (number : Fin 8) : BitVec 32 :=
  registers.d.get number

def setD (number : Fin 8) (value : BitVec 32) : Registers :=
  { registers with d := registers.d.set number value }

def getA (number : Fin 8) : BitVec 32 :=
  registers.a.get number

def setA (number : Fin 8) (value : BitVec 32) : Registers :=
  { registers with a := registers.a.set number value }

def get : Register → BitVec 32
  | .data number => registers.getD number
  | .address number => registers.getA number

def set : Register → BitVec 32 → Registers
  | .data number, value => registers.setD number value
  | .address number, value => registers.setA number value

def advancePc (bytes : Nat) : Registers :=
  { registers with pc := registers.pc + BitVec.ofNat 32 bytes }

/-! ## Privilege state and stack pointers -/

/-- Entering the other state exchanges the stack pointers; entering the current one does
nothing. -/
def setSupervisor (supervisor : Bool) : Registers :=
  if supervisor = registers.supervisor then registers
  else if supervisor then
    { registers.setA stackPointer registers.supervisorSlot with
      userSlot := registers.getA stackPointer
      supervisor := true }
  else
    { registers.setA stackPointer registers.userSlot with
      supervisorSlot := registers.getA stackPointer
      supervisor := false }

def userStack : BitVec 32 :=
  if registers.supervisor then registers.userSlot else registers.getA stackPointer

def setUserStack (value : BitVec 32) : Registers :=
  if registers.supervisor then { registers with userSlot := value }
  else registers.setA stackPointer value

def supervisorStack : BitVec 32 :=
  if registers.supervisor then registers.getA stackPointer else registers.supervisorSlot

def setSupervisorStack (value : BitVec 32) : Registers :=
  if registers.supervisor then registers.setA stackPointer value
  else { registers with supervisorSlot := value }

/-! ## Status register -/

/-- Interrupt levels are below eight. -/
def setInterruptMask (level : BitVec 8) : Registers :=
  { registers with interruptMask := level &&& 7 }

def setCcr (ccr : Ccr) : Registers :=
  { registers with flags := .ofCcr ccr }

/-- The S bit, the interrupt mask and the condition codes. -/
def statusRegister : BitVec 16 :=
  (if registers.supervisor then 0x2000 else 0) |||
    (registers.interruptMask.setWidth 16 <<< 8) ||| registers.flags.ccr.toByte.setWidth 16

/-- Bits that the processor does not implement are ignored. -/
def setStatusRegister (value : BitVec 16) : Registers :=
  { registers with
    flags := .ofCcr (.ofByte (value.setWidth 8))
    interruptMask := (value.extractLsb' 8 3).setWidth 8 }.setSupervisor (value.getLsbD 13)

end Registers

end M68000
