import M68000.Machine

/-!
# Actions of the processor

An action changes the machine and answers a value or ends in a fault. The actions here are what
instructions are made of: reading the instruction stream, reading and writing data, the stack,
and entering an exception.
-/

namespace M68000

/-- An action, whose changes before a fault are kept. -/
abbrev Exec := EStateM Fault Machine

namespace Exec

/-! ## Registers -/

def registers : Exec Registers := do
  return (← get).registers

def modifyRegisters (f : Registers → Registers) : Exec Unit :=
  modify fun machine ↦ { machine with registers := f machine.registers }

def flags : Exec Flags := do
  return (← registers).flags

def modifyFlags (f : Flags → Flags) : Exec Unit :=
  modifyRegisters fun registers ↦ { registers with flags := f registers.flags }

def setCcr (ccr : Ccr) : Exec Unit :=
  modifyRegisters (·.setCcr ccr)

def getD (number : Fin 8) : Exec (BitVec 32) := do
  return (← registers).getD number

def setD (number : Fin 8) (value : BitVec 32) : Exec Unit :=
  modifyRegisters (·.setD number value)

def getA (number : Fin 8) : Exec Address := do
  return (← registers).getA number

def setA (number : Fin 8) (value : Address) : Exec Unit :=
  modifyRegisters (·.setA number value)

def pc : Exec Address := do
  return (← registers).pc

def setPc (address : Address) : Exec Unit :=
  modifyRegisters fun registers ↦ { registers with pc := address }

def advancePc (bytes : Nat) : Exec Unit :=
  modifyRegisters (·.advancePc bytes)

/-! ## Faults -/

/-- The current opcode has no meaning. -/
def illegal : Exec α := do
  throw (.illegalInstruction (← get).opcode (← pc))

/-- The current opcode is reserved to the supervisor. -/
def requireSupervisor : Exec Unit := do
  unless (← registers).supervisor do
    throw (.privilegeViolation (← get).opcode (← pc))

/-! ## The bus -/

def readAs (code : FunctionCode) (size : Size) (address : Address) : Exec size.Value :=
  fun machine ↦
    match machine.memory.read code address size with
    | .ok value => .ok value (machine.observe .read size code address (some value))
    | .error refusal => .error (.bus refusal) (machine.observe .read size code address none)

def writeAs (code : FunctionCode) (size : Size) (address : Address) (value : size.Value) :
    Exec Unit :=
  fun machine ↦
    match machine.memory.write code address size value with
    | .ok () memory =>
      .ok () ({ machine with memory }.observe .write size code address (some value))
    | .error refusal memory =>
      .error (.bus refusal) ({ machine with memory }.observe .write size code address none)

/-- Reads data. -/
def read (size : Size) (address : Address) : Exec size.Value := do
  readAs (← get).dataCode size address

/-- Reads data that belongs to the program. -/
def readProgram (size : Size) (address : Address) : Exec size.Value := do
  readAs (← get).programCode size address

def write (size : Size) (address : Address) (value : size.Value) : Exec Unit := do
  writeAs (← get).dataCode size address value

/-- Writes a block of supervisor data byte by byte. -/
def writeBlock (address : Address) : List Byte → Exec Unit
  | [] => pure ()
  | byte :: rest => do
    writeAs .supervisorData .byte address byte
    writeBlock (address + 1) rest

/-! ## The instruction stream -/

/-- Reads the word that lies `offset` bytes after the program counter. -/
def fetchWord (offset : Nat) : Exec (BitVec 16) := do
  readProgram .word ((← pc) + BitVec.ofNat 32 offset)

/-- Reads an immediate operand. A byte is the low half of a word. -/
def fetch (size : Size) (offset : Nat) : Exec size.Value :=
  match size with
  | .byte => return (← fetchWord offset).setWidth 8
  | .word => fetchWord offset
  | .long => do readProgram .long ((← pc) + BitVec.ofNat 32 offset)

/-! ## The stack -/

/-- The stack pointer moves down only after the value has been written. -/
def push (size : Size) (value : size.Value) : Exec Unit := do
  let top := (← getA stackPointer) - BitVec.ofNat 32 size.alignedBytes
  write size top value
  setA stackPointer top

/-- The stack pointer moves up only after the value has been read. -/
def pop (size : Size) : Exec size.Value := do
  let top ← getA stackPointer
  let value ← read size top
  setA stackPointer (top + BitVec.ofNat 32 size.alignedBytes)
  return value

/-! ## Exceptions -/

/-- Enters supervisor state, stacks the return address and the status register as it was, and
goes on at the handler that the vector names. -/
def enterException (vector : Byte) (returnAddress : Address) : Exec Unit := do
  let status := (← registers).statusRegister
  modify (·.setSupervisor true)
  push .long returnAddress
  push .word status
  setPc (← readAs .supervisorData .long (vector.setWidth 32 * 4))

/-- Enters the interrupt of the highest level that has a request, if that level is above the
mask or cannot be masked. -/
def acceptInterrupt : Exec Unit := do
  let machine ← get
  if machine.interrupts.pending then
    if let some (level, vector) := machine.interrupts.highest? then
      if machine.registers.interruptMask.toNat < level.number ∨ level.number = 7 then
        modify fun machine ↦ { machine with interrupts := machine.interrupts.remove level }
        enterException vector (← pc)
        modifyRegisters (·.setInterruptMask (BitVec.ofNat 8 level.number))
    modify fun machine ↦ { machine with interrupts := machine.interrupts.refresh }

/-- Asks for the run to end after this instruction. -/
def requestExit (status : BitVec 32) : Exec Unit :=
  modify fun machine ↦ { machine with exitRequest := some status }

end Exec

end M68000
