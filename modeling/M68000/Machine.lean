import M68000.Fault
import M68000.Interrupts
import M68000.Memory.Space
import M68000.Registers

/-!
# Machine state

The processor with the memory on its bus. Instructions are actions on this state that may end in
a fault, and what they did before the fault stays done. The privilege state that accesses are
announced with is kept apart from the one in the status register, and is renewed whenever an
instruction changes that or a new one begins.
-/

namespace M68000

/-- An access as it was seen on the bus, with the value that passed if it was not refused. -/
structure BusAccess where
  kind : AccessKind
  size : Size
  functionCode : FunctionCode
  address : Address
  value : Option (BitVec 32)
  /-- The privilege state that the status register had then. -/
  supervisor : Bool
  deriving DecidableEq

structure Machine where
  registers : Registers := {}
  memory : Space
  /-- The privilege state that accesses are announced with. -/
  busSupervisor : Bool := true
  /-- The opcode of the last instruction. -/
  opcode : Opcode := 0
  interrupts : Interrupts := {}
  /-- The status with which a run is to end after this instruction. -/
  exitRequest : Option (BitVec 32) := none
  /-- The accesses seen so far, the latest first, while the bus is observed. -/
  trace : Option (List BusAccess) := none

namespace Machine

variable (machine : Machine)

def dataCode : FunctionCode :=
  ⟨machine.busSupervisor, false⟩

def programCode : FunctionCode :=
  ⟨machine.busSupervisor, true⟩

/-- Notes an access while the bus is observed. -/
def observe (kind : AccessKind) (size : Size) (functionCode : FunctionCode) (address : Address)
    (value : Option size.Value) : Machine :=
  let access : BusAccess :=
    { kind, size, functionCode, address,
      value := value.map (·.setWidth 32)
      supervisor := machine.registers.supervisor }
  { machine with trace := machine.trace.map (access :: ·) }

/-- Accesses are announced with the privilege state of the status register again. -/
def syncPrivilege : Machine :=
  { machine with busSupervisor := machine.registers.supervisor }

def setSupervisor (supervisor : Bool) : Machine :=
  { machine with registers := machine.registers.setSupervisor supervisor }.syncPrivilege

def setStatusRegister (value : BitVec 16) : Machine :=
  { machine with registers := machine.registers.setStatusRegister value }.syncPrivilege

def requestInterrupt (level : InterruptLevel) (vector : Byte) : Machine :=
  { machine with interrupts := machine.interrupts.request level vector }

end Machine

end M68000
