import M68000.Hexadecimal

/-!
# Bus accesses

Every access carries a function code: the privilege state it is made in, and whether it reads
the instruction stream or data. An access that no memory answers is a bus error, which says
where it went, with which function code, and whether it read or wrote.
-/

namespace M68000

abbrev Byte := BitVec 8

abbrev Address := BitVec 32

structure FunctionCode where
  supervisor : Bool
  program : Bool
  deriving DecidableEq

namespace FunctionCode

def userData : FunctionCode := ⟨false, false⟩

def userProgram : FunctionCode := ⟨false, true⟩

def supervisorData : FunctionCode := ⟨true, false⟩

def supervisorProgram : FunctionCode := ⟨true, true⟩

/-- The code on the three function code lines. -/
def number : FunctionCode → Nat
  | ⟨false, false⟩ => 1
  | ⟨false, true⟩ => 2
  | ⟨true, false⟩ => 5
  | ⟨true, true⟩ => 6

def ofNumber? : Nat → Option FunctionCode
  | 1 => some userData
  | 2 => some userProgram
  | 5 => some supervisorData
  | 6 => some supervisorProgram
  | _ => none

theorem ofNumber?_number (code : FunctionCode) : ofNumber? code.number = some code := by
  rcases code with ⟨_ | _, _ | _⟩ <;> rfl

def name : FunctionCode → String
  | ⟨false, false⟩ => "user data"
  | ⟨false, true⟩ => "user program"
  | ⟨true, false⟩ => "supervisor data"
  | ⟨true, true⟩ => "supervisor program"

end FunctionCode

inductive AccessKind where
  | read
  | write
  deriving DecidableEq

def AccessKind.name : AccessKind → String
  | read => "read"
  | write => "write"

/-- The refusal of an access. -/
structure BusError where
  address : Address
  functionCode : FunctionCode
  kind : AccessKind
  deriving DecidableEq

def BusError.message (error : BusError) : String :=
  s!"bus error: {error.kind.name} at {hexadecimal 6 error.address.toNat} " ++
    s!"({error.functionCode.name})"

end M68000
