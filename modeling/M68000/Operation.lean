import M68000.Instruction.Arithmetic
import M68000.Instruction.Bit
import M68000.Instruction.Branch
import M68000.Instruction.Chained
import M68000.Instruction.Move
import M68000.Instruction.MoveMultiple
import M68000.Instruction.Multiply
import M68000.Instruction.Shift
import M68000.Instruction.Status
import M68000.Instruction.Unary

/-!
# Operations

What the opcodes of the instruction set stand for. An operation says all that its opcodes have in
common; registers, addressing modes and small constants are read off the opcode when it is
executed.
-/

namespace M68000

/-- The kinds of registers that EXG exchanges. -/
inductive ExchangeKind where
  | data
  | address
  | dataWithAddress
  deriving DecidableEq

inductive Operation where
  | move (size : Size)
  | moveAddress (size : Size)
  | moveQuick
  | storeMultiple (size : Size)
  | loadMultiple (size : Size)
  | loadAddress
  | pushAddress
  | exchange (kind : ExchangeKind)
  | swapWords
  | extendSign (size : Size)
  | link
  | unlink
  | setConditionally
  | testAndSet
  | toRegister (operation : Binary) (size : Size)
  | fromRegister (operation : Binary) (size : Size)
  | withImmediate (operation : Binary) (size : Size)
  | quick (operation : Binary) (size : Size)
  | withAddress (operation : AddressOperation) (size : Size)
  | compareMemory (size : Size)
  | chainedBinary (operation : ChainedOperation) (size : Size) (inMemory : Bool)
  | chainedDecimal (operation : ChainedOperation) (inMemory : Bool)
  | negateDecimal
  | unary (operation : Unary) (size : Size)
  | multiply (signedness : Signedness)
  | divide (signedness : Signedness)
  | checkBounds
  | bit (operation : BitOperation) (inRegister : Bool)
  | shiftRegister (kind : ShiftKind) (direction : Direction) (count : CountSource) (size : Size)
  | shiftMemory (kind : ShiftKind) (direction : Direction)
  | branch
  | branchToSubroutine
  | decrementAndBranch
  | jump
  | jumpToSubroutine
  | returnFromSubroutine
  | returnAndRestore
  | noOperation
  | trap
  | trapOnOverflow
  | logicalToCcr (operation : LogicalOperation)
  | logicalToStatus (operation : LogicalOperation)
  | moveFromStatus
  | moveToCcr
  | moveToStatus
  | moveUserStack (direction : UserStackMove)
  | resetDevices
  | returnFromException
  deriving DecidableEq

namespace Operation

open Instruction

/-- The registers that EXG exchanges. -/
def exchanged (kind : ExchangeKind) (opcode : Opcode) : Register × Register :=
  match kind with
  | .data => (.data opcode.highRegister, .data opcode.lowRegister)
  | .address => (.address opcode.highRegister, .address opcode.lowRegister)
  | .dataWithAddress => (.data opcode.highRegister, .address opcode.lowRegister)

def execute (operation : Operation) (opcode : Opcode) : Exec Unit :=
  match operation with
  | move size => Instruction.move size opcode
  | moveAddress size => Instruction.moveAddress size opcode
  | moveQuick => Instruction.moveQuick opcode
  | storeMultiple size => Instruction.storeMultiple size opcode
  | loadMultiple size => Instruction.loadMultiple size opcode
  | loadAddress => Instruction.loadAddress opcode
  | pushAddress => Instruction.pushAddress opcode
  | exchange kind => Instruction.exchange (exchanged kind opcode).1 (exchanged kind opcode).2
  | swapWords => Instruction.swapWords opcode
  | extendSign size => Instruction.extendSign size opcode
  | link => Instruction.link opcode
  | unlink => Instruction.unlink opcode
  | setConditionally => Instruction.setConditionally opcode
  | testAndSet => Instruction.testAndSet opcode
  | toRegister operation size => Instruction.toRegister operation size opcode
  | fromRegister operation size => Instruction.fromRegister operation size opcode
  | withImmediate operation size => Instruction.withImmediate operation size opcode
  | quick operation size => Instruction.quick operation size opcode
  | withAddress operation size => Instruction.withAddress operation size opcode
  | compareMemory size => Instruction.compareMemory size opcode
  | chainedBinary operation size inMemory =>
    Instruction.chainedBinary operation size inMemory opcode
  | chainedDecimal operation inMemory => Instruction.chainedDecimal operation inMemory opcode
  | negateDecimal => Instruction.negateDecimal opcode
  | unary operation size => Instruction.unary operation size opcode
  | multiply signedness => Instruction.multiply signedness opcode
  | divide signedness => Instruction.divide signedness opcode
  | checkBounds => Instruction.checkBounds opcode
  | bit operation inRegister => Instruction.bit operation inRegister opcode
  | shiftRegister kind direction count size =>
    Instruction.shiftRegister kind direction count size opcode
  | shiftMemory kind direction => Instruction.shiftMemory kind direction opcode
  | branch => Instruction.branch opcode
  | branchToSubroutine => Instruction.branchToSubroutine opcode
  | decrementAndBranch => Instruction.decrementAndBranch opcode
  | jump => Instruction.jump opcode
  | jumpToSubroutine => Instruction.jumpToSubroutine opcode
  | returnFromSubroutine => Instruction.returnFromSubroutine
  | returnAndRestore => Instruction.returnAndRestore
  | noOperation => Instruction.noOperation
  | trap => Instruction.trap opcode
  | trapOnOverflow => Instruction.trapOnOverflow
  | logicalToCcr operation => Instruction.logicalToCcr operation
  | logicalToStatus operation => Instruction.logicalToStatus operation
  | moveFromStatus => Instruction.moveFromStatus opcode
  | moveToCcr => Instruction.moveToCcr opcode
  | moveToStatus => Instruction.moveToStatus opcode
  | moveUserStack direction => Instruction.moveUserStack direction opcode
  | resetDevices => Instruction.resetDevices
  | returnFromException => Instruction.returnFromException

end Operation

end M68000
