import M68000.Operation
import M68000.Proofs.Checked.Exec
import M68000.Proofs.Checked.Operations

/-!
# Checked instructions

Each instruction is made of checked parts as it is made of parts, and agrees with its checked form
because they do. The lengths of extension words add up, the lists of MOVEM are gone through bit by
bit, and every computation on operands is one that never fails. Only ABCD keeps the failure of its
sum.
-/

namespace M68000.Checked

open M68000.Exec (registers flags pc setPc advancePc modifyRegisters setCcr requireSupervisor)
open M68000.Checked.Exec

namespace Instruction

open M68000.Instruction (branchTo chainedOperand setStatusRegister)

/-! ## Moves -/

/-- N and Z are those of a result. -/
def recordResult (size : Size) (result : size.Value) : Action Unit :=
  modifyFlags fun flags ↦ do return flags.setResult (← Size.signExtend size result)

def move (size : Size) (opcode : Opcode) : Action Unit := do
  let source ← Operand.ofField size opcode.operandField 2
  let value ← Operand.get source
  Operand.finish source
  let start ← sum 32 2 source.extensionBytes
  let destination ← Operand.ofField size opcode.destinationField start
  Operand.put destination value
  Operand.finish destination
  recordResult size value
  Operand.advancePast destination start

def moveAddress (size : Size) (opcode : Opcode) : Action Unit := do
  let source ← Operand.ofField size opcode.operandField 2
  let value ← Operand.get source
  Operand.finish source
  setA opcode.highRegister (← Size.signExtend size value)
  Operand.advancePast source 2

def moveQuick (opcode : Opcode) : Action Unit := do
  let value := opcode.lowByte.signExtend 32
  setD opcode.highRegister value
  modifyFlags fun flags ↦ return flags.setResult value
  advancePc 2

def loadAddress (opcode : Opcode) : Action Unit := do
  let operand ← Operand.ofField .long opcode.operandField 2
  setA opcode.highRegister (← Operand.address operand)
  Operand.advancePast operand 2

def pushAddress (opcode : Opcode) : Action Unit := do
  let operand ← Operand.ofField .long opcode.operandField 2
  push .long (← Operand.address operand)
  Operand.advancePast operand 2

/-- The registers that EXG exchanges, by their numbers. -/
def exchanged (kind : ExchangeKind) (opcode : Opcode) : Checked (Register × Register) := do
  let high := opcode.highRegister.val
  let low := opcode.lowRegister.val
  match kind with
  | .data => return (← register high, ← register low)
  | .address => return (← register (← sum 32 high 8), ← register (← sum 32 low 8))
  | .dataWithAddress => return (← register high, ← register (← sum 32 low 8))

def exchange (kind : ExchangeKind) (opcode : Opcode) : Action Unit := do
  let (first, second) ← exchanged kind opcode
  M68000.Instruction.exchange first second

def swapWords (opcode : Opcode) : Action Unit := do
  let value := (← getD opcode.lowRegister).rotateLeft 16
  setD opcode.lowRegister value
  modifyFlags fun flags ↦ return flags.setResult value
  advancePc 2

/-- The next smaller operand, with its sign extended. -/
def extended (size : Size) (register : BitVec 32) : Checked (BitVec 32) :=
  match size with
  | .long => do Size.signExtend .word (← Size.low .word register)
  | _ => do Size.signExtend .byte (← Size.low .byte register)

def extendSign (size : Size) (opcode : Opcode) : Action Unit := do
  let register ← getD opcode.lowRegister
  let value ← extended size register
  setD opcode.lowRegister (← Size.replaceLow size register (← Size.low size value))
  modifyFlags fun flags ↦ return flags.setResult value
  advancePc 2

/-! ### Several registers -/

/-- The registers whose bits are set in a list, out of those with the given bits. -/
def chosen (list : BitVec 16) (place : Nat → Checked Nat) : List Nat → Checked (List Register)
  | [] => return []
  | number :: rest => do
    if list &&& (← shiftLeft 1 number) != 0 then
      return (← register (← place number)) :: (← chosen list place rest)
    else chosen list place rest

def storeDownward (size : Size) : Address → List Register → Action Address
  | address, [] => return address
  | address, register :: rest => do
    let address := address - BitVec.ofNat 32 size.bytes
    write size address (size.low ((← registers).get register))
    storeDownward size address rest

def storeUpward (size : Size) : Address → List Register → Action Unit
  | _, [] => return ()
  | address, register :: rest => do
    write size address (size.low ((← registers).get register))
    storeUpward size (address + BitVec.ofNat 32 size.bytes) rest

def loadUpward (size : Size) (program : Bool) : Address → List Register → Action Address
  | address, [] => return address
  | address, register :: rest => do
    let value ← if program then readProgram size address else read size address
    let value ← Size.signExtend size value
    modifyRegisters (·.set register value)
    loadUpward size program (address + BitVec.ofNat 32 size.bytes) rest

def storeMultiple (size : Size) (opcode : Opcode) : Action Unit := do
  let list ← fetchWord 2
  let operand ← Operand.ofField size opcode.operandField 4
  match operand.mode with
  | .preDecrement number =>
    let chosen ← chosen list (difference 15) (List.range 16)
    setA number (← storeDownward size (← getA number) chosen)
  | _ =>
    let chosen ← chosen list pure (List.range 16)
    storeUpward size (← Operand.address operand) chosen
  Operand.advancePast operand 4

def loadMultiple (size : Size) (opcode : Opcode) : Action Unit := do
  let list ← fetchWord 2
  let operand ← Operand.ofField size opcode.operandField 4
  let chosen ← chosen list pure (List.range 16)
  match operand.mode with
  | .postIncrement number =>
    setA number (← loadUpward size false (← getA number) chosen)
  | mode =>
    let _ ← loadUpward size mode.isPcRelative (← Operand.address operand) chosen
  Operand.advancePast operand 4

/-! ## Arithmetic and logic -/

def compute {size : Size} (operation : Binary) (destination source : size.Value) :
    Action (Option size.Value) := do
  modifyFlags (Binary.record operation destination source)
  return if operation = .cmp then none else some (operation.result destination source)

def update {size : Size} (operation : Binary) (operand : Operand size) (source : size.Value) :
    Action Unit := do
  if let some result ← compute operation (← Operand.get operand) source then
    Operand.put operand result
  Operand.finish operand

def toRegister (operation : Binary) (size : Size) (opcode : Opcode) : Action Unit := do
  let operand ← Operand.ofField size opcode.operandField 2
  let source ← Operand.get operand
  Operand.finish operand
  let register ← getD opcode.highRegister
  if let some result ← compute operation (← Size.low size register) source then
    setD opcode.highRegister (← Size.replaceLow size register result)
  Operand.advancePast operand 2

def fromRegister (operation : Binary) (size : Size) (opcode : Opcode) : Action Unit := do
  let operand ← Operand.ofField size opcode.operandField 2
  update operation operand (← Size.low size (← getD opcode.highRegister))
  Operand.advancePast operand 2

def withImmediate (operation : Binary) (size : Size) (opcode : Opcode) : Action Unit := do
  let source ← fetch size 2
  let start ← sum 32 2 (← Size.alignedBytes size)
  let operand ← Operand.ofField size opcode.operandField start
  update operation operand source
  Operand.advancePast operand start

def quick (operation : Binary) (size : Size) (opcode : Opcode) : Action Unit := do
  let operand ← Operand.ofField size opcode.operandField 2
  match operand.mode with
  | .addressRegister number =>
    setA number (operation.result (← getA number) (BitVec.ofNat 32 opcode.quickValue))
  | _ => update operation operand (BitVec.ofNat size.bits opcode.quickValue)
  Operand.advancePast operand 2

def withAddress (operation : AddressOperation) (size : Size) (opcode : Opcode) : Action Unit := do
  let operand ← Operand.ofField size opcode.operandField 2
  let source ← Size.signExtend size (← Operand.get operand)
  Operand.finish operand
  let address ← getA opcode.highRegister
  match operation with
  | .add => setA opcode.highRegister (address + source)
  | .sub => setA opcode.highRegister (address - source)
  | .cmp => modifyFlags fun flags ↦ return flags.setCompare (address - source) address source
  Operand.advancePast operand 2

def compareMemory (size : Size) (opcode : Opcode) : Action Unit := do
  let source : Operand size := ⟨.postIncrement opcode.lowRegister, 2⟩
  let sourceValue ← Operand.get source
  Operand.finish source
  let destination : Operand size := ⟨.postIncrement opcode.highRegister, 2⟩
  let destinationValue ← Operand.get destination
  Operand.finish destination
  let _ ← compute .cmp destinationValue sourceValue
  advancePc 2

def unary (operation : Unary) (size : Size) (opcode : Opcode) : Action Unit := do
  let operand ← Operand.ofField size opcode.operandField 2
  let value ← Operand.get operand
  let extend ← Flags.extend (← flags)
  modifyFlags (Unary.record operation value)
  if let some result := operation.result? value extend then
    Operand.put operand result
  Operand.finish operand
  Operand.advancePast operand 2

/-! ### Chains -/

/-- The parts that are combined, the destination and the source. -/
def parts (size : Size) (inMemory : Bool) (opcode : Opcode) :
    Action (size.Value × size.Value) := do
  let source := chainedOperand size inMemory opcode.lowRegister
  let sourceValue ← Operand.get source
  Operand.finish source
  return (← Operand.get (chainedOperand size inMemory opcode.highRegister), sourceValue)

def replacePart (size : Size)
    (combine : size.Value → size.Value → Bool → Checked (ChainedResult size.bits))
    (inMemory : Bool) (opcode : Opcode) (destinationValue sourceValue : size.Value) :
    Action Unit := do
  let destination := chainedOperand size inMemory opcode.highRegister
  let extend ← Flags.extend (← flags)
  let result ← combine destinationValue sourceValue extend
  Operand.put destination result.value
  Operand.finish destination
  setCcr (← ChainedResult.ccr result (← flags))
  advancePc 2

def chained (size : Size)
    (combine : size.Value → size.Value → Bool → Checked (ChainedResult size.bits))
    (inMemory : Bool) (opcode : Opcode) : Action Unit := do
  let (destination, source) ← parts size inMemory opcode
  replacePart size combine inMemory opcode destination source

def chainedBinary (operation : ChainedOperation) (size : Size) (inMemory : Bool)
    (opcode : Opcode) : Action Unit :=
  match operation with
  | .add => chained size ChainedResult.add inMemory opcode
  | .sub => chained size ChainedResult.sub inMemory opcode

/-- Differences of decimal digits wrap. -/
def chainedDecimal (operation : ChainedOperation) (inMemory : Bool) (opcode : Opcode) :
    Action Unit :=
  match operation with
  | .add => chained .byte ChainedResult.addDecimal inMemory opcode
  | .sub =>
    chained .byte (fun destination source extend ↦ return .subDecimal destination source extend)
      inMemory opcode

def negateDecimal (opcode : Opcode) : Action Unit := do
  let operand ← Operand.ofField .byte opcode.operandField 2
  let value ← Operand.get operand
  let extend ← Flags.extend (← flags)
  let result : ChainedResult Size.byte.bits := .subDecimal 0 value extend
  Operand.put operand result.value
  Operand.finish operand
  setCcr (← ChainedResult.ccr result (← flags))
  Operand.advancePast operand 2

/-! ### Products and quotients -/

def multiply (signedness : Signedness) (opcode : Opcode) : Action Unit := do
  let operand ← Operand.ofField .word opcode.operandField 2
  let source ← Operand.get operand
  Operand.finish operand
  let factor ← Size.low .word (← getD opcode.highRegister)
  let product ← Signedness.product signedness factor source
  setD opcode.highRegister product
  modifyFlags fun flags ↦ return flags.setResult product
  Operand.advancePast operand 2

def divide (signedness : Signedness) (opcode : Opcode) : Action Unit := do
  let operand ← Operand.ofField .word opcode.operandField 2
  let divisor ← Operand.get operand
  Operand.finish operand
  let length ← sum 32 2 operand.extensionBytes
  if divisor = 0 then
    enterException 5 ((← pc) + BitVec.ofNat 32 length)
  else
    match ← Signedness.divide? signedness (← getD opcode.highRegister) divisor with
    | some (quotient, remainder) =>
      setD opcode.highRegister (remainder ++ quotient)
      modifyFlags fun flags ↦ return flags.setResult (quotient.signExtend 32)
    | none =>
      modifyFlags fun flags ↦ return flags.setCodes flags.negative flags.zero true false
    advancePc length

def checkBounds (opcode : Opcode) : Action Unit := do
  let operand ← Operand.ofField .word opcode.operandField 2
  let bound ← Size.signExtend .word (← Operand.get operand)
  Operand.finish operand
  let length ← sum 32 2 operand.extensionBytes
  let value ← Size.signExtend .word (← Size.low .word (← getD opcode.highRegister))
  if value.slt 0 || bound.slt value then
    setCcr { ← Flags.ccr (← flags) with negative := value.slt 0 }
    enterException 6 ((← pc) + BitVec.ofNat 32 length)
  else
    advancePc length

/-! ### Single bits -/

def modifyBit (operation : BitOperation) (size : Size) (number : Nat) (field : BitVec 6)
    (offset : Nat) : Action Nat := do
  let operand ← Operand.ofField size field offset
  let mask ← bitMask size number
  let value ← Operand.get operand
  modifyFlags (Flags.setZero · (value &&& mask == 0))
  if let some result := operation.result? value mask then
    Operand.put operand result
  Operand.finish operand
  sum 32 offset operand.extensionBytes

def bit (operation : BitOperation) (inRegister : Bool) (opcode : Opcode) : Action Unit := do
  let (number, offset) ←
    if inRegister then pure ((← getD opcode.highRegister).toNat, 2)
    else pure ((← fetch .byte 2).toNat, 4)
  let field := opcode.operandField
  let length ←
    match Mode.ofField? field with
    | some (.dataRegister _) => modifyBit operation .long number field offset
    | _ => modifyBit operation .byte number field offset
  advancePc length

def testAndSet (opcode : Opcode) : Action Unit := do
  let operand ← Operand.ofField .byte opcode.operandField 2
  let value ← Operand.get operand
  recordResult .byte value
  Operand.put operand (value ||| BitVec.twoPow Size.byte.bits 7)
  Operand.finish operand
  Operand.advancePast operand 2

/-! ### Shifts -/

def shift {size : Size} (kind : ShiftKind) (direction : Direction) (value : size.Value)
    (count : Nat) : Action size.Value := do
  let (result, recorded) ← ShiftKind.perform kind direction value count (← flags)
  M68000.Exec.modifyFlags fun _ ↦ recorded
  return result

def shiftRegister (kind : ShiftKind) (direction : Direction) (source : CountSource) (size : Size)
    (opcode : Opcode) : Action Unit := do
  let count ←
    match source with
    | .immediate => pure opcode.quickValue
    | .register => do remainder (← getD opcode.highRegister).toNat 64
  let register ← getD opcode.lowRegister
  let result ← shift kind direction (← Size.low size register) count
  setD opcode.lowRegister (← Size.replaceLow size register result)
  advancePc 2

def shiftMemory (kind : ShiftKind) (direction : Direction) (opcode : Opcode) : Action Unit := do
  let operand ← Operand.ofField .word opcode.operandField 2
  Operand.put operand (← shift kind direction (← Operand.get operand) 1)
  Operand.finish operand
  Operand.advancePast operand 2

/-! ## Program control -/

/-- Looks a condition up by its number. -/
def condition (opcode : Opcode) : Checked Condition :=
  entry Condition.all (opcode.extractLsb' 8 4).toNat

def branchDisplacement (opcode : Opcode) : Action (Address × Nat) :=
  if opcode.lowByte = 0 then return ((← fetchWord 2).signExtend 32, 4)
  else return (opcode.lowByte.signExtend 32, 2)

def branch (opcode : Opcode) : Action Unit := do
  let (displacement, length) ← branchDisplacement opcode
  if ← Flags.holds (← flags) (← condition opcode) then branchTo displacement
  else advancePc length

def branchToSubroutine (opcode : Opcode) : Action Unit := do
  let (displacement, length) ← branchDisplacement opcode
  push .long ((← pc) + BitVec.ofNat 32 length)
  branchTo displacement

def decrementAndBranch (opcode : Opcode) : Action Unit := do
  if ← Flags.holds (← flags) (← condition opcode) then advancePc 4
  else
    let register ← getD opcode.lowRegister
    let count := Size.word.low register - 1
    setD opcode.lowRegister (← Size.replaceLow .word register count)
    if count = 0xFFFF then advancePc 4
    else branchTo ((← fetchWord 2).signExtend 32)

def setConditionally (opcode : Opcode) : Action Unit := do
  let operand ← Operand.ofField .byte opcode.operandField 2
  let holds ← Flags.holds (← flags) (← condition opcode)
  Operand.put operand (if holds then BitVec.allOnes _ else 0)
  Operand.finish operand
  Operand.advancePast operand 2

def jump (opcode : Opcode) : Action Unit := do
  let operand ← Operand.ofField .long opcode.operandField 2
  setPc (← Operand.address operand)

def jumpToSubroutine (opcode : Opcode) : Action Unit := do
  let operand ← Operand.ofField .long opcode.operandField 2
  let target ← Operand.address operand
  let length ← sum 32 2 operand.extensionBytes
  push .long ((← pc) + BitVec.ofNat 32 length)
  setPc target

def returnFromSubroutine : Action Unit := do
  setPc (← pop .long)

def returnAndRestore : Action Unit := do
  let codes ← pop .word
  let target ← pop .long
  setCcr (.ofByte (codes.setWidth 8))
  setPc target

def link (opcode : Opcode) : Action Unit := do
  let displacement := (← fetchWord 2).signExtend 32
  let frame := (← getA stackPointer) - 4
  let saved ← if opcode.lowRegister = stackPointer then pure frame else getA opcode.lowRegister
  write .long frame saved
  setA opcode.lowRegister frame
  setA stackPointer (frame + displacement)
  advancePc 4

def unlink (opcode : Opcode) : Action Unit := do
  setA stackPointer (← getA opcode.lowRegister)
  setA opcode.lowRegister (← pop .long)
  advancePc 2

/-! ## Status register and exceptions -/

def statusRegister : Action (BitVec 16) := do
  Registers.statusRegister (← registers)

def logicalToCcr (operation : LogicalOperation) : Action Unit := do
  let source ← fetch .byte 2
  let codes ← Flags.ccr (← flags)
  setCcr (.ofByte (operation.apply codes.toByte source))
  advancePc 4

def logicalToStatus (operation : LogicalOperation) : Action Unit := do
  requireSupervisor
  let source ← fetch .word 2
  let value := operation.apply (← statusRegister) source
  advancePc 4
  setStatusRegister value

def moveFromStatus (opcode : Opcode) : Action Unit := do
  let operand ← Operand.ofField .word opcode.operandField 2
  Operand.put operand (← statusRegister)
  Operand.finish operand
  Operand.advancePast operand 2

def moveToCcr (opcode : Opcode) : Action Unit := do
  let operand ← Operand.ofField .word opcode.operandField 2
  let value ← Operand.get operand
  Operand.finish operand
  setCcr (.ofByte (value.setWidth 8))
  Operand.advancePast operand 2

def moveToStatus (opcode : Opcode) : Action Unit := do
  requireSupervisor
  let operand ← Operand.ofField .word opcode.operandField 2
  let value ← Operand.get operand
  Operand.finish operand
  Operand.advancePast operand 2
  setStatusRegister value

def moveUserStack (direction : UserStackMove) (opcode : Opcode) : Action Unit := do
  requireSupervisor
  match direction with
  | .toUserStack =>
    let value ← getA opcode.lowRegister
    modifyRegisters (·.setUserStack value)
  | .fromUserStack => setA opcode.lowRegister (← registers).userStack
  advancePc 2

def resetDevices : Action Unit := do
  requireSupervisor
  advancePc 2

def trap (opcode : Opcode) : Action Unit := do
  let next := (← pc) + 2
  enterException (← add 32 ((opcode.extractLsb' 0 4).setWidth 8)) next

def trapOnOverflow : Action Unit := do
  let next := (← pc) + 2
  if ← Flags.overflow (← flags) then enterException 7 next
  else setPc next

def returnFromException : Action Unit := do
  requireSupervisor
  let status ← pop .word
  setPc (← pop .long)
  setStatusRegister status

end Instruction

def Operation.execute (operation : Operation) (opcode : Opcode) : Action Unit :=
  match operation with
  | .move size => Instruction.move size opcode
  | .moveAddress size => Instruction.moveAddress size opcode
  | .moveQuick => Instruction.moveQuick opcode
  | .storeMultiple size => Instruction.storeMultiple size opcode
  | .loadMultiple size => Instruction.loadMultiple size opcode
  | .loadAddress => Instruction.loadAddress opcode
  | .pushAddress => Instruction.pushAddress opcode
  | .exchange kind => Instruction.exchange kind opcode
  | .swapWords => Instruction.swapWords opcode
  | .extendSign size => Instruction.extendSign size opcode
  | .link => Instruction.link opcode
  | .unlink => Instruction.unlink opcode
  | .setConditionally => Instruction.setConditionally opcode
  | .testAndSet => Instruction.testAndSet opcode
  | .toRegister operation size => Instruction.toRegister operation size opcode
  | .fromRegister operation size => Instruction.fromRegister operation size opcode
  | .withImmediate operation size => Instruction.withImmediate operation size opcode
  | .quick operation size => Instruction.quick operation size opcode
  | .withAddress operation size => Instruction.withAddress operation size opcode
  | .compareMemory size => Instruction.compareMemory size opcode
  | .chainedBinary operation size inMemory =>
    Instruction.chainedBinary operation size inMemory opcode
  | .chainedDecimal operation inMemory => Instruction.chainedDecimal operation inMemory opcode
  | .negateDecimal => Instruction.negateDecimal opcode
  | .unary operation size => Instruction.unary operation size opcode
  | .multiply signedness => Instruction.multiply signedness opcode
  | .divide signedness => Instruction.divide signedness opcode
  | .checkBounds => Instruction.checkBounds opcode
  | .bit operation inRegister => Instruction.bit operation inRegister opcode
  | .shiftRegister kind direction count size =>
    Instruction.shiftRegister kind direction count size opcode
  | .shiftMemory kind direction => Instruction.shiftMemory kind direction opcode
  | .branch => Instruction.branch opcode
  | .branchToSubroutine => Instruction.branchToSubroutine opcode
  | .decrementAndBranch => Instruction.decrementAndBranch opcode
  | .jump => Instruction.jump opcode
  | .jumpToSubroutine => Instruction.jumpToSubroutine opcode
  | .returnFromSubroutine => Instruction.returnFromSubroutine
  | .returnAndRestore => Instruction.returnAndRestore
  | .noOperation => liftM M68000.Instruction.noOperation
  | .trap => Instruction.trap opcode
  | .trapOnOverflow => Instruction.trapOnOverflow
  | .logicalToCcr operation => Instruction.logicalToCcr operation
  | .logicalToStatus operation => Instruction.logicalToStatus operation
  | .moveFromStatus => Instruction.moveFromStatus opcode
  | .moveToCcr => Instruction.moveToCcr opcode
  | .moveToStatus => Instruction.moveToStatus opcode
  | .moveUserStack direction => Instruction.moveUserStack direction opcode
  | .resetDevices => Instruction.resetDevices
  | .returnFromException => Instruction.returnFromException

end M68000.Checked
