import M68000.ModeSet
import M68000.Operation
import M68000.Table

/-!
# The instruction set

Which opcodes stand for which operation. Each entry gives the fixed bits of an opcode, its free
bits outside the operand field, and the addressing modes that the field may name; from these
follow the patterns that are installed. MOVEP, STOP, ILLEGAL and the opcodes that begin with the
digits A and F stay illegal.
-/

namespace M68000

namespace InstructionSet

/-- Patterns together with what they stand for. -/
abbrev Entries := List (Pattern × Operation)

/-- An opcode without an operand field. -/
def plain (base mask : Opcode) (operation : Operation) : Entries :=
  [(⟨base, mask⟩, operation)]

/-- An opcode with an operand field in its low bits. -/
def withOperand (base mask : Opcode) (modes : ModeSet) (operation : Operation) : Entries :=
  modes.patterns.map fun field ↦ (⟨base ||| field.base, mask ||| field.mask⟩, operation)

/-- The size field in bits 6 and 7. -/
def sizeField : Size → Opcode
  | .byte => 0x0000
  | .word => 0x0040
  | .long => 0x0080

def sizes : List Size :=
  [.byte, .word, .long]

/-- A byte operand is never an address register. -/
def sized (modes : ModeSet) : Size → ModeSet
  | .byte => modes \ .addressRegister
  | _ => modes

/-- Register number in bits 9 to 11. -/
def highMask : Opcode := 0x0E00

/-- Register numbers in bits 0 to 2 and 9 to 11. -/
def bothMask : Opcode := 0x0E07

/-! ## Moves -/

def moveBase : Size → Opcode
  | .byte => 0x1000
  | .word => 0x3000
  | .long => 0x2000

def moves : Entries :=
  (sizes.flatMap fun size ↦
    ModeSet.dataAlterable.destinationPatterns.flatMap fun destination ↦
      withOperand (moveBase size ||| destination.base) destination.mask (sized .all size)
        (.move size)) ++
  ([Size.word, Size.long].flatMap fun size ↦
    withOperand (moveBase size ||| 0x0040) highMask .all (.moveAddress size)) ++
  plain 0x7000 0x0EFF .moveQuick

/-- Where several registers can be stored. -/
def multipleTargets : ModeSet :=
  .control ∩ .alterable ∪ .preDecrement

/-- Where several registers can be loaded from. -/
def multipleSources : ModeSet :=
  .control ∪ .postIncrement

def multipleMoves : Entries :=
  withOperand 0x4880 0 multipleTargets (.storeMultiple .word) ++
  withOperand 0x48C0 0 multipleTargets (.storeMultiple .long) ++
  withOperand 0x4C80 0 multipleSources (.loadMultiple .word) ++
  withOperand 0x4CC0 0 multipleSources (.loadMultiple .long)

def registerMoves : Entries :=
  withOperand 0x41C0 highMask .control .loadAddress ++
  withOperand 0x4840 0 .control .pushAddress ++
  plain 0xC140 bothMask (.exchange .data) ++
  plain 0xC148 bothMask (.exchange .address) ++
  plain 0xC188 bothMask (.exchange .dataWithAddress) ++
  plain 0x4840 0x0007 .swapWords ++
  plain 0x4880 0x0007 (.extendSign .word) ++
  plain 0x48C0 0x0007 (.extendSign .long) ++
  plain 0x4E50 0x0007 .link ++
  plain 0x4E58 0x0007 .unlink ++
  withOperand 0x50C0 0x0F00 .dataAlterable .setConditionally ++
  withOperand 0x4AC0 0 .dataAlterable .testAndSet

/-! ## Arithmetic and logic -/

def toRegister (base : Opcode) (operation : Binary) (modes : ModeSet) : Entries :=
  sizes.flatMap fun size ↦
    withOperand (base ||| sizeField size) highMask (sized modes size)
      (.toRegister operation size)

def fromRegister (base : Opcode) (operation : Binary) (modes : ModeSet) : Entries :=
  sizes.flatMap fun size ↦
    withOperand (base ||| 0x0100 ||| sizeField size) highMask modes
      (.fromRegister operation size)

/-- EOR has no form with a register as its destination, and CMP has no other. -/
def binary : Entries :=
  toRegister 0xD000 .add .all ++ fromRegister 0xD000 .add .memoryAlterable ++
  toRegister 0x9000 .sub .all ++ fromRegister 0x9000 .sub .memoryAlterable ++
  toRegister 0xC000 .and .data ++ fromRegister 0xC000 .and .memoryAlterable ++
  toRegister 0x8000 .or .data ++ fromRegister 0x8000 .or .memoryAlterable ++
  toRegister 0xB000 .cmp .all ++ fromRegister 0xB000 .eor .dataAlterable

def withImmediate (base : Opcode) (operation : Binary) : Entries :=
  sizes.flatMap fun size ↦
    withOperand (base ||| sizeField size) 0 .dataAlterable (.withImmediate operation size)

def quick (base : Opcode) (operation : Binary) : Entries :=
  sizes.flatMap fun size ↦
    withOperand (base ||| sizeField size) highMask (sized .alterable size)
      (.quick operation size)

def immediates : Entries :=
  withImmediate 0x0000 .or ++ withImmediate 0x0200 .and ++ withImmediate 0x0400 .sub ++
  withImmediate 0x0600 .add ++ withImmediate 0x0A00 .eor ++ withImmediate 0x0C00 .cmp ++
  quick 0x5000 .add ++ quick 0x5100 .sub

def withAddress (base : Opcode) (operation : AddressOperation) : Entries :=
  withOperand base highMask .all (.withAddress operation .word) ++
  withOperand (base ||| 0x0100) highMask .all (.withAddress operation .long)

def addresses : Entries :=
  withAddress 0xD0C0 .add ++ withAddress 0x90C0 .sub ++ withAddress 0xB0C0 .cmp ++
  sizes.flatMap fun size ↦ plain (0xB108 ||| sizeField size) bothMask (.compareMemory size)

def chainedBinary (base : Opcode) (operation : ChainedOperation) : Entries :=
  sizes.flatMap fun size ↦
    plain (base ||| sizeField size) bothMask (.chainedBinary operation size false) ++
    plain (base ||| sizeField size ||| 0x0008) bothMask (.chainedBinary operation size true)

def chainedDecimal (base : Opcode) (operation : ChainedOperation) : Entries :=
  plain base bothMask (.chainedDecimal operation false) ++
  plain (base ||| 0x0008) bothMask (.chainedDecimal operation true)

def chained : Entries :=
  chainedBinary 0xD100 .add ++ chainedBinary 0x9100 .sub ++
  chainedDecimal 0xC100 .add ++ chainedDecimal 0x8100 .sub ++
  withOperand 0x4800 0 .dataAlterable .negateDecimal

def unary (base : Opcode) (operation : Unary) : Entries :=
  sizes.flatMap fun size ↦
    withOperand (base ||| sizeField size) 0 .dataAlterable (.unary operation size)

def unaries : Entries :=
  unary 0x4000 .negx ++ unary 0x4200 .clr ++ unary 0x4400 .neg ++ unary 0x4600 .not ++
  unary 0x4A00 .tst

def products : Entries :=
  withOperand 0xC0C0 highMask .data (.multiply .unsigned) ++
  withOperand 0xC1C0 highMask .data (.multiply .signed) ++
  withOperand 0x80C0 highMask .data (.divide .unsigned) ++
  withOperand 0x81C0 highMask .data (.divide .signed) ++
  withOperand 0x4180 highMask .data .checkBounds

/-! ## Bits and shifts -/

def bitField : BitOperation → Opcode
  | .test => 0x0000
  | .change => 0x0040
  | .clear => 0x0080
  | .set => 0x00C0

/-- A bit can be tested in any data operand, though not with an immediate number in an immediate
one. -/
def bitModes (inRegister : Bool) : BitOperation → ModeSet
  | .test => if inRegister then .data else .data \ .immediate
  | _ => .dataAlterable

def bits : Entries :=
  [BitOperation.test, .change, .clear, .set].flatMap fun operation ↦
    withOperand (0x0800 ||| bitField operation) 0 (bitModes false operation)
      (.bit operation false) ++
    withOperand (0x0100 ||| bitField operation) highMask (bitModes true operation)
      (.bit operation true)

def shiftField : ShiftKind → Opcode
  | .arithmetic => 0
  | .logical => 1
  | .rotateExtend => 2
  | .rotate => 3

def directionField : Direction → Opcode
  | .right => 0x0000
  | .left => 0x0100

def countField : CountSource → Opcode
  | .immediate => 0x0000
  | .register => 0x0020

def shifts : Entries :=
  [ShiftKind.arithmetic, .logical, .rotateExtend, .rotate].flatMap fun kind ↦
    [Direction.right, .left].flatMap fun direction ↦
      (sizes.flatMap fun size ↦
        [CountSource.immediate, .register].flatMap fun count ↦
          plain (0xE000 ||| directionField direction ||| sizeField size ||| countField count |||
            shiftField kind <<< 3) bothMask (.shiftRegister kind direction count size)) ++
      withOperand (0xE0C0 ||| shiftField kind <<< 9 ||| directionField direction) 0
        .memoryAlterable (.shiftMemory kind direction)

/-! ## Program control -/

/-- A branch on the condition that never holds is a call. -/
def branches : Entries :=
  plain 0x6100 0x00FF .branchToSubroutine ++
  plain 0x6000 0x00FF .branch ++
  ((List.range' 2 14).flatMap fun condition ↦
    plain (0x6000 ||| BitVec.ofNat 16 condition <<< 8) 0x00FF .branch) ++
  plain 0x50C8 0x0F07 .decrementAndBranch

def calls : Entries :=
  withOperand 0x4EC0 0 .control .jump ++
  withOperand 0x4E80 0 .control .jumpToSubroutine ++
  plain 0x4E75 0 .returnFromSubroutine ++
  plain 0x4E77 0 .returnAndRestore ++
  plain 0x4E71 0 .noOperation

def traps : Entries :=
  plain 0x4E40 0x000F .trap ++
  plain 0x4E76 0 .trapOnOverflow ++
  plain 0x4E73 0 .returnFromException

/-! ## Status register -/

def logical (base : Opcode) (operation : LogicalOperation) : Entries :=
  plain (base ||| 0x003C) 0 (.logicalToCcr operation) ++
  plain (base ||| 0x007C) 0 (.logicalToStatus operation)

def status : Entries :=
  logical 0x0000 .or ++ logical 0x0200 .and ++ logical 0x0A00 .eor ++
  withOperand 0x40C0 0 .dataAlterable .moveFromStatus ++
  withOperand 0x44C0 0 .data .moveToCcr ++
  withOperand 0x46C0 0 .data .moveToStatus ++
  plain 0x4E60 0x0007 (.moveUserStack .toUserStack) ++
  plain 0x4E68 0x0007 (.moveUserStack .fromUserStack) ++
  plain 0x4E70 0 .resetDevices

/-- All patterns, none of which shares an opcode with another. -/
def entries : Entries :=
  moves ++ multipleMoves ++ registerMoves ++ binary ++ immediates ++ addresses ++ chained ++
  unaries ++ products ++ bits ++ shifts ++ branches ++ calls ++ traps ++ status

end InstructionSet

/-- The operation of each opcode. -/
def instructionSet : Table Operation :=
  InstructionSet.entries.foldl (fun table (pattern, operation) ↦ table.install pattern operation)
    .empty

end M68000
