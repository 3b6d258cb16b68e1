import M68000.Proofs.Exception.Trap

/-!
# What accesses are made for

An instruction consists of its opcode and of parts that follow it in the instruction stream: an
immediate word or long word, then the extension words of its operands. The opcode decides the parts
and so the length of the instruction. The accesses of an instruction are those of its parts, in
their order, and then transfers to and from data. Each of them has a purpose, and the purpose says
with which function code the access is to be announced.
-/

namespace M68000

/-- What an access on the bus is made for. -/
inductive Purpose where
  /-- To fetch a part of the instruction that lies so many bytes after its opcode. -/
  | instruction (size : Size) (offset : Nat)
  /-- To read an operand that is addressed relative to the program counter. -/
  | programOperand (size : Size)
  /-- To read or write any other data. -/
  | data (kind : AccessKind) (size : Size)
  /-- To stack the frame of an exception and to read its vector. -/
  | exception (kind : AccessKind) (size : Size)
  deriving DecidableEq

namespace Purpose

def kind : Purpose → AccessKind
  | instruction .. | programOperand _ => .read
  | data kind _ | exception kind _ => kind

def size : Purpose → Size
  | instruction size _ | programOperand size | data _ size | exception _ size => size

/-- The access belongs to the program. -/
def isProgram : Purpose → Bool
  | instruction .. | programOperand _ => true
  | data .. | exception .. => false

/-- The access fetches a part of the instruction. -/
def isFetch : Purpose → Bool
  | instruction .. => true
  | _ => false

/-- The access fetches the byte that lies so many bytes after the opcode. -/
def Fetches (i : Nat) : Purpose → Prop
  | instruction size offset => offset ≤ i ∧ i < offset + size.bytes
  | _ => False

/-- What is known of the place and the state in which an access is made. -/
def Situation (pc : Address) (access : BusAccess) : Purpose → Prop
  | instruction _ offset => access.address = pc + BitVec.ofNat 32 offset
  | exception .. => access.supervisor = true
  | _ => True

/-- The accesses that enter an exception. -/
def exceptionEntry : List Purpose :=
  [.exception .write .long, .exception .write .word, .exception .read .long]

end Purpose

/-- The access is announced as its purpose demands, and with the privilege state that the status
register had then. -/
structure BusAccess.Serves (pc : Address) (access : BusAccess) (purpose : Purpose) : Prop where
  kind : access.kind = purpose.kind
  size : access.size = purpose.size
  supervisor : access.functionCode.supervisor = access.supervisor
  program : access.functionCode.program = purpose.isProgram
  situation : purpose.Situation pc access

theorem BusAccess.Serves.program_of_write {pc : Address} {access : BusAccess} {purpose : Purpose}
    (h : access.Serves pc purpose) (hwrite : access.kind = .write) :
    access.functionCode.program = false := by
  have hkind := h.kind.symm.trans hwrite
  rw [h.program]
  cases purpose with
  | instruction => cases hkind
  | programOperand => cases hkind
  | data => rfl
  | exception => rfl

/-! ## Operands -/

/-- The size in which a value lies in the instruction stream, where a byte fills a word. -/
def Size.aligned : Size → Size
  | byte | word => word
  | long => long

namespace Mode

/-- The fetches of an operand's extension words. -/
def fetches (size : Size) (offset : Nat) : Mode → List Purpose
  | displacement _ | indexed _ | absoluteShort | pcDisplacement | pcIndexed =>
    [.instruction .word offset]
  | absoluteLong => [.instruction .long offset]
  | immediate => [.instruction size.aligned offset]
  | _ => []

/-- The access to the operand itself, if it is in memory. -/
def transfer (kind : AccessKind) (size : Size) : Mode → List Purpose
  | dataRegister _ | addressRegister _ | immediate => []
  | pcDisplacement | pcIndexed => [.programOperand size]
  | _ => [.data kind size]

end Mode

/-- What an instruction does with an operand. To modify it is to read it and to write it, and its
address is found anew for that. -/
inductive OperandUse where
  | read
  | write
  | modify
  | locate
  deriving DecidableEq

namespace OperandUse

variable (size : Size) (mode : Mode) (offset : Nat)

def purposes : OperandUse → List Purpose
  | read => mode.fetches size offset ++ mode.transfer .read size
  | write => mode.fetches size offset ++ mode.transfer .write size
  | modify =>
    mode.fetches size offset ++ mode.transfer .read size ++
      (mode.fetches size offset ++ mode.transfer .write size)
  | locate => mode.fetches size offset

end OperandUse

/-! ## Parts of instructions -/

/-- What follows the opcode in the instruction stream. -/
inductive Part where
  /-- A value or a register list. -/
  | immediate (size : Size)
  /-- The extension words of the operand that a field of the opcode names. -/
  | operand (size : Size) (field : BitVec 6) (use : OperandUse)

namespace Part

def bytes : Part → Nat
  | immediate size => size.alignedBytes
  | operand size field _ =>
    match Mode.ofField? field with
    | some mode => mode.extensionBytes size
    | none => 0

/-- The accesses for a part that lies so many bytes after the opcode. -/
def purposes (offset : Nat) : Part → List Purpose
  | immediate size => [.instruction size.aligned offset]
  | operand size field use =>
    match Mode.ofField? field with
    | some mode => use.purposes size mode offset
    | none => []

/-- The operand that an opcode names. -/
def ofOpcode (opcode : Opcode) (size : Size) (use : OperandUse) : Part :=
  operand size opcode.operandField use

/-- The destination that an opcode of MOVE names. -/
def ofDestination (opcode : Opcode) (size : Size) : Part :=
  operand size opcode.destinationField .write

/-- The bytes of consecutive parts. -/
def length : List Part → Nat
  | [] => 0
  | part :: rest => part.bytes + length rest

/-- Consecutive parts with their places. -/
def placed (offset : Nat) : List Part → List (Nat × Part)
  | [] => []
  | part :: rest => (offset, part) :: placed (offset + part.bytes) rest

/-- The accesses for consecutive parts. -/
def purposesFrom (offset : Nat) (parts : List Part) : List Purpose :=
  (placed offset parts).flatMap fun (offset, part) ↦ part.purposes offset

@[simp]
theorem purposesFrom_nil (offset : Nat) : purposesFrom offset [] = [] :=
  rfl

@[simp]
theorem purposesFrom_cons (offset : Nat) (part : Part) (rest : List Part) :
    purposesFrom offset (part :: rest) =
      part.purposes offset ++ purposesFrom (offset + part.bytes) rest :=
  rfl

@[simp]
theorem length_cons (part : Part) (rest : List Part) :
    length (part :: rest) = part.bytes + length rest :=
  rfl

section OfMode

variable {field : BitVec 6} {mode : Mode} (hmode : Mode.ofField? field = some mode) (size : Size)
  (use : OperandUse)

include hmode

theorem bytes_operand : (operand size field use).bytes = mode.extensionBytes size := by
  rw [bytes, hmode]

theorem purposes_operand (offset : Nat) :
    (operand size field use).purposes offset = use.purposes size mode offset := by
  rw [purposes, hmode]

end OfMode

end Part

/-! ## Operations -/

namespace Operation

/-- What an operation does with an operand that it reads, and writes unless it only compares. -/
def useUnless (reads : Bool) : OperandUse :=
  if reads then .read else .modify

/-- The parts of the instruction: first an immediate value or a register list, then what belongs to
the source and then what belongs to the destination. -/
def parts (operation : Operation) (opcode : Opcode) : List Part :=
  match operation with
  | move size => [.ofOpcode opcode size .read, .ofDestination opcode size]
  | moveAddress size | toRegister _ size | withAddress _ size => [.ofOpcode opcode size .read]
  | storeMultiple size | loadMultiple size => [.immediate .word, .ofOpcode opcode size .locate]
  | loadAddress | pushAddress | jump | jumpToSubroutine => [.ofOpcode opcode .long .locate]
  | link | decrementAndBranch | logicalToStatus _ => [.immediate .word]
  | logicalToCcr _ => [.immediate .byte]
  | setConditionally => [.ofOpcode opcode .byte .write]
  | moveFromStatus => [.ofOpcode opcode .word .write]
  | testAndSet | negateDecimal => [.ofOpcode opcode .byte .modify]
  | shiftMemory .. => [.ofOpcode opcode .word .modify]
  | fromRegister operation size => [.ofOpcode opcode size (useUnless (operation = .cmp))]
  | withImmediate operation size =>
    [.immediate size, .ofOpcode opcode size (useUnless (operation = .cmp))]
  | quick operation size => [.ofOpcode opcode size (useUnless (operation = .cmp))]
  | unary operation size => [.ofOpcode opcode size (useUnless (operation = .tst))]
  | bit operation true => [.ofOpcode opcode .byte (useUnless (operation = .test))]
  | bit operation false =>
    [.immediate .byte, .ofOpcode opcode .byte (useUnless (operation = .test))]
  | multiply _ | divide _ | checkBounds | moveToCcr | moveToStatus => [.ofOpcode opcode .word .read]
  | branch | branchToSubroutine => if opcode.lowByte = 0 then [.immediate .word] else []
  | _ => []

/-- The length of an instruction in bytes. -/
def length (operation : Operation) (opcode : Opcode) : Nat :=
  2 + Part.length (operation.parts opcode)

/-- The instruction does not go on at the one after it. -/
def transfersControl : Operation → Bool
  | branch | branchToSubroutine | decrementAndBranch | jump | jumpToSubroutine
  | returnFromSubroutine | returnAndRestore | returnFromException | trap => true
  | _ => false

/-- How far the instruction moves the program counter, if it goes on at the one after it. -/
def advance? (operation : Operation) (opcode : Opcode) (machine : Machine) : Option Nat :=
  if operation.transfersControl || (operation.trap? opcode machine).isSome then none
  else some (operation.length opcode)

/-- The number of registers in the list of MOVEM. -/
def listedCount (machine : Machine) : Nat :=
  match (Exec.fetchWord 2).run machine with
  | .ok list _ => (Instruction.listed list).length
  | .error .. => 0

/-- MOVEM loads from a part of the program. -/
def loadsProgram (opcode : Opcode) : Bool :=
  match Mode.ofField? opcode.operandField with
  | some mode => mode.isPcRelative
  | none => false

/-- The accesses that an instruction makes after those for its parts. -/
def transfers (operation : Operation) (opcode : Opcode) (machine : Machine) : List Purpose :=
  match operation with
  | storeMultiple size => List.replicate (listedCount machine) (.data .write size)
  | loadMultiple size =>
    List.replicate (listedCount machine)
      (if loadsProgram opcode then .programOperand size else .data .read size)
  | pushAddress | link | branchToSubroutine | jumpToSubroutine => [.data .write .long]
  | unlink | returnFromSubroutine => [.data .read .long]
  | returnAndRestore | returnFromException => [.data .read .word, .data .read .long]
  | compareMemory size => [.data .read size, .data .read size]
  | chainedBinary _ size true => [.data .read size, .data .read size, .data .write size]
  | chainedDecimal _ true => [.data .read .byte, .data .read .byte, .data .write .byte]
  | divide _ | checkBounds | trap | trapOnOverflow =>
    if (operation.trap? opcode machine).isSome then Purpose.exceptionEntry else []
  | _ => []

/-- DBcc branches, if its condition does not hold and its counter does not run out. -/
def countsOn (opcode : Opcode) (registers : Registers) : Bool :=
  !registers.flags.holds (.ofOpcode opcode) &&
    Size.word.low (registers.getD opcode.lowRegister) - 1 != 0xFFFF

/-- The accesses of an instruction after the fetch of its opcode. DBcc asks for its displacement
only to branch. -/
def purposes (operation : Operation) (opcode : Opcode) (machine : Machine) : List Purpose :=
  if operation = .decrementAndBranch ∧ countsOn opcode machine.registers = false then []
  else Part.purposesFrom 2 (operation.parts opcode) ++ operation.transfers opcode machine

end Operation

/-! ## Which bytes are fetched -/

namespace Purpose

/-- Among the accesses are fetches of exactly these bytes of the instruction. -/
def Cover (purposes : List Purpose) (offset bytes : Nat) : Prop :=
  ∀ i, (∃ purpose ∈ purposes, purpose.Fetches i) ↔ offset ≤ i ∧ i < offset + bytes

section Cover

variable {first second : List Purpose} {offset bytes more : Nat}

theorem cover_instruction (size : Size) (offset : Nat) :
    Cover [.instruction size offset] offset size.bytes := by
  intro i
  constructor
  · rintro ⟨purpose, hpurpose, hfetches⟩
    rw [List.mem_singleton.1 hpurpose] at hfetches
    exact hfetches
  · intro hplace
    exact ⟨_, List.mem_singleton_self _, hplace⟩

theorem cover_of_no_fetch (offset : Nat) {purposes : List Purpose}
    (h : ∀ purpose ∈ purposes, purpose.isFetch = false) : Cover purposes offset 0 := by
  intro i
  constructor
  · rintro ⟨purpose, hpurpose, hfetches⟩
    have hno := h purpose hpurpose
    cases purpose with
    | instruction => cases hno
    | _ => cases hfetches
  · omega

theorem exists_fetches_append (i : Nat) :
    (∃ purpose ∈ first ++ second, purpose.Fetches i) ↔
      (∃ purpose ∈ first, purpose.Fetches i) ∨ ∃ purpose ∈ second, purpose.Fetches i := by
  simp only [List.mem_append, or_and_right, exists_or]

theorem Cover.append (hfirst : Cover first offset bytes)
    (hsecond : Cover second (offset + bytes) more) :
    Cover (first ++ second) offset (bytes + more) := by
  intro i
  rw [exists_fetches_append, hfirst i, hsecond i]
  omega

/-- What is fetched a second time is fetched all the same. -/
theorem Cover.again (hfirst : Cover first offset bytes) (hsecond : Cover second offset bytes) :
    Cover (first ++ second) offset bytes := by
  intro i
  rw [exists_fetches_append, hfirst i, hsecond i, or_self]

theorem cover_nil (offset : Nat) : Cover [] offset 0 :=
  cover_of_no_fetch offset fun _ hmem ↦ absurd hmem List.not_mem_nil

end Cover

end Purpose

open Purpose

theorem Size.bytes_aligned (size : Size) : size.aligned.bytes = size.alignedBytes := by
  cases size <;> rfl

theorem Mode.cover_fetches (size : Size) (offset : Nat) (mode : Mode) :
    Cover (mode.fetches size offset) offset (mode.extensionBytes size) := by
  cases mode with
  | immediate =>
    rw [Mode.extensionBytes, ← size.bytes_aligned]
    exact cover_instruction size.aligned offset
  | absoluteLong => exact cover_instruction .long offset
  | displacement | indexed | absoluteShort | pcDisplacement | pcIndexed =>
    exact cover_instruction .word offset
  | _ => exact cover_nil offset

theorem Mode.cover_transfer (kind : AccessKind) (size : Size) (offset : Nat) (mode : Mode) :
    Cover (mode.transfer kind size) offset 0 := by
  refine cover_of_no_fetch offset fun purpose hpurpose ↦ ?_
  cases mode <;> simp only [transfer, List.mem_singleton, List.not_mem_nil] at hpurpose <;>
    exact hpurpose ▸ rfl

theorem OperandUse.cover_purposes (use : OperandUse) (size : Size) (mode : Mode) (offset : Nat) :
    Cover (use.purposes size mode offset) offset (mode.extensionBytes size) := by
  have hfetches := mode.cover_fetches size offset
  have hwith (kind : AccessKind) : Cover (mode.fetches size offset ++ mode.transfer kind size)
      offset (mode.extensionBytes size) :=
    hfetches.append (mode.cover_transfer kind size _)
  cases use with
  | read => exact hwith .read
  | write => exact hwith .write
  | modify => exact (hwith .read).again (hwith .write)
  | locate => exact hfetches

/-- The fetches for a part are those of its own bytes. -/
theorem Part.cover_purposes (part : Part) (offset : Nat) :
    Cover (part.purposes offset) offset part.bytes := by
  cases part with
  | immediate size =>
    rw [bytes, ← size.bytes_aligned]
    exact cover_instruction size.aligned offset
  | operand size field use =>
    rw [purposes, bytes]
    cases Mode.ofField? field with
    | some mode => exact use.cover_purposes size mode offset
    | none => exact cover_nil offset

theorem Part.cover_purposesFrom (parts : List Part) (offset : Nat) :
    Cover (purposesFrom offset parts) offset (length parts) := by
  induction parts generalizing offset with
  | nil => exact cover_nil offset
  | cons part rest ih => exact (part.cover_purposes offset).append (ih (offset + part.bytes))

namespace Operation

variable (operation : Operation) (opcode : Opcode) (machine : Machine)

/-- Transfers are not part of the instruction stream. -/
theorem isFetch_of_mem_transfers {purpose : Purpose}
    (hpurpose : purpose ∈ operation.transfers opcode machine) : purpose.isFetch = false := by
  unfold transfers at hpurpose
  split at hpurpose <;> grind [isFetch, exceptionEntry]

/-- The fetches of the opcode and of the parts are those of exactly the bytes of the instruction. -/
theorem cover_parts {transfers : List Purpose}
    (hno : ∀ purpose ∈ transfers, purpose.isFetch = false) :
    Cover (.instruction .word 0 :: (Part.purposesFrom 2 (operation.parts opcode) ++ transfers)) 0
      (operation.length opcode) := by
  have hparts := Part.cover_purposesFrom (operation.parts opcode) 2
  exact (cover_instruction .word 0).append (hparts.append (cover_of_no_fetch _ hno))

end Operation

end M68000
