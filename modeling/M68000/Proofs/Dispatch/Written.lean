import M68000.Proofs.Dispatch.Legal
import M68000.Proofs.Exec.Location

/-!
# Operands that are changed

Only a few operations change an address register as their operand. All others that change their
operand are installed at opcodes that name a data register or memory there. So is MOVE with the
field of its destination.
-/

namespace M68000

/-- The operation changes its operand, and that is no address register. -/
def Operation.changesData : Operation → Bool
  | setConditionally | testAndSet | fromRegister .. | withImmediate .. | quick _ .byte
  | negateDecimal | unary .. | bit .change _ | bit .clear _ | bit .set _ | shiftMemory ..
  | moveFromStatus => true
  | _ => false

/-- The bits of an opcode that hold the mode number of its operand. -/
def Opcode.modeMask : Opcode := 0x0038

/-- The operation changes data, or tests a bit of it. -/
def Operation.hasData : Operation → Bool
  | bit .. => true
  | operation => operation.changesData

theorem Operation.hasData_of_changesData {operation : Operation}
    (h : operation.changesData = true) : operation.hasData = true := by
  cases operation with
  | bit => rfl
  | _ => exact h

/-- Each pattern of such an operation fixes the mode number, and not as that of the address
registers. -/
theorem InstructionSet.base_ne_addressRegister :
    ∀ entry ∈ entries, entry.2.hasData = true →
      entry.1.mask &&& Opcode.modeMask = 0 ∧ entry.1.base &&& Opcode.modeMask ≠ 0x0008 := by
  decide +kernel

/-- An opcode has the bits that a pattern fixes. -/
theorem Pattern.and_eq_of_covers {pattern : Pattern} {opcode bits : Opcode}
    (hfixed : pattern.mask &&& bits = 0) (hcovers : pattern.covers opcode = true) :
    opcode &&& bits = pattern.base &&& bits := by
  apply BitVec.eq_of_getLsbD_eq
  intro i hi
  have hbit : (pattern.mask.getLsbD i && bits.getLsbD i) = false := by
    rw [← BitVec.getLsbD_and, hfixed]
    exact BitVec.getLsbD_zero
  rw [BitVec.getLsbD_and, BitVec.getLsbD_and]
  cases hmask : pattern.mask.getLsbD i with
  | false => rw [covers_iff.1 hcovers i hmask]
  | true =>
    rw [hmask, Bool.true_and] at hbit
    rw [hbit, Bool.and_false, Bool.and_false]

/-- The address registers have mode number one. -/
theorem Mode.and_modeMask_of_addressRegister {opcode : Opcode} {number : Fin 8}
    (hmode : ofField? opcode.operandField = some (addressRegister number)) :
    opcode &&& Opcode.modeMask = 0x0008 := by
  have hfields : ∀ field : BitVec 6, ∀ number, ofField? field = some (addressRegister number) →
      field &&& 0x38#6 = 0x08#6 := by
    decide +kernel
  have hbits : ∀ i < 16, Opcode.modeMask.getLsbD i = (decide (i < 6) && (0x38#6).getLsbD i) := by
    decide
  have hmask : opcode &&& Opcode.modeMask = (opcode.operandField &&& 0x38#6).setWidth 16 := by
    apply BitVec.eq_of_getLsbD_eq
    intro i hi
    rw [BitVec.getLsbD_and, hbits i hi, BitVec.getLsbD_setWidth, BitVec.getLsbD_and,
      Opcode.operandField, BitVec.getLsbD_extractLsb', Nat.zero_add, decide_eq_true hi]
    cases decide (i < 6) <;> simp
  rw [hmask, hfields _ _ hmode]
  rfl

/-- The named modes may hold the address registers. It is the pattern that leaves them out. -/
theorem Operation.operandField_ne_addressRegister {operation : Operation} {opcode : Opcode}
    (hlookup : instructionSet.lookup opcode = some operation) (hdata : operation.hasData = true)
    (number : Fin 8) : Mode.ofField? opcode.operandField ≠ some (.addressRegister number) := by
  intro hmode
  obtain ⟨pattern, hentry, hcovers⟩ := InstructionSet.exists_mem_entries hlookup
  obtain ⟨hfixed, hne⟩ := InstructionSet.base_ne_addressRegister _ hentry hdata
  apply hne
  rw [← Pattern.and_eq_of_covers hfixed hcovers]
  exact Mode.and_modeMask_of_addressRegister hmode

/-- An operation that changes its operand names one that it can change. -/
theorem Operation.exists_isDataAlterable {operation : Operation} {opcode : Opcode}
    (hlookup : instructionSet.lookup opcode = some operation)
    (hchanges : operation.changesData = true) :
    ∃ mode, Mode.ofField? opcode.operandField = some mode ∧ mode.isDataAlterable = true := by
  have hnames : ModeSet.alterable.Names opcode.operandField := by
    apply (legal_of_lookup hlookup).operand
    cases operation with
    | bit operation inRegister => cases operation <;> first | rfl | cases hchanges
    | _ => first | rfl | cases hchanges
  obtain ⟨mode, hmode, halterable⟩ := hnames
  refine ⟨mode, hmode, ?_⟩
  rw [ModeSet.contains_alterable] at halterable
  cases mode with
  | addressRegister number =>
    have hdata := hasData_of_changesData hchanges
    exact absurd hmode (operandField_ne_addressRegister hlookup hdata number)
  | _ => exact halterable

/-- Each pattern of MOVE fixes the mode number of the destination, and not as that of the address
registers. -/
theorem InstructionSet.base_ne_addressDestination :
    ∀ entry ∈ entries,
      entry.2 = .move .byte ∨ entry.2 = .move .word ∨ entry.2 = .move .long →
        entry.1.mask &&& 0x01C0 = 0 ∧ entry.1.base &&& 0x01C0 ≠ 0x0040 := by
  decide +kernel

theorem Operation.destinationField_ne_addressRegister {size : Size} {opcode : Opcode}
    (hlookup : instructionSet.lookup opcode = some (.move size)) (number : Fin 8) :
    Mode.ofField? opcode.destinationField ≠ some (.addressRegister number) := by
  intro hmode
  have hfields : ∀ field : BitVec 6, ∀ number,
      Mode.ofField? field = some (.addressRegister number) → ∀ i < 6, 3 ≤ i →
        field.getLsbD i = (0x08#6).getLsbD i := by
    decide +kernel
  have hbits (i : Nat) (hi : i < 6) (hmodeBit : 3 ≤ i) :
      opcode.getLsbD (FieldPlace.destination i) = (0x08#6).getLsbD i := by
    rw [← opcode.getLsbD_destinationField hi]
    exact hfields _ number hmode i hi hmodeBit
  obtain ⟨pattern, hentry, hcovers⟩ := InstructionSet.exists_mem_entries hlookup
  obtain ⟨hfixed, hne⟩ :=
    InstructionSet.base_ne_addressDestination _ hentry (by cases size <;> simp)
  apply hne
  rw [← Pattern.and_eq_of_covers hfixed hcovers]
  have hother : ∀ i < 16, i ≠ 6 → i ≠ 7 → i ≠ 8 →
      (0x01C0 : Opcode).getLsbD i = false ∧ (0x0040 : Opcode).getLsbD i = false := by
    decide
  apply BitVec.eq_of_getLsbD_eq
  intro i hi
  rw [BitVec.getLsbD_and]
  obtain rfl | rfl | rfl | ⟨h6, h7, h8⟩ : i = 6 ∨ i = 7 ∨ i = 8 ∨ i ≠ 6 ∧ i ≠ 7 ∧ i ≠ 8 := by
    omega
  · exact congrArg (· && true) (hbits 3 (by decide) (by decide))
  · exact congrArg (· && true) (hbits 4 (by decide) (by decide))
  · exact congrArg (· && true) (hbits 5 (by decide) (by decide))
  · obtain ⟨hmask, hvalue⟩ := hother i hi h6 h7 h8
    rw [hmask, hvalue, Bool.and_false]

end M68000
