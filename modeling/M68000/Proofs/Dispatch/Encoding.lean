import M68000.Proofs.Dispatch.Modes

/-!
# Opcodes of instructions with an operand

An instruction with an operand is found at every opcode that has its fixed bits and names one of its
modes, if the patterns of all other instructions are apart from it.
-/

namespace M68000

namespace Pattern

/-- Some bit that both patterns fix is not the same in them. -/
def Apart (pattern other : Pattern) : Prop :=
  (pattern.base ^^^ other.base) &&& ~~~pattern.mask &&& ~~~other.mask ≠ 0

instance (pattern other : Pattern) : Decidable (pattern.Apart other) :=
  inferInstanceAs (Decidable (_ ≠ _))

/-- Patterns that are apart share no opcode. -/
theorem Apart.covers_eq_false {pattern other : Pattern} (hapart : pattern.Apart other)
    {opcode : Opcode} (hother : other.covers opcode = true) : pattern.covers opcode = false := by
  refine Bool.eq_false_iff.2 fun hcovers ↦ hapart ?_
  apply BitVec.eq_of_getLsbD_eq
  intro i hi
  simp only [BitVec.getLsbD_and, BitVec.getLsbD_xor, BitVec.getLsbD_not]
  cases hmask : pattern.mask.getLsbD i with
  | true => simp
  | false =>
    cases hmask' : other.mask.getLsbD i with
    | true => simp
    | false => simp [← covers_iff.1 hcovers i hmask, ← covers_iff.1 hother i hmask']

end Pattern

namespace ModeSet

theorem covers_of_ofField? :
    ∀ field, ∀ mode ∈ Mode.ofField? field,
      ∃ entry ∈ fieldPatterns, entry.1 = single mode ∧ FieldPlace.operand.Covers entry.2 field := by
  decide +kernel

/-- A field that names a mode of the set is covered by a pattern of the set. -/
theorem Names.exists_covers {set : ModeSet} {field : BitVec 6} (h : set.Names field) :
    ∃ pattern ∈ set.patterns, FieldPlace.operand.Covers pattern field := by
  obtain ⟨mode, hmode, hcontains⟩ := h
  obtain ⟨entry, hentry, hsingle, hcovers⟩ := covers_of_ofField? field mode hmode
  refine ⟨entry.2, List.mem_map.2 ⟨entry, List.mem_filter.2 ⟨hentry, ?_⟩, rfl⟩, hcovers⟩
  rw [contains, bne_iff_ne] at hcontains
  rw [hsingle, bne_iff_ne]
  exact fun hempty ↦ hcontains (congrArg bits hempty)

/-- The patterns of operand fields have no bit above the field. -/
theorem getLsbD_base_of_mem_patterns {set : ModeSet} {pattern : Pattern}
    (hpattern : pattern ∈ set.patterns) {i : Nat} (hi : 6 ≤ i) :
    pattern.base.getLsbD i = false := by
  have hall : ∀ entry ∈ fieldPatterns, (entry.2.base.setWidth 6).setWidth 16 = entry.2.base := by
    decide
  obtain ⟨entry, hentry, rfl⟩ := List.mem_map.1 hpattern
  rw [← hall entry (List.mem_filter.1 hentry).1, BitVec.getLsbD_setWidth,
    BitVec.getLsbD_of_ge _ _ hi, Bool.and_false]

end ModeSet

namespace InstructionSet

variable {base mask opcode : Opcode} {modes : ModeSet} {operation : Operation}

/-- The bits of an opcode that hold its operand field. -/
def operandMask : Opcode :=
  (BitVec.allOnes 6).setWidth 16

/-- The opcodes with the fixed bits of an instruction, whatever is in the operand field. -/
def family (base mask : Opcode) : Pattern :=
  ⟨base, mask ||| operandMask⟩

/-- An opcode with the fixed bits of an instruction and one of its modes is one of its opcodes. -/
theorem exists_covers_withOperand (operation : Operation) (hbase : FieldPlace.operand.Free base)
    (hfamily : (family base mask).covers opcode = true)
    (hmodes : modes.Names opcode.operandField) :
    ∃ entry ∈ withOperand base mask modes operation, entry.1.covers opcode = true := by
  obtain ⟨pattern, hpattern, hfield⟩ := hmodes.exists_covers
  refine ⟨_, List.mem_map_of_mem hpattern, Pattern.covers_iff.2 fun i hfree ↦ ?_⟩
  rw [BitVec.getLsbD_or, Bool.or_eq_false_iff] at hfree
  rw [BitVec.getLsbD_or]
  -- The field decides the lowest six bits, and the rest of the instruction those above them.
  by_cases hlow : i < 6
  · have hbit := hfield i hlow hfree.2
    rw [opcode.getLsbD_operandField hlow] at hbit
    have hbase : base.getLsbD i = false := hbase i hlow
    rw [hbase, Bool.false_or]
    exact hbit
  · have hhigh := Nat.le_of_not_lt hlow
    have hfixed : (mask ||| operandMask).getLsbD i = false := by
      rw [BitVec.getLsbD_or, hfree.1, operandMask, BitVec.getLsbD_setWidth,
        BitVec.getLsbD_of_ge _ _ hhigh, Bool.and_false]
      rfl
    rw [ModeSet.getLsbD_base_of_mem_patterns hpattern hhigh, Bool.or_false]
    exact Pattern.covers_iff.1 hfamily i hfixed

/-- What is installed at an opcode is found there, if all that the opcode matches is the same. -/
theorem lookup_of_covers (h : ∃ entry ∈ entries, entry.1.covers opcode = true)
    (hunique : ∀ entry ∈ entries, entry.1.covers opcode = true → entry.2 = operation) :
    instructionSet.lookup opcode = some operation := by
  rw [lookup_instructionSet, List.findRev?_eq_find?_reverse]
  cases hfind : entries.reverse.find? (·.1.covers opcode) with
  | none =>
    obtain ⟨entry, hentry, hcovers⟩ := h
    have hnone := List.find?_eq_none.1 hfind entry (List.mem_reverse.2 hentry)
    exact absurd hcovers hnone
  | some entry =>
    have hentry := List.mem_reverse.1 (List.mem_of_find?_eq_some hfind)
    have hcovers := List.find?_some hfind
    exact congrArg some (hunique entry hentry hcovers)

/-- An opcode of the family that names one of the modes stands for the instruction. -/
theorem lookup_of_names (hbase : FieldPlace.operand.Free base)
    (hentries : withOperand base mask modes operation ⊆ entries)
    (hapart : ∀ entry ∈ entries, entry.2 ≠ operation → entry.1.Apart (family base mask))
    (hfamily : (family base mask).covers opcode = true)
    (hmodes : modes.Names opcode.operandField) :
    instructionSet.lookup opcode = some operation := by
  obtain ⟨entry, hentry, hcovers⟩ := exists_covers_withOperand operation hbase hfamily hmodes
  refine lookup_of_covers ⟨entry, hentries hentry, hcovers⟩ fun other hother hcovers' ↦ ?_
  by_cases heq : other.2 = operation
  · exact heq
  · rw [(hapart other hother heq).covers_eq_false hfamily] at hcovers'
    cases hcovers'

end InstructionSet

end M68000
