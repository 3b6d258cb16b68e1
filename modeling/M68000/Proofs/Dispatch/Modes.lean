import M68000.ModeSet
import M68000.Proofs.Dispatch.Lookup

/-!
# Operand fields

The patterns that are made from a set of modes cover opcodes whose operand field names a mode of
the set. The field lies in the six lowest bits or, for the destination of MOVE, in the six bits
above these, and a pattern for an instruction is one for its operand field together with bits
outside of it.
-/

namespace M68000

/-! ## What modes are good for -/

namespace Mode

/-- The operand has an address. -/
def hasAddress : Mode → Bool
  | dataRegister _ | addressRegister _ | immediate => false
  | _ => true

/-- The operand can be written. -/
def isAlterable : Mode → Bool
  | pcDisplacement | pcIndexed | immediate => false
  | _ => true

end Mode

namespace ModeSet

/-- The operand has an address. -/
def addressed : ModeSet := memory \ immediate

theorem contains_addressed (mode : Mode) : addressed.contains mode = mode.hasAddress := by
  cases mode <;> simp only [contains, single, Mode.hasAddress] <;> decide

theorem contains_alterable (mode : Mode) : alterable.contains mode = mode.isAlterable := by
  cases mode <;> simp only [contains, single, Mode.isAlterable] <;> decide

theorem inter_all (set : ModeSet) : set ∩ all = set := by
  change mk (set.bits &&& BitVec.allOnes 12) = set
  rw [BitVec.and_allOnes]

theorem contains_of_inter_eq {set larger : ModeSet} (hsubset : set ∩ larger = set) {mode : Mode}
    (hmode : set.contains mode = true) : larger.contains mode = true := by
  have hbits : set.bits &&& larger.bits = set.bits := congrArg bits hsubset
  unfold contains at hmode ⊢
  rw [bne_iff_ne] at hmode ⊢
  intro hzero
  apply hmode
  rw [← hbits, BitVec.and_assoc, hzero]
  exact BitVec.and_zero

/-- The six bits name a mode of the set. -/
def Names (set : ModeSet) (field : BitVec 6) : Prop :=
  ∃ mode, Mode.ofField? field = some mode ∧ set.contains mode = true

theorem Names.mono {set larger : ModeSet} {field : BitVec 6} (h : set.Names field)
    (hsubset : set ∩ larger = set) : larger.Names field := by
  obtain ⟨mode, hfield, hmode⟩ := h
  exact ⟨mode, hfield, contains_of_inter_eq hsubset hmode⟩

end ModeSet

/-! ## Bits of opcodes -/

/-- Where an opcode has the bits of an operand field. -/
abbrev FieldPlace := Nat → Nat

namespace FieldPlace

/-- The field in the lowest bits. -/
def operand : FieldPlace := id

/-- The field of a destination has its register number above its mode number. -/
def destination : FieldPlace := fun i ↦ if i < 3 then 9 + i else 3 + i

/-- The word has no bit where the field is. -/
def Free (place : FieldPlace) (word : Opcode) : Prop :=
  ∀ i < 6, word.getLsbD (place i) = false

instance (place : FieldPlace) (word : Opcode) : Decidable (place.Free word) :=
  inferInstanceAs (Decidable (∀ i < 6, _))

theorem Free.or {place : FieldPlace} {first second : Opcode} (hfirst : place.Free first)
    (hsecond : place.Free second) : place.Free (first ||| second) := by
  intro i hi
  rw [BitVec.getLsbD_or, hfirst i hi, hsecond i hi]
  rfl

/-- The field has the fixed bits that the pattern has there. -/
def Covers (place : FieldPlace) (pattern : Pattern) (field : BitVec 6) : Prop :=
  ∀ i < 6, pattern.mask.getLsbD (place i) = false →
    field.getLsbD i = pattern.base.getLsbD (place i)

instance (place : FieldPlace) (pattern : Pattern) (field : BitVec 6) :
    Decidable (place.Covers pattern field) :=
  inferInstanceAs (Decidable (∀ i < 6, _ → _))

end FieldPlace

theorem Opcode.getLsbD_operandField (opcode : Opcode) {i : Nat} (hi : i < 6) :
    opcode.operandField.getLsbD i = opcode.getLsbD (FieldPlace.operand i) := by
  rw [operandField, BitVec.getLsbD_extractLsb', Nat.zero_add]
  simp only [hi, decide_true, Bool.true_and]
  rfl

theorem Opcode.getLsbD_destinationField (opcode : Opcode) {i : Nat} (hi : i < 6) :
    opcode.destinationField.getLsbD i = opcode.getLsbD (FieldPlace.destination i) := by
  rw [destinationField, BitVec.getLsbD_append, FieldPlace.destination]
  by_cases hlow : i < 3
  · simp [hlow]
  · have hplace : 6 + (i - 3) = 3 + i := by omega
    have hwidth : i - 3 < 3 := by omega
    simp [hlow, hplace, hwidth]

/-- A pattern covers the opcodes with the bits that it fixes. -/
theorem Pattern.covers_iff {pattern : Pattern} {opcode : Opcode} :
    pattern.covers opcode = true ↔
      ∀ i, pattern.mask.getLsbD i = false → opcode.getLsbD i = pattern.base.getLsbD i := by
  rw [covers, beq_iff_eq]
  constructor
  · intro heq i hfixed
    have hbit := congrArg (BitVec.getLsbD · i) heq
    simp only [BitVec.getLsbD_and, BitVec.getLsbD_not, hfixed] at hbit
    by_cases hi : i < 16
    · simpa [hi] using hbit
    · have hge := Nat.le_of_not_lt hi
      rw [BitVec.getLsbD_of_ge _ _ hge, BitVec.getLsbD_of_ge _ _ hge]
  · intro h
    apply BitVec.eq_of_getLsbD_eq
    intro i hi
    rw [BitVec.getLsbD_and, BitVec.getLsbD_and, BitVec.getLsbD_not]
    cases hmask : pattern.mask.getLsbD i with
    | false => rw [h i hmask]
    | true => simp

/-- An opcode has the bits of its operand field that a part of a pattern asks for, if the rest of
the pattern leaves the field alone. -/
theorem FieldPlace.covers_of_covers {place : FieldPlace} {base mask : Opcode} {pattern : Pattern}
    {opcode : Opcode} {field : BitVec 6} (hbase : place.Free base) (hmask : place.Free mask)
    (hfield : ∀ i < 6, field.getLsbD i = opcode.getLsbD (place i))
    (hcovers : Pattern.covers ⟨base ||| pattern.base, mask ||| pattern.mask⟩ opcode = true) :
    place.Covers pattern field := by
  intro i hi hfree
  have hmask : (mask ||| pattern.mask).getLsbD (place i) = false := by
    rw [BitVec.getLsbD_or, hmask i hi, hfree]
    rfl
  rw [hfield i hi, Pattern.covers_iff.1 hcovers _ hmask, BitVec.getLsbD_or, hbase i hi,
    Bool.false_or]

/-! ## Patterns of modes -/

namespace ModeSet

theorem map_single_of_covers :
    ∀ entry ∈ fieldPatterns, ∀ field, FieldPlace.operand.Covers entry.2 field →
      (Mode.ofField? field).map single = some entry.1 := by
  decide +kernel

theorem map_single_of_covers_destination :
    ∀ entry ∈ fieldPatterns, ∀ field,
      FieldPlace.destination.Covers (destinationPattern entry.2) field →
        (Mode.ofField? field).map single = some entry.1 := by
  decide +kernel

/-- A pattern of one operand field leaves the other alone. -/
structure OwnField (pattern : Pattern) : Prop where
  base : FieldPlace.destination.Free pattern.base
  mask : FieldPlace.destination.Free pattern.mask
  destinationBase : FieldPlace.operand.Free (destinationPattern pattern).base
  destinationMask : FieldPlace.operand.Free (destinationPattern pattern).mask

variable {set : ModeSet} {pattern : Pattern} {opcode base mask : Opcode}

theorem ownField_of_mem_patterns (hpattern : pattern ∈ set.patterns) : OwnField pattern := by
  have hall : ∀ entry ∈ fieldPatterns,
      FieldPlace.destination.Free entry.2.base ∧ FieldPlace.destination.Free entry.2.mask ∧
        FieldPlace.operand.Free (destinationPattern entry.2).base ∧
        FieldPlace.operand.Free (destinationPattern entry.2).mask := by
    decide
  obtain ⟨entry, hentry, rfl⟩ := List.mem_map.1 hpattern
  obtain ⟨hbase, hmask, hbase', hmask'⟩ := hall entry (List.mem_filter.1 hentry).1
  exact ⟨hbase, hmask, hbase', hmask'⟩

/-- A pattern of a set is one of those that every mode has. -/
theorem exists_of_mem_patterns (hpattern : pattern ∈ set.patterns) :
    ∃ entry ∈ fieldPatterns, entry.2 = pattern ∧
      ∀ field, (Mode.ofField? field).map single = some entry.1 → set.Names field := by
  obtain ⟨entry, hentry, rfl⟩ := List.mem_map.1 hpattern
  obtain ⟨hmem, hinter⟩ := List.mem_filter.1 hentry
  refine ⟨entry, hmem, rfl, fun field hfield ↦ ?_⟩
  obtain ⟨mode, hmode, hsingle⟩ := Option.map_eq_some_iff.1 hfield
  refine ⟨mode, hmode, ?_⟩
  rw [← hsingle, bne_iff_ne] at hinter
  rw [contains, bne_iff_ne]
  intro hzero
  exact hinter (congrArg mk hzero)

theorem names_operandField (hpattern : pattern ∈ set.patterns)
    (hbase : FieldPlace.operand.Free base) (hmask : FieldPlace.operand.Free mask)
    (hcovers : Pattern.covers ⟨base ||| pattern.base, mask ||| pattern.mask⟩ opcode = true) :
    set.Names opcode.operandField := by
  obtain ⟨entry, hentry, rfl, hnames⟩ := exists_of_mem_patterns hpattern
  apply hnames
  apply map_single_of_covers entry hentry
  exact FieldPlace.covers_of_covers hbase hmask (fun i ↦ opcode.getLsbD_operandField) hcovers

theorem names_destinationField (hpattern : pattern ∈ set.patterns)
    (hbase : FieldPlace.destination.Free base) (hmask : FieldPlace.destination.Free mask)
    (hcovers : Pattern.covers ⟨base ||| (destinationPattern pattern).base,
      mask ||| (destinationPattern pattern).mask⟩ opcode = true) :
    set.Names opcode.destinationField := by
  obtain ⟨entry, hentry, rfl, hnames⟩ := exists_of_mem_patterns hpattern
  apply hnames
  apply map_single_of_covers_destination entry hentry
  exact FieldPlace.covers_of_covers hbase hmask (fun i ↦ opcode.getLsbD_destinationField) hcovers

end ModeSet

end M68000
