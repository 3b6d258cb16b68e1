import M68000.Proofs.Dispatch.Modes

/-!
# Legal opcodes

An operation can deal with some modes of its operand only, and it is installed at opcodes that name
one of these. So every opcode that the instruction set has is legal for its operation.
-/

namespace M68000

namespace Operation

/-- The modes of the operand field that the operation can deal with, if it has one: any if it only
reads the operand, those that can be written, or those with an address. -/
def operandModes? : Operation → Option ModeSet
  | move _ | moveAddress _ | toRegister .. | withAddress .. | multiply _ | divide _ | checkBounds
  | moveToCcr | moveToStatus | bit .test _ => some .all
  | setConditionally | testAndSet | fromRegister .. | withImmediate .. | quick .. | negateDecimal
  | unary .. | bit .. | shiftMemory .. | moveFromStatus => some .alterable
  | storeMultiple _ | loadMultiple _ | loadAddress | pushAddress | jump | jumpToSubroutine =>
    some .addressed
  | _ => none

/-- The destination of MOVE, which has a field of its own, is written. -/
def destinationModes? : Operation → Option ModeSet
  | move _ => some .alterable
  | _ => none

/-- The opcode names modes that the operation can deal with. -/
structure Legal (operation : Operation) (opcode : Opcode) : Prop where
  operand : ∀ modes ∈ operation.operandModes?, modes.Names opcode.operandField
  destination : ∀ modes ∈ operation.destinationModes?, modes.Names opcode.destinationField

end Operation

namespace InstructionSet

/-! ## Entries -/

/-- The entries install operations at legal opcodes only. -/
def Lawful (entries : Entries) : Prop :=
  ∀ entry ∈ entries, ∀ opcode, entry.1.covers opcode = true → entry.2.Legal opcode

section Lawful

variable {base mask : Opcode} {modes : ModeSet} {operation : Operation}

theorem Lawful.append {first second : Entries} (hfirst : Lawful first) (hsecond : Lawful second) :
    Lawful (first ++ second) := by
  intro entry hentry
  obtain hentry | hentry := List.mem_append.1 hentry
  · exact hfirst entry hentry
  · exact hsecond entry hentry

theorem lawful_flatMap {α : Type} {items : List α} {entries : α → Entries}
    (h : ∀ item ∈ items, Lawful (entries item)) : Lawful (items.flatMap entries) := by
  intro entry hentry
  obtain ⟨item, hitem, hentry⟩ := List.mem_flatMap.1 hentry
  exact h item hitem entry hentry

theorem lawful_plain (hoperand : operation.operandModes? = none)
    (hdestination : operation.destinationModes? = none) : Lawful (plain base mask operation) := by
  intro entry hentry opcode _
  rw [List.mem_singleton.1 hentry]
  constructor
  case operand =>
    intro modes hmodes
    rw [hoperand] at hmodes
    cases hmodes
  case destination =>
    intro modes hmodes
    rw [hdestination] at hmodes
    cases hmodes

theorem lawful_withOperand {legal : ModeSet} (hbase : FieldPlace.operand.Free base)
    (hmask : FieldPlace.operand.Free mask) (hmodes : modes ∩ legal = modes)
    (hoperand : operation.operandModes? = some legal)
    (hdestination : operation.destinationModes? = none) :
    Lawful (withOperand base mask modes operation) := by
  intro entry hentry opcode hcovers
  obtain ⟨field, hfield, rfl⟩ := List.mem_map.1 hentry
  constructor
  case operand =>
    intro modes hlegal
    rw [hoperand] at hlegal
    cases hlegal
    exact (ModeSet.names_operandField hfield hbase hmask hcovers).mono hmodes
  case destination =>
    intro modes hmodes
    rw [hdestination] at hmodes
    cases hmodes

end Lawful

/-! ## Families of entries -/

section Families

variable {base : Opcode} (hbase : FieldPlace.operand.Free base)

theorem free_sizeField (size : Size) : FieldPlace.operand.Free (sizeField size) := by
  cases size <;> decide

theorem free_highMask : FieldPlace.operand.Free highMask := by
  decide

/-- Both operand fields of MOVE are made from patterns, and neither pattern has bits in the field
of the other. -/
theorem lawful_move (size : Size) {destination : Pattern}
    (hdestination : destination ∈ ModeSet.dataAlterable.destinationPatterns) :
    Lawful (withOperand (moveBase size ||| destination.base) destination.mask (sized .all size)
      (.move size)) := by
  obtain ⟨target, htarget, rfl⟩ := List.mem_map.1 hdestination
  have htargetFree := ModeSet.ownField_of_mem_patterns htarget
  have hmoveFree : FieldPlace.operand.Free (moveBase size) ∧
      FieldPlace.destination.Free (moveBase size) := by
    cases size <;> decide
  intro entry hentry opcode hcovers
  obtain ⟨source, hsource, rfl⟩ := List.mem_map.1 hentry
  have hsourceFree := ModeSet.ownField_of_mem_patterns hsource
  constructor
  case operand =>
    intro modes hmodes
    cases hmodes
    have hnames : (sized .all size).Names opcode.operandField :=
      ModeSet.names_operandField hsource (hmoveFree.1.or htargetFree.destinationBase)
        htargetFree.destinationMask hcovers
    exact hnames.mono (ModeSet.inter_all _)
  case destination =>
    intro modes hmodes
    cases hmodes
    -- For the destination field, the source belongs to the rest of the pattern.
    rw [BitVec.or_assoc, BitVec.or_comm _ source.base, ← BitVec.or_assoc,
      BitVec.or_comm _ source.mask] at hcovers
    have hnames : ModeSet.dataAlterable.Names opcode.destinationField :=
      ModeSet.names_destinationField htarget (hmoveFree.2.or hsourceFree.base) hsourceFree.mask
        hcovers
    exact hnames.mono rfl

include hbase

theorem lawful_toRegister (operation : Binary) (modes : ModeSet) :
    Lawful (toRegister base operation modes) :=
  lawful_flatMap fun size _ ↦
    lawful_withOperand (hbase.or (free_sizeField size)) free_highMask (ModeSet.inter_all _) rfl rfl

theorem lawful_fromRegister (operation : Binary) {modes : ModeSet}
    (hmodes : modes ∩ .alterable = modes) : Lawful (fromRegister base operation modes) := by
  have hform : FieldPlace.operand.Free (0x0100 : Opcode) := by
    decide
  exact lawful_flatMap fun size _ ↦
    lawful_withOperand ((hbase.or hform).or (free_sizeField size)) free_highMask hmodes rfl rfl

theorem lawful_withImmediate (operation : Binary) : Lawful (withImmediate base operation) :=
  lawful_flatMap fun size _ ↦
    lawful_withOperand (hbase.or (free_sizeField size)) (by decide) rfl rfl rfl

theorem lawful_quick (operation : Binary) : Lawful (quick base operation) := by
  refine lawful_flatMap fun size _ ↦ ?_
  have hmodes : sized .alterable size ∩ .alterable = sized .alterable size := by
    cases size <;> rfl
  exact lawful_withOperand (hbase.or (free_sizeField size)) free_highMask hmodes rfl rfl

theorem lawful_withAddress (operation : AddressOperation) :
    Lawful (withAddress base operation) := by
  have hform : FieldPlace.operand.Free (0x0100 : Opcode) := by
    decide
  refine Lawful.append ?_ ?_
  · exact lawful_withOperand hbase free_highMask rfl rfl rfl
  · exact lawful_withOperand (hbase.or hform) free_highMask rfl rfl rfl

theorem lawful_unary (operation : Unary) : Lawful (unary base operation) :=
  lawful_flatMap fun size _ ↦
    lawful_withOperand (hbase.or (free_sizeField size)) (by decide) rfl rfl rfl

omit hbase

theorem lawful_chainedBinary (operation : ChainedOperation) :
    Lawful (chainedBinary base operation) :=
  lawful_flatMap fun _ _ ↦ (lawful_plain rfl rfl).append (lawful_plain rfl rfl)

theorem lawful_chainedDecimal (operation : ChainedOperation) :
    Lawful (chainedDecimal base operation) :=
  (lawful_plain rfl rfl).append (lawful_plain rfl rfl)

theorem lawful_logical (operation : LogicalOperation) : Lawful (logical base operation) :=
  (lawful_plain rfl rfl).append (lawful_plain rfl rfl)

end Families

/-! ## All entries -/

theorem lawful_moves : Lawful moves := by
  refine Lawful.append (Lawful.append ?moves ?addresses) ?quick
  case moves =>
    exact lawful_flatMap fun size _ ↦ lawful_flatMap fun _ hdestination ↦
      lawful_move size hdestination
  case addresses =>
    refine lawful_flatMap fun size _ ↦ ?_
    have hbase : FieldPlace.operand.Free (moveBase size ||| 0x0040) := by
      cases size <;> decide
    exact lawful_withOperand hbase free_highMask rfl rfl rfl
  case quick => exact lawful_plain rfl rfl

theorem lawful_multipleMoves : Lawful multipleMoves := by
  unfold multipleMoves
  iterate 3 refine Lawful.append ?_ ?_
  all_goals exact lawful_withOperand (by decide) (by decide) rfl rfl rfl

theorem lawful_registerMoves : Lawful registerMoves := by
  unfold registerMoves
  iterate 11 refine Lawful.append ?_ ?_
  all_goals first
    | exact lawful_plain rfl rfl
    | exact lawful_withOperand (by decide) (by decide) rfl rfl rfl

theorem lawful_binary : Lawful binary := by
  unfold binary
  iterate 9 refine Lawful.append ?_ ?_
  all_goals first
    | exact lawful_toRegister (by decide) _ _
    | exact lawful_fromRegister (by decide) _ rfl

theorem lawful_immediates : Lawful immediates := by
  unfold immediates
  iterate 7 refine Lawful.append ?_ ?_
  all_goals first
    | exact lawful_withImmediate (by decide) _
    | exact lawful_quick (by decide) _

theorem lawful_addresses : Lawful addresses := by
  unfold addresses
  iterate 3 refine Lawful.append ?_ ?_
  all_goals first
    | exact lawful_withAddress (by decide) _
    | exact lawful_flatMap fun _ _ ↦ lawful_plain rfl rfl

theorem lawful_chained : Lawful chained := by
  unfold chained
  iterate 4 refine Lawful.append ?_ ?_
  · exact lawful_chainedBinary .add
  · exact lawful_chainedBinary .sub
  · exact lawful_chainedDecimal .add
  · exact lawful_chainedDecimal .sub
  · exact lawful_withOperand (by decide) (by decide) rfl rfl rfl

theorem lawful_unaries : Lawful unaries := by
  unfold unaries
  iterate 4 refine Lawful.append ?_ ?_
  all_goals exact lawful_unary (by decide) _

theorem lawful_products : Lawful products := by
  unfold products
  iterate 4 refine Lawful.append ?_ ?_
  all_goals exact lawful_withOperand (by decide) (by decide) rfl rfl rfl

theorem lawful_bits : Lawful bits := by
  refine lawful_flatMap fun operation _ ↦ ?_
  cases operation
  all_goals
    exact (lawful_withOperand (by decide) (by decide) rfl rfl rfl).append
      (lawful_withOperand (by decide) (by decide) rfl rfl rfl)

theorem lawful_shifts : Lawful shifts := by
  refine lawful_flatMap fun kind _ ↦ lawful_flatMap fun direction _ ↦ ?_
  refine Lawful.append ?registers ?memory
  case registers =>
    exact lawful_flatMap fun size _ ↦ lawful_flatMap fun count _ ↦ lawful_plain rfl rfl
  case memory =>
    have hbase : FieldPlace.operand.Free
        (0xE0C0 ||| shiftField kind <<< 9 ||| directionField direction) := by
      cases kind <;> cases direction <;> decide
    exact lawful_withOperand hbase (by decide) rfl rfl rfl

theorem lawful_branches : Lawful branches := by
  unfold branches
  iterate 3 refine Lawful.append ?_ ?_
  all_goals first
    | exact lawful_plain rfl rfl
    | exact lawful_flatMap fun _ _ ↦ lawful_plain rfl rfl

theorem lawful_calls : Lawful calls := by
  unfold calls
  iterate 4 refine Lawful.append ?_ ?_
  all_goals first
    | exact lawful_plain rfl rfl
    | exact lawful_withOperand (by decide) (by decide) rfl rfl rfl

theorem lawful_traps : Lawful traps :=
  ((lawful_plain rfl rfl).append (lawful_plain rfl rfl)).append (lawful_plain rfl rfl)

theorem lawful_status : Lawful status := by
  unfold status
  iterate 8 refine Lawful.append ?_ ?_
  all_goals first
    | exact lawful_logical _
    | exact lawful_plain rfl rfl
    | exact lawful_withOperand (by decide) (by decide) rfl rfl rfl

theorem lawful_entries : Lawful entries := by
  unfold entries
  iterate 14 refine Lawful.append ?_ ?_
  · exact lawful_moves
  · exact lawful_multipleMoves
  · exact lawful_registerMoves
  · exact lawful_binary
  · exact lawful_immediates
  · exact lawful_addresses
  · exact lawful_chained
  · exact lawful_unaries
  · exact lawful_products
  · exact lawful_bits
  · exact lawful_shifts
  · exact lawful_branches
  · exact lawful_calls
  · exact lawful_traps
  · exact lawful_status

end InstructionSet

/-- What is looked up has been installed with a pattern that covers the opcode. -/
theorem InstructionSet.exists_mem_entries {operation : Operation} {opcode : Opcode}
    (hlookup : instructionSet.lookup opcode = some operation) :
    ∃ pattern, (pattern, operation) ∈ entries ∧ pattern.covers opcode = true := by
  rw [lookup_instructionSet, List.findRev?_eq_find?_reverse] at hlookup
  obtain ⟨entry, hfind, rfl⟩ := Option.map_eq_some_iff.1 hlookup
  have hentry := List.mem_reverse.1 (List.mem_of_find?_eq_some hfind)
  have hcovers := List.find?_some hfind
  exact ⟨entry.1, hentry, hcovers⟩

/-- Every opcode of the instruction set is legal for its operation. -/
theorem Operation.legal_of_lookup {operation : Operation} {opcode : Opcode}
    (hlookup : instructionSet.lookup opcode = some operation) : operation.Legal opcode := by
  obtain ⟨pattern, hentry, hcovers⟩ := InstructionSet.exists_mem_entries hlookup
  exact InstructionSet.lawful_entries _ hentry opcode hcovers

end M68000
