import M68000.Proofs.Dispatch.Enumeration
import M68000.Run

/-!
# Looking opcodes up

An installation reaches the opcodes that its pattern covers, so that a lookup after it is a
comparison with the pattern. In a table that was filled by several installations the last one
whose pattern covers the opcode is found.
-/

namespace M68000

namespace Table

variable {α : Type}

/-! ## Installing -/

theorem lookup_set (table : Table α) (opcode other : Opcode) (value : α) :
    (table.set opcode value).lookup other =
      if other = opcode then some value else table.lookup other := by
  unfold lookup set
  change (table.slots.set opcode.toNat (some value) opcode.isLt)[other.toNat] =
    if other = opcode then some value else table.slots[other.toNat]
  rw [Vector.getElem_set]
  simp only [BitVec.toNat_inj, eq_comm]

theorem lookup_install (table : Table α) (pattern : Pattern) (value : α) (opcode : Opcode) :
    (table.install pattern value).lookup opcode =
      if pattern.covers opcode then some value else table.lookup opcode := by
  have hfold (opcodes : List Opcode) :
      (opcodes.foldl (·.set · value) table).lookup opcode =
        if opcode ∈ opcodes then some value else table.lookup opcode := by
    induction opcodes generalizing table with
    | nil => simp
    | cons first rest ih =>
      rw [List.foldl_cons, ih, lookup_set]
      by_cases hfirst : opcode = first <;> by_cases hrest : opcode ∈ rest <;>
        simp [hfirst, hrest]
  rw [install, hfold]
  simp only [Pattern.mem_opcodes]

/-- After several installations the last pattern that covers an opcode decides. -/
theorem lookup_foldl_install (entries : List (Pattern × α)) (table : Table α) (opcode : Opcode) :
    (entries.foldl (fun table (pattern, value) ↦ table.install pattern value) table).lookup
        opcode =
      match entries.findRev? (·.1.covers opcode) with
      | some (_, value) => some value
      | none => table.lookup opcode := by
  induction entries generalizing table with
  | nil => rfl
  | cons first rest ih =>
    rw [List.foldl_cons, ih, List.findRev?]
    cases rest.findRev? (·.1.covers opcode) with
    | some entry => rfl
    | none =>
      dsimp only
      rw [lookup_install]
      cases first.1.covers opcode <;> rfl

theorem lookup_empty (opcode : Opcode) : (empty : Table α).lookup opcode = none := by
  unfold lookup empty
  exact Vector.getElem_replicate opcode.isLt

theorem lookup_map (f : α → β) (table : Table α) (opcode : Opcode) :
    (table.map f).lookup opcode = (table.lookup opcode).map f := by
  unfold lookup map
  exact Vector.getElem_map (Option.map f) opcode.isLt

end Table

/-! ## The instruction set -/

theorem lookup_instructionSet (opcode : Opcode) :
    instructionSet.lookup opcode =
      (InstructionSet.entries.findRev? (·.1.covers opcode)).map (·.2) := by
  rw [instructionSet, Table.lookup_foldl_install, Table.lookup_empty]
  cases InstructionSet.entries.findRev? (·.1.covers opcode) <;> rfl

theorem lookup_handlers (opcode : Opcode) :
    handlers.lookup opcode = (instructionSet.lookup opcode).map Operation.execute :=
  Table.lookup_map ..

theorem lookup_noOperation : instructionSet.lookup 0x4E71 = some .noOperation := by
  rw [lookup_instructionSet]
  decide +kernel

end M68000
