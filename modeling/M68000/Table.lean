import M68000.Pattern

/-!
# Dispatch tables

A table has a slot for each of the 65536 opcodes. An installation fills the slots of every
opcode of a pattern and replaces what an earlier one has put there; the opcodes of empty slots
are illegal.
-/

namespace M68000

structure Table (α : Type) where
  slots : Vector (Option α) 0x10000

namespace Table

variable {α : Type}

/-- The table in which every opcode is illegal. -/
def empty : Table α :=
  ⟨.replicate _ none⟩

def lookup (table : Table α) (opcode : Opcode) : Option α :=
  table.slots.get opcode.toFin

def set (table : Table α) (opcode : Opcode) (value : α) : Table α :=
  ⟨table.slots.set opcode.toNat (some value) opcode.isLt⟩

/-- Fills the slots of every opcode that matches. -/
def install (table : Table α) (pattern : Pattern) (value : α) : Table α :=
  pattern.opcodes.foldl (·.set · value) table

def isInstalled (table : Table α) (opcode : Opcode) : Bool :=
  (table.lookup opcode).isSome

/-- The number of opcodes that are not illegal. -/
def installedCount (table : Table α) : Nat :=
  table.slots.countP Option.isSome

def map (f : α → β) (table : Table α) : Table β :=
  ⟨table.slots.map (·.map f)⟩

end Table

end M68000
