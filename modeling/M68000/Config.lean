import M68000.Json.Document
import M68000.Memory.Space

/-!
# Memory layout

A layout has main memory at address zero, of which the bottom may be reserved to the supervisor,
and a stack that grows down from the top of memory or from a given address. It is read from
JSON, where each setting may be left out.
-/

namespace M68000

structure Config where
  memorySize : BitVec 32 := 0x400000
  addressBits : Nat := 24
  /-- Bytes at the bottom of memory that user accesses may not write. -/
  supervisorArea : Nat := 0
  /-- The first stack pointer, if it is not the top of memory. -/
  stackTop? : Option Address := none
  deriving DecidableEq

namespace Config

variable (config : Config)

def stackTop : Address :=
  config.stackTop?.getD config.memorySize

/-- The address space of the layout. -/
def space : Space :=
  let width := BusWidth.clamp config.addressBits
  let size := config.memorySize.toNat
  let ram : Space := .ram { size, supervisorArea := config.supervisorArea }
  .map width (Layers.empty.insert width 0 size ram)

/-- A setting that may be left out but not null. -/
def setting? (read : Json → Option α) (absent : α) : Option Json → Option α
  | none => some absent
  | some value => read value

/-- A setting that may be left out or null. -/
def optional? (read : Json → Option α) : Option Json → Option (Option α)
  | none => some none
  | some .null => some none
  | some value => (read value).map some

/-- The value of an unsigned word. -/
def wordValue? (json : Json) : Option Nat :=
  (json.toUnsigned? 32).map BitVec.toNat

def ofJson? (json : Json) : Option Config := do
  let [size, bits, area, top] ←
    json.fields? ["memory_size", "address_bits", "supervisor_area", "stack_top"] | none
  let standard : Config := {}
  return {
    memorySize := ← setting? (Json.toUnsigned? 32) standard.memorySize size
    addressBits := ← setting? wordValue? standard.addressBits bits
    supervisorArea := ← setting? wordValue? standard.supervisorArea area
    stackTop? := ← optional? (Json.toUnsigned? 32) top }

def ofText? (text : String) : Option Config :=
  Json.ofString? text >>= ofJson?

end Config

end M68000
