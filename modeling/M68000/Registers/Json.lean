import M68000.Json.Value
import M68000.Registers

/-!
# Register dumps

The register file as a JSON value. A dump shows the state as it is held, with the deferred flag
records and both stack pointer slots, so that reading it back gives the same register file.
-/

namespace M68000

namespace Deferred

def Kind.all : List Kind :=
  [.result, .add, .sub, .asl, .asr, .lsl, .lsr, .rol, .ror, .explicit]

def Kind.name : Kind → String
  | .result => "Generic"
  | .add => "Add"
  | .sub => "Sub"
  | .asl => "Asl"
  | .asr => "Asr"
  | .lsl => "Lsl"
  | .lsr => "Lsr"
  | .rol => "Rol"
  | .ror => "Ror"
  | .explicit => "Explicit"

def Kind.ofName? (name : String) : Option Kind :=
  Kind.all.find? (·.name == name)

def toJson (record : Deferred) : Json :=
  .record [
    ("kind", .ofText record.kind.name),
    ("values", .array ([record.result, record.destination, record.source].map (.ofInt ·.toInt))),
    ("bits", .ofNat record.width)]

def ofJson? (json : Json) : Option Deferred := do
  let [some kind, some values, some width] ← json.fields? ["kind", "values", "bits"] | none
  let [result, destination, source] ← values.toList? (Json.toSigned? 32) | none
  return {
    kind := ← Kind.ofName? (← kind.toName?)
    result
    destination
    source
    width := (← width.toUnsigned? 32).toNat }

end Deferred

namespace Flags

def toJson (flags : Flags) : Json :=
  .record [("cc", flags.codes.toJson), ("x", flags.extension.toJson)]

def ofJson? (json : Json) : Option Flags := do
  let [some codes, some extension] ← json.fields? ["cc", "x"] | none
  return ⟨← Deferred.ofJson? codes, ← Deferred.ofJson? extension⟩

end Flags

namespace Registers

def toJson (registers : Registers) : Json :=
  .record [
    ("d", .array (registers.d.toList.map (.ofNat ·.toNat))),
    ("a", .array (registers.a.toList.map (.ofNat ·.toNat))),
    ("pc", .ofNat registers.pc.toNat),
    ("cc", registers.flags.toJson),
    ("usp", .ofNat registers.userSlot.toNat),
    ("ssp", .ofNat registers.supervisorSlot.toNat),
    ("supervisor", .bool registers.supervisor),
    ("interrupt_mask", .ofNat registers.interruptMask.toNat)]

def ofJson? (json : Json) : Option Registers := do
  let [some d, some a, some pc, some flags, some user, some supervisor, some state, some mask] ←
    json.fields? ["d", "a", "pc", "cc", "usp", "ssp", "supervisor", "interrupt_mask"] | none
  return {
    d := ← d.toVector? 8 (Json.toUnsigned? 32)
    a := ← a.toVector? 8 (Json.toUnsigned? 32)
    pc := ← pc.toUnsigned? 32
    flags := ← Flags.ofJson? flags
    userSlot := ← user.toUnsigned? 32
    supervisorSlot := ← supervisor.toUnsigned? 32
    supervisor := ← state.toBool?
    interruptMask := ← mask.toUnsigned? 8 }

end Registers

end M68000
