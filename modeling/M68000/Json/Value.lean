/-!
# JSON values

Values as they are read from a configuration or written as a register dump. Only whole numbers
are ever wanted, so any other number is kept as it is spelt. A string whose escapes name half of
a surrogate pair is well formed but has no text.
-/

namespace M68000

namespace Json

inductive Number where
  | whole (negative : Bool) (magnitude : Nat)
  | other (spelling : String)
  deriving DecidableEq

end Json

inductive Json where
  | null
  | bool (value : Bool)
  | number (value : Json.Number)
  | string (text : Option String)
  | array (items : List Json)
  | object (members : List (Option String × Json))

namespace Json

def ofNat (value : Nat) : Json :=
  .number (.whole false value)

def ofInt (value : Int) : Json :=
  .number (.whole (value < 0) value.natAbs)

def ofText (text : String) : Json :=
  .string (some text)

def record (fields : List (String × Json)) : Json :=
  .object (fields.map fun (name, value) ↦ (some name, value))

/-! ## Reading -/

def toBool? : Json → Option Bool
  | .bool value => some value
  | _ => none

/-- A number that a word without a sign can hold. -/
def toUnsigned? (width : Nat) : Json → Option (BitVec width)
  | .number (.whole false magnitude) =>
    let word := BitVec.ofNat width magnitude
    if word.toNat = magnitude then some word else none
  | _ => none

/-- A number that a word with a sign can hold. Zero has no minus sign. -/
def toSigned? (width : Nat) : Json → Option (BitVec width)
  | .number (.whole negative magnitude) =>
    let value : Int := if negative then -magnitude else magnitude
    let word := BitVec.ofInt width value
    if word.toInt = value ∧ ¬(negative ∧ magnitude = 0) then some word else none
  | _ => none

/-- The items of an array, each read the same way. -/
def toList? (read : Json → Option α) : Json → Option (List α)
  | .array items => items.mapM read
  | _ => none

/-- Exactly `count` items, each read the same way. -/
def toVector? (count : Nat) (read : Json → Option α) (json : Json) :
    Option (Vector α count) := do
  let values ← json.toList? read
  if h : values.toArray.size = count then some ⟨values.toArray, h⟩ else none

/-- The one constant of an enumeration, written as its name or as an object that gives the name
to null. -/
def toName? : Json → Option String
  | .string text => text
  | .object [(name, .null)] => name
  | _ => none

/-- The members of an object under the given names. Another name is ignored, but each name has
a text and none of the given ones occurs twice. -/
def namedFields? (names : List String) (members : List (Option String × Json)) :
    Option (List (Option Json)) := do
  let members ← members.mapM fun (name, value) ↦ name.map (·, value)
  names.mapM fun name ↦
    match members.filter (·.1 == name) with
    | [] => some none
    | [(_, value)] => some (some value)
    | _ => none

/-- The fields of a record: an object with the names as its keys, or an array with the values
in the order of the names, of which the last may be left out. -/
def fields? (names : List String) : Json → Option (List (Option Json))
  | .object members => namedFields? names members
  | .array items =>
    if items.length ≤ names.length then
      some (items.map some ++ List.replicate (names.length - items.length) none)
    else none
  | _ => none

end Json

end M68000
