import M68000.Json.Token

/-!
# JSON documents

The value that a sequence of tokens spells. What has been read of the arrays and objects around
the current token waits on a stack, so that nesting may be of any depth.
-/

namespace M68000.Json

/-- An array or object that is not closed yet, with what it holds so far in reverse. -/
inductive Frame where
  | array (items : List Json)
  | object (members : List (Option String × Json)) (key : Option String)

/-- What may come next. -/
inductive Expected where
  | value
  /-- A first item, or the end of an empty array. -/
  | item
  /-- A first key, or the end of an empty object. -/
  | key (first : Bool) (members : List (Option String × Json))
  | colon (members : List (Option String × Json)) (key : Option String)
  /-- A value is complete, and the array, object or document around it goes on or ends. -/
  | rest (complete : Json)

/-- Reads a token where a value is expected. -/
def startValue? (stack : List Frame) : Token → Option (Expected × List Frame)
  | .null => some (.rest .null, stack)
  | .bool value => some (.rest (.bool value), stack)
  | .number value => some (.rest (.number value), stack)
  | .string text => some (.rest (.string text), stack)
  | .openArray => some (.item, .array [] :: stack)
  | .openObject => some (.key true [], stack)
  | _ => none

def advance? : Expected → List Frame → Token → Option (Expected × List Frame)
  | .value, stack, token => startValue? stack token
  | .item, .array [] :: stack, .closeArray => some (.rest (.array []), stack)
  | .item, stack, token => startValue? stack token
  | .key true _, stack, .closeObject => some (.rest (.object []), stack)
  | .key _ members, stack, .string key => some (.colon members key, stack)
  | .colon members key, stack, .colon => some (.value, .object members key :: stack)
  | .rest value, .array items :: stack, .comma => some (.value, .array (value :: items) :: stack)
  | .rest value, .array items :: stack, .closeArray =>
    some (.rest (.array (value :: items).reverse), stack)
  | .rest value, .object members key :: stack, .comma =>
    some (.key false ((key, value) :: members), stack)
  | .rest value, .object members key :: stack, .closeObject =>
    some (.rest (.object ((key, value) :: members).reverse), stack)
  | _, _, _ => none

def ofTokens? : Expected → List Frame → List Token → Option Json
  | .rest value, [], [] => some value
  | _, _, [] => none
  | expected, stack, token :: rest =>
    match advance? expected stack token with
    | some (expected, stack) => ofTokens? expected stack rest
    | none => none

/-- The value that a text spells, if it is one JSON value. -/
def ofString? (text : String) : Option Json := do
  ofTokens? .value [] (← Token.ofText? text)

end M68000.Json
