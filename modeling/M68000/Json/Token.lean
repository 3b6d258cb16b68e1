import M68000.Json.Value

/-!
# Tokens of a JSON text

A text is cut into tokens in one pass. Punctuation stands for itself, a string runs to its
closing quote, and a run of other characters is a word: one of the three literals or a number.
-/

namespace M68000.Json

inductive Token where
  | openArray
  | closeArray
  | openObject
  | closeObject
  | comma
  | colon
  | null
  | bool (value : Bool)
  | number (value : Number)
  | string (text : Option String)

namespace Token

/-! ## Words -/

/-- What follows a fraction or the whole part: nothing or an exponent. -/
def isExponent : List Char → Bool
  | [] => true
  | mark :: digits =>
    (mark == 'e' || mark == 'E') &&
      let digits := match digits with
        | '+' :: rest => rest
        | '-' :: rest => rest
        | digits => digits
      !digits.isEmpty && digits.all Char.isDigit

/-- What follows the whole part of a number that is not whole. -/
def isFraction : List Char → Bool
  | '.' :: rest => (rest.takeWhile Char.isDigit) != [] && isExponent (rest.dropWhile Char.isDigit)
  | rest => isExponent rest

def decimal (digits : List Char) : Nat :=
  digits.foldl (fun value digit ↦ 10 * value + (digit.toNat - '0'.toNat)) 0

/-- A number, whose whole part has no leading zero. -/
def number? (word : List Char) : Option Number :=
  let negative := word.head? == some '-'
  let unsigned := if negative then word.tail else word
  let digits := unsigned.takeWhile Char.isDigit
  let rest := unsigned.dropWhile Char.isDigit
  if digits.isEmpty || (digits.head? == some '0' && digits.length != 1) then none
  else if rest.isEmpty then some (.whole negative (decimal digits))
  else if isFraction rest then some (.other (String.ofList word))
  else none

def ofWord? : List Char → Option Token
  | ['n', 'u', 'l', 'l'] => some .null
  | ['t', 'r', 'u', 'e'] => some (.bool true)
  | ['f', 'a', 'l', 's', 'e'] => some (.bool false)
  | word => (number? word).map .number

/-! ## Strings -/

/-- A character of a string, or a UTF-16 unit that an escape names by number. -/
inductive Piece where
  | character (value : Char)
  | unit (value : Nat)

/-- The text of the pieces, if every surrogate has its partner. -/
def text? : List Piece → Option (List Char)
  | [] => some []
  | .character value :: rest => (text? rest).map (value :: ·)
  | .unit high :: rest =>
    if high < 0xD800 ∨ 0xE000 ≤ high then (text? rest).map (Char.ofNat high :: ·)
    else
      match rest with
      | .unit low :: rest =>
        if high < 0xDC00 ∧ 0xDC00 ≤ low ∧ low < 0xE000 then
          (text? rest).map (Char.ofNat (0x10000 + (high - 0xD800) * 0x400 + (low - 0xDC00)) :: ·)
        else none
      | _ => none

def simpleEscape? : Char → Option Char
  | '"' => some '"'
  | '\\' => some '\\'
  | '/' => some '/'
  | 'b' => some '\x08'
  | 'f' => some '\x0C'
  | 'n' => some '\n'
  | 'r' => some '\r'
  | 't' => some '\t'
  | _ => none

def hexDigit? (c : Char) : Option Nat :=
  if c.isDigit then some (c.toNat - '0'.toNat)
  else if 'a' ≤ c ∧ c ≤ 'f' then some (c.toNat - 'a'.toNat + 10)
  else if 'A' ≤ c ∧ c ≤ 'F' then some (c.toNat - 'A'.toNat + 10)
  else none

/-! ## Texts -/

def isBlank (c : Char) : Bool :=
  c == ' ' || c == '\t' || c == '\n' || c == '\r'

def punctuation? : Char → Option Token
  | '[' => some .openArray
  | ']' => some .closeArray
  | '{' => some .openObject
  | '}' => some .closeObject
  | ',' => some .comma
  | ':' => some .colon
  | _ => none

/-- Where the pass stands. What it has read of a word or string is kept in reverse. -/
inductive Position where
  | between
  | word (read : List Char)
  | string (read : List Piece)
  | escape (read : List Piece)
  | escapedUnit (read : List Piece) (digits value : Nat)

/-- The tokens so far, in reverse, after the word that has been read, if any. -/
def closeWord? (done : List Token) : Position → Option (List Token)
  | .between => some done
  | .word read => (ofWord? read.reverse).map (· :: done)
  | _ => none

/-- Reads on between tokens or in a word. -/
def startToken? (position : Position) (done : List Token) (c : Char) :
    Option (Position × List Token) :=
  if isBlank c then (closeWord? done position).map (.between, ·)
  else if c == '"' then (closeWord? done position).map (.string [], ·)
  else
    match punctuation? c with
    | some token => (closeWord? done position).map fun done ↦ (.between, token :: done)
    | none =>
      match position with
      | .word read => some (.word (c :: read), done)
      | _ => some (.word [c], done)

/-- Reads one character. A string holds no control character that is not escaped. -/
def advance? (position : Position) (done : List Token) (c : Char) :
    Option (Position × List Token) :=
  match position with
  | .string read =>
    if c == '"' then some (.between, .string ((text? read.reverse).map String.ofList) :: done)
    else if c == '\\' then some (.escape read, done)
    else if c.toNat < 0x20 then none
    else some (.string (.character c :: read), done)
  | .escape read =>
    if c == 'u' then some (.escapedUnit read 0 0, done)
    else (simpleEscape? c).map fun value ↦ (.string (.character value :: read), done)
  | .escapedUnit read digits value => do
    let value := 16 * value + (← hexDigit? c)
    if digits = 3 then some (.string (.unit value :: read), done)
    else some (.escapedUnit read (digits + 1) value, done)
  | position => startToken? position done c

def scan? : Position → List Token → List Char → Option (List Token)
  | position, done, [] => (closeWord? done position).map List.reverse
  | position, done, c :: rest =>
    match advance? position done c with
    | some (position, done) => scan? position done rest
    | none => none

/-- The tokens of a text. -/
def ofText? (text : String) : Option (List Token) :=
  scan? .between [] text.toList

end Token

end M68000.Json
