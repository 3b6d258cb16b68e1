import M68000.Memory.Access

/-!
# Command line

Options come in a long form, whose value follows in the next argument or after an equals sign,
and most in a short one, whose value may be joined to it and before which short options without
a value may stand. Each is given once at most, and one argument that is no option names the
image. After an argument of two dashes nothing is an option.
-/

namespace M68000

/-- What a program is run with. -/
structure Options where
  image : String
  config : Option String := none
  load : Address := 0x1000
  entry : Option Address := none
  memory : Option (BitVec 32) := none
  user : Bool := false
  maxSteps : Option Nat := none
  dumpRegisters : Bool := false
  deriving DecidableEq

namespace CommandLine

inductive Switch where
  | config
  | load
  | entry
  | memory
  | user
  | maxSteps
  | dumpRegisters
  deriving DecidableEq

namespace Switch

def all : List Switch :=
  [config, load, entry, memory, user, maxSteps, dumpRegisters]

def longName : Switch → String
  | config => "config"
  | load => "load"
  | entry => "entry"
  | memory => "memory"
  | user => "user"
  | maxSteps => "max-steps"
  | dumpRegisters => "dump-regs"

def shortName? : Switch → Option Char
  | config => some 'c'
  | load => some 'l'
  | entry => some 'e'
  | memory => some 'm'
  | user => some 'u'
  | maxSteps => none
  | dumpRegisters => none

def takesValue : Switch → Bool
  | user | dumpRegisters => false
  | _ => true

def ofLongName? (name : String) : Option Switch :=
  all.find? (·.longName == name)

def ofShortName? (name : Char) : Option Switch :=
  all.find? (·.shortName? == some name)

end Switch

/-- What is wrong with a command line. -/
inductive UsageError where
  | unknownOption (name : String)
  | repeatedOption (switch : Switch)
  | missingValue (switch : Switch)
  | unexpectedValue (switch : Switch)
  | invalidValue (switch : Switch) (value : String)
  | missingImage
  | unexpectedArgument (argument : String)
  | emptyImage
  deriving DecidableEq

def UsageError.message : UsageError → String
  | unknownOption name => s!"error: there is no option {name}"
  | repeatedOption switch => s!"error: the option --{switch.longName} is given twice"
  | missingValue switch => s!"error: the option --{switch.longName} lacks a value"
  | unexpectedValue switch => s!"error: the option --{switch.longName} takes no value"
  | invalidValue switch value => s!"error: {value} is no value for --{switch.longName}"
  | missingImage => "error: no IMAGE is given"
  | unexpectedArgument argument => s!"error: unexpected argument {argument}"
  | emptyImage => "error: the IMAGE has no name"

/-! ## Occurrences -/

/-- An argument by itself: an option with its value, an option that has yet to get one, or
another word. -/
inductive Part where
  | option (switch : Switch) (value : String)
  | awaiting (switch : Switch)
  | word (text : String)

/-- A word that can stand for the value of an option. A single dash is a word. -/
def isWord : List Char → Bool
  | ['-'] => true
  | '-' :: _ => false
  | _ => true

def longOption (text : List Char) : Except UsageError (List Part) :=
  let name := String.ofList (text.takeWhile (· != '='))
  let rest := text.dropWhile (· != '=')
  match Switch.ofLongName? name, rest with
  | none, _ => .error (.unknownOption ("--" ++ name))
  | some switch, [] =>
    .ok [if switch.takesValue then .awaiting switch else .option switch ""]
  | some switch, _ :: value =>
    if switch.takesValue then .ok [.option switch (String.ofList value)]
    else .error (.unexpectedValue switch)

/-- Short options of one argument. The first that takes a value has the rest as its value, less
an equals sign in front. -/
def shortOptions : List Char → Except UsageError (List Part)
  | [] => .ok []
  | name :: rest =>
    match Switch.ofShortName? name with
    | none => .error (.unknownOption (String.ofList ['-', name]))
    | some switch =>
      if switch.takesValue then
        match rest with
        | [] => .ok [.awaiting switch]
        | '=' :: value => .ok [.option switch (String.ofList value)]
        | value => .ok [.option switch (String.ofList value)]
      else (shortOptions rest).map (.option switch "" :: ·)

def parts (argument : String) : Except UsageError (List Part) :=
  match argument.toList with
  | '-' :: '-' :: text => longOption text
  | ['-'] => .ok [.word "-"]
  | '-' :: text => shortOptions text
  | _ => .ok [.word argument]

/-- The parts of all arguments, with each awaited value in its place. -/
def allParts : List String → Except UsageError (List Part)
  | [] => .ok []
  | "--" :: rest => .ok (rest.map .word)
  | argument :: rest => do
    let here ← parts argument
    match here.getLast? with
    | some (.awaiting switch) =>
      match rest with
      | [] => .error (.missingValue switch)
      | value :: rest =>
        if isWord value.toList then
          return here.dropLast ++ .option switch value :: (← allParts rest)
        else .error (.missingValue switch)
    | _ => return here ++ (← allParts rest)

/-! ## Values -/

/-- Digits in a base below 17, after a plus sign or without one. -/
def digits? (base : Nat) (text : List Char) : Option Nat :=
  let digits := match text with
    | '+' :: rest => rest
    | text => text
  if digits.isEmpty then none
  else
    digits.foldlM (fun value c ↦ do
      let digit ←
        if c.isDigit then some (c.toNat - '0'.toNat)
        else if 'a' ≤ c ∧ c ≤ 'f' then some (c.toNat - 'a'.toNat + 10)
        else if 'A' ≤ c ∧ c ≤ 'F' then some (c.toNat - 'A'.toNat + 10)
        else none
      if digit < base then some (base * value + digit) else none) 0

/-- A word, hexadecimal after 0x or 0X and decimal otherwise. -/
def word? (text : String) : Option (BitVec 32) := do
  let value ← match text.toList with
    | '0' :: 'x' :: rest => digits? 16 rest
    | '0' :: 'X' :: rest => digits? 16 rest
    | text => digits? 10 text
  if value < 0x100000000 then some (.ofNat 32 value) else none

def stepCount? (text : String) : Option Nat := do
  let value ← digits? 10 text.toList
  if value < 0x10000000000000000 then some value else none

def path? (text : String) : Option String :=
  if text.isEmpty then none else some text

/-! ## Options -/

/-- Takes an option over. -/
def Options.set (options : Options) (switch : Switch) (value : String) : Option Options :=
  match switch with
  | .config => (path? value).map fun path ↦ { options with config := some path }
  | .load => (word? value).map fun load ↦ { options with load }
  | .entry => (word? value).map fun entry ↦ { options with entry := some entry }
  | .memory => (word? value).map fun memory ↦ { options with memory := some memory }
  | .user => some { options with user := true }
  | .maxSteps => (stepCount? value).map fun count ↦ { options with maxSteps := some count }
  | .dumpRegisters => some { options with dumpRegisters := true }

/-- Takes the parts over, given the options that have occurred already. -/
def collect (options : Options) (seen : List Switch) :
    List Part → Except UsageError Options
  | [] => if options.image.isEmpty then .error .missingImage else .ok options
  | .option switch value :: rest =>
    if switch ∈ seen then .error (.repeatedOption switch)
    else
      match Options.set options switch value with
      | some options => collect options (switch :: seen) rest
      | none => .error (.invalidValue switch value)
  | .awaiting switch :: _ => .error (.missingValue switch)
  | .word text :: rest =>
    if text.isEmpty then .error .emptyImage
    else if options.image.isEmpty then collect { options with image := text } seen rest
    else .error (.unexpectedArgument text)

def parse (arguments : List String) : Except UsageError Options := do
  collect { image := "" } [] (← allParts arguments)

end CommandLine

end M68000
