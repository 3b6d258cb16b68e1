import M68000.CommandLine
import M68000.Config
import M68000.Json.Pretty
import M68000.Memory.Bulk
import M68000.Registers.Json
import M68000.Run

/-!
# Sessions

A session loads an image into the memory of a layout, runs it until it ends or a limit is
reached, and reports the exit status and, if asked for, the registers. Two opcodes that the
instruction set leaves free end a program: one with status zero, the other with the status that
lies on the stack.
-/

namespace M68000

/-- Ends the program with status zero. -/
def exitZero : Handler := fun _ ↦ do
  Exec.advancePc 2
  Exec.requestExit 0

/-- Ends the program with the word on top of the stack as its status. -/
def exitStacked : Handler := fun _ ↦ do
  let status ← Exec.read .word (← Exec.getA stackPointer)
  Exec.advancePc 2
  Exec.requestExit (status.signExtend 32)

namespace Session

/-- The instruction set with the two opcodes that end a program. -/
def table : Table Handler :=
  (handlers.install ⟨0xFF00, 0⟩ exitZero).install ⟨0xFF4C, 0⟩ exitStacked

/-- Why a program could not be started. -/
inductive LaunchError where
  | usage (reason : CommandLine.UsageError)
  | unreadable (path reason : String)
  | invalidConfig (path : String)
  | loading (address : Address) (refusal : BusError)

namespace LaunchError

def message : LaunchError → String
  | usage reason => reason.message
  | unreadable path reason => s!"error: reading {path}: {reason}"
  | invalidConfig path => s!"error: parsing {path}"
  | loading address refusal =>
    s!"error: loading image at {hexadecimal 6 address.toNat}: {refusal.message}"

/-- A command line that is wrong has a status of its own. -/
def exitCode : LaunchError → Nat
  | usage _ => 2
  | _ => 1

end LaunchError

/-- The machine with the image in memory and the registers set for its first instruction. -/
def prepare (options : Options) (config : Config) (image : List Byte) :
    Except LaunchError Machine :=
  match config.space.writeBytes .supervisorData options.load image with
  | .error refusal _ => .error (.loading options.load refusal)
  | .ok () memory =>
    let start : Registers := { pc := options.entry.getD options.load }
    let registers := start.setA stackPointer config.stackTop
    let machine : Machine := { registers, memory }
    .ok (if options.user then
      { machine with
        registers := registers.setUserStack (config.stackTop - 0x1000) }.setSupervisor false
    else machine)

/-- Runs a program to its end or limit: the exit status and the machine then. -/
def finish (options : Options) (machine : Machine) : BitVec 32 × Machine :=
  match options.maxSteps with
  | some limit => runToExitFor table limit machine
  | none => runToExit table machine

/-- What a session leaves behind. -/
structure Report where
  exitCode : Nat
  output : Option String
  diagnostics : Option String

def Report.ofError (error : LaunchError) : Report :=
  ⟨error.exitCode, none, some error.message⟩

/-- The report of a program that has ended. -/
def Report.ofEnd (options : Options) (status : BitVec 32) (machine : Machine) : Report where
  exitCode := (status.setWidth 8).toNat
  output := if options.dumpRegisters then some (machine.registers.toJson.pretty 0) else none
  diagnostics := none

section Files

variable {m : Type → Type} [Monad m] (readFile : String → m (Except String ByteArray))

/-- The layout that the options ask for. -/
def loadConfig (options : Options) : m (Except LaunchError Config) := do
  match options.config with
  | none => return .ok {}
  | some path =>
    match ← readFile path with
    | .error reason => return .error (.unreadable path reason)
    | .ok bytes =>
      match String.fromUTF8? bytes with
      | none => return .error (.unreadable path "the text is not UTF-8")
      | some text =>
        match Config.ofText? text with
        | none => return .error (.invalidConfig path)
        | some config => return .ok config

def loadImage (options : Options) : m (Except LaunchError (List Byte)) := do
  match ← readFile options.image with
  | .error reason => return .error (.unreadable options.image reason)
  | .ok bytes => return .ok (bytes.toList.map (·.toBitVec))

/-- The machine that a command line describes. -/
def launch (arguments : List String) : m (Except LaunchError (Options × Machine)) := do
  match CommandLine.parse arguments with
  | .error reason => return .error (.usage reason)
  | .ok options =>
    match ← loadConfig readFile options with
    | .error error => return .error error
    | .ok config =>
      let config := { config with memorySize := options.memory.getD config.memorySize }
      match ← loadImage readFile options with
      | .error error => return .error error
      | .ok image => return (prepare options config image).map (options, ·)

/-- Runs a command line. -/
def session (arguments : List String) : m Report := do
  match ← launch readFile arguments with
  | .error error => return .ofError error
  | .ok (options, machine) =>
    let (status, machine) := finish options machine
    return .ofEnd options status machine

end Files

end Session

end M68000
