import M68000.Exec
import M68000.InstructionSet

/-!
# Running programs

A step takes an interrupt that is due, fetches an opcode and executes what a table holds for it.
A run repeats steps until an instruction asks for its end or a fault occurs, or up to a limit.
What a run within a limit ends with does not depend on the limit. There is no telling beforehand
whether a run without one comes to an end.
-/

namespace M68000

/-- What an opcode does. -/
abbrev Handler := Opcode → Exec Unit

/-- What the opcodes of the instruction set do. -/
def handlers : Table Handler :=
  instructionSet.map Operation.execute

/-- How a step ends that ends without a fault. -/
inductive Progress where
  | next
  | exit (status : BitVec 32)
  deriving DecidableEq

/-- A request to end the run is met once. -/
def takeExit : Exec Progress := do
  match (← get).exitRequest with
  | some status =>
    modify fun machine ↦ { machine with exitRequest := none }
    return .exit status
  | none => return .next

/-- One instruction, preceded by an interrupt that is due. -/
def step (table : Table Handler) : Exec Progress := do
  modify (·.syncPrivilege)
  Exec.acceptInterrupt
  let opcode ← Exec.fetchWord 0
  modify fun machine ↦ { machine with opcode }
  match table.lookup opcode with
  | some handler => handler opcode
  | none => Exec.illegal
  takeExit

/-- Why a run ended. -/
inductive Stop where
  | exit (status : BitVec 32)
  | fault (reason : Fault)
  deriving DecidableEq

def Stop.status : Stop → BitVec 32
  | exit status => status
  | fault reason => reason.exitStatus

/-- A step of a run: the machine to go on from, or why the run ends and the machine then. -/
def advance (table : Table Handler) (machine : Machine) : Machine ⊕ Stop × Machine :=
  match step table machine with
  | .ok .next machine => .inl machine
  | .ok (.exit status) machine => .inr (.exit status, machine)
  | .error fault machine => .inr (.fault fault, machine)

/-- Runs until the program ends. -/
def run (table : Table Handler) (machine : Machine) : Stop × Machine :=
  have : Nonempty (Stop × Machine) := ⟨.exit 0, machine⟩
  Id.run (repeatM (fun machine ↦ pure (advance table machine)) machine)

theorem run_eq (table : Table Handler) (machine : Machine) :
    run table machine =
      match advance table machine with
      | .inl next => run table next
      | .inr ending => ending := by
  have : Nonempty (Stop × Machine) := ⟨.exit 0, machine⟩
  have hrepeat : run table machine =
      Id.run (repeatM.body (fun machine ↦ pure (advance table machine)) (run table) machine) :=
    repeatM_eq_of_monadTail machine
  rw [hrepeat, repeatM.body, pure_bind]
  cases advance table machine <;> rfl

/-- Runs for at most the given number of steps. There is no reason to stop if the program has not
ended by then. -/
def runFor (table : Table Handler) : Nat → Machine → Option Stop × Machine
  | 0, machine => (none, machine)
  | limit + 1, machine =>
    match step table machine with
    | .ok .next machine => runFor table limit machine
    | .ok (.exit status) machine => (some (.exit status), machine)
    | .error fault machine => (some (.fault fault), machine)

/-- A run that is not over after some steps goes on from there. -/
theorem runFor_add (table : Table Handler) (first second : Nat) (machine : Machine) :
    runFor table (first + second) machine =
      match runFor table first machine with
      | (none, next) => runFor table second next
      | (some stop, final) => (some stop, final) := by
  induction first generalizing machine with
  | zero => simp [runFor]
  | succ first ih =>
    rw [Nat.succ_add_eq_add_succ, Nat.add_succ, runFor, runFor]
    split <;> simp_all

/-- More steps than a run takes change nothing. -/
theorem runFor_eq_of_le {table : Table Handler} {limit larger : Nat} {machine final : Machine}
    {stop : Stop} (ends : runFor table limit machine = (some stop, final)) (h : limit ≤ larger) :
    runFor table larger machine = (some stop, final) := by
  obtain ⟨more, rfl⟩ := Nat.exists_eq_add_of_le h
  simp [runFor_add, ends]

/-- The exit status of a run with a limit. One that was cut off has status one. -/
def limitedStatus (stop : Option Stop) : BitVec 32 :=
  match stop with
  | some stop => stop.status
  | none => 1

/-- Runs until the program ends: the exit status and the machine then. -/
def runToExit (table : Table Handler) (machine : Machine) : BitVec 32 × Machine :=
  let (stop, machine) := run table machine
  (stop.status, machine)

/-- Runs until the program ends or the limit is reached: the exit status and the machine then. -/
def runToExitFor (table : Table Handler) (limit : Nat) (machine : Machine) : BitVec 32 × Machine :=
  let (stop, machine) := runFor table limit machine
  (limitedStatus stop, machine)

end M68000
