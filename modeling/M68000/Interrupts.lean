import M68000.Memory.Access

/-!
# Interrupt requests

Seven levels, each of which holds the vector of at most one request: a new request replaces the
one that waits at its level. A flag says whether any level has been filled, and is brought up to
date after an interrupt has been dealt with.
-/

namespace M68000

/-- An interrupt level. The least urgent is number one. -/
structure InterruptLevel where
  index : Fin 7
  deriving DecidableEq

namespace InterruptLevel

def number (level : InterruptLevel) : Nat :=
  level.index.val + 1

/-- There is no level zero. -/
def ofNumber? (number : Fin 8) : Option InterruptLevel :=
  if h : number.val = 0 then none else some ⟨⟨number.val - 1, by omega⟩⟩

/-- The levels from the most urgent one down. -/
def descending : List InterruptLevel :=
  (List.finRange 7).reverse.map mk

end InterruptLevel

structure Interrupts where
  /-- The vector that waits at each level. -/
  requests : Vector (Option Byte) 7 := .replicate 7 none
  pending : Bool := false
  deriving DecidableEq

namespace Interrupts

variable (interrupts : Interrupts)

/-- The vector that waits at a level. -/
def waiting? (level : InterruptLevel) : Option Byte :=
  interrupts.requests.get level.index

def request (level : InterruptLevel) (vector : Byte) : Interrupts :=
  ⟨interrupts.requests.set level.index (some vector), true⟩

/-- The most urgent level with a request, and its vector. -/
def highest? : Option (InterruptLevel × Byte) :=
  InterruptLevel.descending.findSome? fun level ↦ (interrupts.waiting? level).map (level, ·)

def remove (level : InterruptLevel) : Interrupts :=
  { interrupts with requests := interrupts.requests.set level.index none }

/-- The flag as the levels have it. -/
def refresh : Interrupts :=
  { interrupts with pending := interrupts.requests.any Option.isSome }

end Interrupts

end M68000
