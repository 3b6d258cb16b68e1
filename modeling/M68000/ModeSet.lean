import M68000.Mode
import M68000.Pattern

/-!
# Sets of addressing modes

Which modes an instruction accepts. A set has a bit for each of the twelve modes, in the order
of their encoding, and is turned into the patterns of an opcode's operand field.
-/

namespace M68000

structure ModeSet where
  bits : BitVec 12
  deriving DecidableEq

namespace ModeSet

/-! ## Single modes -/

def dataRegister : ModeSet := ⟨1 <<< 0⟩

def addressRegister : ModeSet := ⟨1 <<< 1⟩

def indirect : ModeSet := ⟨1 <<< 2⟩

def postIncrement : ModeSet := ⟨1 <<< 3⟩

def preDecrement : ModeSet := ⟨1 <<< 4⟩

def displacement : ModeSet := ⟨1 <<< 5⟩

def indexed : ModeSet := ⟨1 <<< 6⟩

def absoluteShort : ModeSet := ⟨1 <<< 7⟩

def absoluteLong : ModeSet := ⟨1 <<< 8⟩

def pcDisplacement : ModeSet := ⟨1 <<< 9⟩

def pcIndexed : ModeSet := ⟨1 <<< 10⟩

def immediate : ModeSet := ⟨1 <<< 11⟩

/-- The set that holds only the given mode. -/
def single : Mode → ModeSet
  | .dataRegister _ => dataRegister
  | .addressRegister _ => addressRegister
  | .indirect _ => indirect
  | .postIncrement _ => postIncrement
  | .preDecrement _ => preDecrement
  | .displacement _ => displacement
  | .indexed _ => indexed
  | .absoluteShort => absoluteShort
  | .absoluteLong => absoluteLong
  | .pcDisplacement => pcDisplacement
  | .pcIndexed => pcIndexed
  | .immediate => immediate

/-! ## Operations -/

instance : Union ModeSet := ⟨fun s t ↦ ⟨s.bits ||| t.bits⟩⟩

instance : Inter ModeSet := ⟨fun s t ↦ ⟨s.bits &&& t.bits⟩⟩

instance : SDiff ModeSet := ⟨fun s t ↦ ⟨s.bits &&& ~~~t.bits⟩⟩

def contains (set : ModeSet) (mode : Mode) : Bool :=
  set.bits &&& (single mode).bits != 0

/-- The set of a word's bits, if they all stand for modes. -/
def ofBits? (bits : BitVec 16) : Option ModeSet :=
  if bits < 0x1000 then some ⟨bits.setWidth 12⟩ else none

/-! ## Categories -/

def all : ModeSet := ⟨0xFFF⟩

/-- The operand is no address register. -/
def data : ModeSet := all \ addressRegister

/-- The operand is no register. -/
def memory : ModeSet := data \ dataRegister

/-- The operand has an address that does not change. -/
def control : ModeSet :=
  indirect ∪ displacement ∪ indexed ∪ absoluteShort ∪ absoluteLong ∪ pcDisplacement ∪ pcIndexed

/-- The operand can be written. -/
def alterable : ModeSet := all \ (pcDisplacement ∪ pcIndexed ∪ immediate)

def dataAlterable : ModeSet := data ∩ alterable

def memoryAlterable : ModeSet := memory ∩ alterable

/-! ## Opcode patterns -/

/-- The operand fields of each mode: the register number is free where the mode has one. -/
def fieldPatterns : List (ModeSet × Pattern) := [
  (dataRegister, ⟨0x00, 0x07⟩),
  (addressRegister, ⟨0x08, 0x07⟩),
  (indirect, ⟨0x10, 0x07⟩),
  (postIncrement, ⟨0x18, 0x07⟩),
  (preDecrement, ⟨0x20, 0x07⟩),
  (displacement, ⟨0x28, 0x07⟩),
  (indexed, ⟨0x30, 0x07⟩),
  (absoluteShort, ⟨0x38, 0x00⟩),
  (absoluteLong, ⟨0x39, 0x00⟩),
  (pcDisplacement, ⟨0x3A, 0x00⟩),
  (pcIndexed, ⟨0x3B, 0x00⟩),
  (immediate, ⟨0x3C, 0x00⟩)]

/-- The operand fields, in bits 0 to 5, of the modes in a set. -/
def patterns (set : ModeSet) : List Pattern :=
  (fieldPatterns.filter fun entry ↦ set ∩ entry.1 != ⟨0⟩).map (·.2)

/-- The same field as MOVE has it for its destination, in bits 6 to 11 with the mode number
below the register number. -/
def destinationPattern (pattern : Pattern) : Pattern where
  base := (pattern.base &&& 0x7) <<< 9 ||| (pattern.base >>> 3) <<< 6
  mask := pattern.mask <<< 9

def destinationPatterns (set : ModeSet) : List Pattern :=
  set.patterns.map destinationPattern

end ModeSet

end M68000
