import M68000.Memory.BusWidth
import M68000.Memory.Ram
import M68000.Memory.Rom
import M68000.Size

/-!
# Address spaces

What answers on a bus: a single memory, or a map that sends each page to the region mapped
there. Mappings lie on one another in layers, and an address is served by the topmost layer
over its page, so that a later mapping or unmapping covers an earlier one page by page. A
region may be a map itself.

A map splits what its regions cannot answer whole: a word that crosses into another page is two
bytes, and a long word is always two words. When a later part is refused the earlier parts have
been written already, so a refused write answers with a changed space too.
-/

namespace M68000

mutual

/-- An address space. -/
inductive Space where
  | ram (ram : Ram)
  | rom (rom : Rom)
  | map (width : BusWidth) (layers : Layers)

/-- Mappings and unmappings of a map, the latest on top. -/
inductive Layers where
  | empty
  | mapped (pages : PageRange) (region : Space) (below : Layers)
  | unmapped (pages : PageRange) (below : Layers)

end

/-- The outcome of a write: done or refused, and what the space is then. -/
abbrev Written (σ : Type) := EStateM.Result BusError σ Unit

namespace Written

/-- The outcome for a larger space that contains the written one. -/
def within (outcome : Written σ) (context : σ → τ) : Written τ :=
  match outcome with
  | .ok () space => .ok () (context space)
  | .error refusal space => .error refusal (context space)

/-- A write that continues only if the one before it was done. -/
def andThen (outcome : Written σ) (next : σ → Written σ) : Written σ :=
  match outcome with
  | .ok () space => next space
  | .error refusal space => .error refusal space

/-- A write that is done wholly or not at all. -/
def ofExcept (unchanged : σ) : Except BusError σ → Written σ
  | .ok space => .ok () space
  | .error refusal => .error refusal unchanged

end Written

/-! ## Bytes -/

mutual

def Space.getByte (code : FunctionCode) (address : Address) : Space → Except BusError Byte
  | .ram ram => ram.getByte code address
  | .rom rom => rom.getByte code address
  | .map width layers => layers.getByte code (width.truncate address)

def Layers.getByte (code : FunctionCode) (address : Address) : Layers → Except BusError Byte
  | .empty => .error ⟨address, code, .read⟩
  | .mapped pages region below =>
    if pages.contains address.page then region.getByte code address
    else below.getByte code address
  | .unmapped pages below =>
    if pages.contains address.page then .error ⟨address, code, .read⟩
    else below.getByte code address

end

mutual

def Space.putByte (code : FunctionCode) (address : Address) (value : Byte) :
    Space → Written Space
  | .ram ram => (Written.ofExcept ram (ram.putByte code address value)).within .ram
  | .rom rom => .error ⟨address, code, .write⟩ (.rom rom)
  | .map width layers =>
    (layers.putByte code (width.truncate address) value).within (.map width)

def Layers.putByte (code : FunctionCode) (address : Address) (value : Byte) :
    Layers → Written Layers
  | .empty => .error ⟨address, code, .write⟩ .empty
  | .mapped pages region below =>
    if pages.contains address.page then
      (region.putByte code address value).within (.mapped pages · below)
    else (below.putByte code address value).within (.mapped pages region)
  | .unmapped pages below =>
    if pages.contains address.page then
      .error ⟨address, code, .write⟩ (.unmapped pages below)
    else (below.putByte code address value).within (.unmapped pages)

end

/-! ## Words -/

mutual

def Space.getWord (code : FunctionCode) (address : Address) :
    Space → Except BusError (BitVec 16)
  | .ram ram => ram.getWord code address
  | .rom rom => rom.getWord code address
  | .map width layers =>
    if width.samePage address then layers.getWord code (width.truncate address)
    else do
      let high ← layers.getByte code (width.truncate address)
      let low ← layers.getByte code (width.truncate (address + 1))
      return high ++ low

def Layers.getWord (code : FunctionCode) (address : Address) :
    Layers → Except BusError (BitVec 16)
  | .empty => .error ⟨address, code, .read⟩
  | .mapped pages region below =>
    if pages.contains address.page then region.getWord code address
    else below.getWord code address
  | .unmapped pages below =>
    if pages.contains address.page then .error ⟨address, code, .read⟩
    else below.getWord code address

end

mutual

def Space.putWord (code : FunctionCode) (address : Address) (value : BitVec 16) :
    Space → Written Space
  | .ram ram => (Written.ofExcept ram (ram.putWord code address value)).within .ram
  | .rom rom => .error ⟨address, code, .write⟩ (.rom rom)
  | .map width layers =>
    if width.samePage address then
      (layers.putWord code (width.truncate address) value).within (.map width)
    else
      ((layers.putByte code (width.truncate address) (value.extractLsb' 8 8)).andThen
        (·.putByte code (width.truncate (address + 1)) (value.extractLsb' 0 8))).within
          (.map width)

def Layers.putWord (code : FunctionCode) (address : Address) (value : BitVec 16) :
    Layers → Written Layers
  | .empty => .error ⟨address, code, .write⟩ .empty
  | .mapped pages region below =>
    if pages.contains address.page then
      (region.putWord code address value).within (.mapped pages · below)
    else (below.putWord code address value).within (.mapped pages region)
  | .unmapped pages below =>
    if pages.contains address.page then
      .error ⟨address, code, .write⟩ (.unmapped pages below)
    else (below.putWord code address value).within (.unmapped pages)

end

namespace Space

variable (space : Space)

/-! ## Long words -/

def getLong (code : FunctionCode) (address : Address) : Except BusError (BitVec 32) :=
  match space with
  | .ram memory => memory.getLong code address
  | space => do
    let high ← space.getWord code address
    let low ← space.getWord code (address + 2)
    return high ++ low

def putLong (code : FunctionCode) (address : Address) (value : BitVec 32) : Written Space :=
  match space with
  | .ram memory => (Written.ofExcept memory (memory.putLong code address value)).within .ram
  | space =>
    (space.putWord code address (value.extractLsb' 16 16)).andThen
      (·.putWord code (address + 2) (value.extractLsb' 0 16))

/-! ## Operands of any size -/

def read (code : FunctionCode) (address : Address) :
    (size : Size) → Except BusError size.Value
  | .byte => space.getByte code address
  | .word => space.getWord code address
  | .long => space.getLong code address

def write (code : FunctionCode) (address : Address) :
    (size : Size) → size.Value → Written Space
  | .byte, value => space.putByte code address value
  | .word, value => space.putWord code address value
  | .long, value => space.putLong code address value

end Space

/-! ## Mapping -/

namespace Layers

variable (width : BusWidth) (layers : Layers)

/-- Maps a region over every page that `length` bytes from `start` on touch. -/
def insert (start : Address) (length : Nat) (region : Space) : Layers :=
  match PageRange.touching? width start length with
  | some pages => .mapped pages region layers
  | none => layers

/-- Unmaps every page that `length` bytes from `start` on touch. -/
def erase (start : Address) (length : Nat) : Layers :=
  match PageRange.touching? width start length with
  | some pages => .unmapped pages layers
  | none => layers

end Layers

/-- Whether the topmost layer over a page maps it. -/
def Layers.isMapped (page : Nat) : Layers → Bool
  | .empty => false
  | .mapped pages _ below => pages.contains page || below.isMapped page
  | .unmapped pages below => !pages.contains page && below.isMapped page

end M68000
