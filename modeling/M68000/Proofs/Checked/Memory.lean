import M68000.Proofs.Checked.Arithmetic
import M68000.Proofs.Memory.Neighbours
import M68000.Proofs.Memory.Ram

/-!
# Checked accesses to memory

A memory is a row of bytes, and a map has a table with an entry for each page of its bus that holds
the number of a region. Accesses take bytes out of rows and entries out of tables, and never one
that is not there: the place of an access has been compared with the end of the row, the pages of
truncated addresses are pages of the bus, and the numbers in the table are those of regions.
-/

namespace M68000

/-- The entries in the table of a map. -/
def BusWidth.pageCount (width : BusWidth) : Nat :=
  (width.mask.toNat + 1) >>> pageBits

/-- The regions of a map, which are numbered in the order in which they were mapped. -/
def Layers.regionCount : Layers → Nat
  | .empty => 0
  | .mapped _ _ below => below.regionCount + 1
  | .unmapped _ below => below.regionCount

theorem BusWidth.page_truncate_lt (width : BusWidth) (address : Address) :
    (width.truncate address).page < width.pageCount := by
  obtain ⟨pages, hpages, -⟩ := width.exists_two_pow_bits_eq
  have hlt := width.toNat_truncate_lt address
  have hmask := width.toNat_mask
  rw [pageCount, Address.page_eq_div, Nat.shiftRight_eq_div_pow, hmask]
  rw [pageBits] at *
  omega

namespace Checked

/-- A value from memory, unless it is refused. -/
abbrev Access := ExceptT BusError Checked

variable {α β : Type}

/-- What a memory answers. -/
def answer (result : Except BusError α) : Access α :=
  ExceptT.mk (.ok result)

@[simp]
theorem lift_ok_bind (a : α) (rest : α → Access β) :
    ((liftM (Except.ok a : Checked α) : Access α) >>= rest) = rest a :=
  rfl

/-- Nothing fails after an answer. -/
theorem answer_bind {result : Except BusError α} {rest : α → Access β} {f : α → Except BusError β}
    (h : ∀ a, result = .ok a → rest a = answer (f a)) :
    (answer result >>= rest) = answer (result >>= f) := by
  cases result with
  | ok a => exact h a rfl
  | error refusal => rfl

/-! ## Rows of bytes -/

namespace Ram

variable (ram : Ram) (code : FunctionCode) (address : Address)

/-- The byte so many places after an offset. -/
def byteAt (offset i : Nat) : Checked Byte := do
  let place ← sum 64 offset i
  if place < ram.size then return ram.byteAt place else .error .index

/-- There are bytes in a row to be replaced. -/
def slice (offset length : Nat) : Checked Unit := do
  let stop ← sum 64 offset length
  if stop ≤ ram.size then return () else .error .index

def getByte : Access Byte := do
  let offset ← answer (ram.offset .read code address 1)
  byteAt ram offset 0

def getWord : Access (BitVec 16) := do
  let offset ← answer (ram.offset .read code address 2)
  return (← byteAt ram offset 0) ++ (← byteAt ram offset 1)

def getLong : Access (BitVec 32) := do
  let offset ← answer (ram.offset .read code address 4)
  return (← byteAt ram offset 0) ++ (← byteAt ram offset 1) ++ (← byteAt ram offset 2) ++
    (← byteAt ram offset 3)

def putByte (value : Byte) : Access Ram := do
  let offset ← answer (ram.offset .write code address 1)
  slice ram offset 1
  return ram.setByteAt offset value

def putWord (value : BitVec 16) : Access Ram := do
  let offset ← answer (ram.offset .write code address 2)
  slice ram offset 2
  return (ram.setByteAt offset (value.extractLsb' 8 8)).setByteAt (offset + 1)
    (value.extractLsb' 0 8)

def putLong (value : BitVec 32) : Access Ram := do
  let offset ← answer (ram.offset .write code address 4)
  slice ram offset 4
  return (((ram.setByteAt offset (value.extractLsb' 24 8)).setByteAt (offset + 1)
    (value.extractLsb' 16 8)).setByteAt (offset + 2) (value.extractLsb' 8 8)).setByteAt
      (offset + 3) (value.extractLsb' 0 8)

section Allowed

variable {ram code address} {kind : AccessKind} {offset length : Nat}
  (h : ram.offset kind code address length = .ok offset)

include h

/-- All bytes of an access that is allowed are there, and their places are small numbers. -/
theorem byteAt_eq {i : Nat} (hi : i < length) (hlength : length ≤ 4) :
    byteAt ram offset i = .ok (ram.byteAt (offset + i)) := by
  obtain ⟨rfl, hsize, -⟩ := M68000.Ram.offset_eq_ok_iff.1 h
  have hlt := (address - ram.base).isLt
  rw [byteAt, sum_of_lt (by omega), ok_bind, if_pos (by omega)]
  rfl

theorem slice_eq (hlength : length ≤ 4) : slice ram offset length = .ok () := by
  obtain ⟨rfl, hsize, -⟩ := M68000.Ram.offset_eq_ok_iff.1 h
  have hlt := (address - ram.base).isLt
  rw [slice, sum_of_lt (by omega), ok_bind, if_pos hsize]
  rfl

end Allowed

theorem getByte_eq : getByte ram code address = answer (ram.getByte code address) := by
  refine answer_bind fun offset hoffset ↦ ?_
  rw [byteAt_eq hoffset (by decide) (by decide)]
  rfl

theorem getWord_eq : getWord ram code address = answer (ram.getWord code address) := by
  refine answer_bind fun offset hoffset ↦ ?_
  have hbyte {i : Nat} (hi : i < 2) := byteAt_eq hoffset hi (by decide)
  rw [hbyte (by decide), hbyte (by decide)]
  rfl

theorem getLong_eq : getLong ram code address = answer (ram.getLong code address) := by
  refine answer_bind fun offset hoffset ↦ ?_
  have hbyte {i : Nat} (hi : i < 4) := byteAt_eq hoffset hi (by decide)
  rw [hbyte (by decide), hbyte (by decide), hbyte (by decide), hbyte (by decide)]
  rfl

theorem putByte_eq (value : Byte) :
    putByte ram code address value = answer (ram.putByte code address value) := by
  refine answer_bind fun offset hoffset ↦ ?_
  rw [slice_eq hoffset (by decide)]
  rfl

theorem putWord_eq (value : BitVec 16) :
    putWord ram code address value = answer (ram.putWord code address value) := by
  refine answer_bind fun offset hoffset ↦ ?_
  rw [slice_eq hoffset (by decide)]
  rfl

theorem putLong_eq (value : BitVec 32) :
    putLong ram code address value = answer (ram.putLong code address value) := by
  refine answer_bind fun offset hoffset ↦ ?_
  rw [slice_eq hoffset (by decide)]
  rfl

end Ram

namespace Rom

variable (rom : Rom) (code : FunctionCode) (address : Address)

/-- The byte so many places after an offset. -/
def byteAt (offset i : Nat) : Checked Byte := do
  let place ← sum 64 offset i
  if place < rom.image.size then return rom.byteAt place else .error .index

def getByte : Access Byte := do
  let offset ← answer (rom.offset code address 1)
  byteAt rom offset 0

def getWord : Access (BitVec 16) := do
  let offset ← answer (rom.offset code address 2)
  return (← byteAt rom offset 0) ++ (← byteAt rom offset 1)

variable {rom code address}

theorem byteAt_eq {offset length i : Nat} (h : rom.offset code address length = .ok offset)
    (hi : i < length) (hlength : length ≤ 2) :
    byteAt rom offset i = .ok (rom.byteAt (offset + i)) := by
  have hlt := (address - rom.base).isLt
  unfold M68000.Rom.offset at h
  dsimp only at h
  split at h
  next => cases h
  next hsize =>
    cases h
    rw [byteAt, sum_of_lt (by omega), ok_bind, if_pos (by omega)]
    rfl

theorem getByte_eq : getByte rom code address = answer (rom.getByte code address) := by
  refine answer_bind fun offset hoffset ↦ ?_
  rw [byteAt_eq hoffset (by decide) (by decide)]
  rfl

theorem getWord_eq : getWord rom code address = answer (rom.getWord code address) := by
  refine answer_bind fun offset hoffset ↦ ?_
  have hbyte {i : Nat} (hi : i < 2) := byteAt_eq hoffset hi (by decide)
  rw [hbyte (by decide), hbyte (by decide)]
  rfl

end Rom

/-! ## Maps -/

/-- The table of a map has an entry for the page of an address. -/
def page (width : BusWidth) (address : Address) : Checked Unit :=
  if (width.truncate address).page < width.pageCount then return () else .error .index

/-- There is a region with the number that a table holds. -/
def region (regions number : Nat) : Checked Unit :=
  if number < regions then return () else .error .index

@[simp]
theorem page_eq (width : BusWidth) (address : Address) : page width address = .ok () :=
  if_pos (width.page_truncate_lt address)

theorem region_of_lt {regions number : Nat} (h : number < regions) :
    region regions number = .ok () :=
  if_pos h

/-! ### Reading -/

mutual

def Space.getByte (code : FunctionCode) (address : Address) : Space → Access Byte
  | .ram ram => Ram.getByte ram code address
  | .rom rom => Rom.getByte rom code address
  | .map width layers => do
    page width address
    Layers.getByte layers.regionCount code (width.truncate address) layers

def Layers.getByte (regions : Nat) (code : FunctionCode) (address : Address) :
    Layers → Access Byte
  | .empty => throw ⟨address, code, .read⟩
  | .mapped pages space below =>
    if pages.contains address.page then do
      region regions below.regionCount
      Space.getByte code address space
    else Layers.getByte regions code address below
  | .unmapped pages below =>
    if pages.contains address.page then throw ⟨address, code, .read⟩
    else Layers.getByte regions code address below

end

mutual

def Space.getWord (code : FunctionCode) (address : Address) : Space → Access (BitVec 16)
  | .ram ram => Ram.getWord ram code address
  | .rom rom => Rom.getWord rom code address
  | .map width layers =>
    if width.samePage address then do
      page width address
      Layers.getWord layers.regionCount code (width.truncate address) layers
    else do
      page width address
      let high ← Layers.getByte layers.regionCount code (width.truncate address) layers
      page width (address + 1)
      let low ← Layers.getByte layers.regionCount code (width.truncate (address + 1)) layers
      return high ++ low

def Layers.getWord (regions : Nat) (code : FunctionCode) (address : Address) :
    Layers → Access (BitVec 16)
  | .empty => throw ⟨address, code, .read⟩
  | .mapped pages space below =>
    if pages.contains address.page then do
      region regions below.regionCount
      Space.getWord code address space
    else Layers.getWord regions code address below
  | .unmapped pages below =>
    if pages.contains address.page then throw ⟨address, code, .read⟩
    else Layers.getWord regions code address below

end

def Space.getLong (code : FunctionCode) (address : Address) (space : Space) :
    Access (BitVec 32) :=
  match space with
  | .ram ram => Ram.getLong ram code address
  | space => do
    let high ← Space.getWord code address space
    let low ← Space.getWord code (address + 2) space
    return high ++ low

def Space.read (code : FunctionCode) (address : Address) (space : Space) :
    (size : Size) → Access size.Value
  | .byte => Space.getByte code address space
  | .word => Space.getWord code address space
  | .long => Space.getLong code address space

section Reading

variable (code : FunctionCode)

mutual

theorem Space.getByte_eq (address : Address) : (space : Space) →
    Space.getByte code address space = answer (space.getByte code address)
  | .ram ram => Ram.getByte_eq ram code address
  | .rom rom => Rom.getByte_eq
  | .map width layers => by
    rw [Space.getByte, page_eq, lift_ok_bind, Layers.getByte_eq _ layers (Nat.le_refl _)]
    rfl

/-- The regions below a mapping are numbered before its own. -/
theorem Layers.getByte_eq {regions : Nat} (address : Address) : (layers : Layers) →
    layers.regionCount ≤ regions →
      Layers.getByte regions code address layers = answer (layers.getByte code address)
  | .empty, _ => rfl
  | .mapped pages space below, hle => by
    rw [Layers.getByte, M68000.Layers.getByte]
    split
    next => rw [region_of_lt hle, lift_ok_bind, Space.getByte_eq address space]
    next => exact Layers.getByte_eq address below (Nat.le_of_succ_le hle)
  | .unmapped pages below, hle => by
    rw [Layers.getByte, M68000.Layers.getByte]
    split
    next => rfl
    next => exact Layers.getByte_eq address below hle

end

mutual

theorem Space.getWord_eq (address : Address) : (space : Space) →
    Space.getWord code address space = answer (space.getWord code address)
  | .ram ram => Ram.getWord_eq ram code address
  | .rom rom => Rom.getWord_eq
  | .map width layers => by
    have hbyte (address : Address) := Layers.getByte_eq code address layers (Nat.le_refl _)
    rw [Space.getWord, M68000.Space.getWord, page_eq, page_eq, lift_ok_bind, lift_ok_bind]
    split
    next => exact Layers.getWord_eq _ layers (Nat.le_refl _)
    next =>
      rw [hbyte]
      refine answer_bind fun high _ ↦ ?_
      rw [lift_ok_bind, hbyte]
      exact answer_bind fun low _ ↦ rfl

theorem Layers.getWord_eq {regions : Nat} (address : Address) : (layers : Layers) →
    layers.regionCount ≤ regions →
      Layers.getWord regions code address layers = answer (layers.getWord code address)
  | .empty, _ => rfl
  | .mapped pages space below, hle => by
    rw [Layers.getWord, M68000.Layers.getWord]
    split
    next => rw [region_of_lt hle, lift_ok_bind, Space.getWord_eq address space]
    next => exact Layers.getWord_eq address below (Nat.le_of_succ_le hle)
  | .unmapped pages below, hle => by
    rw [Layers.getWord, M68000.Layers.getWord]
    split
    next => rfl
    next => exact Layers.getWord_eq address below hle

end

variable (address : Address) (space : Space)

theorem Space.getLong_eq :
    Space.getLong code address space = answer (space.getLong code address) := by
  have hwords (address' : Address) := Space.getWord_eq code address' space
  cases space with
  | ram ram => exact Ram.getLong_eq ram code address
  | rom | map =>
    simp only [Space.getLong, M68000.Space.getLong, hwords]
    exact answer_bind fun high _ ↦ answer_bind fun low _ ↦ rfl

theorem Space.read_eq (size : Size) :
    Space.read code address space size = answer (space.read code address size) := by
  cases size with
  | byte => exact Space.getByte_eq code address space
  | word => exact Space.getWord_eq code address space
  | long => exact Space.getLong_eq code address space

end Reading

/-! ### Writing -/

mutual

def Space.putByte (code : FunctionCode) (address : Address) (value : Byte) :
    Space → Checked (Written Space)
  | .ram ram => do
    return (Written.ofExcept ram (← (Ram.putByte ram code address value).run)).within .ram
  | .rom rom => return .error ⟨address, code, .write⟩ (.rom rom)
  | .map width layers => do
    page width address
    return (← Layers.putByte layers.regionCount code (width.truncate address) value layers).within
      (.map width)

def Layers.putByte (regions : Nat) (code : FunctionCode) (address : Address) (value : Byte) :
    Layers → Checked (Written Layers)
  | .empty => return .error ⟨address, code, .write⟩ .empty
  | .mapped pages space below =>
    if pages.contains address.page then do
      region regions below.regionCount
      return (← Space.putByte code address value space).within (.mapped pages · below)
    else do
      return (← Layers.putByte regions code address value below).within (.mapped pages space)
  | .unmapped pages below =>
    if pages.contains address.page then
      return .error ⟨address, code, .write⟩ (.unmapped pages below)
    else do
      return (← Layers.putByte regions code address value below).within (.unmapped pages)

end

/-- A second part is written only if the first one was. -/
def andThen {σ : Type} (outcome : Written σ) (next : σ → Checked (Written σ)) :
    Checked (Written σ) :=
  match outcome with
  | .ok () space => next space
  | .error refusal space => return .error refusal space

mutual

def Space.putWord (code : FunctionCode) (address : Address) (value : BitVec 16) :
    Space → Checked (Written Space)
  | .ram ram => do
    return (Written.ofExcept ram (← (Ram.putWord ram code address value).run)).within .ram
  | .rom rom => return .error ⟨address, code, .write⟩ (.rom rom)
  | .map width layers =>
    if width.samePage address then do
      page width address
      let written ← Layers.putWord layers.regionCount code (width.truncate address) value layers
      return written.within (.map width)
    else do
      page width address
      let first ← Layers.putByte layers.regionCount code (width.truncate address)
        (value.extractLsb' 8 8) layers
      let written ← andThen first fun layers ↦ do
        page width (address + 1)
        Layers.putByte layers.regionCount code (width.truncate (address + 1))
          (value.extractLsb' 0 8) layers
      return written.within (.map width)

def Layers.putWord (regions : Nat) (code : FunctionCode) (address : Address)
    (value : BitVec 16) : Layers → Checked (Written Layers)
  | .empty => return .error ⟨address, code, .write⟩ .empty
  | .mapped pages space below =>
    if pages.contains address.page then do
      region regions below.regionCount
      return (← Space.putWord code address value space).within (.mapped pages · below)
    else do
      return (← Layers.putWord regions code address value below).within (.mapped pages space)
  | .unmapped pages below =>
    if pages.contains address.page then
      return .error ⟨address, code, .write⟩ (.unmapped pages below)
    else do
      return (← Layers.putWord regions code address value below).within (.unmapped pages)

end

def Space.putLong (code : FunctionCode) (address : Address) (value : BitVec 32) (space : Space) :
    Checked (Written Space) :=
  match space with
  | .ram ram => do
    return (Written.ofExcept ram (← (Ram.putLong ram code address value).run)).within .ram
  | space => do
    let first ← Space.putWord code address (value.extractLsb' 16 16) space
    andThen first (Space.putWord code (address + 2) (value.extractLsb' 0 16))

def Space.write (code : FunctionCode) (address : Address) (space : Space) :
    (size : Size) → size.Value → Checked (Written Space)
  | .byte, value => Space.putByte code address value space
  | .word, value => Space.putWord code address value space
  | .long, value => Space.putLong code address value space

section Writing

variable (code : FunctionCode)

theorem andThen_eq {σ : Type} {outcome : Written σ} {next : σ → Checked (Written σ)}
    {f : σ → Written σ} (h : ∀ space, next space = .ok (f space)) :
    andThen outcome next = .ok (outcome.andThen f) := by
  cases outcome with
  | ok _ space => exact h space
  | error refusal space => rfl

mutual

theorem Space.putByte_eq (address : Address) (value : Byte) : (space : Space) →
    Space.putByte code address value space = .ok (space.putByte code address value)
  | .ram ram => by
    rw [Space.putByte, Ram.putByte_eq]
    rfl
  | .rom rom => rfl
  | .map width layers => by
    rw [Space.putByte, page_eq, ok_bind, Layers.putByte_eq _ value layers (Nat.le_refl _)]
    rfl

theorem Layers.putByte_eq {regions : Nat} (address : Address) (value : Byte) :
    (layers : Layers) → layers.regionCount ≤ regions →
      Layers.putByte regions code address value layers = .ok (layers.putByte code address value)
  | .empty, _ => rfl
  | .mapped pages space below, hle => by
    rw [Layers.putByte, M68000.Layers.putByte]
    split
    next =>
      rw [region_of_lt hle, ok_bind, Space.putByte_eq address value space]
      rfl
    next =>
      rw [Layers.putByte_eq address value below (Nat.le_of_succ_le hle)]
      rfl
  | .unmapped pages below, hle => by
    rw [Layers.putByte, M68000.Layers.putByte]
    split
    next => rfl
    next =>
      rw [Layers.putByte_eq address value below hle]
      rfl

end

mutual

theorem Space.putWord_eq (address : Address) (value : BitVec 16) : (space : Space) →
    Space.putWord code address value space = .ok (space.putWord code address value)
  | .ram ram => by
    rw [Space.putWord, Ram.putWord_eq]
    rfl
  | .rom rom => rfl
  | .map width layers => by
    rw [Space.putWord, M68000.Space.putWord, page_eq, ok_bind, ok_bind]
    split
    next =>
      rw [Layers.putWord_eq _ value layers (Nat.le_refl _)]
      rfl
    next =>
      rw [Layers.putByte_eq code _ _ layers (Nat.le_refl _), ok_bind,
        andThen_eq (f := (·.putByte code (width.truncate (address + 1)) (value.extractLsb' 0 8)))]
      · rfl
      · intro layers
        rw [page_eq, ok_bind, Layers.putByte_eq code _ _ layers (Nat.le_refl _)]

theorem Layers.putWord_eq {regions : Nat} (address : Address) (value : BitVec 16) :
    (layers : Layers) → layers.regionCount ≤ regions →
      Layers.putWord regions code address value layers = .ok (layers.putWord code address value)
  | .empty, _ => rfl
  | .mapped pages space below, hle => by
    rw [Layers.putWord, M68000.Layers.putWord]
    split
    next =>
      rw [region_of_lt hle, ok_bind, Space.putWord_eq address value space]
      rfl
    next =>
      rw [Layers.putWord_eq address value below (Nat.le_of_succ_le hle)]
      rfl
  | .unmapped pages below, hle => by
    rw [Layers.putWord, M68000.Layers.putWord]
    split
    next => rfl
    next =>
      rw [Layers.putWord_eq address value below hle]
      rfl

end

variable (address : Address) (space : Space)

theorem Space.putLong_eq (value : BitVec 32) :
    Space.putLong code address value space = .ok (space.putLong code address value) := by
  have hwords (address' : Address) (value' : BitVec 16) (space' : Space) :=
    Space.putWord_eq code address' value' space'
  cases space with
  | ram ram =>
    rw [Space.putLong, Ram.putLong_eq]
    rfl
  | rom | map =>
    simp only [Space.putLong, M68000.Space.putLong, hwords, ok_bind]
    exact andThen_eq fun space ↦ hwords _ _ space

theorem Space.write_eq (size : Size) (value : size.Value) :
    Space.write code address space size value = .ok (space.write code address size value) := by
  cases size with
  | byte => exact Space.putByte_eq code address value space
  | word => exact Space.putWord_eq code address value space
  | long => exact Space.putLong_eq code address space value

end Writing

end Checked

end M68000
