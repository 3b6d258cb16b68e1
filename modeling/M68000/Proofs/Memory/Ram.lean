import M68000.Memory.Space

/-!
# A single memory

An access that is allowed reads or writes the bytes from one offset on, high byte first. So what
has been written is read back with any function code, and reads that do not meet a write answer
as they did before it.
-/

namespace M68000

namespace Ram

variable {ram after : Ram} {code code' : FunctionCode} {address other : Address}

/-! ## Offsets -/

theorem offset_eq_ok_iff {kind : AccessKind} {length offset : Nat} :
    ram.offset kind code address length = .ok offset ↔
      offset = (address - ram.base).toNat ∧ offset + length ≤ ram.size ∧
        (kind = .write → code.supervisor = false → ram.supervisorArea ≤ offset) := by
  unfold Ram.offset
  grind

/-- What was written can be read with any function code. -/
theorem offset_read_of_write {length offset : Nat}
    (h : ram.offset .write code address length = .ok offset) :
    ram.offset .read code' address length = .ok offset := by
  obtain ⟨heq, hsize, -⟩ := offset_eq_ok_iff.1 h
  exact offset_eq_ok_iff.2 ⟨heq, hsize, nofun⟩

/-! ## Reads and writes as changes of bytes -/

theorem getByte_eq_map :
    ram.getByte code address = (ram.offset .read code address 1).map ram.byteAt := by
  unfold getByte
  cases ram.offset .read code address 1 <;> rfl

theorem getWord_eq_map :
    ram.getWord code address =
      (ram.offset .read code address 2).map fun offset ↦
        ram.byteAt offset ++ ram.byteAt (offset + 1) := by
  unfold getWord
  cases ram.offset .read code address 2 <;> rfl

theorem getLong_eq_map :
    ram.getLong code address =
      (ram.offset .read code address 4).map fun offset ↦
        ram.byteAt offset ++ ram.byteAt (offset + 1) ++ ram.byteAt (offset + 2) ++
          ram.byteAt (offset + 3) := by
  unfold getLong
  cases ram.offset .read code address 4 <;> rfl

/-- A write that is done has changed the memory from the offset of its address on. -/
theorem eq_change_of_offset_bind_eq_ok {length : Nat} {change : Nat → Ram}
    (h : (ram.offset .write code address length >>= fun offset ↦ pure (change offset)) =
      .ok after) :
    ram.offset .write code address length = .ok (address - ram.base).toNat ∧
      after = change (address - ram.base).toNat := by
  cases hoffset : ram.offset .write code address length with
  | error refusal =>
    rw [hoffset] at h
    cases h
  | ok offset =>
    rw [hoffset] at h
    cases h
    obtain ⟨rfl, -⟩ := offset_eq_ok_iff.1 hoffset
    exact ⟨rfl, rfl⟩

theorem putByte_eq_ok {value : Byte} (h : ram.putByte code address value = .ok after) :
    ram.offset .write code address 1 = .ok (address - ram.base).toNat ∧
      after = ram.setByteAt (address - ram.base).toNat value :=
  eq_change_of_offset_bind_eq_ok h

theorem putWord_eq_ok {value : BitVec 16} (h : ram.putWord code address value = .ok after) :
    let offset := (address - ram.base).toNat
    ram.offset .write code address 2 = .ok offset ∧
      after = (ram.setByteAt offset (value.extractLsb' 8 8)).setByteAt (offset + 1)
        (value.extractLsb' 0 8) :=
  eq_change_of_offset_bind_eq_ok h

theorem putLong_eq_ok {value : BitVec 32} (h : ram.putLong code address value = .ok after) :
    let offset := (address - ram.base).toNat
    ram.offset .write code address 4 = .ok offset ∧
      after = (((ram.setByteAt offset (value.extractLsb' 24 8)).setByteAt (offset + 1)
        (value.extractLsb' 16 8)).setByteAt (offset + 2) (value.extractLsb' 8 8)).setByteAt
          (offset + 3) (value.extractLsb' 0 8) :=
  eq_change_of_offset_bind_eq_ok h

/-! ## Reading what was written -/

theorem getByte_putByte {value : Byte} (h : ram.putByte code address value = .ok after) :
    after.getByte code' address = .ok value := by
  obtain ⟨hoffset, rfl⟩ := putByte_eq_ok h
  have hread : (ram.setByteAt (address - ram.base).toNat value).offset .read code' address 1 =
      .ok (address - ram.base).toNat :=
    offset_read_of_write hoffset
  rw [getByte_eq_map, hread, Except.map, byteAt_setByteAt, if_pos rfl]

theorem getWord_putWord {value : BitVec 16} (h : ram.putWord code address value = .ok after) :
    after.getWord code' address = .ok value := by
  obtain ⟨hoffset, hafter⟩ := putWord_eq_ok h
  have hread : after.offset .read code' address 2 = .ok (address - ram.base).toNat := by
    rw [hafter]
    exact offset_read_of_write hoffset
  have hvalue : value.extractLsb' 8 8 ++ value.extractLsb' 0 8 = value := by
    rw [BitVec.extractLsb'_append_extractLsb'_eq_extractLsb' (by decide)]
    exact BitVec.extractLsb'_eq_self
  rw [getWord_eq_map, hread, hafter, Except.map]
  simp [hvalue]

theorem getLong_putLong {value : BitVec 32} (h : ram.putLong code address value = .ok after) :
    after.getLong code' address = .ok value := by
  obtain ⟨hoffset, hafter⟩ := putLong_eq_ok h
  have hread : after.offset .read code' address 4 = .ok (address - ram.base).toNat := by
    rw [hafter]
    exact offset_read_of_write hoffset
  have hvalue : value.extractLsb' 24 8 ++ value.extractLsb' 16 8 ++ value.extractLsb' 8 8 ++
      value.extractLsb' 0 8 = value := by
    rw [BitVec.extractLsb'_append_extractLsb'_eq_extractLsb' (by decide),
      BitVec.extractLsb'_append_extractLsb'_eq_extractLsb' (by decide),
      BitVec.extractLsb'_append_extractLsb'_eq_extractLsb' (by decide)]
    exact BitVec.extractLsb'_eq_self
  rw [getLong_eq_map, hread, hafter, Except.map]
  simp [hvalue]

/-! ## Reading elsewhere -/

/-- Both memories lie at the same addresses and hold the same bytes in a block. -/
structure AgreesOn (before after : Ram) (address : Address) (length : Nat) : Prop where
  size : after.size = before.size
  base : after.base = before.base
  byteAt : ∀ i < length, after.byteAt ((address - before.base).toNat + i) =
    before.byteAt ((address - before.base).toNat + i)

namespace AgreesOn

variable {length : Nat}

theorem map_offset (h : AgreesOn ram after address length) {f g : Nat → α}
    (hread : f (address - ram.base).toNat = g (address - ram.base).toNat) :
    (after.offset .read code address length).map f =
      (ram.offset .read code address length).map g := by
  have hoffset : after.offset .read code address length =
      ram.offset .read code address length := by
    unfold offset
    rw [h.size, h.base]
    rfl
  rw [hoffset]
  cases hram : ram.offset .read code address length with
  | error refusal => rfl
  | ok offset =>
    obtain ⟨rfl, -⟩ := offset_eq_ok_iff.1 hram
    exact congrArg Except.ok hread

theorem getByte (h : AgreesOn ram after address 1) :
    after.getByte code address = ram.getByte code address := by
  rw [getByte_eq_map, getByte_eq_map]
  exact h.map_offset (h.byteAt 0 (by decide))

theorem getWord (h : AgreesOn ram after address 2) :
    after.getWord code address = ram.getWord code address := by
  rw [getWord_eq_map, getWord_eq_map]
  have hhigh : after.byteAt (address - ram.base).toNat = ram.byteAt (address - ram.base).toNat :=
    h.byteAt 0 (by decide)
  refine h.map_offset ?_
  rw [hhigh, h.byteAt 1 (by decide)]

theorem getLong (h : AgreesOn ram after address 4) :
    after.getLong code address = ram.getLong code address := by
  rw [getLong_eq_map, getLong_eq_map]
  have hhigh : after.byteAt (address - ram.base).toNat = ram.byteAt (address - ram.base).toNat :=
    h.byteAt 0 (by decide)
  refine h.map_offset ?_
  rw [hhigh, h.byteAt 1 (by decide), h.byteAt 2 (by decide), h.byteAt 3 (by decide)]

end AgreesOn

/-- No address of the one block is an address of the other. -/
def Disjoint (first : Address) (length : Nat) (second : Address) (length' : Nat) : Prop :=
  ∀ i < length, ∀ j < length', first + BitVec.ofNat 32 i ≠ second + BitVec.ofNat 32 j

/-- Bytes at different addresses have different offsets. -/
theorem offset_ne {length length' : Nat} (h : Disjoint address length other length')
    (base : Address) {i j : Nat} (hi : i < length) (hj : j < length') :
    (address - base).toNat + i ≠ (other - base).toNat + j := by
  intro heq
  apply h i hi j hj
  bv_omega

section Writes

variable {length : Nat}

theorem agreesOn_putByte {value : Byte} (hdisjoint : Disjoint address length other 1)
    (h : ram.putByte code other value = .ok after) : AgreesOn ram after address length := by
  obtain ⟨-, rfl⟩ := putByte_eq_ok h
  refine ⟨rfl, rfl, fun i hi ↦ ?_⟩
  have hne : _ ≠ (other - ram.base).toNat := offset_ne hdisjoint ram.base hi Nat.zero_lt_one
  rw [byteAt_setByteAt, if_neg hne.symm]

theorem agreesOn_putWord {value : BitVec 16} (hdisjoint : Disjoint address length other 2)
    (h : ram.putWord code other value = .ok after) : AgreesOn ram after address length := by
  obtain ⟨-, rfl⟩ := putWord_eq_ok h
  refine ⟨rfl, rfl, fun i hi ↦ ?_⟩
  have hhigh : _ ≠ (other - ram.base).toNat := offset_ne hdisjoint ram.base hi Nat.zero_lt_two
  have hlow := offset_ne hdisjoint ram.base hi Nat.one_lt_two
  rw [byteAt_setByteAt, if_neg hlow.symm, byteAt_setByteAt, if_neg hhigh.symm]

theorem agreesOn_putLong {value : BitVec 32} (hdisjoint : Disjoint address length other 4)
    (h : ram.putLong code other value = .ok after) : AgreesOn ram after address length := by
  obtain ⟨-, rfl⟩ := putLong_eq_ok h
  refine ⟨rfl, rfl, fun i hi ↦ ?_⟩
  have hne (j : Nat) (hj : j < 4) := (offset_ne hdisjoint ram.base hi hj).symm
  have hfirst : (other - ram.base).toNat ≠ _ := hne 0 (by decide)
  rw [byteAt_setByteAt, if_neg (hne 3 (by decide)), byteAt_setByteAt, if_neg (hne 2 (by decide)),
    byteAt_setByteAt, if_neg (hne 1 (by decide)), byteAt_setByteAt, if_neg hfirst]

end Writes

end Ram

end M68000
