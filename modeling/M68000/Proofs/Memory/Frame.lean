import M68000.Proofs.Memory.Bytewise
import M68000.Proofs.Memory.ReadBack
import Mathlib.Data.Nat.ModEq

/-!
# What a write to a map does

A write to a map of single memories is seen at its own bytes and nowhere else, where the bytes are
told apart by the address bits that the bus carries.
-/

namespace M68000

/-- The `i`th byte of a value, from the highest on. -/
def Size.byteOf (size : Size) (value : size.Value) (i : Nat) : Byte :=
  value.extractLsb' (8 * (size.bytes - 1 - i)) 8

namespace Size

variable {high low : BitVec 16} {i : Nat}

theorem byteOf_append_of_lt (hi : i < 2) :
    Size.long.byteOf (high ++ low) i = Size.word.byteOf high i := by
  obtain rfl | rfl : i = 0 ∨ i = 1 := by omega
  · exact BitVec.extractLsb'_append_eq_of_le (by decide)
  · exact BitVec.extractLsb'_append_eq_of_le (by decide)

theorem byteOf_append_add (hi : i < 2) :
    Size.long.byteOf (high ++ low) (2 + i) = Size.word.byteOf low i := by
  obtain rfl | rfl : i = 0 ∨ i = 1 := by omega
  · exact BitVec.extractLsb'_append_eq_of_add_le (by decide)
  · exact BitVec.extractLsb'_append_eq_of_add_le (by decide)

end Size

namespace BusWidth

/-- No word of the access goes round the end of a bus with a single page. -/
def Straight (width : BusWidth) (address : Address) : Size → Prop
  | .byte => True
  | .word => ¬ width.Wraps address
  | .long => ¬ width.Wraps address ∧ ¬ width.Wraps (address + 2)

variable {width : BusWidth} {first second : Address}

theorem truncate_eq_iff_modEq :
    width.truncate first = width.truncate second ↔
      first.toNat ≡ second.toNat [MOD 2 ^ width.bits] :=
  width.truncate_inj_iff

theorem truncate_add_congr (h : width.truncate first = width.truncate second) (offset : Address) :
    width.truncate (first + offset) = width.truncate (second + offset) := by
  rw [← width.truncate_add_truncate, h, width.truncate_add_truncate]

theorem samePage_congr (h : width.truncate first = width.truncate second) :
    width.samePage first = width.samePage second := by
  rw [samePage, samePage, h, truncate_add_congr h]

theorem toNat_add_ofNat_modEq (width : BusWidth) (address : Address) (i : Nat) :
    (address + BitVec.ofNat 32 i).toNat ≡ address.toNat + i [MOD 2 ^ width.bits] := by
  have hdvd : 2 ^ width.bits ∣ 2 ^ 32 := Nat.pow_dvd_pow 2 width.le
  rw [BitVec.toNat_add, BitVec.toNat_ofNat, Nat.add_mod_mod]
  exact (Nat.mod_modEq _ _).of_dvd hdvd

/-- One turn of the bus upward from an address comes by every place. -/
theorem exists_modEq_add_ofNat (width : BusWidth) (address place : Address) :
    ∃ offset < 2 ^ width.bits,
      place.toNat ≡ (address + BitVec.ofNat 32 offset).toNat [MOD 2 ^ width.bits] := by
  refine ⟨(place - address).toNat % 2 ^ width.bits, Nat.mod_lt _ (Nat.two_pow_pos _), ?_⟩
  have hplace : address + BitVec.ofNat 32 (place - address).toNat = place := by
    rw [BitVec.ofNat_toNat, BitVec.setWidth_eq, BitVec.add_comm, BitVec.sub_add_cancel]
  conv_lhs => rw [← hplace]
  refine (width.toNat_add_ofNat_modEq ..).trans (.trans ?_ (width.toNat_add_ofNat_modEq ..).symm)
  exact (Nat.mod_modEq _ _).symm.add_left _

end BusWidth

/-! ## The address that counts -/

namespace Space

variable {width : BusWidth} {layers : Layers} {code code' : FunctionCode}
  {first second address : Address}

theorem getByte_map_congr (h : width.truncate first = width.truncate second) :
    (Space.map width layers).getByte code first = (Space.map width layers).getByte code second := by
  rw [getByte, getByte, h]

theorem getWord_map_congr (h : width.truncate first = width.truncate second) :
    (Space.map width layers).getWord code first = (Space.map width layers).getWord code second := by
  rw [getWord, getWord, BusWidth.samePage_congr h, h, BusWidth.truncate_add_congr h]

theorem putByte_map_congr {value : Byte} (h : width.truncate first = width.truncate second) :
    (Space.map width layers).putByte code first value =
      (Space.map width layers).putByte code second value := by
  rw [putByte, putByte, h]

theorem putWord_map_congr {value : BitVec 16} (h : width.truncate first = width.truncate second) :
    (Space.map width layers).putWord code first value =
      (Space.map width layers).putWord code second value := by
  rw [putWord, putWord, BusWidth.samePage_congr h, h, BusWidth.truncate_add_congr h]

theorem read_map_congr (h : width.truncate first = width.truncate second) (size : Size) :
    (Space.map width layers).read code first size =
      (Space.map width layers).read code second size := by
  cases size with
  | byte => exact getByte_map_congr h
  | word => exact getWord_map_congr h
  | long =>
    have hlow := BusWidth.truncate_add_congr h 2
    rw [read, read, getLong_map, getLong_map, getWord_map_congr h, getWord_map_congr hlow]

theorem putLong_map_congr {value : BitVec 32} (h : width.truncate first = width.truncate second) :
    (Space.map width layers).putLong code first value =
      (Space.map width layers).putLong code second value := by
  rw [putLong_map, putLong_map, putWord_map_congr h]
  cases hhigh : (Space.map width layers).putWord code second (value.extractLsb' 16 16) with
  | error refusal middle => rfl
  | ok _ middle =>
    obtain ⟨written, rfl⟩ := exists_eq_map_of_putWord hhigh
    exact putWord_map_congr (BusWidth.truncate_add_congr h 2)

theorem write_map_congr (h : width.truncate first = width.truncate second) (size : Size)
    (value : size.Value) :
    (Space.map width layers).write code first size value =
      (Space.map width layers).write code second size value := by
  cases size with
  | byte => exact putByte_map_congr h
  | word => exact putWord_map_congr h
  | long => exact putLong_map_congr h

/-! ## The bytes of what is read -/

/-- Every byte of a value that is read is read by itself too. -/
theorem getByte_of_getByte {space : Space} {value : Byte}
    (hread : space.getByte code address = .ok value) :
    ∀ i < 1, space.getByte code (address + BitVec.ofNat 32 i) = .ok (Size.byte.byteOf value i) := by
  intro i hi
  obtain rfl : i = 0 := by omega
  rw [BitVec.add_zero, hread]
  exact congrArg Except.ok BitVec.extractLsb'_eq_self.symm

theorem getByte_of_getWord {space : Space} {value : BitVec 16}
    (hbytes : space.Bytewise code address) (hread : space.getWord code address = .ok value) :
    ∀ i < 2, space.getByte code (address + BitVec.ofNat 32 i) = .ok (Size.word.byteOf value i) := by
  obtain ⟨high, low, hhigh, hlow, rfl⟩ := (hbytes value).1 hread
  intro i hi
  obtain rfl | rfl : i = 0 ∨ i = 1 := by omega
  · rw [BitVec.add_zero, hhigh]
    exact congrArg Except.ok BitVec.extractLsb'_append_eq_left.symm
  · exact hlow.trans (congrArg Except.ok BitVec.extractLsb'_append_eq_right.symm)

theorem getByte_of_getLong {value : BitVec 32}
    (hhigh : (Space.map width layers).Bytewise code address)
    (hlow : (Space.map width layers).Bytewise code (address + 2))
    (hread : (Space.map width layers).getLong code address = .ok value) :
    ∀ i < 4, (Space.map width layers).getByte code (address + BitVec.ofNat 32 i) =
      .ok (Size.long.byteOf value i) := by
  obtain ⟨high, low, hreadHigh, hreadLow, rfl⟩ := getLong_map_iff.1 hread
  intro i hi
  by_cases hi' : i < 2
  · rw [getByte_of_getWord hhigh hreadHigh i hi']
    exact congrArg Except.ok (Size.byteOf_append_of_lt hi').symm
  · obtain ⟨j, rfl⟩ : ∃ j, i = 2 + j := ⟨i - 2, by omega⟩
    have hbyte := getByte_of_getWord hlow hreadLow j (by omega)
    rw [BitVec.ofNat_add, ← BitVec.add_assoc]
    refine hbyte.trans ?_
    exact congrArg Except.ok (Size.byteOf_append_add (by omega)).symm

theorem getByte_of_read_map {size : Size} {value : size.Value} (hfits : layers.Fits)
    (hstraight : width.Straight address size)
    (hread : (Space.map width layers).read code address size = .ok value) :
    ∀ i < size.bytes, (Space.map width layers).getByte code (address + BitVec.ofNat 32 i) =
      .ok (size.byteOf value i) := by
  cases size with
  | byte => exact getByte_of_getByte hread
  | word => exact getByte_of_getWord (bytewise_map hfits hstraight) hread
  | long =>
    exact getByte_of_getLong (bytewise_map hfits hstraight.1) (bytewise_map hfits hstraight.2) hread

/-! ## Maps of single memories -/

/-- A single memory, and no map. -/
def IsMemory : Space → Prop
  | .ram _ | .rom _ => True
  | .map _ _ => False

theorem IsMemory.distinct {space : Space} (h : space.IsMemory) (hne : first ≠ second) :
    space.Distinct first second := by
  cases space with
  | ram ram => exact hne
  | rom rom => exact hne
  | map width layers => exact h.elim

/-- What is written to a map is a map of the same width, whose memories still fit. -/
theorem exists_eq_map_of_write {size : Size} {value : size.Value} {after : Space}
    (h : (Space.map width layers).write code address size value = .ok () after) :
    ∃ written, after = .map width written ∧ (layers.Fits → written.Fits) := by
  have hlayout : after.layout = .map width layers.layout := layout_of_write size h
  cases after with
  | ram ram => cases hlayout
  | rom rom => cases hlayout
  | map width' written =>
    obtain rfl : width' = width := (Space.map.inj hlayout).1
    refine ⟨written, rfl, fun hfits ↦ ?_⟩
    have hbefore : (Space.map width' layers).layout.Fits := (fits_layout _).2 hfits
    have hafter : (Space.map width' written).layout.Fits := by
      rw [hlayout]
      exact hbefore
    exact (fits_layout _).1 hafter

/-- The byte is none of the written ones. -/
theorem apart_of_not_modEq {other : Address} {length : Nat} (hsingle : layers.All IsMemory)
    (hother : ∀ i < length,
      ¬ other.toNat ≡ (address + BitVec.ofNat 32 i).toNat [MOD 2 ^ width.bits]) :
    (Space.map width layers).Apart other 1 address length := by
  intro i hi j hj
  obtain rfl : i = 0 := by omega
  have hne : width.truncate other ≠ width.truncate (address + BitVec.ofNat 32 j) :=
    fun heq ↦ hother j hj (BusWidth.truncate_eq_iff_modEq.1 heq)
  rw [BitVec.add_zero]
  exact Layers.distinct_of_all (hsingle.imp fun region hregion ↦ hregion.distinct hne) hne

/-- A write to a map of single memories is read back byte by byte with any function code, unless it
goes round the end of a bus with a single page. No other byte changes, and only the address bits
that the bus carries count. -/
theorem write_map_of_memories (width : BusWidth) (layers : Layers)
    (hsingle : layers.All IsMemory) :
    (∀ (code code' : FunctionCode) (address : Address) (size : Size) (value : size.Value)
        (after : Space),
      (Space.map width layers).write code address size value = .ok () after →
        (layers.Fits → width.Straight address size → ∀ i < size.bytes,
          after.getByte code' (address + BitVec.ofNat 32 i) = .ok (size.byteOf value i)) ∧
        ∀ other : Address,
          (∀ i < size.bytes,
            ¬ other.toNat ≡ (address + BitVec.ofNat 32 i).toNat [MOD 2 ^ width.bits]) →
          after.getByte code' other = (Space.map width layers).getByte code' other) ∧
    ∀ (code : FunctionCode) (first second : Address),
      first.toNat ≡ second.toNat [MOD 2 ^ width.bits] → ∀ size : Size,
        (Space.map width layers).read code first size =
          (Space.map width layers).read code second size ∧
        ∀ value : size.Value,
          (Space.map width layers).write code first size value =
            (Space.map width layers).write code second size value := by
  constructor
  · intro code code' address size value after hwrite
    constructor
    · intro hfits hstraight
      have hread : after.read code' address size = .ok value := read_write hwrite
      obtain ⟨written, rfl, hfits'⟩ := exists_eq_map_of_write hwrite
      exact getByte_of_read_map (hfits' hfits) hstraight hread
    · intro other hother
      have hapart := apart_of_not_modEq hsingle hother
      have hread : after.read code' other .byte = (Space.map width layers).read code' other .byte :=
        read_write_of_apart hapart hwrite
      exact hread
  · intro code first second hmod size
    have htruncate := BusWidth.truncate_eq_iff_modEq.2 hmod
    exact ⟨read_map_congr htruncate size, write_map_congr htruncate size⟩

/-- Two memories of a page each, on a bus that they fill. -/
def twoMemories : Layers :=
  (Layers.empty.insert (.clamp 14) 0 0x2000 (.ram { size := 0x2000 })).insert (.clamp 14) 0x2000
    0x2000 (.ram { size := 0x2000, base := 0x2000 })

/-- The long word at the top goes on at the bottom. -/
theorem write_map_of_memories_twoMemories :
    twoMemories.All IsMemory ∧ ∃ after,
      (Space.map (.clamp 14) twoMemories).write .userData 0x3fff .long 0x12345678 = .ok () after ∧
        after.getByte .userProgram 0x4000 = .ok 0x34 ∧ after.getByte .userProgram 5 = .ok 0 := by
  have hsingle : twoMemories.All IsMemory := ⟨trivial, trivial, trivial⟩
  have hfits : twoMemories.Fits := ⟨.inl (by decide), .inl (by decide), trivial⟩
  have hbits : (BusWidth.clamp 14).bits ≠ pageBits := by decide
  have hstraight : (BusWidth.clamp 14).Straight 0x3fff .long :=
    ⟨fun h ↦ hbits h.1, fun h ↦ hbits h.1⟩
  obtain ⟨hback, hframe⟩ := (write_map_of_memories (.clamp 14) twoMemories hsingle).1 .userData
    .userProgram 0x3fff .long 0x12345678 _ rfl
  refine ⟨hsingle, _, rfl, hback hfits hstraight 1 (by decide), ?_⟩
  exact hframe 5 (by decide)

/-- On a bus with a single page the word at its last byte is written, and its low byte is not at the
address after it. -/
theorem getByte_putWord_of_wraps :
    let space := Space.map (.clamp 13) (Layers.empty.insert (.clamp 13) 0 0x2000
      (.ram { size := 0x4000 }))
    ∃ after, space.putWord .supervisorData 0x1fff 0x1234 = .ok () after ∧
      after.getByte .supervisorData 0x1fff = .ok 0x12 ∧
      after.getByte .supervisorData 0x2000 = .ok 0 :=
  ⟨_, rfl, rfl, rfl⟩

end Space

end M68000
