import M68000.Memory.Bulk
import M68000.Proofs.Memory.Frame

/-!
# Where a refused write stops

Long words, words across pages, blocks and strings are written in parts, and a part that is refused
ends the write. In a single memory, or a map of such memories, the refusal names the first byte that
was not written: the bytes before it are there, and nothing else has changed.

A long word of a map is the exception if its high word is not two bytes of the bus. On a bus with a
single page the word at the last byte leaves its low byte above the top of the bus.
-/

namespace M68000

/-- The bytes of a value, the highest first. -/
def Size.bytesOf (size : Size) (value : size.Value) : List Byte :=
  (List.range size.bytes).map (size.byteOf value)

namespace Size

variable {size : Size} {value : size.Value}

theorem getElem_bytesOf {i : Nat} (hi : i < (size.bytesOf value).length) :
    (size.bytesOf value)[i] = size.byteOf value i := by
  simp only [bytesOf, List.getElem_map, List.getElem_range]

theorem bytesOf_append (high low : BitVec 16) :
    Size.long.bytesOf (high ++ low) = Size.word.bytesOf high ++ Size.word.bytesOf low := by
  have hhigh (i : Nat) (hi : i < 2) :
      Size.long.byteOf (high ++ low) i = Size.word.byteOf high i := byteOf_append_of_lt hi
  have hlow (i : Nat) (hi : i < 2) :
      Size.long.byteOf (high ++ low) (2 + i) = Size.word.byteOf low i := byteOf_append_add hi
  change [_, _, _, _] = [_, _, _, _]
  rw [hhigh 0, hhigh 1, hlow 0, hlow 1] <;> decide

end Size

theorem BusWidth.four_le (width : BusWidth) : 4 ≤ 2 ^ width.bits :=
  calc
    4 ≤ 2 ^ pageBits := by decide
    _ ≤ 2 ^ width.bits := Nat.pow_le_pow_right (by decide) width.pageBits_le

/-! ## Writes done wholly or not at all -/

namespace Written

/-- The write is done, or else it is refused in this way and changes nothing. -/
def Atomic (outcome : Written σ) (unchanged : σ) (refusal : BusError) : Prop :=
  ∀ found after, outcome = .error found after → found = refusal ∧ after = unchanged

variable {outcome : Written σ} {unchanged : σ} {refusal : BusError}

theorem Atomic.within (h : outcome.Atomic unchanged refusal) (context : σ → τ) :
    (outcome.within context).Atomic (context unchanged) refusal := by
  cases outcome with
  | ok _ space => nofun
  | error found space =>
    obtain ⟨rfl, rfl⟩ := h _ _ rfl
    rintro _ _ ⟨⟩
    exact ⟨rfl, rfl⟩

theorem atomic_error (unchanged : σ) (refusal : BusError) :
    Written.Atomic (.error refusal unchanged) unchanged refusal := by
  rintro _ _ ⟨⟩
  exact ⟨rfl, rfl⟩

theorem atomic_ofExcept {result : Except BusError σ}
    (h : ∀ found, result = .error found → found = refusal) :
    (ofExcept unchanged result).Atomic unchanged refusal := by
  cases result with
  | ok space => nofun
  | error found =>
    obtain rfl := h found rfl
    exact atomic_error unchanged found

end Written

theorem Ram.atomic_offset {ram : Ram} {code : FunctionCode} {address : Address} {length : Nat}
    (store : Nat → Ram) :
    (Written.ofExcept ram
      (ram.offset .write code address length >>= fun offset ↦ pure (store offset))).Atomic ram
        ⟨address, code, .write⟩ := by
  apply Written.atomic_ofExcept
  intro found h
  rw [Ram.offset] at h
  split_ifs at h
  · exact (Except.error.inj h).symm
  · exact (Except.error.inj h).symm
  · cases h

theorem Layers.atomic_update {write : Space → Written Space} {refusal : BusError} {layers : Layers}
    (hregions : layers.All fun region ↦ (write region).Atomic region refusal) (page : Nat) :
    (layers.update page write refusal).Atomic layers refusal := by
  induction layers using Layers.induct with
  | empty => exact Written.atomic_error _ _
  | mapped pages region below ih =>
    rw [update]
    split
    · exact hregions.1.within _
    · exact (ih hregions.2).within _
  | unmapped pages below ih =>
    rw [update]
    split
    · exact Written.atomic_error _ _
    · exact (ih hregions).within _

namespace Space

variable {space before middle after : Space} {code : FunctionCode} {address : Address}

/-- A single memory writes an operand whole. -/
theorem IsMemory.atomic_write (h : space.IsMemory) (code : FunctionCode) (address : Address)
    (size : Size) (value : size.Value) :
    (space.write code address size value).Atomic space ⟨address, code, .write⟩ := by
  cases space with
  | ram ram =>
    cases size with
    | byte => exact (Ram.atomic_offset _).within Space.ram
    | word => exact (Ram.atomic_offset _).within Space.ram
    | long => exact (Ram.atomic_offset _).within Space.ram
  | rom rom => cases size <;> exact Written.atomic_error _ _
  | map width layers => exact h.elim

/-! ## Flat spaces -/

/-- A single memory, or a map of single memories. -/
def Flat : Space → Prop
  | .ram _ | .rom _ => True
  | .map _ layers => layers.All IsMemory

/-- The address lines that tell the bytes of a space apart. -/
def bus : Space → BusWidth
  | .ram _ | .rom _ => .clamp 32
  | .map width _ => width

theorem bus_layout (space : Space) : space.layout.bus = space.bus := by
  cases space <;> rfl

theorem bus_eq_of_layout (h : after.layout = before.layout) : after.bus = before.bus := by
  rw [← bus_layout, h, bus_layout]

theorem flat_layout (space : Space) : space.layout.Flat ↔ space.Flat := by
  cases space with
  | ram ram => rfl
  | rom rom => rfl
  | map width layers =>
    change layers.layout.All IsMemory ↔ layers.All IsMemory
    induction layers using Layers.induct with
    | empty => rfl
    | mapped pages region below ih => exact and_congr (by cases region <;> rfl) ih
    | unmapped pages below ih => exact ih

theorem Flat.of_layout (hflat : before.Flat) (h : after.layout = before.layout) : after.Flat := by
  rw [← flat_layout, h, flat_layout]
  exact hflat

theorem truncate_clamp (address : Address) : (BusWidth.clamp 32).truncate address = address := by
  rw [← BitVec.toNat_inj, BusWidth.toNat_truncate]
  exact Nat.mod_eq_of_lt address.isLt

/-- In a flat space bytes are different if the bus tells their addresses apart. -/
theorem Flat.distinct (hflat : space.Flat) {first second : Address}
    (h : space.bus.truncate first ≠ space.bus.truncate second) : space.Distinct first second := by
  cases space with
  | ram ram => exact fun heq ↦ h (congrArg _ heq)
  | rom rom => exact fun heq ↦ h (congrArg _ heq)
  | map width layers =>
    exact Layers.distinct_of_all (hflat.imp fun region hregion ↦ hregion.distinct h) h

theorem Flat.atomic_putByte (hflat : space.Flat) (value : Byte) :
    (space.putByte code address value).Atomic space
      ⟨space.bus.truncate address, code, .write⟩ := by
  cases space with
  | ram ram =>
    have hmemory : (Space.ram ram).IsMemory := trivial
    rw [bus, truncate_clamp]
    exact hmemory.atomic_write code address .byte value
  | rom rom =>
    have hmemory : (Space.rom rom).IsMemory := trivial
    rw [bus, truncate_clamp]
    exact hmemory.atomic_write code address .byte value
  | map width layers =>
    rw [putByte, Layers.putByte_eq_update]
    have hregions := hflat.imp fun region hregion ↦
      hregion.atomic_write code (width.truncate address) .byte value
    exact (Layers.atomic_update hregions _).within (Space.map width)

/-! ## Blocks that have been written -/

/-- The bytes stand at the address, where accesses of every kind read them, and every other byte of
the bus is as it was. -/
structure Filled (before after : Space) (address : Address) (bytes : List Byte) : Prop where
  holds : ∀ (code : FunctionCode) (i : Nat) (hi : i < bytes.length),
    after.getByte code (address + BitVec.ofNat 32 i) = .ok bytes[i]
  keeps : ∀ (code : FunctionCode) (other : Address),
    (∀ i < bytes.length, ¬ other.toNat ≡ address.toNat + i [MOD 2 ^ before.bus.bits]) →
      after.getByte code other = before.getByte code other

/-- The write of a block is refused at one of its bytes, after those before it have been written and
nothing else. -/
def StopsAt (before after : Space) (code : FunctionCode) (address : Address) (bytes : List Byte)
    (refusal : BusError) : Prop :=
  ∃ done < bytes.length,
    refusal = ⟨before.bus.truncate (address + BitVec.ofNat 32 done), code, .write⟩ ∧
      before.Filled after address (bytes.take done)

variable {bytes rest : List Byte} {refusal : BusError}

theorem truncate_add_eq_iff_modEq {width : BusWidth} {other : Address} {i : Nat} :
    width.truncate other = width.truncate (address + BitVec.ofNat 32 i) ↔
      other.toNat ≡ address.toNat + i [MOD 2 ^ width.bits] := by
  have hdvd : 2 ^ width.bits ∣ 2 ^ 32 := Nat.pow_dvd_pow 2 width.le
  have hmod : (address + BitVec.ofNat 32 i).toNat ≡ address.toNat + i [MOD 2 ^ width.bits] := by
    rw [BitVec.toNat_add, BitVec.toNat_ofNat, Nat.add_mod_mod]
    exact (Nat.mod_modEq _ _).of_dvd hdvd
  rw [BusWidth.truncate_eq_iff_modEq]
  exact ⟨fun h ↦ h.trans hmod, fun h ↦ h.trans hmod.symm⟩

/-- Bytes of a block that is no longer than the bus have different addresses there. -/
theorem eq_of_truncate_add_eq {width : BusWidth} {i j : Nat} (hi : i < 2 ^ width.bits)
    (hj : j < 2 ^ width.bits)
    (h : width.truncate (address + BitVec.ofNat 32 i) =
      width.truncate (address + BitVec.ofNat 32 j)) : i = j := by
  have hi' := truncate_add_eq_iff_modEq.1 (rfl : width.truncate (address + BitVec.ofNat 32 i) = _)
  have hmod := hi'.symm.trans (truncate_add_eq_iff_modEq.1 h)
  exact (Nat.ModEq.add_left_cancel' _ hmod).eq_of_lt_of_lt hi hj

theorem filled_nil (space : Space) (address : Address) : space.Filled space address [] :=
  ⟨nofun, fun _ _ _ ↦ rfl⟩

/-- Blocks that follow one another and are together no longer than the bus. -/
theorem Filled.append (hfirst : before.Filled middle address bytes)
    (hrest : middle.Filled after (address + BitVec.ofNat 32 bytes.length) rest)
    (hbus : middle.bus = before.bus)
    (hlength : bytes.length + rest.length ≤ 2 ^ before.bus.bits) :
    before.Filled after address (bytes ++ rest) := by
  have hnext (other : Address) (j : Nat) :
      other.toNat ≡ (address + BitVec.ofNat 32 bytes.length).toNat + j
          [MOD 2 ^ middle.bus.bits] ↔
        other.toNat ≡ address.toNat + (bytes.length + j) [MOD 2 ^ before.bus.bits] := by
    rw [← truncate_add_eq_iff_modEq, ← truncate_add_eq_iff_modEq, BitVec.add_assoc,
      ← BitVec.ofNat_add, hbus]
  refine ⟨fun code i hi ↦ ?_, fun code other hother ↦ ?_⟩
  · rw [List.length_append] at hi
    by_cases hi' : i < bytes.length
    · have hkept : after.getByte code (address + BitVec.ofNat 32 i) =
          middle.getByte code (address + BitVec.ofNat 32 i) := by
        -- The second block does not come round to the first, since the bus has room for both.
        refine hrest.keeps code _ fun j hj hmod ↦ ?_
        rw [hnext, ← truncate_add_eq_iff_modEq] at hmod
        have heq := eq_of_truncate_add_eq (by omega) (by omega) hmod
        omega
      rw [hkept, hfirst.holds code i hi', List.getElem_append_left hi']
    · have hheld := hrest.holds code (i - bytes.length) (by omega)
      rw [BitVec.add_assoc, ← BitVec.ofNat_add, Nat.add_sub_cancel' (by omega)] at hheld
      rw [hheld, List.getElem_append_right (by omega)]
  · rw [List.length_append] at hother
    have hkept : after.getByte code other = middle.getByte code other :=
      hrest.keeps code other fun j hj hmod ↦ hother _ (by omega) ((hnext other j).1 hmod)
    rw [hkept, hfirst.keeps code other fun i hi ↦ hother i (by omega)]

theorem StopsAt.of_unchanged (hbytes : bytes ≠ [])
    (h : refusal = ⟨before.bus.truncate address, code, .write⟩ ∧ after = before) :
    before.StopsAt after code address bytes refusal := by
  obtain ⟨rfl, rfl⟩ := h
  refine ⟨0, List.length_pos_iff.2 hbytes, ?_, filled_nil after address⟩
  rw [BitVec.add_zero]

theorem StopsAt.append (h : before.StopsAt after code address bytes refusal) (rest : List Byte) :
    before.StopsAt after code address (bytes ++ rest) refusal := by
  obtain ⟨done, hdone, hrefusal, hfilled⟩ := h
  refine ⟨done, ?_, hrefusal, ?_⟩
  · rw [List.length_append]
    omega
  · rw [List.take_append_of_le_length hdone.le]
    exact hfilled

/-- A write that stops behind bytes that have been written. -/
theorem Filled.stopsAt (hfirst : before.Filled middle address bytes)
    (h : middle.StopsAt after code (address + BitVec.ofNat 32 bytes.length) rest refusal)
    (hbus : middle.bus = before.bus)
    (hlength : bytes.length + rest.length ≤ 2 ^ before.bus.bits) :
    before.StopsAt after code address (bytes ++ rest) refusal := by
  obtain ⟨done, hdone, hrefusal, hfilled⟩ := h
  refine ⟨bytes.length + done, ?_, ?_, ?_⟩
  · rw [List.length_append]
    omega
  · rw [hrefusal, hbus, BitVec.add_assoc, ← BitVec.ofNat_add]
  · rw [List.take_length_add_append]
    refine hfirst.append hfilled hbus ?_
    rw [List.length_take]
    omega

/-- Two writes one after the other, either of which may be the one that stops. -/
theorem stopsAt_of_andThen {outcome : Written Space} {next : Space → Written Space}
    (h : outcome.andThen next = .error refusal after)
    (hfirst : ∀ refusal after, outcome = .error refusal after →
      before.StopsAt after code address bytes refusal)
    (hdone : ∀ middle, outcome = .ok () middle →
      middle.bus = before.bus ∧ before.Filled middle address bytes ∧
        ∀ refusal after, next middle = .error refusal after →
          middle.StopsAt after code (address + BitVec.ofNat 32 bytes.length) rest refusal)
    (hlength : bytes.length + rest.length ≤ 2 ^ before.bus.bits) :
    before.StopsAt after code address (bytes ++ rest) refusal := by
  cases houtcome : outcome with
  | error found space =>
    rw [houtcome] at h
    cases h
    exact (hfirst _ _ houtcome).append rest
  | ok _ middle =>
    rw [houtcome] at h
    obtain ⟨hbus, hfilled, hnext⟩ := hdone middle houtcome
    exact hfilled.stopsAt (hnext _ _ h) hbus hlength

/-! ## Operands -/

theorem apart_of_not_truncate_eq (hflat : space.Flat) {other : Address} {length : Nat}
    (h : ∀ i < length, ¬ other.toNat ≡ address.toNat + i [MOD 2 ^ space.bus.bits]) :
    space.Apart other 1 address length := by
  intro i hi j hj
  obtain rfl : i = 0 := by omega
  rw [BitVec.add_zero]
  exact hflat.distinct fun heq ↦ h j hj (truncate_add_eq_iff_modEq.1 heq)

theorem filled_of_putByte (hflat : space.Flat) {value : Byte}
    (h : space.putByte code address value = .ok () after) :
    after.bus = space.bus ∧ after.Flat ∧ space.Filled after address [value] := by
  have hlayout := layout_of_write .byte h
  refine ⟨bus_eq_of_layout hlayout, hflat.of_layout hlayout, fun code' i hi ↦ ?_,
    fun code' other hother ↦ ?_⟩
  · obtain rfl : i = 0 := Nat.lt_one_iff.1 hi
    rw [BitVec.add_zero]
    exact getByte_putByte h
  · exact getByte_putByte_of_apart (apart_of_not_truncate_eq hflat hother) h

variable {width : BusWidth} {layers : Layers}

theorem filled_of_putWord (hflat : (Space.map width layers).Flat) (hfits : layers.Fits)
    (hwraps : ¬ width.Wraps address) {value : BitVec 16}
    (h : (Space.map width layers).putWord code address value = .ok () after) :
    after.bus = width ∧ after.Flat ∧
      (Space.map width layers).Filled after address (Size.word.bytesOf value) := by
  have hwrite : (Space.map width layers).write code address .word value = .ok () after := h
  have hlayout := layout_of_write .word hwrite
  refine ⟨bus_eq_of_layout hlayout, hflat.of_layout hlayout, fun code' i hi ↦ ?_,
    fun code' other hother ↦ ?_⟩
  · obtain ⟨written, rfl, hfits'⟩ := exists_eq_map_of_write hwrite
    have hbytes : (Space.map width written).Bytewise code' address :=
      bytewise_map (hfits' hfits) hwraps
    have hbyte := getByte_of_getWord hbytes (getWord_putWord h) i hi
    exact hbyte.trans (congrArg Except.ok (Size.getElem_bytesOf hi).symm)
  · exact getByte_putWord_of_apart (apart_of_not_truncate_eq hflat hother) h

theorem atomic_putWord (hsingle : layers.All IsMemory) (hpage : width.samePage address)
    (value : BitVec 16) :
    ((Space.map width layers).putWord code address value).Atomic (.map width layers)
      ⟨width.truncate address, code, .write⟩ := by
  rw [putWord, if_pos hpage, Layers.putWord_eq_update]
  have hregions := hsingle.imp fun region hregion ↦
    hregion.atomic_write code (width.truncate address) .word value
  exact (Layers.atomic_update hregions _).within (Space.map width)

/-- An operand that goes to one memory whole. -/
theorem atomic_write_of_whole (hsingle : layers.All IsMemory) {size : Size}
    (hwhole : width.Whole address size.bytes) (value : size.Value) :
    ((Space.map width layers).write code address size value).Atomic (.map width layers)
      ⟨width.truncate address, code, .write⟩ := by
  have hflat : (Space.map width layers).Flat := hsingle
  obtain hbyte | ⟨hword, hpage⟩ := hwhole
  · cases size with
    | byte => exact hflat.atomic_putByte value
    | word => cases hbyte
    | long => cases hbyte
  · cases size with
    | byte => cases hword
    | word => exact atomic_putWord hsingle hpage value
    | long => cases hword

/-- A word is written whole, or byte by byte if it crosses into another page. -/
theorem stopsAt_of_putWord (hflat : (Space.map width layers).Flat) {value : BitVec 16}
    (h : (Space.map width layers).putWord code address value = .error refusal after) :
    (Space.map width layers).StopsAt after code address (Size.word.bytesOf value) refusal := by
  by_cases hpage : width.samePage address
  · exact .of_unchanged (List.cons_ne_nil _ _) (atomic_putWord hflat hpage value _ _ h)
  · rw [putWord_map_of_split hpage] at h
    change StopsAt _ _ _ _ ([_] ++ [_]) _
    refine stopsAt_of_andThen h (fun refusal after h ↦ ?_) (fun middle h ↦ ?_) ?_
    · exact .of_unchanged (List.cons_ne_nil _ _) (hflat.atomic_putByte _ _ _ h)
    · obtain ⟨hbus, hflat', hfilled⟩ := filled_of_putByte hflat h
      refine ⟨hbus, hfilled, fun refusal after h ↦ ?_⟩
      exact .of_unchanged (List.cons_ne_nil _ _) (hflat'.atomic_putByte _ _ _ h)
    · exact (by decide : 1 + 1 ≤ 4).trans width.four_le

/-- A long word of a map is two words, the first of which has to be two bytes of the bus. -/
theorem stopsAt_of_putLong (hflat : (Space.map width layers).Flat) (hfits : layers.Fits)
    (hwraps : ¬ width.Wraps address) {value : BitVec 32}
    (h : (Space.map width layers).putLong code address value = .error refusal after) :
    (Space.map width layers).StopsAt after code address (Size.long.bytesOf value) refusal := by
  have hvalue : value = value.extractLsb' 16 16 ++ value.extractLsb' 0 16 := by
    rw [BitVec.extractLsb'_append_extractLsb'_eq_extractLsb' (by decide)]
    exact BitVec.extractLsb'_eq_self.symm
  rw [hvalue, Size.bytesOf_append]
  rw [putLong_map] at h
  refine stopsAt_of_andThen h (fun refusal after h ↦ ?_) (fun middle h ↦ ?_) ?_
  · exact stopsAt_of_putWord hflat h
  · obtain ⟨hbus, hflat', hfilled⟩ := filled_of_putWord hflat hfits hwraps h
    obtain ⟨written, rfl⟩ := exists_eq_map_of_putWord h
    exact ⟨hbus, hfilled, fun refusal after h ↦ stopsAt_of_putWord hflat' h⟩
  · exact width.four_le

/-- The high word of a long word is two bytes of the bus: it does not go round the end of a single
page, and no memory goes round over its top. -/
def Halves (address : Address) : Space → Prop
  | .ram _ | .rom _ => True
  | .map width layers => layers.Fits ∧ ¬ width.Wraps address

theorem stopsAt_of_write (hflat : space.Flat) (size : Size) {value : size.Value}
    (hhalves : size = .long → space.Halves address)
    (h : space.write code address size value = .error refusal after) :
    space.StopsAt after code address (size.bytesOf value) refusal := by
  have hbytes : size.bytesOf value ≠ [] := by cases size <;> exact List.cons_ne_nil _ _
  cases space with
  | ram ram =>
    have hmemory : (Space.ram ram).IsMemory := trivial
    have hatomic := hmemory.atomic_write code address size value _ _ h
    rw [← truncate_clamp address] at hatomic
    exact .of_unchanged hbytes hatomic
  | rom rom =>
    have hmemory : (Space.rom rom).IsMemory := trivial
    have hatomic := hmemory.atomic_write code address size value _ _ h
    rw [← truncate_clamp address] at hatomic
    exact .of_unchanged hbytes hatomic
  | map width layers =>
    cases size with
    | byte => exact .of_unchanged hbytes (hflat.atomic_putByte value _ _ h)
    | word => exact stopsAt_of_putWord hflat h
    | long =>
      obtain ⟨hfits, hwraps⟩ := hhalves rfl
      exact stopsAt_of_putLong hflat hfits hwraps h

/-! ## Blocks and strings -/

/-- By induction on the bytes that are left: each is written or is the one that stops the write. -/
theorem stopsAt_of_writeBytes (hflat : space.Flat) (hlength : bytes.length ≤ 2 ^ space.bus.bits)
    (h : space.writeBytes code address bytes = .error refusal after) :
    space.StopsAt after code address bytes refusal := by
  induction bytes generalizing space address with
  | nil => cases h
  | cons byte rest ih =>
    rw [List.length_cons] at hlength
    rw [writeBytes] at h
    cases hbyte : space.putByte code address byte with
    | error found stopped =>
      rw [hbyte] at h
      cases h
      exact .of_unchanged (List.cons_ne_nil _ _) (hflat.atomic_putByte byte _ _ hbyte)
    | ok _ middle =>
      rw [hbyte] at h
      obtain ⟨hbus, hflat', hfilled⟩ := filled_of_putByte hflat hbyte
      have hstops := ih hflat' (by rw [hbus]; omega) h
      exact hfilled.stopsAt hstops hbus (by rw [List.length_singleton]; omega)

/-- A refused write to a flat space stops exactly at the address that it reports. -/
theorem refused_write_stops (space : Space) (hflat : space.Flat) (code : FunctionCode)
    (address : Address) :
    (∀ (size : Size) (value : size.Value) (refusal : BusError) (after : Space),
      (size = .long → space.Halves address) →
      space.write code address size value = .error refusal after →
        space.StopsAt after code address (size.bytesOf value) refusal) ∧
    (∀ (bytes : List Byte) (refusal : BusError) (after : Space),
      bytes.length ≤ 2 ^ space.bus.bits →
      space.writeBytes code address bytes = .error refusal after →
        space.StopsAt after code address bytes refusal) ∧
    ∀ (bytes : List Byte) (refusal : BusError) (after : Space),
      (bytes ++ [0]).length ≤ 2 ^ space.bus.bits →
      space.writeString code address bytes = .error refusal after →
        space.StopsAt after code address (bytes ++ [0]) refusal := by
  refine ⟨fun size value refusal after hhalves h ↦ ?_, fun bytes refusal after hlength h ↦ ?_,
    fun bytes refusal after hlength h ↦ ?_⟩
  · exact stopsAt_of_write hflat size hhalves h
  · exact stopsAt_of_writeBytes hflat hlength h
  · exact stopsAt_of_writeBytes hflat hlength h

/-- A memory of a page below a read-only one, on a wider bus. -/
def halfReadOnly : Layers :=
  (Layers.empty.insert (.clamp 24) 0 0x2000 (.ram { size := 0x2000 })).insert (.clamp 24) 0x2000
    0x2000 (.rom { image := #[0x55], base := 0x2000 })

/-- A long word, a block and a string that run from the one into the other. -/
theorem refused_write_stops_halfReadOnly :
    let space := Space.map (.clamp 24) halfReadOnly
    space.Flat ∧ space.Halves 0x1ffd ∧
      (∃ after, space.write .userData 0x1ffd .long 0x12345678 =
          .error ⟨0x2000, .userData, .write⟩ after ∧
        space.StopsAt after .userData 0x1ffd [0x12, 0x34, 0x56, 0x78]
          ⟨0x2000, .userData, .write⟩) ∧
      (∃ after, space.writeString .userData 0xff001fff [0x41] =
          .error ⟨0x2000, .userData, .write⟩ after ∧
        space.StopsAt after .userData 0xff001fff [0x41, 0] ⟨0x2000, .userData, .write⟩) := by
  have hflat : (Space.map (.clamp 24) halfReadOnly).Flat := ⟨trivial, trivial, trivial⟩
  have hhalves : (Space.map (.clamp 24) halfReadOnly).Halves 0x1ffd :=
    ⟨⟨.inl (by decide), .inl (by decide), trivial⟩, fun h ↦ absurd h.1 (by decide)⟩
  obtain ⟨hwrite, -, -⟩ :=
    refused_write_stops (.map (.clamp 24) halfReadOnly) hflat .userData 0x1ffd
  obtain ⟨-, -, hstring⟩ :=
    refused_write_stops (.map (.clamp 24) halfReadOnly) hflat .userData 0xff001fff
  exact ⟨hflat, hhalves, ⟨_, rfl, hwrite .long 0x12345678 _ _ (fun _ ↦ hhalves) rfl⟩,
    ⟨_, rfl, hstring [0x41] _ _ (by decide) rfl⟩⟩

/-- On a bus with a single page the low word is refused at the second byte of the page, and the byte
before it has not been written. -/
theorem byte_lost_of_wraps :
    let space := Space.map (.clamp 13) (Layers.empty.insert (.clamp 13) 0 0x2000
      (.ram { size := 0x4000, supervisorArea := 4 }))
    ∃ after, space.putLong .userData 0x1fff 0x12345678 =
        .error ⟨0x0001, .userData, .write⟩ after ∧
      after.getByte .supervisorData 0x1fff = .ok 0x12 ∧
      after.getByte .supervisorData 0x2000 = .ok 0 ∧
      ¬ space.StopsAt after .userData 0x1fff [0x12, 0x34, 0x56, 0x78]
        ⟨0x0001, .userData, .write⟩ := by
  refine ⟨_, rfl, rfl, rfl, ?_⟩
  rintro ⟨done, hdone, hrefusal, hfilled⟩
  have htruncate : (BusWidth.clamp 13).truncate (0x1fff + BitVec.ofNat 32 2) =
      (BusWidth.clamp 13).truncate (0x1fff + BitVec.ofNat 32 done) :=
    congrArg BusError.address hrefusal
  have hlt : done < 2 ^ (BusWidth.clamp 13).bits := hdone.trans (by decide)
  obtain rfl := eq_of_truncate_add_eq (by decide) hlt htruncate
  have hheld : (0 : Byte) = 0x34 := Except.ok.inj (hfilled.holds .supervisorData 1 (by decide))
  exact absurd hheld (by decide)

end Space

end M68000
