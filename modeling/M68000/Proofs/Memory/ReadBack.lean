import M68000.Proofs.Memory.Layout

/-!
# Reading what was written

What has been written is read back at its address with any function code, and reads of other
bytes answer as before. This holds of every space, whatever maps lie within maps.
-/

namespace M68000.Space

variable {space after : Space} {code code' : FunctionCode} {address other : Address}

/-! ## Outcomes -/

theorem exists_of_putByte_ram {ram : Ram} {value : Byte}
    (h : (Space.ram ram).putByte code address value = .ok () after) :
    ∃ written, ram.putByte code address value = .ok written ∧ after = .ram written := by
  rw [putByte] at h
  obtain ⟨written, hwritten, rfl⟩ := Written.within_eq_ok_iff.1 h
  exact ⟨written, Written.ofExcept_eq_ok_iff.1 hwritten, rfl⟩

theorem exists_of_putWord_ram {ram : Ram} {value : BitVec 16}
    (h : (Space.ram ram).putWord code address value = .ok () after) :
    ∃ written, ram.putWord code address value = .ok written ∧ after = .ram written := by
  rw [putWord] at h
  obtain ⟨written, hwritten, rfl⟩ := Written.within_eq_ok_iff.1 h
  exact ⟨written, Written.ofExcept_eq_ok_iff.1 hwritten, rfl⟩

variable {width : BusWidth} {layers : Layers}

theorem exists_of_putByte_map {value : Byte}
    (h : (Space.map width layers).putByte code address value = .ok () after) :
    ∃ written, layers.update (width.truncate address).page
        (·.putByte code (width.truncate address) value)
        ⟨width.truncate address, code, .write⟩ = .ok () written ∧
      after = .map width written := by
  rw [putByte] at h
  obtain ⟨written, hwritten, rfl⟩ := Written.within_eq_ok_iff.1 h
  rw [Layers.putByte_eq_update] at hwritten
  exact ⟨written, hwritten, rfl⟩

theorem exists_of_putWord_map {value : BitVec 16} (hpage : width.samePage address)
    (h : (Space.map width layers).putWord code address value = .ok () after) :
    ∃ written, layers.update (width.truncate address).page
        (·.putWord code (width.truncate address) value)
        ⟨width.truncate address, code, .write⟩ = .ok () written ∧
      after = .map width written := by
  rw [putWord, if_pos hpage] at h
  obtain ⟨written, hwritten, rfl⟩ := Written.within_eq_ok_iff.1 h
  rw [Layers.putWord_eq_update] at hwritten
  exact ⟨written, hwritten, rfl⟩

/-- A word that crosses into another page is written as two bytes. -/
theorem exists_of_putWord_of_split {value : BitVec 16} (hpage : ¬ width.samePage address)
    (h : (Space.map width layers).putWord code address value = .ok () after) :
    ∃ written, (Space.map width layers).putByte code address (value.extractLsb' 8 8) =
        .ok () (.map width written) ∧
      (Space.map width written).putByte code (address + 1) (value.extractLsb' 0 8) =
        .ok () after := by
  rw [putWord_map_of_split hpage] at h
  obtain ⟨middle, hhigh, hlow⟩ := Written.andThen_eq_ok_iff.1 h
  obtain ⟨written, -, rfl⟩ := exists_of_putByte_map hhigh
  exact ⟨written, hhigh, hlow⟩

theorem layout_of_write (size : Size) {value : size.Value}
    (h : space.write code address size value = .ok () after) : after.layout = space.layout := by
  have hlayout := space.layout_write code address size value
  rw [h] at hlayout
  exact hlayout

/-! ## Reading other bytes -/

theorem getByte_putByte_of_apart {value : Byte} (hapart : space.Apart address 1 other 1)
    (h : space.putByte code other value = .ok () after) :
    after.getByte code' address = space.getByte code' address := by
  induction space using Space.induct generalizing address other after with
  | ram ram =>
    obtain ⟨written, hwritten, rfl⟩ := exists_of_putByte_ram h
    exact (Ram.agreesOn_putByte hapart hwritten).getByte
  | rom rom => cases h
  | map width layers ih =>
    obtain ⟨written, hwritten, rfl⟩ := exists_of_putByte_map h
    rw [getByte, getByte, Layers.getByte_eq_readAt, Layers.getByte_eq_readAt]
    refine Layers.readAt_update_of_keeps (fun region hshared _ hwrite ↦ ?_) hwritten
    exact ih.of_shared? hshared (hapart.region (.inl rfl) (.inl rfl) hshared) hwrite

theorem getByte_putWord_of_apart {value : BitVec 16} (hapart : space.Apart address 1 other 2)
    (h : space.putWord code other value = .ok () after) :
    after.getByte code' address = space.getByte code' address := by
  induction space using Space.induct generalizing address other after with
  | ram ram =>
    obtain ⟨written, hwritten, rfl⟩ := exists_of_putWord_ram h
    exact (Ram.agreesOn_putWord hapart hwritten).getByte
  | rom rom => cases h
  | map width layers ih =>
    by_cases hpage : width.samePage other
    · obtain ⟨written, hwritten, rfl⟩ := exists_of_putWord_map hpage h
      rw [getByte, getByte, Layers.getByte_eq_readAt, Layers.getByte_eq_readAt]
      refine Layers.readAt_update_of_keeps (fun region hshared _ hwrite ↦ ?_) hwritten
      exact ih.of_shared? hshared (hapart.region (.inl rfl) (.inr ⟨rfl, hpage⟩) hshared) hwrite
    · obtain ⟨written, hhigh, hlow⟩ := exists_of_putWord_of_split hpage h
      have hlayout : (Space.map width written).layout = (Space.map width layers).layout :=
        layout_of_write .byte hhigh
      have hapart' := (hapart.of_layout_eq hlayout).second_part 1 1 (by decide)
      rw [getByte_putByte_of_apart hapart' hlow,
        getByte_putByte_of_apart (hapart.second_head (by decide)) hhigh]

theorem getWord_putByte_of_apart {value : Byte} (hapart : space.Apart address 2 other 1)
    (h : space.putByte code other value = .ok () after) :
    after.getWord code' address = space.getWord code' address := by
  induction space using Space.induct generalizing address other after with
  | ram ram =>
    obtain ⟨written, hwritten, rfl⟩ := exists_of_putByte_ram h
    exact (Ram.agreesOn_putByte hapart hwritten).getWord
  | rom rom => cases h
  | map width layers ih =>
    by_cases hpage : width.samePage address
    · obtain ⟨written, hwritten, rfl⟩ := exists_of_putByte_map h
      rw [getWord, getWord, if_pos hpage, if_pos hpage, Layers.getWord_eq_readAt,
        Layers.getWord_eq_readAt]
      refine Layers.readAt_update_of_keeps (fun region hshared _ hwrite ↦ ?_) hwritten
      exact ih.of_shared? hshared (hapart.region (.inr ⟨rfl, hpage⟩) (.inl rfl) hshared) hwrite
    · have hhigh : after.getByte code' address = (Space.map width layers).getByte code' address :=
        getByte_putByte_of_apart (hapart.first_head (by decide)) h
      have hlow : after.getByte code' (address + 1) =
          (Space.map width layers).getByte code' (address + 1) :=
        getByte_putByte_of_apart (hapart.first_part 1 1 (by decide)) h
      obtain ⟨written, -, rfl⟩ := exists_of_putByte_map h
      rw [getWord_map_of_split hpage, getWord_map_of_split hpage, hhigh, hlow]

theorem getWord_putWord_of_apart {value : BitVec 16} (hapart : space.Apart address 2 other 2)
    (h : space.putWord code other value = .ok () after) :
    after.getWord code' address = space.getWord code' address := by
  induction space using Space.induct generalizing address other after with
  | ram ram =>
    obtain ⟨written, hwritten, rfl⟩ := exists_of_putWord_ram h
    exact (Ram.agreesOn_putWord hapart hwritten).getWord
  | rom rom => cases h
  | map width layers ih =>
    by_cases hpage : width.samePage other
    · by_cases hpage' : width.samePage address
      · obtain ⟨written, hwritten, rfl⟩ := exists_of_putWord_map hpage h
        rw [getWord, getWord, if_pos hpage', if_pos hpage', Layers.getWord_eq_readAt,
          Layers.getWord_eq_readAt]
        refine Layers.readAt_update_of_keeps (fun region hshared _ hwrite ↦ ?_) hwritten
        exact ih.of_shared? hshared
          (hapart.region (.inr ⟨rfl, hpage'⟩) (.inr ⟨rfl, hpage⟩) hshared) hwrite
      · have hhigh : after.getByte code' address =
            (Space.map width layers).getByte code' address :=
          getByte_putWord_of_apart (hapart.first_head (by decide)) h
        have hlow : after.getByte code' (address + 1) =
            (Space.map width layers).getByte code' (address + 1) :=
          getByte_putWord_of_apart (hapart.first_part 1 1 (by decide)) h
        obtain ⟨written, -, rfl⟩ := exists_of_putWord_map hpage h
        rw [getWord_map_of_split hpage', getWord_map_of_split hpage', hhigh, hlow]
    · obtain ⟨written, hhigh, hlow⟩ := exists_of_putWord_of_split hpage h
      have hlayout : (Space.map width written).layout = (Space.map width layers).layout :=
        layout_of_write .byte hhigh
      have hapart' := (hapart.of_layout_eq hlayout).second_part 1 1 (by decide)
      rw [getWord_putByte_of_apart hapart' hlow,
        getWord_putByte_of_apart (hapart.second_head (by decide)) hhigh]

theorem exists_of_putLong_ram {ram : Ram} {value : BitVec 32}
    (h : (Space.ram ram).putLong code address value = .ok () after) :
    ∃ written, ram.putLong code address value = .ok written ∧ after = .ram written := by
  rw [putLong] at h
  obtain ⟨written, hwritten, rfl⟩ := Written.within_eq_ok_iff.1 h
  exact ⟨written, Written.ofExcept_eq_ok_iff.1 hwritten, rfl⟩

theorem exists_eq_map_of_putWord {value : BitVec 16}
    (h : (Space.map width layers).putWord code address value = .ok () after) :
    ∃ written, after = .map width written := by
  rw [putWord] at h
  split at h
  all_goals
    obtain ⟨written, -, hafter⟩ := Written.within_eq_ok_iff.1 h
    exact ⟨written, hafter.symm⟩

theorem read_ram_of_agreesOn {before after : Ram} {size : Size}
    (h : before.AgreesOn after address size.bytes) :
    (Space.ram after).read code address size = (Space.ram before).read code address size := by
  cases size with
  | byte => exact h.getByte
  | word => exact h.getWord
  | long => exact h.getLong

/-- Maps that agree on both words agree on a long word. -/
theorem getLong_congr {layers' : Layers}
    (hhigh : (Space.map width layers').getWord code address =
      (Space.map width layers).getWord code address)
    (hlow : (Space.map width layers').getWord code (address + 2) =
      (Space.map width layers).getWord code (address + 2)) :
    (Space.map width layers').getLong code address =
      (Space.map width layers).getLong code address := by
  rw [getLong_map, getLong_map, hhigh, hlow]

theorem read_putByte_of_apart {value : Byte} {size : Size}
    (hapart : space.Apart address size.bytes other 1)
    (h : space.putByte code other value = .ok () after) :
    after.read code' address size = space.read code' address size := by
  cases size with
  | byte => exact getByte_putByte_of_apart hapart h
  | word => exact getWord_putByte_of_apart hapart h
  | long =>
    cases space with
    | ram ram =>
      obtain ⟨written, hwritten, rfl⟩ := exists_of_putByte_ram h
      exact read_ram_of_agreesOn (Ram.agreesOn_putByte hapart hwritten)
    | rom rom => cases h
    | map width layers =>
      obtain ⟨written, -, rfl⟩ := exists_of_putByte_map h
      exact getLong_congr (getWord_putByte_of_apart (hapart.first_head (by decide)) h)
        (getWord_putByte_of_apart (hapart.first_part 2 2 (by decide)) h)

theorem read_putWord_of_apart {value : BitVec 16} {size : Size}
    (hapart : space.Apart address size.bytes other 2)
    (h : space.putWord code other value = .ok () after) :
    after.read code' address size = space.read code' address size := by
  cases size with
  | byte => exact getByte_putWord_of_apart hapart h
  | word => exact getWord_putWord_of_apart hapart h
  | long =>
    cases space with
    | ram ram =>
      obtain ⟨written, hwritten, rfl⟩ := exists_of_putWord_ram h
      exact read_ram_of_agreesOn (Ram.agreesOn_putWord hapart hwritten)
    | rom rom => cases h
    | map width layers =>
      obtain ⟨written, rfl⟩ := exists_eq_map_of_putWord h
      exact getLong_congr (getWord_putWord_of_apart (hapart.first_head (by decide)) h)
        (getWord_putWord_of_apart (hapart.first_part 2 2 (by decide)) h)

/-- A write does not touch other bytes. -/
theorem read_write_of_apart {size size' : Size} {value : size'.Value}
    (hapart : space.Apart address size.bytes other size'.bytes)
    (h : space.write code other size' value = .ok () after) :
    after.read code' address size = space.read code' address size := by
  cases size' with
  | byte => exact read_putByte_of_apart hapart h
  | word => exact read_putWord_of_apart hapart h
  | long =>
    cases space with
    | ram ram =>
      obtain ⟨written, hwritten, rfl⟩ := exists_of_putLong_ram h
      exact read_ram_of_agreesOn (Ram.agreesOn_putLong hapart hwritten)
    | rom rom => cases h
    | map width layers =>
      obtain ⟨middle, hhigh, hlow⟩ := Written.andThen_eq_ok_iff.1 h
      have hlayout : middle.layout = (Space.map width layers).layout :=
        layout_of_write .word hhigh
      have hapart' := hapart.of_layout_eq hlayout
      rw [read_putWord_of_apart (hapart'.second_part 2 2 (by decide)) hlow,
        read_putWord_of_apart (hapart.second_head (by decide)) hhigh]

theorem getByte_write_of_distinct {size : Size} {value : size.Value} {other : Address}
    (hdistinct : ∀ i < size.bytes, space.Distinct other (address + BitVec.ofNat 32 i))
    (h : space.write code address size value = .ok () after) (code' : FunctionCode) :
    after.getByte code' other = space.getByte code' other := by
  have hapart : space.Apart other Size.byte.bytes address size.bytes := by
    intro i hi j hj
    obtain rfl : i = 0 := Nat.lt_one_iff.1 hi
    rw [BitVec.add_zero]
    exact hdistinct j hj
  have hbyte : after.read code' other .byte = space.read code' other .byte :=
    read_write_of_apart hapart h
  exact hbyte

/-! ## Reading the same bytes -/

theorem getByte_putByte {value : Byte} (h : space.putByte code address value = .ok () after) :
    after.getByte code' address = .ok value := by
  induction space using Space.induct generalizing address after with
  | ram ram =>
    obtain ⟨written, hwritten, rfl⟩ := exists_of_putByte_ram h
    exact Ram.getByte_putByte hwritten
  | rom rom => cases h
  | map width layers ih =>
    obtain ⟨written, hwritten, rfl⟩ := exists_of_putByte_map h
    rw [getByte, Layers.getByte_eq_readAt]
    exact Layers.readAt_update (ih.imp fun region hregion written h ↦ hregion h) hwritten

theorem getWord_putWord {value : BitVec 16}
    (h : space.putWord code address value = .ok () after) :
    after.getWord code' address = .ok value := by
  induction space using Space.induct generalizing address after with
  | ram ram =>
    obtain ⟨written, hwritten, rfl⟩ := exists_of_putWord_ram h
    exact Ram.getWord_putWord hwritten
  | rom rom => cases h
  | map width layers ih =>
    by_cases hpage : width.samePage address
    · obtain ⟨written, hwritten, rfl⟩ := exists_of_putWord_map hpage h
      rw [getWord, if_pos hpage, Layers.getWord_eq_readAt]
      exact Layers.readAt_update (ih.imp fun region hregion written h ↦ hregion h) hwritten
    · obtain ⟨written, hhigh, hlow⟩ := exists_of_putWord_of_split hpage h
      obtain ⟨written', -, rfl⟩ := exists_of_putByte_map hlow
      have hvalue : value.extractLsb' 8 8 ++ value.extractLsb' 0 8 = value := by
        rw [BitVec.extractLsb'_append_extractLsb'_eq_extractLsb' (by decide)]
        exact BitVec.extractLsb'_eq_self
      have hapart := (Space.map width written).apart_of_places
        (address.apart_add 1 1 (by decide))
      rw [getWord_map_of_split hpage, getByte_putByte hlow, getByte_putByte_of_apart hapart hlow,
        getByte_putByte hhigh]
      exact congrArg Except.ok hvalue

theorem getLong_putLong {value : BitVec 32}
    (h : space.putLong code address value = .ok () after) :
    after.getLong code' address = .ok value := by
  cases space with
  | ram ram =>
    obtain ⟨written, hwritten, rfl⟩ := exists_of_putLong_ram h
    exact Ram.getLong_putLong hwritten
  | rom rom => cases h
  | map width layers =>
    obtain ⟨middle, hhigh, hlow⟩ := Written.andThen_eq_ok_iff.1 h
    obtain ⟨first, rfl⟩ := exists_eq_map_of_putWord hhigh
    obtain ⟨second, rfl⟩ := exists_eq_map_of_putWord hlow
    have hvalue : value.extractLsb' 16 16 ++ value.extractLsb' 0 16 = value := by
      rw [BitVec.extractLsb'_append_extractLsb'_eq_extractLsb' (by decide)]
      exact BitVec.extractLsb'_eq_self
    have hapart := (Space.map width first).apart_of_places
      (address.apart_add 2 2 (by decide))
    rw [getLong_map, getWord_putWord_of_apart hapart hlow, getWord_putWord hhigh,
      getWord_putWord hlow]
    exact congrArg Except.ok hvalue

/-- What has been written is read back. -/
theorem read_write {size : Size} {value : size.Value}
    (h : space.write code address size value = .ok () after) :
    after.read code' address size = .ok value := by
  cases size with
  | byte => exact getByte_putByte h
  | word => exact getWord_putWord h
  | long => exact getLong_putLong h

end M68000.Space
