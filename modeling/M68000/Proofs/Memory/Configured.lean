import M68000.Config
import M68000.Proofs.Memory.History
import M68000.Proofs.Memory.Series
import M68000.Proofs.Memory.Stopped

/-!
# Configured memory

Memory is mapped in whole pages, and on the bus only. Neither can be told from the bytes that can be
accessed: an access is answered as main memory alone answers it at the address on the bus. So the
last page gives no access to bytes past the end of memory, and what lies past the top of the bus
does not come up at the bottom.
-/

namespace M68000

/-- A range from the bottom on touches the page of each of its bytes that is on the bus. -/
theorem Mapping.touches_of_lt {width : BusWidth} {length : Nat} {region : Space} {address : Address}
    (hlt : (width.truncate address).toNat < length) :
    (Mapping.map 0 length region).Touches width (width.truncate address).page := by
  have hstart : (width.truncate 0).toNat = 0 := congrArg BitVec.toNat BitVec.zero_and
  have hmask : (width.truncate address).toNat ≤ width.mask.toNat := by
    rw [width.toNat_mask]
    exact Nat.le_sub_one_of_lt (width.toNat_truncate_lt address)
  refine ⟨Nat.zero_lt_of_lt hlt, width.truncate address, rfl, ?_, le_min ?_ hmask⟩
  · rw [start, hstart]
    exact Nat.zero_le _
  · rw [start, Mapping.length, hstart, Nat.zero_add]
    exact Nat.le_sub_one_of_lt hlt

theorem Layers.eq_empty_of_layout {layers : Layers} (h : layers.layout = .empty) :
    layers = .empty := by
  cases layers with
  | empty => rfl
  | mapped | unmapped => cases h

theorem Space.exists_eq_ram_of_layout {space : Space} {ram : Ram} (h : space.layout = .ram ram) :
    ∃ written, space = .ram { ram with written } := by
  cases space with
  | ram memory =>
    obtain rfl := Space.ram.inj h
    exact ⟨memory.written, rfl⟩
  | rom | map => cases h

namespace Config

variable (config : Config)

/-! ## The space and its main memory -/

/-- Main memory with some contents. -/
def memory (written : Std.TreeMap Nat Byte) : Ram :=
  { size := config.memorySize.toNat, supervisorArea := config.supervisorArea, written }

/-- The address space with a memory in the place of main memory. -/
def spaceWith (ram : Ram) : Space :=
  .ofHistory config.space.bus [.map 0 config.memorySize.toNat (.ram ram)]

theorem space_eq_spaceWith : config.space = config.spaceWith (config.memory {}) :=
  rfl

theorem spaceWith_eq_map (ram : Ram) :
    config.spaceWith ram = .map config.space.bus
      (match PageRange.touching? config.space.bus 0 config.memorySize.toNat with
      | some pages => .mapped pages (.ram ram) .empty
      | none => .empty) :=
  rfl

/-- In all that writes can lead to, main memory has its place and its size. -/
theorem exists_eq_spaceWith {space : Space} (hlayout : space.layout = config.space.layout) :
    ∃ written, space = config.spaceWith (config.memory written) := by
  simp only [spaceWith_eq_map]
  rw [space_eq_spaceWith, spaceWith_eq_map, Space.layout] at hlayout
  cases space with
  | ram | rom => cases hlayout
  | map width layers =>
    obtain ⟨rfl, hlayers⟩ := Space.map.inj hlayout
    cases hpages : PageRange.touching? config.space.bus 0 config.memorySize.toNat with
    | none =>
      simp only [hpages] at hlayers
      obtain rfl := Layers.eq_empty_of_layout hlayers
      exact ⟨{}, rfl⟩
    | some pages =>
      simp only [hpages] at hlayers
      obtain ⟨region, below, rfl, hregion, hbelow⟩ := Layers.exists_eq_mapped_of_layout hlayers
      obtain ⟨written, rfl⟩ := Space.exists_eq_ram_of_layout hregion
      obtain rfl := Layers.eq_empty_of_layout hbelow
      exact ⟨written, rfl⟩

/-! ## Accesses -/

section Accesses

variable (written : Std.TreeMap Nat Byte) (code : FunctionCode) (address : Address)

/-- Main memory allows an access to each of its bytes, but a user access may not write those of the
supervisor area. -/
theorem offset_memory (kind : AccessKind) :
    (config.memory written).offset kind code address 1 =
      if address.toNat < config.memorySize.toNat ∧
          (kind = .write → code.supervisor = true ∨ config.supervisorArea ≤ address.toNat) then
        .ok address.toNat
      else .error ⟨address, code, kind⟩ := by
  have hbase : address - (config.memory written).base = address := BitVec.sub_zero address
  rw [Ram.offset, hbase]
  simp only [memory]
  grind

/-- An address that is not served lies past the end of main memory. -/
theorem serves_or_refuses (ram : Ram) :
    Space.Serves config.space.bus [] 0 config.memorySize.toNat (.ram ram) [] address ∨
      (config.spaceWith ram).Refuses config.space.bus address ∧
        config.memorySize.toNat ≤ (config.space.bus.truncate address).toNat := by
  let call := Mapping.map 0 config.memorySize.toNat (.ram ram)
  let page := (config.space.bus.truncate address).page
  -- The page decides, not the address: the page that memory ends in is served as a whole.
  by_cases htouches : call.Touches config.space.bus page
  · exact .inl (Space.serves_of_last htouches (by simp))
  · have hregion : (Layers.empty.perform config.space.bus call).region? page = none :=
      Layers.region?_perform_of_not_touches htouches
    exact .inr ⟨Space.refuses_of_region?_eq_none hregion,
      Nat.le_of_not_lt fun hlt ↦ htouches (Mapping.touches_of_lt hlt)⟩

theorem getByte_spaceWith :
    (config.spaceWith (config.memory written)).getByte code address =
      (config.memory written).getByte code (config.space.bus.truncate address) := by
  obtain hserves | ⟨hrefuses, hle⟩ := config.serves_or_refuses address (config.memory written)
  · exact hserves.getByte code
  · rw [hrefuses.getByte, Ram.getByte_eq_map, offset_memory,
      if_neg fun hallowed ↦ Nat.not_lt_of_le hle hallowed.1, Except.map]

theorem putByte_spaceWith (value : Byte) :
    (config.spaceWith (config.memory written)).putByte code address value =
      (Written.ofExcept (config.memory written) ((config.memory written).putByte code
        (config.space.bus.truncate address) value)).within config.spaceWith := by
  obtain hserves | ⟨hrefuses, hle⟩ := config.serves_or_refuses address (config.memory written)
  · refine (hserves.putByte code value).trans ?_
    rw [Space.putByte]
    cases (config.memory written).putByte code (config.space.bus.truncate address) value <;> rfl
  · rw [hrefuses.putByte, Ram.putByte, offset_memory,
      if_neg fun hallowed ↦ Nat.not_lt_of_le hle hallowed.1]
    rfl

/-! ### What is granted -/

theorem getByte_spaceWith_eq_ite :
    let place := config.space.bus.truncate address
    (config.spaceWith (config.memory written)).getByte code address =
      if place.toNat < config.memorySize.toNat then
        .ok ((config.memory written).byteAt place.toNat)
      else .error ⟨place, code, .read⟩ := by
  intro place
  rw [getByte_spaceWith, Ram.getByte_eq_map, offset_memory]
  simp only [reduceCtorEq, false_implies, and_true]
  split <;> rfl

theorem putByte_spaceWith_eq_ite (value : Byte) :
    let place := config.space.bus.truncate address
    (config.spaceWith (config.memory written)).putByte code address value =
      if place.toNat < config.memorySize.toNat ∧
          (code.supervisor = true ∨ config.supervisorArea ≤ place.toNat) then
        .ok () (config.spaceWith ((config.memory written).setByteAt place.toNat value))
      else .error ⟨place, code, .write⟩ (config.spaceWith (config.memory written)) := by
  intro place
  rw [putByte_spaceWith, Ram.putByte, offset_memory]
  simp only [true_implies]
  split <;> rfl

end Accesses

end Config

/-- Whatever main memory has come to hold, a byte can be read at an address if it is one of main
memory on the bus, and written if, besides, the access is not a user access to the supervisor area.
An access that is not granted is refused at the address on the bus and changes nothing. -/
theorem configured_accesses_granted (config : Config) {space : Space}
    (hlayout : space.layout = config.space.layout) (code : FunctionCode) (address : Address)
    (value : Byte) :
    let place := address &&& config.space.bus.mask
    let inMemory := place.toNat < config.memorySize.toNat
    let unprotected := code.supervisor = true ∨ config.supervisorArea ≤ place.toNat
    ((∃ byte, space.getByte code address = .ok byte) ↔ inMemory) ∧
    ((∃ after, space.putByte code address value = .ok () after) ↔ inMemory ∧ unprotected) ∧
    (¬ inMemory → space.getByte code address = .error ⟨place, code, .read⟩) ∧
    (¬ (inMemory ∧ unprotected) →
      space.putByte code address value = .error ⟨place, code, .write⟩ space) := by
  intro place inMemory unprotected
  obtain ⟨written, rfl⟩ := config.exists_eq_spaceWith hlayout
  have hread := config.getByte_spaceWith_eq_ite written code address
  have hwrite := config.putByte_spaceWith_eq_ite written code address value
  refine ⟨?_, ?_, fun hout ↦ hread.trans (if_neg hout),
    fun hrefused ↦ hwrite.trans (if_neg hrefused)⟩
  · rw [hread]
    split
    next hin => exact iff_of_true ⟨_, rfl⟩ hin
    next hout => exact iff_of_false nofun hout
  · rw [hwrite]
    split
    next hgranted => exact iff_of_true ⟨_, rfl⟩ hgranted
    next hrefused => exact iff_of_false nofun hrefused

/-- The supervisor area ends within the first page of the bus, and main memory with the first byte
of the last one. -/
def partialPage : Config where
  memorySize := 0x2001
  addressBits := 14
  supervisorArea := 0x1000

theorem configured_accesses_granted_partialPage :
    (∃ byte, partialPage.space.getByte .userData 0xFFFFE000 = .ok byte) ∧
      partialPage.space.getByte .supervisorData 0x2001 =
        .error ⟨0x2001, .supervisorData, .read⟩ ∧
      (∃ after, partialPage.space.putByte .userData 0x1000 1 = .ok () after) ∧
      partialPage.space.putByte .userData 0x4FFF 1 =
        .error ⟨0x0FFF, .userData, .write⟩ partialPage.space := by
  have hgranted := configured_accesses_granted partialPage rfl
  refine ⟨?_, ?_, ?_, ?_⟩
  · exact (hgranted .userData 0xFFFFE000 0).1.2 (by decide)
  · exact (hgranted .supervisorData 0x2001 0).2.2.1 (by decide)
  · exact (hgranted .userData 0x1000 1).2.1.2 (by decide)
  · exact (hgranted .userData 0x4FFF 1).2.2.2 (by decide)

end M68000
