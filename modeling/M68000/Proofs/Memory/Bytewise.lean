import M68000.Proofs.Memory.Layout

/-!
# Words and long words as bytes

A word is read exactly when its two bytes are, and a long word when its four bytes are, whatever
regions of a map they lie in. On a bus with a single page this fails for the word that begins with
the last byte of the page. Its second byte is the first one of the page, but the region is asked
for the whole word at the last byte, and goes on above the top of the bus.
-/

namespace M68000

/-- The byte at the address is the last one of a bus with a single page. -/
def BusWidth.Wraps (width : BusWidth) (address : Address) : Prop :=
  width.bits = pageBits ∧ address.place = BitVec.allOnes pageBits

mutual

/-- Every memory is smaller than the address space, or else begins with a page. So none goes round
over its top within a page. -/
def Space.Fits : Space → Prop
  | .ram ram => ram.size < 2 ^ 32 ∨ ram.base.place = 0
  | .rom rom => rom.image.size < 2 ^ 32 ∨ rom.base.place = 0
  | .map _ layers => layers.Fits

def Layers.Fits : Layers → Prop
  | .empty => True
  | .mapped _ region below => region.Fits ∧ below.Fits
  | .unmapped _ below => below.Fits

end

theorem Layers.Fits.all {layers : Layers} (hfits : layers.Fits) : layers.All Space.Fits := by
  induction layers using Layers.induct with
  | empty => trivial
  | mapped pages region below ih => exact ⟨hfits.1, ih hfits.2⟩
  | unmapped pages below ih => exact ih hfits

theorem Layers.fits_layout {layers : Layers}
    (hregions : layers.All fun region ↦ (region.layout.Fits ↔ region.Fits)) :
    layers.layout.Fits ↔ layers.Fits := by
  induction layers using Layers.induct with
  | empty => rfl
  | mapped pages region below ih => exact and_congr hregions.1 (ih hregions.2)
  | unmapped pages below ih => exact ih hregions

theorem Space.fits_layout (space : Space) : space.layout.Fits ↔ space.Fits := by
  induction space using Space.induct with
  | ram ram => rfl
  | rom rom => rfl
  | map width layers ih => exact Layers.fits_layout ih

/-- The offsets of bytes that lie beside one another in a page do so too. -/
theorem Address.toNat_succ_sub {address base : Address} {size : Nat}
    (hfits : size < 2 ^ 32 ∨ base.place = 0) (hplace : address.place ≠ BitVec.allOnes pageBits)
    (hsize : (address - base).toNat + 1 ≤ size) :
    (address + 1 - base).toNat = (address - base).toNat + 1 := by
  by_cases htop : (address - base).toNat = 2 ^ 32 - 1
  · obtain hless | hbase := hfits
    · omega
    · have hones : address - base = BitVec.allOnes 32 := by
        rw [← BitVec.toNat_inj, htop, BitVec.toNat_allOnes]
      have hones' : address.place = BitVec.allOnes pageBits := by
        rw [← BitVec.sub_add_cancel address base, place_add, hones, hbase]
        rfl
      exact absurd hones' hplace
  · bv_omega

theorem map_eq_ok_iff {outcome : Except ε α} {f : α → β} {value : β} :
    outcome.map f = .ok value ↔ ∃ before, outcome = .ok before ∧ f before = value := by
  cases outcome <;> simp [Except.map]

/-- Two reads one after the other. -/
theorem append_eq_ok_iff {first : Except ε (BitVec m)} {second : Except ε (BitVec n)}
    {value : BitVec (m + n)} :
    (do let high ← first; let low ← second; return high ++ low) = .ok value ↔
      ∃ high low, first = .ok high ∧ second = .ok low ∧ value = high ++ low := by
  cases first with
  | error refusal => simp [bind, Except.bind]
  | ok high =>
    cases second with
    | error refusal => simp [bind, Except.bind]
    | ok low => simp [bind, Except.bind, pure, Except.pure, eq_comm]

namespace Space

variable {code : FunctionCode} {address : Address} {word : BitVec 16}

/-- The word at the address is read exactly when its two bytes are. -/
def Bytewise (space : Space) (code : FunctionCode) (address : Address) : Prop :=
  ∀ word, space.getWord code address = .ok word ↔
    ∃ high low, space.getByte code address = .ok high ∧
      space.getByte code (address + 1) = .ok low ∧ word = high ++ low

/-! ## Single memories -/

section Memories

variable {size : Nat} {base : Address} {allowed : Prop} {byteAt : Nat → Byte}
  {offset : Address → Nat → Except BusError Nat}

/-- A memory whose accesses are allowed or not whatever their length, as long as they are inside. -/
theorem offset_word_iff (hfits : size < 2 ^ 32 ∨ base.place = 0)
    (hplace : address.place ≠ BitVec.allOnes pageBits)
    (hoffset : ∀ address length found, offset address length = .ok found ↔
      found = (address - base).toNat ∧ found + length ≤ size ∧ allowed) :
    ((offset address 2).map fun found ↦ byteAt found ++ byteAt (found + 1)) = .ok word ↔
      ∃ high low, (offset address 1).map byteAt = .ok high ∧
        (offset (address + 1) 1).map byteAt = .ok low ∧ word = high ++ low := by
  simp only [map_eq_ok_iff, hoffset]
  constructor
  · rintro ⟨_, ⟨rfl, hsize, hallowed⟩, rfl⟩
    have hnext := Address.toNat_succ_sub hfits hplace (Nat.le_of_succ_le hsize)
    have hfirst := Nat.le_of_succ_le hsize
    refine ⟨_, _, ⟨_, ⟨rfl, hfirst, hallowed⟩, rfl⟩, ⟨_, ⟨rfl, ?_, hallowed⟩, rfl⟩, ?_⟩
    · rw [hnext]
      exact hsize
    · rw [hnext]
  · rintro ⟨_, _, ⟨_, ⟨rfl, hsize, hallowed⟩, rfl⟩, ⟨_, ⟨rfl, hsize', -⟩, rfl⟩, rfl⟩
    have hnext := Address.toNat_succ_sub hfits hplace hsize
    rw [hnext] at hsize' ⊢
    exact ⟨_, ⟨rfl, hsize', hallowed⟩, rfl⟩

theorem bytewise_ram {ram : Ram} (hfits : (Space.ram ram).Fits)
    (hplace : address.place ≠ BitVec.allOnes pageBits) : (Space.ram ram).Bytewise code address := by
  intro word
  have hoffset (address : Address) (length found : Nat) :
      ram.offset .read code address length = .ok found ↔
        found = (address - ram.base).toNat ∧ found + length ≤ ram.size ∧ True := by
    rw [Ram.offset_eq_ok_iff]
    simp
  rw [getWord, getByte, getByte, Ram.getWord_eq_map, Ram.getByte_eq_map, Ram.getByte_eq_map]
  exact offset_word_iff hfits hplace hoffset

theorem bytewise_rom {rom : Rom} (hfits : (Space.rom rom).Fits)
    (hplace : address.place ≠ BitVec.allOnes pageBits) : (Space.rom rom).Bytewise code address := by
  intro word
  have hoffset (address : Address) (length found : Nat) :
      rom.offset code address length = .ok found ↔
        found = (address - rom.base).toNat ∧ found + length ≤ rom.image.size ∧
          ¬ (rom.dataOnly = true ∧ code.program = true) := by
    unfold Rom.offset
    grind
  have hbyte (address : Address) :
      rom.getByte code address = (rom.offset code address 1).map rom.byteAt := by
    unfold Rom.getByte
    cases rom.offset code address 1 <;> rfl
  have hword : rom.getWord code address = (rom.offset code address 2).map fun found ↦
      rom.byteAt found ++ rom.byteAt (found + 1) := by
    unfold Rom.getWord
    cases rom.offset code address 2 <;> rfl
  rw [getWord, getByte, getByte, hword, hbyte, hbyte]
  exact offset_word_iff hfits hplace hoffset

end Memories

/-! ## Maps -/

variable {width : BusWidth} {layers : Layers}

/-- Off the end of its page a word goes to one region whole, and so do its bytes. -/
theorem bytewise_map_of_place_ne
    (hregions : layers.All fun region ↦ region.Bytewise code (width.truncate address))
    (hplace : address.place ≠ BitVec.allOnes pageBits) :
    (Space.map width layers).Bytewise code address := by
  intro word
  obtain ⟨hpage, hnext⟩ := width.samePage_of_place_ne hplace
  have hpages := hpage
  rw [BusWidth.samePage, beq_iff_eq] at hpages
  rw [getWord, if_pos hpage, getByte, getByte, Layers.getWord_eq_readAt, Layers.getByte_eq_readAt,
    Layers.getByte_eq_readAt, ← hpages, Layers.readAt, Layers.readAt, Layers.readAt]
  cases hregion : layers.region? (width.truncate address).page with
  | none => simp
  | some region =>
    rw [hnext]
    exact hregions.of_region? hregion word

/-- In any space a word that does not begin with the last byte of a page is its two bytes. -/
theorem bytewise_of_place_ne {space : Space} (hfits : space.Fits)
    (hplace : address.place ≠ BitVec.allOnes pageBits) : space.Bytewise code address := by
  induction space using Space.induct generalizing address with
  | ram ram => exact bytewise_ram hfits hplace
  | rom rom => exact bytewise_rom hfits hplace
  | map width layers ih =>
    have hplace' : (width.truncate address).place ≠ BitVec.allOnes pageBits := by
      rw [Address.place_truncate]
      exact hplace
    have hregions := ih.imp fun region hregion hfits ↦ hregion hfits hplace'
    exact bytewise_map_of_place_ne (hregions.mp (Layers.Fits.all hfits)) hplace

theorem bytewise_map (hfits : layers.Fits) (hwraps : ¬ width.Wraps address) :
    (Space.map width layers).Bytewise code address := by
  by_cases hplace : address.place = BitVec.allOnes pageBits
  · have hpage := width.not_samePage_of_place_eq (fun hbits ↦ hwraps ⟨hbits, hplace⟩) hplace
    intro word
    rw [getWord_map_of_split hpage]
    exact append_eq_ok_iff
  · exact bytewise_of_place_ne hfits hplace

theorem getLong_map_iff {long : BitVec 32} :
    (Space.map width layers).getLong code address = .ok long ↔
      ∃ high low, (Space.map width layers).getWord code address = .ok high ∧
        (Space.map width layers).getWord code (address + 2) = .ok low ∧ long = high ++ low := by
  rw [getLong_map]
  exact append_eq_ok_iff

/-- A long word of a map is its four bytes, if both its words are two bytes each. -/
theorem getLong_iff_bytes {long : BitVec 32}
    (hhigh : (Space.map width layers).Bytewise code address)
    (hlow : (Space.map width layers).Bytewise code (address + 2)) :
    (Space.map width layers).getLong code address = .ok long ↔
      ∃ first second third fourth,
        (Space.map width layers).getByte code address = .ok first ∧
        (Space.map width layers).getByte code (address + 1) = .ok second ∧
        (Space.map width layers).getByte code (address + 2) = .ok third ∧
        (Space.map width layers).getByte code (address + 3) = .ok fourth ∧
        long = (first ++ second) ++ (third ++ fourth) := by
  have hthree : address + 2 + 1 = address + 3 := by rw [BitVec.add_assoc]; rfl
  rw [getLong_map_iff]
  constructor
  · rintro ⟨high, low, hwords, hwords', rfl⟩
    obtain ⟨first, second, hfirst, hsecond, rfl⟩ := (hhigh high).1 hwords
    obtain ⟨third, fourth, hthird, hfourth, rfl⟩ := (hlow low).1 hwords'
    rw [hthree] at hfourth
    exact ⟨first, second, third, fourth, hfirst, hsecond, hthird, hfourth, rfl⟩
  · rintro ⟨first, second, third, fourth, hfirst, hsecond, hthird, hfourth, rfl⟩
    rw [← hthree] at hfourth
    exact ⟨first ++ second, third ++ fourth, (hhigh _).2 ⟨first, second, hfirst, hsecond, rfl⟩,
      (hlow _).2 ⟨third, fourth, hthird, hfourth, rfl⟩, rfl⟩

/-- Words and long words of a map are read exactly when all their bytes are, and are these bytes,
high byte first, unless they go round the end of a bus with a single page. -/
theorem getWord_getLong_iff_bytes (width : BusWidth) (layers : Layers) (hfits : layers.Fits)
    (code : FunctionCode) (address : Address) :
    (¬ width.Wraps address → ∀ word,
      (Space.map width layers).getWord code address = .ok word ↔
        ∃ high low,
          (Space.map width layers).getByte code address = .ok high ∧
          (Space.map width layers).getByte code (address + 1) = .ok low ∧
          word = high ++ low) ∧
    (¬ width.Wraps address → ¬ width.Wraps (address + 2) → ∀ long,
      (Space.map width layers).getLong code address = .ok long ↔
        ∃ first second third fourth,
          (Space.map width layers).getByte code address = .ok first ∧
          (Space.map width layers).getByte code (address + 1) = .ok second ∧
          (Space.map width layers).getByte code (address + 2) = .ok third ∧
          (Space.map width layers).getByte code (address + 3) = .ok fourth ∧
          long = (first ++ second) ++ (third ++ fourth)) := by
  constructor
  · intro hwraps
    exact bytewise_map hfits hwraps
  · intro hwraps hwraps' long
    exact getLong_iff_bytes (bytewise_map hfits hwraps) (bytewise_map hfits hwraps')

/-- A read-only byte at the top of a bus with two pages, and memory at the bottom. -/
def aroundTheTop : Layers :=
  (Layers.empty.insert (.clamp 14) 0 0x2000
    (.ram { size := 0x2000, written := .insert {} 0 0x34 })).insert (.clamp 14) 0x3fff 1
      (.rom { image := #[0x12], base := 0x3fff })

theorem getWord_getLong_iff_bytes_aroundTheTop :
    aroundTheTop.Fits ∧ ¬ (BusWidth.clamp 14).Wraps 0x3fff ∧
      (Space.map (.clamp 14) aroundTheTop).getWord .userData 0x3fff = .ok 0x1234 := by
  have hfits : aroundTheTop.Fits := ⟨.inl (by decide), .inl (by decide), trivial⟩
  have hwraps : ¬ (BusWidth.clamp 14).Wraps 0x3fff := fun h ↦ absurd h.1 (by decide)
  have hword := (getWord_getLong_iff_bytes (.clamp 14) aroundTheTop hfits .userData 0x3fff).1 hwraps
  exact ⟨hfits, hwraps, (hword _).2 ⟨0x12, 0x34, rfl, rfl, rfl⟩⟩

/-- On a bus with a single page both bytes are read, and the word is refused. -/
theorem getWord_refused_of_wraps :
    let space := Space.map (.clamp 13) (Layers.empty.insert (.clamp 13) 0 0x2000
      (.ram { size := 0x2000 }))
    space.getByte .supervisorData 0x1fff = .ok 0 ∧ space.getByte .supervisorData 0x2000 = .ok 0 ∧
      space.getWord .supervisorData 0x1fff = .error ⟨0x1fff, .supervisorData, .read⟩ :=
  ⟨rfl, rfl, rfl⟩

end Space

end M68000
