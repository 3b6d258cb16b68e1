import M68000.Proofs.Chained.Number
import M68000.Proofs.Memory.Writable

/-!
# Series of writes

Operands may be written one after another to addresses that follow on one another, the lowest first
or the highest first. Both ways are done or refused alike, and lead to the same bytes.
-/

namespace M68000

/-! ## What a write makes of a byte -/

namespace Layers

variable {layers other after after' : Layers} {page place : Nat} {write : Space → Written Space}
  {read : Space → Except BusError α} {refusal refusal' : BusError}

theorem readAt_mapped {pages : PageRange} {region : Space} {below : Layers} :
    (Layers.mapped pages region below).readAt page read refusal =
      if pages.contains page then read region else below.readAt page read refusal := by
  rw [readAt, region?]
  cases pages.contains page <;> rfl

theorem readAt_unmapped {pages : PageRange} {below : Layers} :
    (Layers.unmapped pages below).readAt page read refusal =
      if pages.contains page then .error refusal else below.readAt page read refusal := by
  rw [readAt, region?]
  cases pages.contains page <;> rfl

theorem exists_eq_mapped_of_layout {pages : PageRange} {region : Space} {below : Layers}
    (h : layers.layout = .mapped pages region below) :
    ∃ region' below', layers = .mapped pages region' below' ∧ region'.layout = region ∧
      below'.layout = below := by
  cases layers with
  | empty => cases h
  | mapped pages' region' below' =>
    obtain ⟨rfl, rfl, rfl⟩ := Layers.mapped.inj h
    exact ⟨region', below', rfl, rfl, rfl⟩
  | unmapped pages' below' => cases h

theorem exists_eq_unmapped_of_layout {pages : PageRange} {below : Layers}
    (h : layers.layout = .unmapped pages below) :
    ∃ below', layers = .unmapped pages below' ∧ below'.layout = below := by
  cases layers with
  | empty => cases h
  | mapped pages' region' below' => cases h
  | unmapped pages' below' =>
    obtain ⟨rfl, rfl⟩ := Layers.unmapped.inj h
    exact ⟨below', rfl, rfl⟩

/-- What a read finds after a write depends on what it found before, if that is so in every
region. -/
theorem readAt_update_congr
    (hregions : layers.All fun region ↦ ∀ region', region'.layout = region.layout →
      read region' = read region → ∀ written written', write region = .ok () written →
        write region' = .ok () written' → read written' = read written)
    (hlayout : other.layout = layers.layout)
    (hbefore : other.readAt place read refusal' = layers.readAt place read refusal')
    (h : layers.update page write refusal = .ok () after)
    (h' : other.update page write refusal = .ok () after') :
    after'.readAt place read refusal' = after.readAt place read refusal' := by
  induction layers using Layers.induct generalizing other after after' with
  | empty => cases h
  | mapped pages region below ih =>
    obtain ⟨region', below', rfl, hregion, hbelow⟩ := exists_eq_mapped_of_layout hlayout
    rw [update] at h h'
    rw [readAt_mapped, readAt_mapped] at hbefore
    split at h
    next hpage =>
      rw [if_pos hpage] at h'
      obtain ⟨written, hwritten, rfl⟩ := Written.within_eq_ok_iff.1 h
      obtain ⟨written', hwritten', rfl⟩ := Written.within_eq_ok_iff.1 h'
      rw [readAt_mapped, readAt_mapped]
      split at hbefore
      next hplace =>
        rw [if_pos hplace, if_pos hplace]
        exact hregions.1 region' hregion hbefore written written' hwritten hwritten'
      next hplace =>
        rw [if_neg hplace, if_neg hplace]
        exact hbefore
    next hpage =>
      rw [if_neg hpage] at h'
      obtain ⟨written, hwritten, rfl⟩ := Written.within_eq_ok_iff.1 h
      obtain ⟨written', hwritten', rfl⟩ := Written.within_eq_ok_iff.1 h'
      rw [readAt_mapped, readAt_mapped]
      split at hbefore
      next hplace =>
        rw [if_pos hplace, if_pos hplace]
        exact hbefore
      next hplace =>
        rw [if_neg hplace, if_neg hplace]
        exact ih hregions.2 hbelow hbefore hwritten hwritten'
  | unmapped pages below ih =>
    obtain ⟨below', rfl, hbelow⟩ := exists_eq_unmapped_of_layout hlayout
    rw [update] at h h'
    rw [readAt_unmapped, readAt_unmapped] at hbefore
    split at h
    · cases h
    next hpage =>
      rw [if_neg hpage] at h'
      obtain ⟨written, hwritten, rfl⟩ := Written.within_eq_ok_iff.1 h
      obtain ⟨written', hwritten', rfl⟩ := Written.within_eq_ok_iff.1 h'
      rw [readAt_unmapped, readAt_unmapped]
      split at hbefore
      next hplace => rw [if_pos hplace, if_pos hplace]
      next hplace =>
        rw [if_neg hplace, if_neg hplace]
        exact ih hregions hbelow hbefore hwritten hwritten'

end Layers

/-! ### Spaces that match at a place -/

/-- The spaces have one layout, and the same byte at a place. -/
structure Space.MatchesAt (code : FunctionCode) (place : Address) (space other : Space) : Prop where
  layout : other.layout = space.layout
  byte : other.getByte code place = space.getByte code place

namespace Space.MatchesAt

variable {space other after after' : Space} {code code' : FunctionCode} {address place : Address}

theorem exists_eq_ram {ram : Ram} (h : (Space.ram ram).MatchesAt code place other) :
    ∃ ram', other = .ram ram' ∧ ram'.base = ram.base := by
  cases other with
  | ram ram' =>
    have hempty : ({ ram' with written := {} } : Ram) = { ram with written := {} } :=
      Space.ram.inj h.layout
    exact ⟨ram', rfl, (Ram.mk.inj hempty).2.1⟩
  | rom rom => cases h.layout
  | map width layers => cases h.layout

theorem exists_eq_map {width : BusWidth} {layers : Layers}
    (h : (Space.map width layers).MatchesAt code place other) :
    ∃ layers', other = .map width layers' ∧ layers'.layout = layers.layout := by
  cases other with
  | ram ram => cases h.layout
  | rom rom => cases h.layout
  | map width' layers' =>
    obtain ⟨rfl, hlayers⟩ := Space.map.inj h.layout
    exact ⟨layers', rfl, hlayers⟩

theorem setByteAt {ram ram' : Ram} (h : (Space.ram ram).MatchesAt code place (.ram ram'))
    (offset : Nat) (value : Byte) :
    (Space.ram (ram.setByteAt offset value)).MatchesAt code place
      (.ram (ram'.setByteAt offset value)) := by
  refine ⟨h.layout, ?_⟩
  have hoffset : ram'.offset .read code place 1 = ram.offset .read code place 1 :=
    congrArg (·.offset .read code place 1) (Space.ram.inj h.layout)
  have hbefore : ram'.getByte code place = ram.getByte code place := h.byte
  change (ram'.setByteAt offset value).getByte code place =
    (ram.setByteAt offset value).getByte code place
  rw [Ram.getByte_eq_map, Ram.getByte_eq_map] at hbefore ⊢
  change Except.map _ (ram'.offset .read code place 1) =
    Except.map _ (ram.offset .read code place 1)
  rw [hoffset] at hbefore ⊢
  cases hfound : ram.offset .read code place 1 with
  | error refusal => rfl
  | ok found =>
    rw [hfound] at hbefore
    have hbyte : ram'.byteAt found = ram.byteAt found := Except.ok.inj hbefore
    rw [Except.map, Except.map, Ram.byteAt_setByteAt, Ram.byteAt_setByteAt, hbyte]

theorem layout_of_write (hmatches : space.MatchesAt code' place other) (size : Size)
    {value : size.Value} (h : space.write code address size value = .ok () after)
    (h' : other.write code address size value = .ok () after') : after'.layout = after.layout := by
  rw [Space.layout_of_write size h, Space.layout_of_write size h', hmatches.layout]

theorem putByte {value : Byte} (hmatches : space.MatchesAt code' place other)
    (h : space.putByte code address value = .ok () after)
    (h' : other.putByte code address value = .ok () after') :
    after.MatchesAt code' place after' := by
  refine ⟨hmatches.layout_of_write .byte h h', ?_⟩
  induction space using Space.induct generalizing other after after' address place with
  | ram ram =>
    obtain ⟨ram', rfl, hbase⟩ := hmatches.exists_eq_ram
    obtain ⟨written, hwritten, rfl⟩ := exists_of_putByte_ram h
    obtain ⟨written', hwritten', rfl⟩ := exists_of_putByte_ram h'
    obtain ⟨-, rfl⟩ := Ram.putByte_eq_ok hwritten
    obtain ⟨-, rfl⟩ := Ram.putByte_eq_ok hwritten'
    rw [hbase]
    exact (hmatches.setByteAt _ _).byte
  | rom rom => cases h
  | map width layers ih =>
    obtain ⟨layers', rfl, hlayers⟩ := hmatches.exists_eq_map
    obtain ⟨written, hwritten, rfl⟩ := exists_of_putByte_map h
    obtain ⟨written', hwritten', rfl⟩ := exists_of_putByte_map h'
    have hbefore := hmatches.byte
    rw [getByte, getByte, Layers.getByte_eq_readAt, Layers.getByte_eq_readAt] at hbefore ⊢
    exact Layers.readAt_update_congr (ih.imp fun region hregion region' hlayout hbyte _ _ h h' ↦
      hregion ⟨hlayout, hbyte⟩ h h') hlayers hbefore hwritten hwritten'

theorem putWord {value : BitVec 16} (hmatches : space.MatchesAt code' place other)
    (h : space.putWord code address value = .ok () after)
    (h' : other.putWord code address value = .ok () after') :
    after.MatchesAt code' place after' := by
  refine ⟨hmatches.layout_of_write .word h h', ?_⟩
  induction space using Space.induct generalizing other after after' address place with
  | ram ram =>
    obtain ⟨ram', rfl, hbase⟩ := hmatches.exists_eq_ram
    obtain ⟨written, hwritten, rfl⟩ := exists_of_putWord_ram h
    obtain ⟨written', hwritten', rfl⟩ := exists_of_putWord_ram h'
    obtain ⟨-, rfl⟩ := Ram.putWord_eq_ok hwritten
    obtain ⟨-, rfl⟩ := Ram.putWord_eq_ok hwritten'
    rw [hbase]
    exact ((hmatches.setByteAt _ _).setByteAt _ _).byte
  | rom rom => cases h
  | map width layers ih =>
    obtain ⟨layers', rfl, hlayers⟩ := hmatches.exists_eq_map
    by_cases hpage : width.samePage address
    · obtain ⟨written, hwritten, rfl⟩ := exists_of_putWord_map hpage h
      obtain ⟨written', hwritten', rfl⟩ := exists_of_putWord_map hpage h'
      have hbefore := hmatches.byte
      rw [getByte, getByte, Layers.getByte_eq_readAt, Layers.getByte_eq_readAt] at hbefore ⊢
      exact Layers.readAt_update_congr (ih.imp fun region hregion region' hlayout hbyte _ _ h h' ↦
        hregion ⟨hlayout, hbyte⟩ h h') hlayers hbefore hwritten hwritten'
    · obtain ⟨written, hhigh, hlow⟩ := exists_of_putWord_of_split hpage h
      obtain ⟨written', hhigh', hlow'⟩ := exists_of_putWord_of_split hpage h'
      exact ((hmatches.putByte hhigh hhigh').putByte hlow hlow').byte

/-- The byte at a place after a write depends on nothing but that byte before it, and on the
layout. -/
theorem write {size : Size} {value : size.Value} (hmatches : space.MatchesAt code' place other)
    (h : space.write code address size value = .ok () after)
    (h' : other.write code address size value = .ok () after') :
    after.MatchesAt code' place after' := by
  cases size with
  | byte => exact hmatches.putByte h h'
  | word => exact hmatches.putWord h h'
  | long =>
    cases space with
    | ram ram =>
      obtain ⟨ram', rfl, hbase⟩ := hmatches.exists_eq_ram
      obtain ⟨written, hwritten, rfl⟩ := exists_of_putLong_ram h
      obtain ⟨written', hwritten', rfl⟩ := exists_of_putLong_ram h'
      obtain ⟨-, rfl⟩ := Ram.putLong_eq_ok hwritten
      obtain ⟨-, rfl⟩ := Ram.putLong_eq_ok hwritten'
      rw [hbase]
      exact (((hmatches.setByteAt _ _).setByteAt _ _).setByteAt _ _).setByteAt _ _
    | rom rom => cases h
    | map width layers =>
      obtain ⟨layers', rfl, -⟩ := hmatches.exists_eq_map
      obtain ⟨middle, hhigh, hlow⟩ := Written.andThen_eq_ok_iff.1 h
      obtain ⟨middle', hhigh', hlow'⟩ := Written.andThen_eq_ok_iff.1 h'
      exact (hmatches.putWord hhigh hhigh').putWord hlow hlow'

theorem symm (h : space.MatchesAt code place other) : other.MatchesAt code place space :=
  ⟨h.layout.symm, h.byte.symm⟩

/-- What changes in other bytes only keeps the match. -/
theorem of_read (h : space.MatchesAt code place other) (hlayout : after.layout = space.layout)
    (hread : after.read code place .byte = space.read code place .byte) :
    after.MatchesAt code place other :=
  ⟨h.layout.trans hlayout.symm, h.byte.trans hread.symm⟩

end Space.MatchesAt

/-! ## Rising and falling addresses -/

/-- Of two blocks that follow one another and fit into a page, a byte is in one at most. -/
theorem Address.apart_or_apart (place : Address) {address : Address} {length length' : Nat}
    (hle : length + length' ≤ 2 ^ pageBits) :
    place.Apart 1 address length ∨
      place.Apart 1 (address + BitVec.ofNat 32 length) length' := by
  by_cases hfirst : place.Apart 1 address length
  · exact .inl hfirst
  · simp only [Address.Apart, Classical.not_forall, Decidable.not_not] at hfirst
    obtain ⟨i, hi, j, hj, hplace⟩ := hfirst
    refine .inr fun i' hi' k hk ↦ ?_
    obtain rfl : i' = i := by omega
    rw [hplace]
    exact address.apart_add length length' hle j hj k hk

namespace Space

variable {size : Size} {code code' : FunctionCode} {address place : Address} {length : Nat}
  {values : List size.Value} {space before after before' after' : Space}

/-- Values that lie one after another from an address on are written, the lowest first. -/
def Rising (code : FunctionCode) (size : Size) :
    Address → List size.Value → Space → Space → Prop
  | _, [], before, after => after = before
  | address, value :: rest, before, after => ∃ middle,
    before.write code address size value = .ok () middle ∧
      Rising code size (address + BitVec.ofNat 32 size.bytes) rest middle after

/-- Values that lie one after another from an address on are written, the highest first. -/
def Falling (code : FunctionCode) (size : Size) :
    Address → List size.Value → Space → Space → Prop
  | _, [], before, after => after = before
  | address, value :: rest, before, after => ∃ middle,
    Falling code size (address + BitVec.ofNat 32 size.bytes) rest before middle ∧
      middle.write code address size value = .ok () after

theorem Rising.layout (h : Rising code size address values before after) :
    after.layout = before.layout := by
  induction values generalizing address before with
  | nil => exact congrArg Space.layout h
  | cons value rest ih =>
    obtain ⟨middle, hwrite, hrest⟩ := h
    exact (ih hrest).trans (layout_of_write size hwrite)

theorem Falling.layout (h : Falling code size address values before after) :
    after.layout = before.layout := by
  induction values generalizing address after with
  | nil => exact congrArg Space.layout h
  | cons value rest ih =>
    obtain ⟨middle, hrest, hwrite⟩ := h
    exact (layout_of_write size hwrite).trans (ih hrest)

/-- What can be written falling can be written rising, whatever the memories have come to hold. -/
theorem Falling.exists_rising (h : Falling code size address values before after)
    (hlayout : before'.layout = before.layout) :
    ∃ after', Rising code size address values before' after' := by
  induction values generalizing address before' after with
  | nil => exact ⟨before', rfl⟩
  | cons value rest ih =>
    obtain ⟨middle, hrest, hwrite⟩ := h
    have hwritable : middle.Writable code address size := ⟨value, after, hwrite⟩
    obtain ⟨middle', hwrite'⟩ :=
      hwritable.exists_write (hlayout.trans hrest.layout.symm) value
    have hlayout' : middle'.layout = before.layout := (layout_of_write size hwrite').trans hlayout
    obtain ⟨after', hrest'⟩ := ih hrest hlayout'
    exact ⟨after', middle', hwrite', hrest'⟩

/-- A block that is apart from all the values reads as before. -/
theorem Falling.read_of_apart {size' : Size} (h : Falling code size address values before after)
    (hapart : before.Apart place size'.bytes address (size.bytes * values.length)) :
    after.read code' place size' = before.read code' place size' := by
  induction values generalizing address after with
  | nil => rw [show after = before from h]
  | cons value rest ih =>
    obtain ⟨middle, hrest, hwrite⟩ := h
    rw [List.length_cons, Nat.mul_succ, Nat.add_comm] at hapart
    have hfirst := (hapart.second_head (Nat.le_add_right ..)).of_layout_eq hrest.layout
    rw [read_write_of_apart hfirst hwrite]
    exact ih hrest (hapart.second_part _ _ (Nat.le_refl _))

theorem Rising.read_of_apart {size' : Size} (h : Rising code size address values before after)
    (hapart : before.Apart place size'.bytes address (size.bytes * values.length)) :
    after.read code' place size' = before.read code' place size' := by
  induction values generalizing address before with
  | nil => rw [show after = before from h]
  | cons value rest ih =>
    obtain ⟨middle, hwrite, hrest⟩ := h
    rw [List.length_cons, Nat.mul_succ, Nat.add_comm] at hapart
    have hlayout := layout_of_write size hwrite
    rw [ih hrest ((hapart.second_part _ _ (Nat.le_refl _)).of_layout_eq hlayout)]
    exact read_write_of_apart (hapart.second_head (Nat.le_add_right ..)) hwrite

/-- A block that fits into a page has no alias. -/
theorem unaliased_of_page (space : Space) (hfits : length ≤ 2 ^ pageBits) :
    space.Unaliased address length := by
  intro i hi j hj hne
  apply space.distinct_of_place_ne
  intro hplace
  rw [Address.place_add, Address.place_add] at hplace
  have hoffsets := congrArg BitVec.toNat ((BitVec.add_right_inj _).1 hplace)
  rw [Address.toNat_place, Address.toNat_place, BitVec.toNat_ofNat, BitVec.toNat_ofNat] at hoffsets
  rw [pageBits] at hfits hoffsets
  omega

section ReadBack

variable {first rest : Nat}

theorem Unaliased.tail (h : space.Unaliased address (first + rest)) :
    space.Unaliased (address + BitVec.ofNat 32 first) rest := by
  intro i hi j hj hne
  rw [BitVec.add_assoc, BitVec.add_assoc, ← BitVec.ofNat_add, ← BitVec.ofNat_add]
  exact h (first + i) (by omega) (first + j) (by omega) (by omega)

theorem Unaliased.head_apart (h : space.Unaliased address (first + rest)) :
    space.Apart address first (address + BitVec.ofNat 32 first) rest := by
  have hparts := h.parts 0 first first rest (by omega) (Nat.le_refl _) (.inl (by omega))
  rwa [BitVec.add_zero] at hparts

theorem Unaliased.tail_apart (h : space.Unaliased address (first + rest)) :
    space.Apart (address + BitVec.ofNat 32 first) rest address first := by
  have hparts := h.parts first rest 0 first (Nat.le_refl _) (by omega) (.inr (by omega))
  rwa [BitVec.add_zero] at hparts

end ReadBack

/-- Each value is read back from its address, if no two of them overlap. -/
theorem Falling.read_getElem (code' : FunctionCode)
    (h : Falling code size address values before after)
    (hunaliased : before.Unaliased address (size.bytes * values.length)) {i : Nat}
    (hi : i < values.length) :
    after.read code' (address + BitVec.ofNat 32 (size.bytes * i)) size = .ok values[i] := by
  induction values generalizing address after i with
  | nil => cases hi
  | cons value rest ih =>
    obtain ⟨middle, hrest, hwrite⟩ := h
    rw [List.length_cons, Nat.mul_succ, Nat.add_comm] at hunaliased
    cases i with
    | zero =>
      rw [Nat.mul_zero, BitVec.add_zero]
      exact read_write hwrite
    | succ i =>
      have hi' : i < rest.length := Nat.lt_of_succ_lt_succ hi
      have hvalue := ih hrest hunaliased.tail hi'
      have hpart : size.bytes * i + size.bytes ≤ size.bytes * rest.length := by
        rw [← Nat.mul_succ]
        exact Nat.mul_le_mul_left _ hi'
      have hapart := (hunaliased.tail_apart.of_layout_eq hrest.layout).first_part
        (size.bytes * i) size.bytes hpart
      rw [BitVec.add_assoc, ← BitVec.ofNat_add, Nat.add_comm, ← Nat.mul_succ] at hapart hvalue
      rw [read_write_of_apart hapart hwrite]
      exact hvalue

theorem Rising.read_getElem (code' : FunctionCode)
    (h : Rising code size address values before after)
    (hunaliased : before.Unaliased address (size.bytes * values.length)) {i : Nat}
    (hi : i < values.length) :
    after.read code' (address + BitVec.ofNat 32 (size.bytes * i)) size = .ok values[i] := by
  induction values generalizing address before i with
  | nil => cases hi
  | cons value rest ih =>
    obtain ⟨middle, hwrite, hrest⟩ := h
    have hlayout : middle.layout = before.layout := layout_of_write size hwrite
    rw [List.length_cons, Nat.mul_succ, Nat.add_comm] at hunaliased
    cases i with
    | zero =>
      have hapart := hunaliased.head_apart.of_layout_eq hlayout
      rw [Nat.mul_zero, BitVec.add_zero, hrest.read_of_apart hapart]
      exact read_write hwrite
    | succ i =>
      have hvalue := ih hrest (hunaliased.tail.of_layout_eq hlayout) (Nat.lt_of_succ_lt_succ hi)
      rw [BitVec.add_assoc, ← BitVec.ofNat_add, Nat.add_comm, ← Nat.mul_succ] at hvalue
      exact hvalue

/-- Rising and falling lead to the same bytes, if all of them fit into a page. -/
theorem MatchesAt.rising_falling (hmatches : before.MatchesAt code' place before')
    (hfits : size.bytes * values.length ≤ 2 ^ pageBits)
    (h : Rising code size address values before after)
    (h' : Falling code size address values before' after') :
    after.MatchesAt code' place after' := by
  induction values generalizing address before before' after' with
  | nil =>
    obtain rfl : after = before := h
    obtain rfl : after' = before' := h'
    exact hmatches
  | cons value rest ih =>
    obtain ⟨middle, hwrite, hrest⟩ := h
    obtain ⟨middle', hrest', hwrite'⟩ := h'
    rw [List.length_cons, Nat.mul_succ, Nat.add_comm] at hfits
    have hlayout : middle.layout = before.layout := Space.layout_of_write size hwrite
    obtain hplaces | hplaces := place.apart_or_apart hfits
    · have hmatches' : middle.MatchesAt code' place before' :=
        hmatches.of_read hlayout (read_write_of_apart (before.apart_of_places hplaces) hwrite)
      have hafter := ih hmatches' (Nat.le_of_add_left_le hfits) hrest hrest'
      exact (hafter.symm.of_read (Space.layout_of_write size hwrite')
        (read_write_of_apart (middle'.apart_of_places hplaces) hwrite')).symm
    · have hmatches' : before.MatchesAt code' place middle' :=
        (hmatches.symm.of_read hrest'.layout
          (hrest'.read_of_apart (before'.apart_of_places hplaces))).symm
      have hmiddle := hmatches'.write hwrite hwrite'
      exact hmiddle.of_read hrest.layout (hrest.read_of_apart (middle.apart_of_places hplaces))

end Space

end M68000
