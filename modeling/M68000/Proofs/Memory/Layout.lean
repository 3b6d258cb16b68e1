import M68000.Proofs.Memory.Neighbours
import M68000.Proofs.Memory.Ram
import M68000.Proofs.Memory.Regions

/-!
# The layout of a space

Writes change what the memories of a space hold, and nothing else of it. So which byte an address
is of stays the same for ever. Two addresses are of different bytes if they go to different
regions, or to one region where they are of different bytes in turn.
-/

namespace M68000

/-! ## Spaces without their contents -/

mutual

/-- The space with all its memories empty. -/
def Space.layout : Space → Space
  | .ram ram => .ram { ram with written := {} }
  | .rom rom => .rom rom
  | .map width layers => .map width layers.layout

def Layers.layout : Layers → Layers
  | .empty => .empty
  | .mapped pages region below => .mapped pages region.layout below.layout
  | .unmapped pages below => .unmapped pages below.layout

end

namespace Ram

variable {ram after : Ram} {code : FunctionCode} {address : Address}

theorem layout_putByte {value : Byte} (h : ram.putByte code address value = .ok after) :
    (Space.ram after).layout = (Space.ram ram).layout := by
  obtain ⟨-, rfl⟩ := putByte_eq_ok h
  rfl

theorem layout_putWord {value : BitVec 16} (h : ram.putWord code address value = .ok after) :
    (Space.ram after).layout = (Space.ram ram).layout := by
  obtain ⟨-, rfl⟩ := putWord_eq_ok h
  rfl

theorem layout_putLong {value : BitVec 32} (h : ram.putLong code address value = .ok after) :
    (Space.ram after).layout = (Space.ram ram).layout := by
  obtain ⟨-, rfl⟩ := putLong_eq_ok h
  rfl

end Ram

/-- A write that keeps the layout of every region keeps that of the map. -/
theorem Layers.layout_update {write : Space → Written Space} {layers : Layers}
    (hwrite : layers.All fun region ↦ (write region).space.layout = region.layout) (page : Nat)
    (refusal : BusError) :
    (layers.update page write refusal).space.layout = layers.layout := by
  induction layers using Layers.induct with
  | empty => rfl
  | mapped pages region below ih =>
    rw [update]
    split
    · rw [Written.space_within, layout, layout, hwrite.1]
    · rw [Written.space_within, layout, layout, ih hwrite.2]
  | unmapped pages below ih =>
    rw [update]
    split
    · rfl
    · rw [Written.space_within, layout, layout, ih hwrite]

namespace Space

variable (code : FunctionCode) (address : Address) (space : Space)

theorem layout_ofExcept {ram : Ram} {outcome : Except BusError Ram}
    (h : ∀ after, outcome = .ok after → (Space.ram after).layout = (Space.ram ram).layout) :
    (Space.ram (Written.ofExcept ram outcome).space).layout = (Space.ram ram).layout :=
  Written.space_ofExcept (fun before after ↦ (Space.ram after).layout = (Space.ram before).layout)
    rfl h

theorem layout_andThen {outcome : Written Space} {next : Space → Written Space}
    (hfirst : outcome.space.layout = space.layout)
    (hnext : ∀ middle, (next middle).space.layout = middle.layout) :
    (outcome.andThen next).space.layout = space.layout :=
  Written.space_andThen (fun before after : Space ↦ after.layout = before.layout)
    (fun h h' ↦ h'.trans h) hfirst hnext

theorem layout_putByte (value : Byte) :
    (space.putByte code address value).space.layout = space.layout := by
  induction space using Space.induct generalizing address with
  | ram ram =>
    rw [putByte, Written.space_within]
    exact layout_ofExcept fun after h ↦ Ram.layout_putByte h
  | rom rom => rfl
  | map width layers ih =>
    have hregions := ih.imp fun region hregion ↦ hregion (width.truncate address)
    rw [putByte, Written.space_within, Layers.putByte_eq_update, layout, layout,
      Layers.layout_update hregions]

theorem layout_putWord (value : BitVec 16) :
    (space.putWord code address value).space.layout = space.layout := by
  induction space using Space.induct generalizing address with
  | ram ram =>
    rw [putWord, Written.space_within]
    exact layout_ofExcept fun after h ↦ Ram.layout_putWord h
  | rom rom => rfl
  | map width layers ih =>
    by_cases hpage : width.samePage address
    · have hregions := ih.imp fun region hregion ↦ hregion (width.truncate address)
      rw [putWord, if_pos hpage, Written.space_within, Layers.putWord_eq_update, layout, layout,
        Layers.layout_update hregions]
    · rw [putWord_map_of_split hpage]
      exact layout_andThen _ (layout_putByte ..) fun middle ↦ layout_putByte ..

theorem layout_putLong (value : BitVec 32) :
    (space.putLong code address value).space.layout = space.layout := by
  have hwords : ((space.putWord code address (value.extractLsb' 16 16)).andThen
      (·.putWord code (address + 2) (value.extractLsb' 0 16))).space.layout = space.layout :=
    layout_andThen _ (layout_putWord ..) fun middle ↦ layout_putWord ..
  cases space with
  | ram ram =>
    rw [putLong, Written.space_within]
    exact layout_ofExcept fun after h ↦ Ram.layout_putLong h
  | rom rom => exact hwords
  | map width layers => exact hwords

/-- No write changes the layout, whether it is done or refused. -/
theorem layout_write (size : Size) (value : size.Value) :
    (space.write code address size value).space.layout = space.layout := by
  cases size with
  | byte => exact space.layout_putByte code address value
  | word => exact space.layout_putWord code address value
  | long => exact space.layout_putLong code address value

end Space

/-! ## Different bytes -/

mutual

/-- The two addresses are those of different bytes. -/
def Space.Distinct (first second : Address) : Space → Prop
  | .ram _ | .rom _ => first ≠ second
  | .map width layers => layers.Distinct (width.truncate first) (width.truncate second)

def Layers.Distinct (first second : Address) : Layers → Prop
  | .empty => first ≠ second
  | .mapped pages region below =>
    match pages.contains first.page, pages.contains second.page with
    | true, true => region.Distinct first second
    | false, false => below.Distinct first second
    | _, _ => first ≠ second
  | .unmapped pages below =>
    match pages.contains first.page, pages.contains second.page with
    | false, false => below.Distinct first second
    | _, _ => first ≠ second

end

namespace Layers

variable {layers : Layers} {first second : Address}

theorem Distinct.region {region : Space} (h : layers.Distinct first second)
    (hshared : layers.shared? first.page second.page = some region) :
    region.Distinct first second := by
  induction layers using Layers.induct with
  | empty => cases hshared
  | mapped pages top below ih =>
    rw [Distinct] at h
    rw [shared?] at hshared
    split at hshared
    next hfirst hsecond =>
      rw [hfirst, hsecond] at h
      cases hshared
      exact h
    next hfirst hsecond =>
      rw [hfirst, hsecond] at h
      exact ih h hshared
    next => cases hshared
  | unmapped pages below ih =>
    rw [Distinct] at h
    rw [shared?] at hshared
    split at hshared
    next hfirst hsecond =>
      rw [hfirst, hsecond] at h
      exact ih h hshared
    next => cases hshared

/-- What is different in every region is different in the map. -/
theorem distinct_of_all (hregions : layers.All fun region ↦ region.Distinct first second)
    (hne : first ≠ second) : layers.Distinct first second := by
  induction layers using Layers.induct with
  | empty => exact hne
  | mapped pages region below ih =>
    rw [Distinct]
    split
    · exact hregions.1
    · exact ih hregions.2
    · exact hne
  | unmapped pages below ih =>
    rw [Distinct]
    split
    · exact ih hregions
    · exact hne

theorem ne_of_distinct (hregions : layers.All fun region ↦ region.Distinct first second →
    first ≠ second) (h : layers.Distinct first second) : first ≠ second := by
  induction layers using Layers.induct with
  | empty => exact h
  | mapped pages region below ih =>
    rw [Distinct] at h
    split at h
    · exact hregions.1 h
    · exact ih hregions.2 h
    · exact h
  | unmapped pages below ih =>
    rw [Distinct] at h
    split at h
    · exact ih hregions h
    · exact h

theorem distinct_layout (hregions : layers.All fun region ↦
      (region.layout.Distinct first second ↔ region.Distinct first second)) :
    layers.layout.Distinct first second ↔ layers.Distinct first second := by
  induction layers using Layers.induct with
  | empty => rfl
  | mapped pages region below ih =>
    rw [layout, Distinct, Distinct]
    split
    · exact hregions.1
    · exact ih hregions.2
    · rfl
  | unmapped pages below ih =>
    rw [layout, Distinct, Distinct]
    split
    · exact ih hregions
    · rfl

end Layers

namespace Space

variable {space : Space} {first second : Address}

theorem Distinct.ne (h : space.Distinct first second) : first ≠ second := by
  induction space using Space.induct generalizing first second with
  | ram ram => exact h
  | rom rom => exact h
  | map width layers ih =>
    intro heq
    have hregions := ih.imp fun region hregion ↦
      @hregion (width.truncate first) (width.truncate second)
    exact Layers.ne_of_distinct hregions h (congrArg width.truncate heq)

theorem distinct_of_place_ne (space : Space) (h : first.place ≠ second.place) :
    space.Distinct first second := by
  induction space using Space.induct generalizing first second with
  | ram ram => exact fun heq ↦ h (congrArg Address.place heq)
  | rom rom => exact fun heq ↦ h (congrArg Address.place heq)
  | map width layers ih =>
    have hplaces : (width.truncate first).place ≠ (width.truncate second).place := by
      rw [Address.place_truncate, Address.place_truncate]
      exact h
    exact Layers.distinct_of_all (ih.imp fun region hregion ↦ hregion hplaces)
      fun heq ↦ hplaces (congrArg Address.place heq)

theorem distinct_layout (space : Space) (first second : Address) :
    space.layout.Distinct first second ↔ space.Distinct first second := by
  induction space using Space.induct generalizing first second with
  | ram ram => rfl
  | rom rom => rfl
  | map width layers ih => exact Layers.distinct_layout (ih.imp fun region hregion ↦ hregion _ _)

end Space

theorem Layers.Distinct.ne {layers : Layers} {first second : Address}
    (h : layers.Distinct first second) : first ≠ second :=
  Layers.ne_of_distinct (.of_forall fun _ ↦ Space.Distinct.ne) h

/-! ## Blocks of bytes -/

namespace Space

variable {space before after : Space} {first second : Address} {length length' : Nat}

/-- No byte of the one block is a byte of the other. -/
def Apart (space : Space) (first : Address) (length : Nat) (second : Address) (length' : Nat) :
    Prop :=
  ∀ i < length, ∀ j < length',
    space.Distinct (first + BitVec.ofNat 32 i) (second + BitVec.ofNat 32 j)

theorem apart_of_places (space : Space) (h : first.Apart length second length') :
    space.Apart first length second length' :=
  fun i hi j hj ↦ space.distinct_of_place_ne (h i hi j hj)

namespace Apart

theorem of_layout_eq (hlayout : after.layout = before.layout)
    (h : before.Apart first length second length') : after.Apart first length second length' := by
  intro i hi j hj
  rw [← distinct_layout, hlayout, distinct_layout]
  exact h i hi j hj

/-- Parts of blocks that are apart are apart. -/
theorem parts (h : space.Apart first length second length') (i part j part' : Nat)
    (hi : i + part ≤ length) (hj : j + part' ≤ length') :
    space.Apart (first + BitVec.ofNat 32 i) part (second + BitVec.ofNat 32 j) part' := by
  intro k hk l hl
  rw [BitVec.add_assoc, BitVec.add_assoc, ← BitVec.ofNat_add, ← BitVec.ofNat_add]
  exact h (i + k) (by omega) (j + l) (by omega)

theorem first_part (h : space.Apart first length second length') (i part : Nat)
    (hi : i + part ≤ length) : space.Apart (first + BitVec.ofNat 32 i) part second length' := by
  have hpart := h.parts i part 0 length' hi (by omega)
  rwa [BitVec.add_zero] at hpart

theorem second_part (h : space.Apart first length second length') (j part' : Nat)
    (hj : j + part' ≤ length') : space.Apart first length (second + BitVec.ofNat 32 j) part' := by
  have hpart := h.parts 0 length j part' (by omega) hj
  rwa [BitVec.add_zero] at hpart

theorem first_head (h : space.Apart first length second length') {part : Nat}
    (hpart : part ≤ length) : space.Apart first part second length' :=
  fun i hi ↦ h i (Nat.lt_of_lt_of_le hi hpart)

theorem second_head (h : space.Apart first length second length') {part' : Nat}
    (hpart : part' ≤ length') : space.Apart first length second part' :=
  fun i hi j hj ↦ h i hi j (Nat.lt_of_lt_of_le hj hpart)

end Apart

end Space

/-! ## Blocks in a region -/

namespace BusWidth

variable (width : BusWidth)

/-- The block is a byte, or a word that goes to one region whole. -/
def Whole (address : Address) (length : Nat) : Prop :=
  length = 1 ∨ length = 2 ∧ width.samePage address = true

variable {width} {address : Address} {length : Nat}

theorem Whole.truncate_add (h : width.Whole address length) (hbits : width.bits ≠ pageBits)
    {i : Nat} (hi : i < length) :
    width.truncate (address + BitVec.ofNat 32 i) =
      width.truncate address + BitVec.ofNat 32 i := by
  obtain rfl | ⟨rfl, hpage⟩ := h
  · obtain rfl : i = 0 := by omega
    rw [BitVec.add_zero, BitVec.add_zero]
  · obtain rfl | rfl : i = 0 ∨ i = 1 := by omega
    · rw [BitVec.add_zero, BitVec.add_zero]
    · exact width.truncate_succ_of_samePage hbits hpage

theorem Whole.page_truncate_add (h : width.Whole address length) {i : Nat} (hi : i < length) :
    (width.truncate (address + BitVec.ofNat 32 i)).page = (width.truncate address).page := by
  obtain rfl | ⟨rfl, hpage⟩ := h
  · obtain rfl : i = 0 := by omega
    rw [BitVec.add_zero]
  · obtain rfl | rfl : i = 0 ∨ i = 1 := by omega
    · rw [BitVec.add_zero]
    · rw [samePage, beq_iff_eq] at hpage
      exact hpage.symm

end BusWidth

/-- Blocks that are apart in a map, and go to one region whole, are apart in the region. -/
theorem Space.Apart.region {width : BusWidth} {layers : Layers} {first second : Address}
    {length length' : Nat} (h : (Space.map width layers).Apart first length second length')
    (hfirst : width.Whole first length) (hsecond : width.Whole second length') {region : Space}
    (hshared : layers.shared? (width.truncate first).page (width.truncate second).page =
      some region) :
    region.Apart (width.truncate first) length (width.truncate second) length' := by
  intro i hi j hj
  have hdistinct : layers.Distinct (width.truncate (first + BitVec.ofNat 32 i))
      (width.truncate (second + BitVec.ofNat 32 j)) :=
    h i hi j hj
  by_cases hbits : width.bits = pageBits
  · -- The word at the end of a single page goes on at the place where the page begins.
    apply Space.distinct_of_place_ne
    rw [Address.place_add, Address.place_add, Address.place_truncate, Address.place_truncate,
      ← Address.place_add, ← Address.place_add]
    exact fun hplace ↦ hdistinct.ne ((width.truncate_inj_iff_place hbits).2 hplace)
  · rw [← hfirst.truncate_add hbits hi, ← hsecond.truncate_add hbits hj]
    apply hdistinct.region
    rw [hfirst.page_truncate_add hi, hsecond.page_truncate_add hj]
    exact hshared

end M68000
