import M68000.Proofs.Memory.Ram
import M68000.Proofs.Memory.Regions
import Mathlib.Data.List.Forall2

/-!
# The supervisor areas

Whatever is written in user state, and also where a write is refused after its first part, the
bytes in the supervisor areas of all memories of a space stay as they were.
-/

namespace M68000

/-! ## A single memory -/

namespace Ram

/-- The two memories are laid out alike and have the same bytes where users may not write. -/
structure SameProtected (before after : Ram) : Prop where
  size : after.size = before.size
  base : after.base = before.base
  supervisorArea : after.supervisorArea = before.supervisorArea
  byteAt : ∀ offset < before.supervisorArea, after.byteAt offset = before.byteAt offset

namespace SameProtected

theorem refl (ram : Ram) : SameProtected ram ram :=
  ⟨rfl, rfl, rfl, fun _ _ ↦ rfl⟩

theorem trans {first second third : Ram} (h : SameProtected first second)
    (h' : SameProtected second third) : SameProtected first third where
  size := h'.size.trans h.size
  base := h'.base.trans h.base
  supervisorArea := h'.supervisorArea.trans h.supervisorArea
  byteAt offset hlt := by
    rw [h'.byteAt offset (h.supervisorArea ▸ hlt), h.byteAt offset hlt]

end SameProtected

variable {ram after : Ram} {code : FunctionCode} {address : Address}

theorem sameProtected_setByteAt {offset : Nat} (h : ram.supervisorArea ≤ offset)
    (value : Byte) : SameProtected ram (ram.setByteAt offset value) where
  size := rfl
  base := rfl
  supervisorArea := rfl
  byteAt other hlt := by
    rw [byteAt_setByteAt, if_neg (by omega)]

variable (huser : code.supervisor = false)

include huser

theorem sameProtected_putByte {value : Byte} (h : ram.putByte code address value = .ok after) :
    SameProtected ram after := by
  obtain ⟨hoffset, rfl⟩ := putByte_eq_ok h
  exact sameProtected_setByteAt ((offset_eq_ok_iff.1 hoffset).2.2 rfl huser) _

theorem sameProtected_putWord {value : BitVec 16}
    (h : ram.putWord code address value = .ok after) : SameProtected ram after := by
  obtain ⟨hoffset, rfl⟩ := putWord_eq_ok h
  have harea := (offset_eq_ok_iff.1 hoffset).2.2 rfl huser
  refine (sameProtected_setByteAt harea _).trans (sameProtected_setByteAt ?_ _)
  exact Nat.le_succ_of_le harea

theorem sameProtected_putLong {value : BitVec 32}
    (h : ram.putLong code address value = .ok after) : SameProtected ram after := by
  obtain ⟨hoffset, rfl⟩ := putLong_eq_ok h
  have harea := (offset_eq_ok_iff.1 hoffset).2.2 rfl huser
  have hset (more : Nat) (ram' : Ram) (value : Byte) (h : SameProtected ram ram') :
      SameProtected ram (ram'.setByteAt ((address - ram.base).toNat + more) value) := by
    refine h.trans (sameProtected_setByteAt ?_ value)
    rw [h.supervisorArea]
    exact Nat.le_add_right_of_le harea
  exact hset 3 _ _ (hset 2 _ _ (hset 1 _ _ (hset 0 _ _ (.refl ram))))

end Ram

/-! ## All memories of a space -/

mutual

/-- The memories in a space, in the order of the mappings. -/
def Space.rams : Space → List Ram
  | .ram ram => [ram]
  | .rom _ => []
  | .map _ layers => layers.rams

def Layers.rams : Layers → List Ram
  | .empty => []
  | .mapped _ region below => region.rams ++ below.rams
  | .unmapped _ below => below.rams

end

/-- The memories of both lists have the same bytes where users may not write. -/
abbrev SameProtected (before after : List Ram) : Prop :=
  List.Forall₂ Ram.SameProtected before after

namespace SameProtected

theorem refl (rams : List Ram) : SameProtected rams rams :=
  List.forall₂_same.2 fun ram _ ↦ .refl ram

theorem trans {first second third : List Ram} (h : SameProtected first second)
    (h' : SameProtected second third) : SameProtected first third := by
  induction h generalizing third with
  | nil => exact h'
  | cons hhead _ ih =>
    obtain _ | ⟨hhead', htail'⟩ := h'
    exact .cons (hhead.trans hhead') (ih htail')

theorem append {first second first' second' : List Ram} (h : SameProtected first second)
    (h' : SameProtected first' second') : SameProtected (first ++ first') (second ++ second') :=
  List.rel_append h h'

theorem ofExcept {ram : Ram} {outcome : Except BusError Ram}
    (h : ∀ after, outcome = .ok after → Ram.SameProtected ram after) :
    SameProtected [ram] [(Written.ofExcept ram outcome).space] :=
  .cons (Written.space_ofExcept Ram.SameProtected (.refl ram) h) .nil

end SameProtected

/-- A write that keeps the supervisor areas of every region keeps those of the map. -/
theorem Layers.sameProtected_update {write : Space → Written Space} {layers : Layers}
    (hwrite : layers.All fun region ↦ SameProtected region.rams (write region).space.rams)
    (page : Nat) (refusal : BusError) :
    SameProtected layers.rams (layers.update page write refusal).space.rams := by
  induction layers using Layers.induct with
  | empty => exact .nil
  | mapped pages region below ih =>
    rw [Layers.update]
    split
    · rw [Written.space_within]
      exact hwrite.1.append (.refl _)
    · rw [Written.space_within]
      exact SameProtected.append (.refl _) (ih hwrite.2)
  | unmapped pages below ih =>
    rw [Layers.update]
    split
    · exact .refl _
    · rw [Written.space_within]
      exact ih hwrite

section User

variable {code : FunctionCode}

namespace Space

variable (huser : code.supervisor = false) (address : Address) (space : Space)

include huser

theorem sameProtected_putByte (value : Byte) :
    SameProtected space.rams (space.putByte code address value).space.rams := by
  induction space using Space.induct generalizing address with
  | ram ram =>
    rw [putByte, Written.space_within]
    exact .ofExcept fun after h ↦ Ram.sameProtected_putByte huser h
  | rom rom =>
    rw [putByte]
    exact .refl _
  | map width layers ih =>
    rw [putByte, Written.space_within, Layers.putByte_eq_update]
    exact Layers.sameProtected_update (ih.imp fun region hregion ↦ hregion _) _ _

theorem sameProtected_putWord (value : BitVec 16) :
    SameProtected space.rams (space.putWord code address value).space.rams := by
  induction space using Space.induct generalizing address with
  | ram ram =>
    rw [putWord, Written.space_within]
    exact .ofExcept fun after h ↦ Ram.sameProtected_putWord huser h
  | rom rom =>
    rw [putWord]
    exact .refl _
  | map width layers ih =>
    by_cases hpage : width.samePage address
    · rw [putWord, if_pos hpage, Written.space_within, Layers.putWord_eq_update]
      exact Layers.sameProtected_update (ih.imp fun region hregion ↦ hregion _) _ _
    · rw [putWord_map_of_split hpage]
      -- The bytes go to different pages, and the first is written even if the second is refused.
      exact Written.space_andThen (fun before after : Space ↦ SameProtected before.rams after.rams)
        .trans (sameProtected_putByte huser _ _ _)
        fun middle ↦ sameProtected_putByte huser _ middle _

theorem sameProtected_putLong (value : BitVec 32) :
    SameProtected space.rams (space.putLong code address value).space.rams := by
  have hwords : SameProtected space.rams ((space.putWord code address
      (value.extractLsb' 16 16)).andThen
        (·.putWord code (address + 2) (value.extractLsb' 0 16))).space.rams :=
    Written.space_andThen (fun before after : Space ↦ SameProtected before.rams after.rams)
      .trans (space.sameProtected_putWord huser _ _)
      fun middle ↦ middle.sameProtected_putWord huser _ _
  cases space with
  | ram ram =>
    rw [putLong, Written.space_within]
    exact .ofExcept fun after h ↦ Ram.sameProtected_putLong huser h
  | rom rom => exact hwords
  | map width layers => exact hwords

/-- Nothing that users write changes a supervisor area. -/
theorem sameProtected_write (size : Size) (value : size.Value) :
    SameProtected space.rams (space.write code address size value).space.rams := by
  cases size with
  | byte => exact space.sameProtected_putByte huser address value
  | word => exact space.sameProtected_putWord huser address value
  | long => exact sameProtected_putLong huser address space value

end Space

end User

end M68000
