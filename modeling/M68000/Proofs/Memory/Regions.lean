import M68000.Proofs.Memory.Written

/-!
# Regions of a map

An access to a map is an access to the region of one page, and a write replaces the region that
it was made to, on all pages that this region serves. What holds of every single memory and
passes from the regions of a map to the map holds of every space.
-/

namespace M68000

/-! ## Induction -/

/-- The property holds of all regions that are mapped somewhere. -/
def Layers.All (P : Space → Prop) : Layers → Prop
  | .empty => True
  | .mapped _ region below => P region ∧ below.All P
  | .unmapped _ below => below.All P

/-- Induction over the maps that lie within maps. -/
theorem Space.induct {P : Space → Prop} (ram : ∀ ram, P (.ram ram)) (rom : ∀ rom, P (.rom rom))
    (map : ∀ width layers, layers.All P → P (.map width layers)) (space : Space) : P space :=
  @Space.rec P (Layers.All P) ram rom map trivial (fun _ _ _ hregion hbelow ↦ ⟨hregion, hbelow⟩)
    (fun _ _ hbelow ↦ hbelow) space

/-- Induction over the layers of one map. -/
theorem Layers.induct {P : Layers → Prop} (empty : P .empty)
    (mapped : ∀ pages region below, P below → P (.mapped pages region below))
    (unmapped : ∀ pages below, P below → P (.unmapped pages below)) (layers : Layers) :
    P layers :=
  @Layers.rec (fun _ ↦ True) P (fun _ ↦ trivial) (fun _ ↦ trivial) (fun _ _ _ ↦ trivial) empty
    (fun pages region below _ hbelow ↦ mapped pages region below hbelow) unmapped layers

namespace Layers

variable {layers after : Layers} {page : Nat}

/-! ## The region of a page -/

/-- The region that serves a page: that of the topmost layer over it. -/
def region? (page : Nat) : Layers → Option Space
  | .empty => none
  | .mapped pages region below =>
    if pages.contains page then some region else below.region? page
  | .unmapped pages below => if pages.contains page then none else below.region? page

theorem All.of_region? {P : Space → Prop} {region : Space} (hall : layers.All P)
    (hregion : layers.region? page = some region) : P region := by
  induction layers using Layers.induct with
  | empty => cases hregion
  | mapped pages top below ih =>
    rw [region?] at hregion
    split at hregion
    · cases hregion
      exact hall.1
    · exact ih hall.2 hregion
  | unmapped pages below ih =>
    rw [region?] at hregion
    split at hregion
    · cases hregion
    · exact ih hall hregion

theorem All.imp {P Q : Space → Prop} (hall : layers.All P) (h : ∀ region, P region → Q region) :
    layers.All Q := by
  induction layers using Layers.induct with
  | empty => trivial
  | mapped pages top below ih => exact ⟨h top hall.1, ih hall.2⟩
  | unmapped pages below ih => exact ih hall

theorem All.mp {P Q : Space → Prop} (himp : layers.All fun region ↦ P region → Q region)
    (hall : layers.All P) : layers.All Q := by
  induction layers using Layers.induct with
  | empty => trivial
  | mapped pages top below ih => exact ⟨himp.1 hall.1, ih himp.2 hall.2⟩
  | unmapped pages below ih => exact ih himp hall

theorem All.of_forall {P : Space → Prop} (h : ∀ region, P region) : layers.All P := by
  induction layers using Layers.induct with
  | empty => trivial
  | mapped pages top below ih => exact ⟨h top, ih⟩
  | unmapped pages below ih => exact ih

/-- The region that serves both pages, if one mapping lies over both. -/
def shared? (first second : Nat) : Layers → Option Space
  | .empty => none
  | .mapped pages region below =>
    match pages.contains first, pages.contains second with
    | true, true => some region
    | false, false => below.shared? first second
    | _, _ => none
  | .unmapped pages below =>
    match pages.contains first, pages.contains second with
    | false, false => below.shared? first second
    | _, _ => none

theorem All.of_shared? {P : Space → Prop} {region : Space} {first second : Nat}
    (hall : layers.All P) (hshared : layers.shared? first second = some region) : P region := by
  induction layers using Layers.induct with
  | empty => cases hshared
  | mapped pages top below ih =>
    rw [shared?] at hshared
    split at hshared
    · cases hshared
      exact hall.1
    · exact ih hall.2 hshared
    · cases hshared
  | unmapped pages below ih =>
    rw [shared?] at hshared
    split at hshared
    · exact ih hall hshared
    · cases hshared

/-- Reads from the region that serves a page. -/
def readAt (page : Nat) (read : Space → Except BusError α) (refusal : BusError)
    (layers : Layers) : Except BusError α :=
  match layers.region? page with
  | some region => read region
  | none => .error refusal

/-! ## Writing to the region of a page -/

/-- Writes to the region that serves a page. -/
def update (page : Nat) (write : Space → Written Space) (refusal : BusError) :
    Layers → Written Layers
  | .empty => .error refusal .empty
  | .mapped pages region below =>
    if pages.contains page then (write region).within (.mapped pages · below)
    else (below.update page write refusal).within (.mapped pages region)
  | .unmapped pages below =>
    if pages.contains page then .error refusal (.unmapped pages below)
    else (below.update page write refusal).within (.unmapped pages)

/-- A write to a map is a write to the region of the page. Any other page has the region that it
had, unless the same mapping serves both. -/
theorem exists_of_update {write : Space → Written Space} {refusal : BusError}
    (h : layers.update page write refusal = .ok () after) :
    ∃ region written, layers.region? page = some region ∧ write region = .ok () written ∧
      after.region? page = some written ∧
      ∀ other, after.region? other = layers.region? other ∨
        layers.shared? other page = some region ∧ layers.region? other = some region ∧
          after.region? other = some written := by
  induction layers using Layers.induct generalizing after with
  | empty => cases h
  | mapped pages top below ih =>
    rw [update] at h
    cases hcontains : pages.contains page with
    | true =>
      rw [if_pos hcontains] at h
      obtain ⟨written, hwrite, rfl⟩ := Written.within_eq_ok_iff.1 h
      refine ⟨top, written, ?_, hwrite, ?_, fun other ↦ ?_⟩
      · rw [region?, if_pos hcontains]
      · rw [region?, if_pos hcontains]
      · rw [region?, region?, shared?, hcontains]
        cases pages.contains other with
        | true => exact .inr ⟨rfl, rfl, rfl⟩
        | false => exact .inl rfl
    | false =>
      rw [if_neg (by simp [hcontains])] at h
      obtain ⟨written, hbelow, rfl⟩ := Written.within_eq_ok_iff.1 h
      obtain ⟨region, written, hbefore, hwrite, hafter, hother⟩ := ih hbelow
      refine ⟨region, written, ?_, hwrite, ?_, fun other ↦ ?_⟩
      · rw [region?, hcontains]
        exact hbefore
      · rw [region?, hcontains]
        exact hafter
      · rw [region?, region?, shared?, hcontains]
        cases pages.contains other with
        | true => exact .inl rfl
        | false => exact hother other
  | unmapped pages below ih =>
    rw [update] at h
    cases hcontains : pages.contains page with
    | true =>
      rw [if_pos hcontains] at h
      cases h
    | false =>
      rw [if_neg (by simp [hcontains])] at h
      obtain ⟨written, hbelow, rfl⟩ := Written.within_eq_ok_iff.1 h
      obtain ⟨region, written, hbefore, hwrite, hafter, hother⟩ := ih hbelow
      refine ⟨region, written, ?_, hwrite, ?_, fun other ↦ ?_⟩
      · rw [region?, hcontains]
        exact hbefore
      · rw [region?, hcontains]
        exact hafter
      · rw [region?, region?, shared?, hcontains]
        cases pages.contains other with
        | true => exact .inl rfl
        | false => exact hother other

section ReadAfterUpdate

variable {write : Space → Written Space} {read : Space → Except BusError α}
  {refusal refusal' : BusError}

/-- What every region reads back from a write, the map does. -/
theorem readAt_update {value : α}
    (hread : layers.All fun region ↦
      ∀ written, write region = .ok () written → read written = .ok value)
    (h : layers.update page write refusal = .ok () after) :
    after.readAt page read refusal' = .ok value := by
  obtain ⟨region, written, hregion, hwrite, hafter, -⟩ := exists_of_update h
  rw [readAt, hafter]
  exact hread.of_region? hregion written hwrite

/-- What a write does not change in the region that serves both pages, it does not change in the
map. -/
theorem readAt_update_of_keeps {other : Nat}
    (hread : ∀ region, layers.shared? other page = some region →
      ∀ written, write region = .ok () written → read written = read region)
    (h : layers.update page write refusal = .ok () after) :
    after.readAt other read refusal' = layers.readAt other read refusal' := by
  obtain ⟨region, written, -, hwrite, -, hother⟩ := exists_of_update h
  rw [readAt, readAt]
  obtain hsame | ⟨hshared, hbefore, hafter⟩ := hother other
  · rw [hsame]
  · rw [hbefore, hafter]
    exact hread region hshared written hwrite

end ReadAfterUpdate

/-! ## Accesses -/

section Accesses

variable (code : FunctionCode) (address : Address) (layers)

theorem getByte_eq_readAt :
    layers.getByte code address =
      layers.readAt address.page (·.getByte code address) ⟨address, code, .read⟩ := by
  rw [readAt]
  induction layers using Layers.induct with
  | empty => rfl
  | mapped pages top below ih =>
    rw [getByte, region?]
    split
    · rfl
    · exact ih
  | unmapped pages below ih =>
    rw [getByte, region?]
    split
    · rfl
    · exact ih

theorem getWord_eq_readAt :
    layers.getWord code address =
      layers.readAt address.page (·.getWord code address) ⟨address, code, .read⟩ := by
  rw [readAt]
  induction layers using Layers.induct with
  | empty => rfl
  | mapped pages top below ih =>
    rw [getWord, region?]
    split
    · rfl
    · exact ih
  | unmapped pages below ih =>
    rw [getWord, region?]
    split
    · rfl
    · exact ih

theorem putByte_eq_update (value : Byte) :
    layers.putByte code address value =
      layers.update address.page (·.putByte code address value) ⟨address, code, .write⟩ := by
  induction layers using Layers.induct with
  | empty => rfl
  | mapped pages top below ih => rw [putByte, update, ih]
  | unmapped pages below ih => rw [putByte, update, ih]

theorem putWord_eq_update (value : BitVec 16) :
    layers.putWord code address value =
      layers.update address.page (·.putWord code address value) ⟨address, code, .write⟩ := by
  induction layers using Layers.induct with
  | empty => rfl
  | mapped pages top below ih => rw [putWord, update, ih]
  | unmapped pages below ih => rw [putWord, update, ih]

end Accesses

end Layers

namespace Space

variable {width : BusWidth} {layers : Layers} {code : FunctionCode} {address : Address}

/-! ## Words that cross into another page -/

theorem getWord_map_of_split (hpage : ¬ width.samePage address) :
    (Space.map width layers).getWord code address = do
      let high ← (Space.map width layers).getByte code address
      let low ← (Space.map width layers).getByte code (address + 1)
      return high ++ low := by
  rw [getWord, if_neg hpage, getByte, getByte]

theorem putWord_map_of_split {value : BitVec 16} (hpage : ¬ width.samePage address) :
    (Space.map width layers).putWord code address value =
      ((Space.map width layers).putByte code address (value.extractLsb' 8 8)).andThen
        (·.putByte code (address + 1) (value.extractLsb' 0 8)) := by
  rw [putWord, if_neg hpage, putByte]
  cases layers.putByte code (width.truncate address) (value.extractLsb' 8 8) with
  | ok _ middle => rw [Written.andThen, Written.within, Written.andThen, putByte]
  | error refusal middle => rfl

/-! ## Long words -/

theorem getLong_map :
    (Space.map width layers).getLong code address = do
      let high ← (Space.map width layers).getWord code address
      let low ← (Space.map width layers).getWord code (address + 2)
      return high ++ low :=
  rfl

theorem putLong_map {value : BitVec 32} :
    (Space.map width layers).putLong code address value =
      ((Space.map width layers).putWord code address (value.extractLsb' 16 16)).andThen
        (·.putWord code (address + 2) (value.extractLsb' 0 16)) :=
  rfl

end Space

end M68000
