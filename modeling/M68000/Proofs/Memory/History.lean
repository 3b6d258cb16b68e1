import M68000.Proofs.Memory.Neighbours
import M68000.Proofs.Memory.Regions
import Mathlib.Logic.ExistsUnique

/-!
# The history of a map

A map has come about by mappings and unmappings of ranges of addresses. Each of its pages is served
by the region of the last one whose range has a byte in the page, and by none if that was an
unmapping. Ranges end at the top of the bus, so that none goes on at the bottom.
-/

namespace M68000

/-- A range of addresses is mapped to a region, or is unmapped. -/
inductive Mapping where
  | map (start : Address) (length : Nat) (region : Space)
  | unmap (start : Address) (length : Nat)

namespace Mapping

def start : Mapping → Address
  | map start _ _ | unmap start _ => start

def length : Mapping → Nat
  | map _ length _ | unmap _ length => length

/-- The region that serves the range from now on, if any does. -/
def region? : Mapping → Option Space
  | map _ _ region => some region
  | unmap _ _ => none

variable (width : BusWidth) (call : Mapping) (page : Nat)

/-- A byte of the page lies in the range, as far as that is on the bus. -/
def Touches : Prop :=
  0 < call.length ∧ ∃ address : Address, address.page = page ∧
    (width.truncate call.start).toNat ≤ address.toNat ∧
    address.toNat ≤ min ((width.truncate call.start).toNat + call.length - 1) width.mask.toNat

/-- The call is the last one that touches the page. -/
def Decides (calls : List Mapping) : Prop :=
  ∃ earlier later, calls = earlier ++ call :: later ∧ call.Touches width page ∧
    ∀ other ∈ later, ¬ other.Touches width page

variable {width call page}

/-- If a call touches the page, there is a last one that does. -/
theorem exists_decides {calls : List Mapping} (h : ∃ call ∈ calls, call.Touches width page) :
    ∃ call : Mapping, call.Decides width page calls := by
  induction calls with
  | nil =>
    obtain ⟨call, hcall, -⟩ := h
    cases hcall
  | cons first rest ih =>
    by_cases hrest : ∃ call ∈ rest, call.Touches width page
    · obtain ⟨call, earlier, later, rfl, hdecides⟩ := ih hrest
      exact ⟨call, first :: earlier, later, rfl, hdecides⟩
    · obtain ⟨call, hcall, htouches⟩ := h
      obtain rfl | hcall := List.mem_cons.1 hcall
      · exact ⟨call, [], rest, rfl, htouches, fun other hother h ↦ hrest ⟨other, hother, h⟩⟩
      · exact absurd ⟨call, hcall, htouches⟩ hrest

theorem Decides.unique {calls : List Mapping} {other : Mapping}
    (hcall : call.Decides width page calls) (hother : other.Decides width page calls) :
    call = other := by
  obtain ⟨earlier, later, rfl, htouches, hlater⟩ := hcall
  obtain ⟨earlier', later', hcalls, htouches', hlater'⟩ := hother
  -- The two splits are one, or the call of one of them is among the later ones of the other.
  obtain ⟨between, -, hrest⟩ | ⟨between, -, hrest⟩ := List.append_eq_append_iff.1 hcalls
  · cases between with
    | nil => exact (List.cons.inj hrest).1
    | cons first rest =>
      obtain ⟨-, rfl⟩ := List.cons.inj hrest
      exact absurd htouches' (hlater other (by simp))
  · cases between with
    | nil => exact (List.cons.inj hrest).1.symm
    | cons first rest =>
      obtain ⟨-, rfl⟩ := List.cons.inj hrest
      exact absurd htouches (hlater' call (by simp))

end Mapping

/-! ## The pages of a range -/

namespace PageRange

variable {width : BusWidth} {start : Address} {length : Nat} {pages : PageRange}

/-- The pages between those of two bytes are those that have a byte in between. -/
theorem contains_iff_exists_address {first last : Nat} (page : Nat) (hle : first ≤ last)
    (hlast : last < 2 ^ 32) :
    (⟨first >>> pageBits, last >>> pageBits⟩ : PageRange).contains page = true ↔
      ∃ address : Address, address.page = page ∧ first ≤ address.toNat ∧ address.toNat ≤ last := by
  have hpage (address : Address) : address.page = address.toNat / 8192 := address.page_eq_div
  simp only [contains, Bool.and_eq_true, decide_eq_true_eq, Nat.shiftRight_eq_div_pow, pageBits,
    hpage]
  constructor
  · rintro ⟨hfirst, hlast'⟩
    -- The first byte of the page lies in the range, unless the range begins within the page.
    refine ⟨BitVec.ofNat 32 (max first (page * 8192)), ?_⟩
    rw [BitVec.toNat_ofNat, Nat.mod_eq_of_lt (by omega)]
    omega
  · rintro ⟨address, rfl, hfirst, hlast'⟩
    omega

theorem first_le_last_mask (width : BusWidth) (start : Address) (hlength : length ≠ 0) :
    (width.truncate start).toNat ≤
      min ((width.truncate start).toNat + length - 1) width.mask.toNat := by
  have hlt := width.toNat_truncate_lt start
  have hmask := width.toNat_mask
  omega

theorem touching?_eq_some_iff :
    touching? width start length = some pages ↔ length ≠ 0 ∧ pages =
      ⟨(width.truncate start).page,
        min ((width.truncate start).toNat + length - 1) width.mask.toNat >>> pageBits⟩ := by
  rw [touching?]
  split
  next hzero => simp [hzero]
  next hlength => simp [hlength, eq_comm, Address.page]

/-- The pages of a range begin with that of its first byte, and all are pages of the bus. -/
theorem bounds_of_touching? (h : touching? width start length = some pages) :
    pages.first = (width.truncate start).page ∧ pages.first ≤ pages.last ∧
      pages.last < (width.mask.toNat + 1) >>> pageBits := by
  obtain ⟨hlength, rfl⟩ := touching?_eq_some_iff.1 h
  have hle := first_le_last_mask width start hlength
  obtain ⟨count, hcount, hpos, -⟩ := width.exists_two_pow_bits_eq
  have hmask := width.toNat_mask
  refine ⟨rfl, ?_, ?_⟩
  · simp only [Address.page, Nat.shiftRight_eq_div_pow]
    exact Nat.div_le_div_right hle
  · simp only [Nat.shiftRight_eq_div_pow]
    rw [pageBits] at *
    omega

/-- A range that runs past the top of the bus ends with the last page. -/
theorem last_of_touching? (h : touching? width start length = some pages)
    (hpast : width.mask.toNat < (width.truncate start).toNat + length - 1) :
    pages.last = width.mask.page := by
  obtain ⟨hlength, rfl⟩ := touching?_eq_some_iff.1 h
  rw [Nat.min_eq_right (Nat.le_of_lt hpast)]
  rfl

end PageRange

namespace Mapping

variable {width : BusWidth} {call : Mapping} {page : Nat}

/-- The pages that the call is carried out on. -/
def pages? (width : BusWidth) (call : Mapping) : Option PageRange :=
  PageRange.touching? width call.start call.length

/-- A call is carried out on the pages that have a byte in its range. -/
theorem touches_iff :
    call.Touches width page ↔
      ∃ pages, call.pages? width = some pages ∧ pages.contains page = true := by
  have hcontains (hlength : call.length ≠ 0) :=
    PageRange.contains_iff_exists_address page
      (PageRange.first_le_last_mask width call.start hlength)
      (Nat.lt_of_le_of_lt (Nat.min_le_right ..) width.mask.isLt)
  constructor
  · rintro ⟨hlength, hbyte⟩
    exact ⟨_, PageRange.touching?_eq_some_iff.2 ⟨Nat.ne_of_gt hlength, rfl⟩,
      (hcontains (Nat.ne_of_gt hlength)).2 hbyte⟩
  · rintro ⟨pages, hpages, hpage⟩
    obtain ⟨hlength, rfl⟩ := PageRange.touching?_eq_some_iff.1 hpages
    exact ⟨Nat.pos_of_ne_zero hlength, (hcontains hlength).1 hpage⟩

theorem not_contains_of_not_touches {pages : PageRange} (h : ¬ call.Touches width page)
    (hpages : call.pages? width = some pages) : ¬ pages.contains page = true :=
  fun hpage ↦ h (touches_iff.2 ⟨pages, hpages, hpage⟩)

instance : Decidable (call.Touches width page) :=
  decidable_of_iff ((call.pages? width).any (·.contains page) = true) <| by
    rw [touches_iff, Option.any_eq_true]

end Mapping

/-! ## Maps that have come about -/

namespace Layers

variable (width : BusWidth) (layers : Layers)

theorem isMapped_eq_isSome (page : Nat) :
    layers.isMapped page = (layers.region? page).isSome := by
  induction layers using Layers.induct with
  | empty => rfl
  | mapped pages region below ih =>
    rw [isMapped, region?, ih]
    cases pages.contains page <;> rfl
  | unmapped pages below ih =>
    rw [isMapped, region?, ih]
    cases pages.contains page <;> rfl

/-- The layers after a further call. -/
def perform : Mapping → Layers
  | .map start length region => layers.insert width start length region
  | .unmap start length => layers.erase width start length

/-- The layers after further calls, the earliest first. -/
def performAll (calls : List Mapping) : Layers :=
  calls.foldl (perform width) layers

/-- The layers of a new map after calls. -/
def ofHistory (calls : List Mapping) : Layers :=
  performAll width .empty calls

/-! ### One call -/

/-- Puts a layer on top, which maps the pages to a region if there is one. -/
def cover (pages : PageRange) : Option Space → Layers
  | some region => .mapped pages region layers
  | none => .unmapped pages layers

/-- A call puts a layer on top, over its pages if it has any. -/
theorem perform_eq (call : Mapping) :
    layers.perform width call =
      match call.pages? width with
      | some pages => layers.cover pages call.region?
      | none => layers := by
  cases call <;> rfl

variable {width layers} {call : Mapping} {calls : List Mapping} {page : Nat}

theorem region?_perform_of_touches (h : call.Touches width page) :
    (layers.perform width call).region? page = call.region? := by
  obtain ⟨pages, hpages, hcontains⟩ := Mapping.touches_iff.1 h
  simp only [perform_eq, hpages]
  cases call.region? with
  | some region => exact if_pos hcontains
  | none => exact if_pos hcontains

theorem region?_perform_of_not_touches (h : ¬ call.Touches width page) :
    (layers.perform width call).region? page = layers.region? page := by
  rw [perform_eq]
  cases hpages : call.pages? width with
  | none => rfl
  | some pages =>
    have hcontains := Mapping.not_contains_of_not_touches h hpages
    cases call.region? with
    | some region => exact if_neg hcontains
    | none => exact if_neg hcontains

variable {write : Space → Written Space} {refusal : BusError}

/-- A region that has just been mapped is the one that is written to. -/
theorem update_perform_of_touches {start : Address} {length : Nat} {region : Space}
    (h : (Mapping.map start length region).Touches width page) :
    (layers.perform width (.map start length region)).update page write refusal =
      (write region).within fun written ↦ layers.perform width (.map start length written) := by
  obtain ⟨pages, hpages, hcontains⟩ := Mapping.touches_iff.1 h
  have hsame (written : Space) : layers.perform width (.map start length written) =
      .mapped pages written layers := by
    have hwritten : (Mapping.map start length written).pages? width = some pages := hpages
    rw [perform_eq, hwritten]
    rfl
  simp only [hsame]
  exact if_pos hcontains

/-- A call that does not touch the page lets what is written there through. -/
theorem update_perform_of_not_touches (h : ¬ call.Touches width page) :
    (layers.perform width call).update page write refusal =
      (layers.update page write refusal).within (perform width · call) := by
  simp only [perform_eq]
  cases hpages : call.pages? width with
  | none => cases layers.update page write refusal <;> rfl
  | some pages =>
    have hcontains := Mapping.not_contains_of_not_touches h hpages
    cases call.region? with
    | some region => exact if_neg hcontains
    | none => exact if_neg hcontains

/-! ### Many calls -/

theorem region?_performAll_of_untouched (h : ∀ call ∈ calls, ¬ call.Touches width page) :
    (layers.performAll width calls).region? page = layers.region? page := by
  induction calls generalizing layers with
  | nil => rfl
  | cons first rest ih =>
    obtain ⟨hfirst, hrest⟩ := List.forall_mem_cons.1 h
    exact (ih hrest).trans (region?_perform_of_not_touches hfirst)

theorem update_performAll_of_untouched (h : ∀ call ∈ calls, ¬ call.Touches width page) :
    (layers.performAll width calls).update page write refusal =
      (layers.update page write refusal).within (performAll width · calls) := by
  induction calls generalizing layers with
  | nil =>
    change layers.update page write refusal = _
    cases layers.update page write refusal <;> rfl
  | cons first rest ih =>
    obtain ⟨hfirst, hrest⟩ := List.forall_mem_cons.1 h
    change ((layers.perform width first).performAll width rest).update page write refusal = _
    rw [ih hrest, update_perform_of_not_touches hfirst]
    cases layers.update page write refusal <;> rfl

theorem performAll_append (earlier later : List Mapping) :
    layers.performAll width (earlier ++ call :: later) =
      ((layers.performAll width earlier).perform width call).performAll width later := by
  rw [performAll, List.foldl_append, List.foldl_cons]
  rfl

/-- The last call that touches a page decides which region serves it. -/
theorem region?_performAll_of_decides (h : call.Decides width page calls) :
    (layers.performAll width calls).region? page = call.region? := by
  obtain ⟨earlier, later, rfl, hcall, hlater⟩ := h
  rw [performAll_append, region?_performAll_of_untouched hlater, region?_perform_of_touches hcall]

/-- What is written to the page is written to the region of that call. -/
theorem update_performAll_of_last {start : Address} {length : Nat} {region : Space}
    {earlier later : List Mapping} (hcall : (Mapping.map start length region).Touches width page)
    (hlater : ∀ other ∈ later, ¬ other.Touches width page) :
    (layers.performAll width (earlier ++ .map start length region :: later)).update page write
        refusal =
      (write region).within fun written ↦
        layers.performAll width (earlier ++ .map start length written :: later) := by
  simp only [performAll_append]
  rw [update_performAll_of_untouched hlater, update_perform_of_touches hcall]
  cases write region <;> rfl

end Layers

/-! ## Which region serves an address -/

namespace Space

variable {width : BusWidth} {calls earlier later : List Mapping} {start address : Address}
  {length : Nat} {region : Space} {code : FunctionCode}

/-- The map that calls on a new map have led to. -/
def ofHistory (width : BusWidth) (calls : List Mapping) : Space :=
  .map width (Layers.ofHistory width calls)

/-- Accesses to an address go to the region, and a write to the map leads to what the calls
would have led to with the written region. -/
structure Serves (width : BusWidth) (earlier : List Mapping) (start : Address) (length : Nat)
    (region : Space) (later : List Mapping) (address : Address) : Prop where
  getByte : ∀ code,
    (ofHistory width (earlier ++ .map start length region :: later)).getByte code address =
      region.getByte code (width.truncate address)
  putByte : ∀ code value,
    (ofHistory width (earlier ++ .map start length region :: later)).putByte code address value =
      (region.putByte code (width.truncate address) value).within fun written ↦
        ofHistory width (earlier ++ .map start length written :: later)
  /-- A word goes to the region whole if both its bytes lie in the page. -/
  getWord : width.samePage address → ∀ code,
    (ofHistory width (earlier ++ .map start length region :: later)).getWord code address =
      region.getWord code (width.truncate address)
  putWord : width.samePage address → ∀ code value,
    (ofHistory width (earlier ++ .map start length region :: later)).putWord code address value =
      (region.putWord code (width.truncate address) value).within fun written ↦
        ofHistory width (earlier ++ .map start length written :: later)

/-- Accesses to an address are refused where they would be made, and change nothing. -/
structure Refuses (space : Space) (width : BusWidth) (address : Address) : Prop where
  getByte : ∀ code, space.getByte code address = .error ⟨width.truncate address, code, .read⟩
  putByte : ∀ code value,
    space.putByte code address value = .error ⟨width.truncate address, code, .write⟩ space

/-- The region of the last call that touches the page of an address serves the address. -/
theorem serves_of_last
    (hcall : (Mapping.map start length region).Touches width (width.truncate address).page)
    (hlater : ∀ other ∈ later, ¬ other.Touches width (width.truncate address).page) :
    Serves width earlier start length region later address := by
  have hregion : (Layers.ofHistory width (earlier ++ .map start length region :: later)).region?
      (width.truncate address).page = some region :=
    Layers.region?_performAll_of_decides ⟨earlier, later, rfl, hcall, hlater⟩
  have hupdate (write : Space → Written Space) (refusal : BusError) :
      (Layers.ofHistory width (earlier ++ .map start length region :: later)).update
          (width.truncate address).page write refusal =
        (write region).within fun written ↦
          Layers.ofHistory width (earlier ++ .map start length written :: later) :=
    Layers.update_performAll_of_last hcall hlater
  refine ⟨fun code ↦ ?_, fun code value ↦ ?_, fun hpage code ↦ ?_, fun hpage code value ↦ ?_⟩
  · rw [ofHistory, Space.getByte, Layers.getByte_eq_readAt, Layers.readAt, hregion]
  · rw [ofHistory, Space.putByte, Layers.putByte_eq_update, hupdate]
    cases region.putByte code (width.truncate address) value <;> rfl
  · rw [ofHistory, Space.getWord, if_pos hpage, Layers.getWord_eq_readAt, Layers.readAt, hregion]
  · rw [ofHistory, Space.putWord, if_pos hpage, Layers.putWord_eq_update, hupdate]
    cases region.putWord code (width.truncate address) value <;> rfl

end Space

namespace Layers

variable {layers : Layers} {page : Nat} {write : Space → Written Space} {refusal : BusError}

theorem update_of_region?_eq_none (h : layers.region? page = none) :
    layers.update page write refusal = .error refusal layers := by
  induction layers using Layers.induct with
  | empty => rfl
  | mapped pages region below ih =>
    rw [region?] at h
    rw [update]
    split at h
    · cases h
    next hcontains => rw [if_neg hcontains, ih h, Written.within]
  | unmapped pages below ih =>
    rw [region?] at h
    rw [update]
    split at h
    next hcontains => rw [if_pos hcontains]
    next hcontains => rw [if_neg hcontains, ih h, Written.within]

end Layers

namespace Space

variable {width : BusWidth} {layers : Layers} {address : Address}

theorem refuses_of_region?_eq_none
    (h : layers.region? (width.truncate address).page = none) :
    (Space.map width layers).Refuses width address := by
  refine ⟨fun code ↦ ?_, fun code value ↦ ?_⟩
  · rw [Space.getByte, Layers.getByte_eq_readAt, Layers.readAt, h]
  · rw [Space.putByte, Layers.putByte_eq_update, Layers.update_of_region?_eq_none h,
      Written.within]

end Space

/-- The history of a map decides which region serves an address: that of the last call whose range
has a byte in the page of the address, if that call was a mapping. If it was an unmapping, or if
there is no such call, accesses to the address are refused. A call with no bytes changes nothing,
one that runs past the top of the bus ends with the last page, and every page that is looked up or
changed is a page of the bus. -/
theorem history_decides_routing (bits : Nat) (calls : List Mapping) (address : Address) :
    let width := BusWidth.clamp bits
    let page := (width.truncate address).page
    let pageCount := (width.mask.toNat + 1) >>> pageBits
    (∀ earlier start length region later, calls = earlier ++ .map start length region :: later →
      (Mapping.map start length region).Touches width page →
      (∀ other ∈ later, ¬ other.Touches width page) →
      (Layers.ofHistory width calls).isMapped page = true ∧
        Space.Serves width earlier start length region later address) ∧
    ((∀ call : Mapping, call.Decides width page calls → ∃ start length,
        call = .unmap start length) →
      (Layers.ofHistory width calls).isMapped page = false ∧
        (Space.ofHistory width calls).Refuses width address) ∧
    ((∃ call ∈ calls, call.Touches width page) →
      ∃! call : Mapping, call.Decides width page calls) ∧
    (∀ call : Mapping, call.length = 0 → ∀ layers : Layers, layers.perform width call = layers) ∧
    (∀ call : Mapping, ∀ pages, call.pages? width = some pages →
      pages.first = (width.truncate call.start).page ∧ pages.first ≤ pages.last ∧
        pages.last < pageCount ∧
        (width.mask.toNat < (width.truncate call.start).toNat + call.length - 1 →
          pages.last = width.mask.page)) ∧
    page < pageCount := by
  intro width page pageCount
  have hmapped : (Layers.ofHistory width calls).isMapped page =
      ((Layers.ofHistory width calls).region? page).isSome :=
    Layers.isMapped_eq_isSome ..
  refine ⟨?_, fun hnone ↦ ?_, fun htouches ↦ ?_, ?_, ?_, ?_⟩
  · rintro earlier start length region later rfl hcall hlater
    have hregion : (Layers.ofHistory width (earlier ++ .map start length region :: later)).region?
        page = some region :=
      Layers.region?_performAll_of_decides ⟨earlier, later, rfl, hcall, hlater⟩
    exact ⟨hmapped.trans (congrArg Option.isSome hregion), Space.serves_of_last hcall hlater⟩
  · have hregion : (Layers.ofHistory width calls).region? page = none := by
      by_cases htouches : ∃ call ∈ calls, call.Touches width page
      · obtain ⟨call, hdecides⟩ := Mapping.exists_decides htouches
        obtain ⟨start, length, rfl⟩ := hnone call hdecides
        exact Layers.region?_performAll_of_decides hdecides
      · have huntouched : ∀ call ∈ calls, ¬ call.Touches width page :=
          fun call hcall h ↦ htouches ⟨call, hcall, h⟩
        exact Layers.region?_performAll_of_untouched huntouched
    exact ⟨hmapped.trans (congrArg Option.isSome hregion),
      Space.refuses_of_region?_eq_none hregion⟩
  · obtain ⟨call, hcall⟩ := Mapping.exists_decides htouches
    exact ⟨call, hcall, fun other hother ↦ hother.unique hcall⟩
  · intro call hlength layers
    have hpages : call.pages? width = none := if_pos hlength
    rw [Layers.perform_eq, hpages]
  · intro call pages hpages
    obtain ⟨hfirst, hle, hlast⟩ := PageRange.bounds_of_touching? hpages
    exact ⟨hfirst, hle, hlast, PageRange.last_of_touching? hpages⟩
  · have hpages : PageRange.touching? width address 1 = some ⟨page, _⟩ := rfl
    obtain ⟨-, hle, hlast⟩ := PageRange.bounds_of_touching? hpages
    exact Nat.lt_of_le_of_lt hle hlast

/-- On a bus with two pages a range from the middle of the upper one runs past the top, and does
not go on in the lower one, of which a single byte has been unmapped. -/
theorem history_decides_routing_twoPages :
    let width := BusWidth.clamp 14
    let memory : Space := .ram { size := 0x4000 }
    let calls : List Mapping := [.map 0 0x2000 memory, .unmap 0x1fff 1, .map 0x3100 0x9000 memory,
      .map 0x10 0 memory]
    Space.Serves width [.map 0 0x2000 memory, .unmap 0x1fff 1] 0x3100 0x9000 memory
        [.map 0x10 0 memory] 0xffffe345 ∧
      (Space.ofHistory width calls).Refuses width 0x345 := by
  intro width memory calls
  have hupper := history_decides_routing 14 calls 0xffffe345
  have hlower := history_decides_routing 14 calls 0x345
  refine ⟨(hupper.1 _ _ _ _ _ rfl ?_ ?_).2, (hlower.2.1 ?_).2⟩
  · decide +kernel
  · decide +kernel
  · intro call hcall
    have hunmap : (Mapping.unmap 0x1fff 1).Decides width (width.truncate 0x345).page calls :=
      ⟨[.map 0 0x2000 memory], [.map 0x3100 0x9000 memory, .map 0x10 0 memory], rfl,
        by decide +kernel, by decide +kernel⟩
    exact ⟨0x1fff, 1, hcall.unique hunmap⟩

end M68000
