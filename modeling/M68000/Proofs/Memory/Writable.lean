import M68000.Proofs.Memory.Layout

/-!
# Where writes are done

Whether a write is done or refused depends on the layout of the space only, so that what could be
written once can be written for ever.
-/

namespace M68000

/-! ## Outcomes -/

namespace Written

/-- The write was not refused. -/
def done (outcome : Written σ) : Bool :=
  match outcome with
  | .ok .. => true
  | .error .. => false

variable {outcome : Written σ}

theorem done_iff : outcome.done ↔ ∃ after, outcome = .ok () after := by
  cases outcome <;> simp [done]

@[simp]
theorem done_within (context : σ → τ) : (outcome.within context).done = outcome.done := by
  cases outcome <;> rfl

/-- A write in parts is done if each part is. -/
theorem done_andThen_congr {other : Written τ} {next : σ → Written σ} {next' : τ → Written τ}
    (hfirst : outcome.done = other.done)
    (hnext : (next outcome.space).done = (next' other.space).done) :
    (outcome.andThen next).done = (other.andThen next').done := by
  cases outcome <;> cases other
  · exact hnext
  · cases hfirst
  · cases hfirst
  · rfl

end Written

/-! ## The layout decides -/

theorem Layers.done_update_layout {write write' : Space → Written Space} {layers : Layers}
    (hwrite : layers.All fun region ↦ (write' region.layout).done = (write region).done)
    (page : Nat) (refusal refusal' : BusError) :
    (layers.layout.update page write' refusal').done = (layers.update page write refusal).done := by
  induction layers using Layers.induct with
  | empty => rfl
  | mapped pages region below ih =>
    rw [layout, update, update]
    split
    · rw [Written.done_within, Written.done_within, hwrite.1]
    · rw [Written.done_within, Written.done_within, ih hwrite.2]
  | unmapped pages below ih =>
    rw [layout, update, update]
    split
    · rfl
    · rw [Written.done_within, Written.done_within, ih hwrite]

theorem Layers.layout_layout {layers : Layers}
    (hregions : layers.All fun region ↦ region.layout.layout = region.layout) :
    layers.layout.layout = layers.layout := by
  induction layers using Layers.induct with
  | empty => rfl
  | mapped pages region below ih => rw [layout, layout, hregions.1, ih hregions.2]
  | unmapped pages below ih => rw [layout, layout, ih hregions]

/-- A write to a single memory is done if its offset is allowed. -/
theorem Ram.done_ofExcept_bind {result : Except BusError Nat} (ram ram' : Ram) (f f' : Nat → Ram) :
    (Written.ofExcept ram (result >>= fun offset ↦ pure (f offset))).done =
      (Written.ofExcept ram' (result >>= fun offset ↦ pure (f' offset))).done := by
  cases result <;> rfl

namespace Space

variable (code : FunctionCode) (address : Address) (space : Space)

theorem layout_layout : space.layout.layout = space.layout := by
  induction space using Space.induct with
  | ram ram => rfl
  | rom rom => rfl
  | map width layers ih => rw [layout, layout, Layers.layout_layout ih]

theorem done_putByte_layout (value value' : Byte) :
    (space.layout.putByte code address value').done = (space.putByte code address value).done := by
  induction space using Space.induct generalizing address with
  | ram ram =>
    rw [layout, putByte, putByte, Written.done_within, Written.done_within]
    exact Ram.done_ofExcept_bind ..
  | rom rom => rfl
  | map width layers ih =>
    have hregions := ih.imp fun region hregion ↦ hregion (width.truncate address)
    rw [layout, putByte, putByte, Written.done_within, Written.done_within,
      Layers.putByte_eq_update, Layers.putByte_eq_update, Layers.done_update_layout hregions]

theorem done_putWord_layout (value value' : BitVec 16) :
    (space.layout.putWord code address value').done = (space.putWord code address value).done := by
  induction space using Space.induct generalizing address with
  | ram ram =>
    rw [layout, putWord, putWord, Written.done_within, Written.done_within]
    exact Ram.done_ofExcept_bind ..
  | rom rom => rfl
  | map width layers ih =>
    by_cases hpage : width.samePage address
    · have hregions := ih.imp fun region hregion ↦ hregion (width.truncate address)
      rw [layout, putWord, putWord, if_pos hpage, if_pos hpage, Written.done_within,
        Written.done_within, Layers.putWord_eq_update, Layers.putWord_eq_update,
        Layers.done_update_layout hregions]
    · rw [layout, putWord_map_of_split hpage, putWord_map_of_split hpage, ← layout]
      refine Written.done_andThen_congr (done_putByte_layout ..) ?_
      rw [← done_putByte_layout _ _ _ _ 0, ← done_putByte_layout _ _ _ (value.extractLsb' 0 8) 0,
        layout_putByte, layout_putByte, layout_layout]

theorem done_putLong_layout (value value' : BitVec 32) :
    (space.layout.putLong code address value').done = (space.putLong code address value).done := by
  have hwords : ((space.layout.putWord code address (value'.extractLsb' 16 16)).andThen
      (·.putWord code (address + 2) (value'.extractLsb' 0 16))).done =
        ((space.putWord code address (value.extractLsb' 16 16)).andThen
          (·.putWord code (address + 2) (value.extractLsb' 0 16))).done := by
    refine Written.done_andThen_congr (done_putWord_layout ..) ?_
    rw [← done_putWord_layout _ _ _ _ 0, ← done_putWord_layout _ _ _ (value.extractLsb' 0 16) 0,
      layout_putWord, layout_putWord, layout_layout]
  cases space with
  | ram ram =>
    rw [layout, putLong, putLong, Written.done_within, Written.done_within]
    exact Ram.done_ofExcept_bind ..
  | rom rom => exact hwords
  | map width layers => exact hwords

theorem done_write_layout (size : Size) (value value' : size.Value) :
    (space.layout.write code address size value').done =
      (space.write code address size value).done := by
  cases size with
  | byte => exact done_putByte_layout ..
  | word => exact done_putWord_layout ..
  | long => exact done_putLong_layout ..

/-- Some value can be written there. -/
def Writable (size : Size) : Prop :=
  ∃ value after, space.write code address size value = .ok () after

variable {code address space}

/-- Where something can be written, anything can, whatever the memories have come to hold. -/
theorem Writable.exists_write {size : Size} (h : space.Writable code address size) {other : Space}
    (hlayout : other.layout = space.layout) (value : size.Value) :
    ∃ after, other.write code address size value = .ok () after := by
  obtain ⟨written, hwritten⟩ := h
  rw [← Written.done_iff, ← done_write_layout code address other size value written, hlayout,
    done_write_layout code address space size written written]
  exact Written.done_iff.2 hwritten

end Space

end M68000
