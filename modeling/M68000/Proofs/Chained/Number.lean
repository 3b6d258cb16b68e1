import M68000.Proofs.Memory.Frame

/-!
# Numbers in memory

A number of any length lies in memory as a row of operands, the highest first, and is named by the
address just behind its end. It stays the same as long as only bytes outside it are written.
-/

namespace M68000

namespace Address

variable (top : Address) (length part : Nat)

theorem sub_ofNat_sub_ofNat :
    top - BitVec.ofNat 32 part - BitVec.ofNat 32 length =
      top - BitVec.ofNat 32 (length + part) := by
  rw [BitVec.sub_sub, ← BitVec.ofNat_add, Nat.add_comm]

theorem sub_ofNat_add_ofNat :
    top - BitVec.ofNat 32 (length + part) + BitVec.ofNat 32 length =
      top - BitVec.ofNat 32 part := by
  rw [← sub_ofNat_sub_ofNat, BitVec.sub_add_cancel]

end Address

namespace Space

variable {space before middle after : Space} {code : FunctionCode} {size : Size}
  {address top : Address} {length count : Nat}

/-! ## Blocks without an alias -/

/-- No two places of the block are the same byte. -/
def Unaliased (space : Space) (address : Address) (length : Nat) : Prop :=
  ∀ i < length, ∀ j < length, i ≠ j →
    space.Distinct (address + BitVec.ofNat 32 i) (address + BitVec.ofNat 32 j)

namespace Unaliased

theorem of_layout_eq (hlayout : after.layout = before.layout)
    (h : before.Unaliased address length) : after.Unaliased address length := by
  intro i hi j hj hne
  rw [← distinct_layout, hlayout, distinct_layout]
  exact h i hi j hj hne

theorem head (h : space.Unaliased address length) {part : Nat} (hpart : part ≤ length) :
    space.Unaliased address part :=
  fun i hi j hj ↦ h i (Nat.lt_of_lt_of_le hi hpart) j (Nat.lt_of_lt_of_le hj hpart)

/-- Parts of the block that do not overlap are apart. -/
theorem parts (h : space.Unaliased address length) (i part j part' : Nat)
    (hi : i + part ≤ length) (hj : j + part' ≤ length) (hparts : i + part ≤ j ∨ j + part' ≤ i) :
    space.Apart (address + BitVec.ofNat 32 i) part (address + BitVec.ofNat 32 j) part' := by
  intro k hk l hl
  rw [BitVec.add_assoc, BitVec.add_assoc, ← BitVec.ofNat_add, ← BitVec.ofNat_add]
  exact h (i + k) (by omega) (j + l) (by omega) (by omega)

end Unaliased

/-- In a single memory, every block that fits into the address space is without an alias. -/
theorem unaliased_of_isMemory (hmemory : space.IsMemory) (hlength : length ≤ 2 ^ 32) :
    space.Unaliased address length := by
  intro i hi j hj hne
  have hoffset : address + BitVec.ofNat 32 i ≠ address + BitVec.ofNat 32 j := by
    intro heq
    have hmod := congrArg BitVec.toNat (BitVec.add_right_inj address |>.1 heq)
    rw [BitVec.toNat_ofNat, BitVec.toNat_ofNat, Nat.mod_eq_of_lt (by omega),
      Nat.mod_eq_of_lt (by omega)] at hmod
    exact hne hmod
  exact hmemory.distinct hoffset

/-- In a single memory, blocks without a common address are apart. -/
theorem apart_of_isMemory {other : Address} {length' : Nat} (hmemory : space.IsMemory)
    (hne : ∀ i < length, ∀ j < length',
      address + BitVec.ofNat 32 i ≠ other + BitVec.ofNat 32 j) :
    space.Apart address length other length' :=
  fun i hi j hj ↦ hmemory.distinct (hne i hi j hj)

/-! ## Changes within a block -/

/-- Nothing changes outside the block, and no place becomes one of another byte. -/
structure ChangesWithin (address : Address) (length : Nat) (before after : Space) : Prop where
  layout : after.layout = before.layout
  reads : ∀ code other size, before.Apart other size.bytes address length →
    after.read code other size = before.read code other size

namespace ChangesWithin

theorem refl (address : Address) (length : Nat) (space : Space) :
    ChangesWithin address length space space :=
  ⟨rfl, fun _ _ _ _ ↦ rfl⟩

theorem of_write {value : size.Value} (h : before.write code address size value = .ok () after) :
    ChangesWithin address size.bytes before after :=
  ⟨layout_of_write size h, fun _ _ _ hapart ↦ read_write_of_apart hapart h⟩

end ChangesWithin

/-! ## Numbers -/

/-- The number that ends below an address. -/
def number (space : Space) (code : FunctionCode) (size : Size) (top : Address) :
    (count : Nat) → Except BusError (BitVec (size.bits * count))
  | 0 => .ok 0
  | count + 1 => do
    let high ← space.number code size (top - BitVec.ofNat 32 size.bytes) count
    let low ← space.read code (top - BitVec.ofNat 32 size.bytes) size
    return high ++ low

theorem number_succ_eq_ok_iff {value : BitVec (size.bits * (count + 1))} :
    space.number code size top (count + 1) = .ok value ↔
      ∃ high low, space.number code size (top - BitVec.ofNat 32 size.bytes) count = .ok high ∧
        space.read code (top - BitVec.ofNat 32 size.bytes) size = .ok low ∧ value = high ++ low :=
  append_eq_ok_iff

/-- A number has a lowest operand and a rest, also where it is not known to lie in memory. -/
theorem exists_append_of_number {value : BitVec (size.bits * (count + 1))} {known : Prop}
    (hvalue : known → space.number code size top (count + 1) = .ok value) :
    ∃ (high : BitVec (size.bits * count)) (low : size.Value), value = high ++ low ∧
      (known → space.number code size (top - BitVec.ofNat 32 size.bytes) count = .ok high) ∧
      (known → space.read code (top - BitVec.ofNat 32 size.bytes) size = .ok low) := by
  by_cases hknown : known
  · obtain ⟨high, low, hhigh, hlow, rfl⟩ := Space.number_succ_eq_ok_iff.1 (hvalue hknown)
    exact ⟨high, low, rfl, fun _ ↦ hhigh, fun _ ↦ hlow⟩
  · have hparts : value = value.extractLsb' size.bits (size.bits * count) ++
        value.extractLsb' 0 size.bits := by
      rw [BitVec.extractLsb'_append_extractLsb'_eq_extractLsb' (Nat.zero_add _).symm]
      exact BitVec.extractLsb'_eq_self.symm
    exact ⟨_, _, hparts, fun h ↦ absurd h hknown, fun h ↦ absurd h hknown⟩

/-- Where a number lies. -/
def numberStart (size : Size) (top : Address) (count : Nat) : Address :=
  top - BitVec.ofNat 32 (size.bytes * count)

theorem numberStart_succ (size : Size) (top : Address) (count : Nat) :
    numberStart size (top - BitVec.ofNat 32 size.bytes) count =
      numberStart size top (count + 1) :=
  top.sub_ofNat_sub_ofNat (size.bytes * count) size.bytes

theorem numberStart_succ_add (size : Size) (top : Address) (count : Nat) :
    numberStart size top (count + 1) + BitVec.ofNat 32 (size.bytes * count) =
      top - BitVec.ofNat 32 size.bytes :=
  top.sub_ofNat_add_ofNat (size.bytes * count) size.bytes

/-! ### The lowest operand and the rest -/

theorem Apart.first_number {other : Address}
    (h : space.Apart (numberStart size top (count + 1)) (size.bytes * (count + 1)) other length) :
    space.Apart (numberStart size (top - BitVec.ofNat 32 size.bytes) count) (size.bytes * count)
        other length ∧
      space.Apart (top - BitVec.ofNat 32 size.bytes) size.bytes other length := by
  have hrest := h.first_head (Nat.le_add_right (size.bytes * count) size.bytes)
  have hlow := h.first_part (size.bytes * count) size.bytes (Nat.le_refl _)
  rw [← numberStart_succ] at hrest
  rw [numberStart_succ_add] at hlow
  exact ⟨hrest, hlow⟩

theorem Apart.second_number {other : Address}
    (h : space.Apart other length (numberStart size top (count + 1)) (size.bytes * (count + 1))) :
    space.Apart other length (numberStart size (top - BitVec.ofNat 32 size.bytes) count)
        (size.bytes * count) ∧
      space.Apart other length (top - BitVec.ofNat 32 size.bytes) size.bytes := by
  have hrest := h.second_head (Nat.le_add_right (size.bytes * count) size.bytes)
  have hlow := h.second_part (size.bytes * count) size.bytes (Nat.le_refl _)
  rw [← numberStart_succ] at hrest
  rw [numberStart_succ_add] at hlow
  exact ⟨hrest, hlow⟩

theorem Unaliased.number
    (h : space.Unaliased (numberStart size top (count + 1)) (size.bytes * (count + 1))) :
    space.Unaliased (numberStart size (top - BitVec.ofNat 32 size.bytes) count)
        (size.bytes * count) ∧
      space.Apart (numberStart size (top - BitVec.ofNat 32 size.bytes) count) (size.bytes * count)
        (top - BitVec.ofNat 32 size.bytes) size.bytes ∧
      space.Apart (top - BitVec.ofNat 32 size.bytes) size.bytes
        (numberStart size (top - BitVec.ofNat 32 size.bytes) count) (size.bytes * count) := by
  have hle := Nat.le_add_right (size.bytes * count) size.bytes
  have hrest := h.head hle
  have hbefore := h.parts 0 (size.bytes * count) (size.bytes * count) size.bytes
    ((Nat.zero_add _).trans_le hle) (Nat.le_refl _) (.inl (Nat.zero_add _).le)
  have hbehind := h.parts (size.bytes * count) size.bytes 0 (size.bytes * count) (Nat.le_refl _)
    ((Nat.zero_add _).trans_le hle) (.inr (Nat.zero_add _).le)
  rw [← numberStart_succ] at hrest
  rw [BitVec.add_zero, numberStart_succ_add, ← numberStart_succ] at hbefore hbehind
  exact ⟨hrest, hbefore, hbehind⟩

/-! ### Numbers that stay -/

/-- A number that lies outside of what changes stays the same. -/
theorem ChangesWithin.number_eq (h : ChangesWithin address length before after)
    (hapart : before.Apart (numberStart size top count) (size.bytes * count) address length) :
    after.number code size top count = before.number code size top count := by
  induction count generalizing top with
  | zero => rfl
  | succ count ih =>
    obtain ⟨hrest, hlow⟩ := hapart.first_number
    rw [number, number, ih hrest, h.reads code _ size hlow]

/-- A change of the lowest operand and then of the rest is one of the number. -/
theorem ChangesWithin.trans_number
    (hlow : ChangesWithin (top - BitVec.ofNat 32 size.bytes) size.bytes before middle)
    (hrest : ChangesWithin (numberStart size (top - BitVec.ofNat 32 size.bytes) count)
      (size.bytes * count) middle after) :
    ChangesWithin (numberStart size top (count + 1)) (size.bytes * (count + 1)) before after := by
  refine ⟨hrest.layout.trans hlow.layout, fun code other size' hapart ↦ ?_⟩
  obtain ⟨hapartRest, hapartLow⟩ := hapart.second_number
  rw [hrest.reads code other size' (hapartRest.of_layout_eq hlow.layout),
    hlow.reads code other size' hapartLow]

end Space

end M68000
