import M68000.Memory.BusWidth
import Mathlib.Algebra.Group.Nat.Defs

/-!
# Places within a page

The narrowest bus keeps the place of an address within its page, and every page of a memory or a
map has all places. So bytes at different places never are the same byte, whatever the width of
the bus and however pages are mapped.
-/

namespace M68000.Address

variable {address first second : Address} {length length' : Nat}

/-- The place of an address within its page. -/
def place (address : Address) : BitVec pageBits :=
  address.setWidth pageBits

theorem place_add (address offset : Address) :
    (address + offset).place = address.place + offset.place :=
  BitVec.setWidth_add _ _ (by decide)

theorem place_truncate (width : BusWidth) (address : Address) :
    (width.truncate address).place = address.place := by
  apply BitVec.eq_of_getLsbD_eq
  intro i hi
  have hmask : width.mask.getLsbD i = true := by
    have hbits := Nat.lt_of_lt_of_le hi width.pageBits_le
    have hle := width.le
    rw [BusWidth.mask, BitVec.getLsbD_ushiftRight, BitVec.getLsbD_allOnes]
    exact decide_eq_true (by omega)
  rw [place, place, BitVec.getLsbD_setWidth, BitVec.getLsbD_setWidth, BusWidth.truncate,
    BitVec.getLsbD_and, hmask, Bool.and_true]

/-- Two blocks of bytes have no place in common. -/
def Apart (first : Address) (length : Nat) (second : Address) (length' : Nat) : Prop :=
  ∀ i < length, ∀ j < length',
    (first + BitVec.ofNat 32 i).place ≠ (second + BitVec.ofNat 32 j).place

theorem Apart.symm (h : first.Apart length second length') :
    second.Apart length' first length :=
  fun i hi j hj heq ↦ h j hj i hi heq.symm

/-- Blocks that follow one another and fit into a page are apart. -/
theorem apart_add (address : Address) (length length' : Nat)
    (hle : length + length' ≤ 2 ^ pageBits) :
    address.Apart length (address + BitVec.ofNat 32 length) length' := by
  intro i hi j hj heq
  rw [BitVec.add_assoc, ← BitVec.ofNat_add, place_add, place_add] at heq
  have hplaces := congrArg BitVec.toNat ((BitVec.add_right_inj _).1 heq)
  rw [place, place, BitVec.toNat_setWidth, BitVec.toNat_setWidth, BitVec.toNat_ofNat,
    BitVec.toNat_ofNat] at hplaces
  rw [pageBits] at hle hplaces
  omega

end M68000.Address
