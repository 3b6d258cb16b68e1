import M68000.Proofs.Memory.Place

/-!
# Neighbouring addresses

A bus keeps as many low bits of an address as it has lines. The byte after one that is not the
last of its page lies beside it in the same page. The byte after the last one of a page lies in
another page, except on a bus that has a single page: there it is the first byte of that page.
-/

namespace M68000

namespace Address

theorem toNat_place (address : Address) : address.place.toNat = address.toNat % 2 ^ pageBits := by
  rw [place, BitVec.toNat_setWidth]

theorem page_eq_div (address : Address) : address.page = address.toNat / 2 ^ pageBits := by
  rw [page, Nat.shiftRight_eq_div_pow]

end Address

namespace BusWidth

variable (width : BusWidth)

theorem toNat_mask : width.mask.toNat = 2 ^ width.bits - 1 := by
  have hpow : 2 ^ 32 = 2 ^ width.bits * 2 ^ (32 - width.bits) := by
    rw [← Nat.pow_add, Nat.add_sub_cancel' width.le]
  have hbits : 0 < 2 ^ width.bits := Nat.two_pow_pos _
  have hrest : 0 < 2 ^ (32 - width.bits) := Nat.two_pow_pos _
  rw [mask, BitVec.toNat_ushiftRight, BitVec.toNat_allOnes, Nat.shiftRight_eq_div_pow, hpow]
  apply Nat.div_eq_of_lt_le
  · rw [Nat.sub_mul]
    omega
  · rw [Nat.sub_add_cancel hbits]
    exact Nat.sub_lt (Nat.mul_pos hbits hrest) Nat.one_pos

theorem toNat_truncate (address : Address) :
    (width.truncate address).toNat = address.toNat % 2 ^ width.bits := by
  rw [truncate, BitVec.toNat_and, toNat_mask, Nat.and_two_pow_sub_one_eq_mod]

theorem truncate_inj_iff {first second : Address} :
    width.truncate first = width.truncate second ↔
      first.toNat % 2 ^ width.bits = second.toNat % 2 ^ width.bits := by
  rw [← BitVec.toNat_inj, toNat_truncate, toNat_truncate]

theorem truncate_add_truncate (address offset : Address) :
    width.truncate (width.truncate address + offset) = width.truncate (address + offset) := by
  have hdvd : 2 ^ width.bits ∣ 2 ^ 32 := Nat.pow_dvd_pow 2 width.le
  rw [truncate_inj_iff, BitVec.toNat_add, BitVec.toNat_add, Nat.mod_mod_of_dvd _ hdvd,
    Nat.mod_mod_of_dvd _ hdvd, toNat_truncate, Nat.mod_add_mod]

theorem toNat_truncate_succ (address : Address) :
    (width.truncate (address + 1)).toNat =
      ((width.truncate address).toNat + 1) % 2 ^ width.bits := by
  have hdvd : 2 ^ width.bits ∣ 2 ^ 32 := Nat.pow_dvd_pow 2 width.le
  have hone : (1 : Address).toNat = 1 := rfl
  rw [toNat_truncate, toNat_truncate, BitVec.toNat_add, hone, Nat.mod_mod_of_dvd _ hdvd,
    Nat.mod_add_mod]

/-- A bus with one page tells addresses apart by their place only. -/
theorem truncate_inj_iff_place (hone : width.bits = pageBits) {first second : Address} :
    width.truncate first = width.truncate second ↔ first.place = second.place := by
  rw [truncate_inj_iff, hone, ← BitVec.toNat_inj, Address.toNat_place, Address.toNat_place]

/-- The bus carries a whole number of pages, more than one if it is wider than a page. -/
theorem exists_two_pow_bits_eq :
    ∃ pages, 2 ^ width.bits = 2 ^ pageBits * pages ∧ 0 < pages ∧
      (width.bits ≠ pageBits → 1 < pages) := by
  refine ⟨2 ^ (width.bits - pageBits), ?_, Nat.two_pow_pos _, fun hne ↦ ?_⟩
  · rw [← Nat.pow_add, Nat.add_sub_cancel' width.pageBits_le]
  · have hlt : pageBits < width.bits := Nat.lt_of_le_of_ne width.pageBits_le hne.symm
    exact Nat.one_lt_two_pow (Nat.sub_ne_zero_of_lt hlt)

theorem place_eq_allOnes_iff {address : Address} :
    address.place = BitVec.allOnes pageBits ↔
      (width.truncate address).toNat % 2 ^ pageBits = 2 ^ pageBits - 1 := by
  rw [← BitVec.toNat_inj, BitVec.toNat_allOnes, ← Address.place_truncate width address,
    Address.toNat_place]

theorem samePage_iff {address : Address} :
    width.samePage address = true ↔
      (width.truncate address).toNat / 2 ^ pageBits =
        ((width.truncate address).toNat + 1) % 2 ^ width.bits / 2 ^ pageBits := by
  rw [samePage, beq_iff_eq, Address.page_eq_div, Address.page_eq_div, toNat_truncate_succ]

theorem toNat_truncate_lt (address : Address) :
    (width.truncate address).toNat < 2 ^ width.bits := by
  rw [toNat_truncate]
  exact Nat.mod_lt _ (Nat.two_pow_pos _)

theorem truncate_succ_of_lt {address : Address}
    (hlt : (width.truncate address).toNat + 1 < 2 ^ width.bits) :
    width.truncate (address + 1) = width.truncate address + 1 := by
  have hbits : 2 ^ width.bits ≤ 2 ^ 32 := Nat.pow_le_pow_right Nat.two_pos width.le
  have hone : (1 : Address).toNat = 1 := rfl
  rw [← BitVec.toNat_inj, toNat_truncate_succ, BitVec.toNat_add, hone, Nat.mod_eq_of_lt hlt,
    Nat.mod_eq_of_lt (Nat.lt_of_lt_of_le hlt hbits)]

section Successor

variable {address : Address}

/-- Unless a byte is the last of its page, the next one is beside it in the same page. -/
theorem samePage_of_place_ne (hplace : address.place ≠ BitVec.allOnes pageBits) :
    width.samePage address = true ∧
      width.truncate (address + 1) = width.truncate address + 1 := by
  obtain ⟨pages, hpages, hpos, -⟩ := width.exists_two_pow_bits_eq
  have hlt := width.toNat_truncate_lt address
  rw [Ne, width.place_eq_allOnes_iff] at hplace
  rw [hpages, pageBits] at hlt
  rw [pageBits] at hplace
  have hnext : (width.truncate address).toNat + 1 < 2 ^ width.bits := by
    rw [hpages, pageBits]
    omega
  refine ⟨width.samePage_iff.2 ?_, width.truncate_succ_of_lt hnext⟩
  rw [Nat.mod_eq_of_lt hnext, pageBits]
  omega

/-- The byte after the last one of a page lies in another page, if there is another. -/
theorem not_samePage_of_place_eq (hbits : width.bits ≠ pageBits)
    (hplace : address.place = BitVec.allOnes pageBits) : ¬ width.samePage address = true := by
  obtain ⟨pages, hpages, -, hmore⟩ := width.exists_two_pow_bits_eq
  have hpages' := hmore hbits
  have hlt := width.toNat_truncate_lt address
  rw [width.place_eq_allOnes_iff] at hplace
  rw [width.samePage_iff]
  rw [hpages, pageBits] at hlt ⊢
  rw [pageBits] at hplace
  by_cases htop : (width.truncate address).toNat + 1 = 2 ^ 13 * pages
  · rw [htop, Nat.mod_self]
    omega
  · rw [Nat.mod_eq_of_lt (by omega)]
    omega

/-- Two bytes in one page of several lie beside one another. -/
theorem truncate_succ_of_samePage (hbits : width.bits ≠ pageBits)
    (hpage : width.samePage address = true) :
    width.truncate (address + 1) = width.truncate address + 1 := by
  by_cases hplace : address.place = BitVec.allOnes pageBits
  · exact absurd hpage (width.not_samePage_of_place_eq hbits hplace)
  · exact (width.samePage_of_place_ne hplace).2

end Successor

end BusWidth

end M68000
