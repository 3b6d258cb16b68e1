import M68000.Instruction.MoveMultiple

/-!
# Register lists

MOVEM names registers by the bits of a word, the data registers by those from 0 on and the address
registers by those from 8 on.
-/

namespace M68000

open Instruction

/-- The registers of a list, in ascending order. -/
def listedRegisters (list : BitVec 16) : List Register :=
  (listed list).map Register.ofNumber

theorem mem_listed_iff {list : BitVec 16} {number : Fin 16} :
    number ∈ listed list ↔ list.getLsbD number = true := by
  rw [listed, List.mem_filter]
  exact and_iff_right (List.mem_finRange number)

/-- The address registers are those from number eight on. -/
theorem address_not_mem_listedRegisters {list : BitVec 16} {number : Fin 8}
    (h : list.getLsbD (8 + number) = false) : Register.address number ∉ listedRegisters list := by
  intro hmem
  obtain ⟨found, hfound, hnumber⟩ := List.mem_map.1 hmem
  rw [Register.ofNumber] at hnumber
  split at hnumber
  · cases hnumber
  next hle =>
    have hval : found.val - 8 = number := congrArg Fin.val (Register.address.inj hnumber)
    rw [← hval, Nat.add_sub_cancel' (Nat.le_of_not_lt hle), mem_listed_iff.1 hfound] at h
    cases h

end M68000
