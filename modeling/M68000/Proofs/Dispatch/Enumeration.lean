import M68000.Pattern
import Mathlib.Data.BitVec
import Mathlib.Data.FinEnum
import Mathlib.Data.Fintype.BigOperators
import Mathlib.Data.List.Iterate
import Mathlib.Data.Nat.Bitwise
import Mathlib.Dynamics.PeriodicPts.Defs
import Mathlib.Tactic.Ring

/-!
# Stepping through the opcodes of a pattern

Every subset of a mask but the empty one follows a lower one, so that the steps from zero lead to
all of them, in ascending order, before they lead back to zero. A pattern has as many opcodes as
its mask has subsets, and they are the words that have its bits outside the mask.
-/

namespace M68000

namespace Submask

variable {mask : Opcode}

/-! ## Steps -/

/-- Every submask but zero follows a lower one. -/
theorem exists_next_eq (word : Submask mask) (h : word.val ≠ 0) :
    ∃ previous : Submask mask, previous.val < word.val ∧ previous.next = word := by
  obtain ⟨pred, hword⟩ : ∃ pred, word.val = pred + 1 := ⟨word.val - 1, by ring⟩
  have hpred : (pred &&& mask).toNat ≤ pred.toNat := by
    rw [BitVec.toNat_and]
    exact Nat.and_le_left
  refine ⟨⟨pred &&& mask, by rw [BitVec.and_assoc, BitVec.and_self]⟩, ?_, Subtype.ext ?_⟩
  · have hlt : pred.toNat < word.val.toNat := by
      rw [hword] at h ⊢
      bv_omega
    exact Nat.lt_of_le_of_lt hpred hlt
  · -- Outside the mask the predecessor is what the carry of the step has run through.
    have hinside : pred &&& mask = pred - (pred &&& ~~~mask) :=
      eq_sub_of_add_eq (and_add_and_not pred mask)
    have houtside : ~~~mask - (pred &&& ~~~mask) = ~~~mask &&& ~~~pred := by
      rw [BitVec.and_comm pred]
      exact sub_eq_of_eq_add' (and_add_and_not (~~~mask) pred).symm
    have hapart : word.val &&& (~~~mask &&& ~~~pred) = 0 := by
      rw [← word.property, BitVec.and_assoc, ← BitVec.and_assoc mask, BitVec.and_not_self]
      simp
    have hsum : (pred &&& mask) - mask = word.val + (~~~mask &&& ~~~pred) := by
      have hneg : -mask = ~~~mask + 1 := BitVec.neg_eq_not_add mask
      rw [hinside, ← houtside, sub_eq_add_neg _ mask, hneg, hword]
      ring
    calc
      ((pred &&& mask) - mask) &&& mask
      _ = (word.val + (~~~mask &&& ~~~pred)) &&& mask := by rw [hsum]
      _ = (word.val ||| (~~~mask &&& ~~~pred)) &&& mask := by
        rw [BitVec.add_eq_or_of_and_eq_zero _ _ hapart]
      _ = word.val := by
        ext i hi
        have hbit := congrArg (·[i]) word.property
        cases hmask : mask[i] <;> simp_all

/-! ## The submasks from one on -/

/-- Induction along the steps, from the mask down. -/
theorem induct {P : Submask mask → Prop} (last : ∀ word, word.next.val = 0 → P word)
    (step : ∀ word, word.next.val ≠ 0 → P word.next → P word) (word : Submask mask) : P word :=
  listFrom.induct (fun word _ ↦ P word) (fun word _ h ↦ last word h)
    (fun word _ h ih ↦ step word h ih) word []

theorem listFrom_append (word : Submask mask) (before : List Opcode) :
    word.listFrom before = before.reverse ++ word.listFrom [] := by
  induction word using induct generalizing before with
  | last word h =>
    rw [listFrom, if_pos h, listFrom.eq_def word [], if_pos h]
    simp
  | step word h ih =>
    rw [listFrom, if_neg h, ih, listFrom.eq_def word [], if_neg h, ih [word.val]]
    simp

theorem listFrom_of_last {word : Submask mask} (h : word.next.val = 0) :
    word.listFrom [] = [word.val] := by
  rw [listFrom, if_pos h]
  rfl

theorem listFrom_of_next {word : Submask mask} (h : word.next.val ≠ 0) :
    word.listFrom [] = word.val :: word.next.listFrom [] := by
  rw [listFrom, if_neg h, listFrom_append]
  rfl

theorem mem_listFrom_self (word : Submask mask) : word.val ∈ word.listFrom [] := by
  by_cases h : word.next.val = 0
  · simp [listFrom_of_last h]
  · simp [listFrom_of_next h]

theorem and_mask_of_mem {word : Submask mask} {other : Opcode} (hmem : other ∈ word.listFrom []) :
    other &&& mask = other := by
  induction word using induct with
  | last word h =>
    rw [listFrom_of_last h, List.mem_singleton] at hmem
    exact hmem ▸ word.property
  | step word h ih =>
    rw [listFrom_of_next h, List.mem_cons] at hmem
    obtain rfl | hmem := hmem
    · exact word.property
    · exact ih hmem

theorem le_of_mem {word : Submask mask} {other : Opcode} (hmem : other ∈ word.listFrom []) :
    word.val ≤ other := by
  induction word using induct with
  | last word h =>
    rw [listFrom_of_last h, List.mem_singleton] at hmem
    exact hmem ▸ BitVec.le_refl _
  | step word h ih =>
    rw [listFrom_of_next h, List.mem_cons] at hmem
    obtain rfl | hmem := hmem
    · exact BitVec.le_refl _
    · exact BitVec.le_trans (BitVec.le_of_lt (word.lt_next h)) (ih hmem)

theorem pairwise_listFrom (word : Submask mask) : (word.listFrom []).Pairwise (· < ·) := by
  induction word using induct with
  | last word h =>
    rw [listFrom_of_last h]
    exact List.pairwise_singleton ..
  | step word h ih =>
    rw [listFrom_of_next h, List.pairwise_cons]
    exact ⟨fun other hmem ↦ Nat.lt_of_lt_of_le (word.lt_next h) (le_of_mem hmem), ih⟩

/-- The list goes on after each of its words but the last one. -/
theorem next_mem {word other : Submask mask} (hmem : other.val ∈ word.listFrom [])
    (hnext : other.next.val ≠ 0) : other.next.val ∈ word.listFrom [] := by
  induction word using induct with
  | last word h =>
    rw [listFrom_of_last h, List.mem_singleton] at hmem
    exact absurd (Subtype.ext hmem ▸ h) hnext
  | step word h ih =>
    rw [listFrom_of_next h, List.mem_cons] at hmem ⊢
    obtain heq | hmem := hmem
    · obtain rfl := Subtype.ext heq
      exact .inr other.next.mem_listFrom_self
    · exact .inr (ih hmem)

/-! ## All submasks -/

/-- The submasks of a mask, in ascending order. -/
abbrev all (mask : Opcode) : List Opcode :=
  (zero : Submask mask).listFrom []

/-- No submask is left out, by induction along the steps that lead to it. -/
theorem mem_all (word : Submask mask) : word.val ∈ all mask := by
  obtain ⟨value, hvalue⟩ : ∃ value, word.val.toNat = value := ⟨_, rfl⟩
  induction value using Nat.strongRecOn generalizing word with
  | ind value ih =>
    by_cases h : word.val = 0
    · rw [h]
      exact zero.mem_listFrom_self
    · obtain ⟨previous, hlt, rfl⟩ := word.exists_next_eq h
      exact next_mem (ih _ (hvalue ▸ hlt) previous rfl) h

theorem mem_all_iff {word : Opcode} : word ∈ all mask ↔ word &&& mask = word :=
  ⟨and_mask_of_mem, fun h ↦ mem_all ⟨word, h⟩⟩

theorem getElem_ofBits (bits : Fin 16 → Bool) {i : Nat} (hi : i < 16) :
    (BitVec.ofNat 16 (Nat.ofBits bits))[i] = bits ⟨i, hi⟩ := by
  rw [← BitVec.getLsbD_eq_getElem, BitVec.getLsbD_ofNat, Nat.testBit_ofBits_lt bits i hi]
  simp [hi]

/-- A submask chooses some of the bits of the mask. -/
def equivChoices (mask : Opcode) :
    Submask mask ≃ ({i : Fin 16 // mask.getLsbD i = true} → Bool) where
  toFun word bit := word.val.getLsbD bit.val
  invFun choice :=
    ⟨BitVec.ofNat 16 (Nat.ofBits fun i : Fin 16 ↦
        if h : mask.getLsbD i = true then choice ⟨i, h⟩ else false), by
      ext i hi
      by_cases h : mask[i] <;> simp [getElem_ofBits, h]⟩
  left_inv word := by
    ext i hi
    have hbit := congrArg (·[i]) word.property
    by_cases h : mask[i] <;> simp_all [getElem_ofBits]
  right_inv choice := by
    ext ⟨i, h⟩
    simp_all [getElem_ofBits]

theorem card_bits (mask : Opcode) :
    Fintype.card {i : Fin 16 // mask.getLsbD i = true} = mask.cpop.toNat := by
  have hsum (count : Nat) :
      mask.cpopNatRec count 0 = ∑ i ∈ Finset.range count, (mask.getLsbD i).toNat := by
    induction count with
    | zero => rfl
    | succ count ih =>
      rw [BitVec.cpopNatRec_succ, BitVec.cpopNatRec_add, ih, Finset.sum_range_succ]
  rw [BitVec.toNat_cpop, hsum, Fintype.card_subtype, Finset.card_filter,
    ← Fin.sum_univ_eq_sum_range fun i ↦ (mask.getLsbD i).toNat]
  apply Finset.sum_congr rfl
  intro i _
  cases mask.getLsbD i <;> rfl

theorem length_all (mask : Opcode) : (all mask).length = 2 ^ mask.cpop.toNat := by
  have hnodup : (all mask).Nodup := (pairwise_listFrom _).imp fun hlt ↦ BitVec.ne_of_lt hlt
  calc
    (all mask).length
    _ = (all mask).toFinset.card := (List.toFinset_card_of_nodup hnodup).symm
    _ = Fintype.card (Submask mask) := by
      rw [Fintype.card_of_subtype]
      intro word
      rw [List.mem_toFinset, mem_all_iff]
    _ = 2 ^ mask.cpop.toNat := by
      rw [Fintype.card_congr (equivChoices mask), Fintype.card_fun, Fintype.card_bool, card_bits]

/-! ## The return to zero -/

/-- The arithmetic of a step, for any word. -/
abbrev step (mask word : Opcode) : Opcode :=
  (word - mask) &&& mask

theorem listFrom_eq_iterate (word : Submask mask) :
    word.listFrom [] = List.iterate (step mask) word.val (word.listFrom []).length := by
  induction word using induct with
  | last word h =>
    rw [listFrom_of_last h]
    rfl
  | step word h ih =>
    rw [listFrom_of_next h, List.length_cons, List.iterate]
    exact congrArg (word.val :: ·) ih

theorem iterate_length (word : Submask mask) :
    (step mask)^[(word.listFrom []).length] word.val = 0 := by
  induction word using induct with
  | last word h =>
    rw [listFrom_of_last h]
    exact h
  | step word h ih =>
    rw [listFrom_of_next h, List.length_cons, Function.iterate_succ_apply]
    exact ih

theorem iterate_ne_zero {count : Nat} (hpos : 0 < count) (hlt : count < (all mask).length) :
    (step mask)^[count] 0 ≠ 0 := by
  have hlist (i : Nat) (hi : i < (all mask).length) : (all mask)[i] = (step mask)^[i] 0 :=
    (List.getElem_of_eq zero.listFrom_eq_iterate hi).trans (List.getElem_iterate ..)
  have hascends := List.pairwise_iff_getElem.1 (zero : Submask mask).pairwise_listFrom 0 count
    (hpos.trans hlt) hlt hpos
  rw [hlist, hlist] at hascends
  intro hzero
  rw [hzero] at hascends
  exact BitVec.lt_irrefl _ hascends

/-- The steps from zero return there after all submasks, and not before. -/
theorem minimalPeriod_step (mask : Opcode) :
    Function.minimalPeriod (step mask) 0 = 2 ^ mask.cpop.toNat := by
  rw [← length_all]
  have hreturns : Function.IsPeriodicPt (step mask) (all mask).length 0 :=
    (zero : Submask mask).iterate_length
  have hpos : 0 < (all mask).length := List.length_pos_of_mem (mem_all zero)
  apply le_antisymm (hreturns.minimalPeriod_le hpos)
  by_contra hlt
  exact iterate_ne_zero (hreturns.minimalPeriod_pos hpos) (not_le.1 hlt)
    (Function.isPeriodicPt_minimalPeriod ..)

end Submask

/-! ## Opcodes -/

namespace Pattern

theorem mem_opcodes {pattern : Pattern} {opcode : Opcode} :
    opcode ∈ pattern.opcodes ↔ pattern.covers opcode = true := by
  simp only [opcodes, List.mem_map, Submask.mem_all_iff, covers, beq_iff_eq]
  constructor
  · rintro ⟨word, h, rfl⟩
    rw [← h]
    ext i hi
    cases hmask : pattern.mask[i] <;> simp [hmask]
  · intro hcovers
    refine ⟨opcode &&& pattern.mask, by rw [BitVec.and_assoc, BitVec.and_self], ?_⟩
    rw [← hcovers, ← BitVec.and_or_distrib_left, BitVec.or_comm, BitVec.or_not_self,
      BitVec.and_allOnes]

variable (pattern : Pattern)

/-- The fixed bits of the opcodes and the free ones do not meet. -/
theorem toNat_or_of_mem {word : Opcode} (h : word ∈ Submask.all pattern.mask) :
    (pattern.base &&& ~~~pattern.mask ||| word).toNat =
      (pattern.base &&& ~~~pattern.mask).toNat + word.toNat := by
  have hapart : pattern.base &&& ~~~pattern.mask &&& word = 0 := by
    rw [← Submask.mem_all_iff.1 h]
    ext i hi
    cases hmask : pattern.mask[i] <;> simp [hmask]
  rw [← BitVec.add_eq_or_of_and_eq_zero _ _ hapart, BitVec.toNat_add_of_and_eq_zero hapart]

theorem pairwise_opcodes : pattern.opcodes.Pairwise (· < ·) := by
  rw [opcodes, List.pairwise_map]
  apply Submask.zero.pairwise_listFrom.imp_of_mem
  intro first second hfirst hsecond hlt
  rw [BitVec.lt_def, pattern.toNat_or_of_mem hfirst, pattern.toNat_or_of_mem hsecond]
  exact Nat.add_lt_add_left hlt _

theorem length_opcodes : pattern.opcodes.length = 2 ^ pattern.mask.cpop.toNat := by
  rw [opcodes, List.length_map, Submask.length_all]

/-- The opcodes of a pattern are as many as its mask has subsets. They are found by steps from
zero, which return to zero after just so many, and they come in ascending order: every word with
the fixed bits of the pattern once, and no other word. -/
theorem opcodes_enumerate_submasks :
    let step (word : Opcode) := (word - pattern.mask) &&& pattern.mask
    let count := 2 ^ pattern.mask.cpop.toNat
    Function.minimalPeriod step 0 = count ∧
    pattern.opcodes = (List.iterate step 0 count).map (pattern.base &&& ~~~pattern.mask ||| ·) ∧
    pattern.opcodes.length = count ∧
    pattern.opcodes.Pairwise (· < ·) ∧
    ∀ opcode, pattern.opcodes.count opcode =
      if opcode &&& ~~~pattern.mask = pattern.base &&& ~~~pattern.mask then 1 else 0 := by
  intro step count
  refine ⟨Submask.minimalPeriod_step _, ?_, pattern.length_opcodes, pattern.pairwise_opcodes,
    fun opcode ↦ ?_⟩
  · rw [opcodes, Submask.listFrom_eq_iterate, Submask.length_all]
    rfl
  · have hnodup : pattern.opcodes.Nodup :=
      pattern.pairwise_opcodes.imp fun hlt ↦ BitVec.ne_of_lt hlt
    simp only [hnodup.count, mem_opcodes, covers, beq_iff_eq]

example : (⟨0x5055, 0x0011⟩ : Pattern).opcodes = [0x5044, 0x5045, 0x5054, 0x5055] := by
  decide +kernel

end Pattern

end M68000
