import M68000.Opcode

/-!
# Opcode patterns

A pattern fixes some bits of an opcode and leaves those of its mask free. The opcodes of a
pattern are stepped through in ascending order, one for each subset of the mask: a step adds one
to the free bits as if no other bit lay between them.
-/

namespace M68000

/-! ## Subsets of a mask -/

/-- A word whose bits all are bits of the mask. -/
abbrev Submask (mask : Opcode) := { word : Opcode // word &&& mask = word }

namespace Submask

variable {mask : Opcode}

def zero : Submask mask :=
  ⟨0, BitVec.zero_and⟩

/-- The next submask in ascending order. To subtract the mask is to add one with a carry that runs
through the bits outside the mask, so after the mask itself comes zero again. -/
def next (word : Submask mask) : Submask mask :=
  ⟨(word.val - mask) &&& mask, by rw [BitVec.and_assoc, BitVec.and_self]⟩

/-- A word is the sum of its bits within a mask and of those outside. -/
theorem and_add_and_not (word mask : Opcode) : (word &&& mask) + (word &&& ~~~mask) = word := by
  rw [BitVec.add_eq_or_of_and_eq_zero, ← BitVec.and_or_distrib_left, BitVec.or_not_self,
    BitVec.and_allOnes]
  ext i hi
  cases hmask : mask[i] <;> simp [hmask]

theorem le_mask (word : Submask mask) : word.val ≤ mask := by
  rw [← word.property, BitVec.le_def, BitVec.toNat_and]
  exact Nat.and_le_right

/-- Unless it is zero again, the next submask is higher. -/
theorem lt_next (word : Submask mask) (h : word.next.val ≠ 0) : word.val < word.next.val := by
  have hlt : word.val.toNat < mask.toNat := by
    refine Nat.lt_of_le_of_ne word.le_mask fun heq ↦ h ?_
    change (word.val - mask) &&& mask = 0
    rw [BitVec.eq_of_toNat_eq heq, BitVec.sub_self]
    exact BitVec.zero_and
  let sum := word.val - mask
  have hsum : sum.toNat = 2 ^ 16 - mask.toNat + word.val.toNat := by
    rw [BitVec.toNat_sub, Nat.mod_eq_of_lt (by omega)]
  have hparts : sum.toNat ≤ (sum &&& mask).toNat + (sum &&& ~~~mask).toNat :=
    calc
      sum.toNat = ((sum &&& mask) + (sum &&& ~~~mask)).toNat := by rw [and_add_and_not]
      _ ≤ _ := by
        rw [BitVec.toNat_add]
        exact Nat.mod_le ..
  have houtside : (sum &&& ~~~mask).toNat ≤ 2 ^ 16 - 1 - mask.toNat := by
    rw [BitVec.toNat_and, BitVec.toNat_not]
    exact Nat.and_le_right
  change word.val.toNat < (sum &&& mask).toNat
  omega

/-- The submasks from one up to the mask, after those before it, which come the other way round. -/
def listFrom (word : Submask mask) (before : List Opcode) : List Opcode :=
  if word.next.val = 0 then (word.val :: before).reverse
  else word.next.listFrom (word.val :: before)
termination_by mask.toNat - word.val.toNat
decreasing_by
  have hlt : word.val.toNat < word.next.val.toNat := word.lt_next ‹_›
  have hle : word.next.val.toNat ≤ mask.toNat := word.next.le_mask
  omega

end Submask

/-! ## Patterns -/

structure Pattern where
  base : Opcode
  mask : Opcode
  deriving DecidableEq

namespace Pattern

/-- The opcode has the bits of the pattern outside the mask. -/
def covers (pattern : Pattern) (opcode : Opcode) : Bool :=
  opcode &&& ~~~pattern.mask == pattern.base &&& ~~~pattern.mask

/-- The opcodes that match, in ascending order. -/
def opcodes (pattern : Pattern) : List Opcode :=
  ((Submask.zero : Submask pattern.mask).listFrom []).map
    (pattern.base &&& ~~~pattern.mask ||| ·)

end Pattern

end M68000
