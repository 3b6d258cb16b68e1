import M68000.Proofs.Exception.Entry
import Mathlib.Logic.Function.Basic

/-!
# The latches of the interrupt levels

Each level is a latch that holds the vector of one request at most. What is accepted depends on the
latches and the mask alone, because the flag for requests tells whether any latch is filled: it is
set by a request, and brought up to date when one has been dealt with.
-/

namespace M68000

/-- The vector that waits at each level. -/
abbrev Latches := InterruptLevel → Option Byte

namespace Latches

variable (latches : Latches)

def fill (level : InterruptLevel) (vector : Byte) : Latches :=
  Function.update latches level (some vector)

def clear (level : InterruptLevel) : Latches :=
  Function.update latches level none

/-- The request is the one to be accepted: it waits at the highest level that is filled, and this
level is above the mask or cannot be masked. -/
structure Due (mask : BitVec 8) (level : InterruptLevel) (vector : Byte) : Prop where
  waiting : latches level = some vector
  highest : ∀ other : InterruptLevel, level.number < other.number → latches other = none
  urgent : mask.toNat < level.number ∨ level.number = 7

end Latches

namespace InterruptLevel

theorem mem_descending (level : InterruptLevel) : level ∈ descending := by
  obtain ⟨index⟩ := level
  simp [descending]

theorem pairwise_descending :
    descending.Pairwise fun first second ↦ second.number < first.number := by
  decide

theorem number_inj {first second : InterruptLevel} (h : first.number = second.number) :
    first = second := by
  obtain ⟨first⟩ := first
  obtain ⟨second⟩ := second
  simp only [number] at h
  rw [mk.injEq]
  omega

end InterruptLevel

namespace Interrupts

variable (interrupts : Interrupts)

/-- The flag tells whether a request waits at any level. -/
def Accurate : Prop :=
  interrupts.pending = true ↔ ∃ level vector, interrupts.waiting? level = some vector

/-- The flag is set while a request waits. -/
def Announced : Prop :=
  ∀ level vector, interrupts.waiting? level = some vector → interrupts.pending = true

/-! ## Requests and removals -/

theorem waiting?_set (level : InterruptLevel) (hlevel : level.index.val < 7)
    (request : Option Byte) (pending : Bool) :
    waiting? ⟨interrupts.requests.set level.index.val request hlevel, pending⟩ =
      Function.update interrupts.waiting? level request := by
  funext other
  by_cases hother : other = level
  · rw [hother, Function.update_self]
    exact Vector.getElem_set_self hlevel
  · have hindex : level.index.val ≠ other.index.val := fun hindex ↦ by
      have hnumber : other.number = level.number := congrArg Nat.succ hindex.symm
      exact hother (InterruptLevel.number_inj hnumber)
    rw [Function.update_of_ne hother]
    exact Vector.getElem_set_ne hlevel other.index.isLt hindex

theorem waiting?_request (level : InterruptLevel) (vector : Byte) :
    (interrupts.request level vector).waiting? = Latches.fill interrupts.waiting? level vector :=
  interrupts.waiting?_set level level.index.isLt _ _

theorem waiting?_remove (level : InterruptLevel) :
    (interrupts.remove level).waiting? = Latches.clear interrupts.waiting? level :=
  interrupts.waiting?_set level level.index.isLt _ _

/-! ## The flag -/

theorem any_requests_iff :
    interrupts.requests.any Option.isSome = true ↔
      ∃ level vector, interrupts.waiting? level = some vector := by
  rw [Vector.any_eq_true]
  constructor
  · rintro ⟨index, hindex, hsome⟩
    obtain ⟨vector, hvector⟩ := Option.isSome_iff_exists.1 hsome
    exact ⟨⟨⟨index, hindex⟩⟩, vector, hvector⟩
  · rintro ⟨level, vector, hvector⟩
    exact ⟨level.index, level.index.isLt, Option.isSome_iff_exists.2 ⟨vector, hvector⟩⟩

theorem accurate_request (level : InterruptLevel) (vector : Byte) :
    (interrupts.request level vector).Accurate := by
  have hwaiting : (interrupts.request level vector).waiting? level = some vector := by
    rw [waiting?_request]
    exact Function.update_self ..
  exact iff_of_true rfl ⟨level, vector, hwaiting⟩

theorem accurate_refresh : interrupts.refresh.Accurate :=
  interrupts.any_requests_iff

variable {interrupts}

theorem Accurate.announced (haccurate : interrupts.Accurate) : interrupts.Announced :=
  fun level vector hwaiting ↦ haccurate.2 ⟨level, vector, hwaiting⟩

theorem Accurate.refresh_eq (haccurate : interrupts.Accurate) :
    interrupts.refresh = interrupts := by
  have hpending : interrupts.requests.any Option.isSome = interrupts.pending := by
    rw [Bool.eq_iff_iff, any_requests_iff]
    exact haccurate.symm
  rw [refresh, hpending]

/-! ## The highest request -/

theorem highest?_spec {level : InterruptLevel} {vector : Byte}
    (h : interrupts.highest? = some (level, vector)) :
    interrupts.waiting? level = some vector ∧
      ∀ other : InterruptLevel, level.number < other.number → interrupts.waiting? other = none := by
  obtain ⟨above, found, below, hlevels, hfound, hnone⟩ := List.findSome?_eq_some_iff.1 h
  obtain ⟨vector', hvector, heq⟩ := Option.map_eq_some_iff.1 hfound
  cases heq
  refine ⟨hvector, fun other hother ↦ ?_⟩
  have hmem := other.mem_descending
  have hpairwise := InterruptLevel.pairwise_descending
  rw [hlevels] at hmem hpairwise
  obtain habove | hbelow := List.mem_append.1 hmem
  · exact Option.map_eq_none_iff.1 (hnone other habove)
  · obtain rfl | hbelow := List.mem_cons.1 hbelow
    · omega
    · have hlower := List.rel_of_pairwise_cons (List.pairwise_append.1 hpairwise).2.1 hbelow
      omega

theorem highest?_eq_some_iff {level : InterruptLevel} {vector : Byte} :
    interrupts.highest? = some (level, vector) ↔ interrupts.waiting? level = some vector ∧
      ∀ other : InterruptLevel, level.number < other.number → interrupts.waiting? other = none := by
  constructor
  · exact highest?_spec
  · rintro ⟨hwaiting, habove⟩
    cases hhighest : interrupts.highest? with
    | none =>
      have hnone := List.findSome?_eq_none_iff.1 hhighest level level.mem_descending
      rw [hwaiting] at hnone
      cases hnone
    | some request =>
      obtain ⟨level', vector'⟩ := request
      obtain ⟨hwaiting', habove'⟩ := highest?_spec hhighest
      have hle : level'.number ≤ level.number := by
        by_contra hlt
        rw [habove level' (Nat.lt_of_not_le hlt)] at hwaiting'
        cases hwaiting'
      have hge : level.number ≤ level'.number := by
        by_contra hlt
        rw [habove' level (Nat.lt_of_not_le hlt)] at hwaiting
        cases hwaiting
      obtain rfl := InterruptLevel.number_inj (Nat.le_antisymm hle hge)
      rw [hwaiting] at hwaiting'
      cases hwaiting'
      rfl

end Interrupts

/-! ## What is accepted next -/

namespace Machine

variable {machine : Machine}

/-- The vectors that wait at the levels of the machine. -/
def latches (machine : Machine) : Latches :=
  machine.interrupts.waiting?

section Announced

variable (hannounced : machine.interrupts.Announced)

include hannounced

theorem dueInterrupt?_eq_some_iff_of_announced {level : InterruptLevel} {vector : Byte} :
    machine.dueInterrupt? = some (level, vector) ↔
      machine.latches.Due machine.registers.interruptMask level vector := by
  rw [dueInterrupt?]
  cases hpending : machine.interrupts.pending with
  | false =>
    refine iff_of_false nofun fun hdue ↦ ?_
    have hset := hannounced level vector hdue.waiting
    rw [hpending] at hset
    cases hset
  | true =>
    rw [if_pos rfl, Option.filter_eq_some_iff, Interrupts.highest?_eq_some_iff]
    simp only [Bool.decide_or, Bool.or_eq_true, decide_eq_true_eq]
    exact ⟨fun h ↦ ⟨h.1.1, h.1.2, h.2⟩, fun h ↦ ⟨⟨h.waiting, h.highest⟩, h.urgent⟩⟩

theorem dueInterrupt?_eq_none_iff_of_announced :
    machine.dueInterrupt? = none ↔
      ∀ level vector, ¬ machine.latches.Due machine.registers.interruptMask level vector := by
  rw [Option.eq_none_iff_forall_ne_some]
  constructor
  · intro hnone level vector hdue
    exact hnone (level, vector) ((dueInterrupt?_eq_some_iff_of_announced hannounced).2 hdue)
  · rintro hnone ⟨level, vector⟩ hsome
    exact hnone level vector ((dueInterrupt?_eq_some_iff_of_announced hannounced).1 hsome)

end Announced

theorem dueInterrupt?_eq_some_iff (haccurate : machine.interrupts.Accurate)
    {level : InterruptLevel} {vector : Byte} :
    machine.dueInterrupt? = some (level, vector) ↔
      machine.latches.Due machine.registers.interruptMask level vector :=
  dueInterrupt?_eq_some_iff_of_announced haccurate.announced

theorem dueInterrupt?_eq_none_iff (haccurate : machine.interrupts.Accurate) :
    machine.dueInterrupt? = none ↔
      ∀ level vector, ¬ machine.latches.Due machine.registers.interruptMask level vector :=
  dueInterrupt?_eq_none_iff_of_announced haccurate.announced

end Machine

end M68000
