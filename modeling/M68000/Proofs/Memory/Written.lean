import M68000.Memory.Space

/-!
# Outcomes of writes

A write that is put together from others is done if all its parts are done, and its space is the
one that the last part left behind. A refused write leaves behind what its parts before the
refusal have written.
-/

namespace M68000.Written

/-- The space after a write, whether it was done or refused. -/
def space (outcome : Written σ) : σ :=
  match outcome with
  | .ok _ space | .error _ space => space

/-! ## Writes within a larger space -/

section Within

variable (outcome : Written σ) (context : σ → τ)

@[simp]
theorem space_within : (outcome.within context).space = context outcome.space := by
  cases outcome <;> rfl

variable {outcome context}

theorem within_eq_ok_iff {after : τ} :
    outcome.within context = .ok () after ↔
      ∃ inner, outcome = .ok () inner ∧ context inner = after := by
  cases outcome <;> simp [within]

end Within

/-! ## Writes in parts -/

variable {outcome : Written σ} {next : σ → Written σ}

theorem andThen_eq_ok_iff {after : σ} :
    outcome.andThen next = .ok () after ↔
      ∃ middle, outcome = .ok () middle ∧ next middle = .ok () after := by
  cases outcome <;> simp [andThen]

/-- What both parts of a write keep, the write keeps. -/
theorem space_andThen (keeps : σ → σ → Prop) {before : σ}
    (trans : ∀ {first second third}, keeps first second → keeps second third → keeps first third)
    (hfirst : keeps before outcome.space) (hnext : ∀ middle, keeps middle (next middle).space) :
    keeps before (outcome.andThen next).space := by
  cases outcome with
  | ok _ middle => exact trans hfirst (hnext middle)
  | error refusal middle => exact hfirst

/-! ## Writes that are done wholly or not at all -/

variable {unchanged : σ} {result : Except BusError σ}

theorem ofExcept_eq_ok_iff {after : σ} :
    ofExcept unchanged result = .ok () after ↔ result = .ok after := by
  cases result <;> simp [ofExcept]

theorem space_ofExcept (keeps : σ → σ → Prop) (refl : keeps unchanged unchanged)
    (h : ∀ after, result = .ok after → keeps unchanged after) :
    keeps unchanged (ofExcept unchanged result).space := by
  cases result with
  | ok after => exact h after rfl
  | error refusal => exact refl

end M68000.Written
