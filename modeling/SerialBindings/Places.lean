-- Resources that have one place at a time: nowhere yet, in the hands of a thread,
-- kept for all of them, or gone for good. The threads' own words about what they
-- have agree with the places, while the resources move from one to the other.
import Mathlib.Logic.Function.Basic

namespace places

/-- Where a resource is. -/
inductive Place (T : Type) : Type
  | nowhere
  | held (t : T)
  | kept
  | gone
  deriving DecidableEq

variable {Q T : Type} {place : Q → Place T} {has has' : T → Q → Prop} {q : Q} {t u : T}
  {x : Place T}

/-- Each thread has the resources that are in its hands. -/
def Placed (place : Q → Place T) (has : T → Q → Prop) : Prop :=
  ∀ q t, place q = .held t ↔ has t q

/-- Two threads never have one resource. -/
theorem Placed.one (h : Placed place has) (ht : has t q) (hu : has u q) : u = t := by
  have hplace := (h q u).mpr hu
  rw [(h q t).mpr ht] at hplace
  cases hplace
  rfl

/-- Nobody lets go of a resource or gets one. -/
theorem Placed.same (h : Placed place has) (hhas : ∀ t q, has' t q ↔ has t q) :
    Placed place has' := fun q t => (h q t).trans (hhas t q).symm

variable [DecidableEq Q]

/-- The thread `t` lets go of one resource, or gets it. -/
theorem Placed.move (h : Placed place has) (hbefore : ∀ u, place q = .held u → u = t)
    (hafter : ∀ u, x = .held u → u = t) (hself : has' t q ↔ x = .held t)
    (hrest : ∀ q', q' ≠ q → (has' t q' ↔ has t q'))
    (hothers : ∀ u, u ≠ t → ∀ q', has' u q' ↔ has u q') :
    Placed (Function.update place q x) has' := by
  intro q' u
  by_cases hq : q' = q
  · rw [hq, Function.update_self]
    by_cases hu : u = t
    · rw [hu, hself]
    · rw [hothers u hu, ← h q u]
      exact ⟨fun hx => absurd (hafter u hx) hu, fun hx => absurd (hbefore u hx) hu⟩
  · rw [Function.update_of_ne hq, h q' u]
    by_cases hu : u = t
    · rw [hu, hrest q' hq]
    · rw [hothers u hu]

end places
