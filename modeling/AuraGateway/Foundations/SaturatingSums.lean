import Mathlib

/-!
# Saturating sums

Adding up natural numbers that saturate at a cap gives the sum or the cap, whichever is smaller
(`foldl_satAdd`). Leaving out part of the summands is therefore seen unless they are all zero or
the rest reaches the cap by itself (`min_add_eq_iff`).
-/

set_option autoImplicit false

namespace AuraGateway.Foundations.SaturatingSums

universe u

variable {α : Type u} {cap : Nat}

/-- Addition that saturates at `cap`. -/
def satAdd (cap a b : Nat) : Nat := min (a + b) cap

/-- Saturating along the way is the same as saturating at the end. -/
theorem foldl_satAdd (f : α → Nat) (l : List α) {start : Nat} (h : start ≤ cap) :
    l.foldl (fun total a => satAdd cap total (f a)) start = min (start + (l.map f).sum) cap := by
  induction l generalizing start with
  | nil => simpa using h
  | cons a l ih =>
      have hle : satAdd cap start (f a) ≤ cap := min_le_right _ _
      rw [List.foldl_cons, ih hle, List.map_cons, List.sum_cons, satAdd]
      omega

theorem min_add_eq_iff {counted left : Nat} :
    min counted cap = min (counted + left) cap ↔ left = 0 ∨ cap ≤ counted := by
  omega

/-- The summands that a predicate keeps and those it drops make up the sum. -/
theorem sum_filter_add_sum_filter_not (f : α → Nat) (p : α → Bool) (l : List α) :
    ((l.filter p).map f).sum + ((l.filter fun a => !p a).map f).sum = (l.map f).sum := by
  rw [← List.sum_append, ← List.map_append]
  exact ((List.filter_append_perm p l).map f).sum_eq

end AuraGateway.Foundations.SaturatingSums
