import Mathlib

/-!
# Labelled runs

Runs of a step relation whose steps carry labels. A run records the labels in the
order the steps were taken, so a statement about a run may speak of its history as
well as of the state it reached (`Run.invariant`). A run may be extended in front
(`Run.cons`) and taken apart at its last step (`Run.of_snoc`).
-/

set_option autoImplicit false

namespace AuraGateway.Foundations.LabelledRuns

universe u v

variable {σ : Type u} {ι : Type v}

/-- `Run step s ls t`: steps labelled `ls`, in this order, lead from `s` to `t`. -/
inductive Run (step : σ → ι → σ → Prop) (s : σ) : List ι → σ → Prop where
  | nil : Run step s [] s
  | snoc {ls : List ι} {t u : σ} {l : ι} (h : Run step s ls t) (hs : step t l u) :
      Run step s (ls ++ [l]) u

variable {step : σ → ι → σ → Prop} {s : σ}

/-- A property of history and state that holds at the start and is kept by every
step holds at the end of every run. -/
theorem Run.invariant (Inv : List ι → σ → Prop) (h₀ : Inv [] s)
    (hstep : ∀ ls t l u, Inv ls t → step t l u → Inv (ls ++ [l]) u)
    {ls : List ι} {t : σ} (h : Run step s ls t) : Inv ls t := by
  induction h with
  | nil => exact h₀
  | snoc _ hs ih => exact hstep _ _ _ _ ih hs

/-- The same for a property of the state alone. -/
theorem Run.stateInvariant (Inv : σ → Prop) (h₀ : Inv s)
    (hstep : ∀ t l u, Inv t → step t l u → Inv u)
    {ls : List ι} {t : σ} (h : Run step s ls t) : Inv t := by
  induction h with
  | nil => exact h₀
  | snoc _ hs ih => exact hstep _ _ _ ih hs

/-- A step in front of a run. -/
theorem Run.cons {l : ι} {t : σ} (hs : step s l t) {ls : List ι} {u : σ}
    (h : Run step t ls u) : Run step s (l :: ls) u := by
  induction h with
  | nil => exact Run.nil.snoc hs
  | snoc _ hlast ih => exact ih.snoc hlast

/-- Two runs one after the other. -/
theorem Run.append {ls ls' : List ι} {t u : σ} (h : Run step s ls t) (h' : Run step t ls' u) :
    Run step s (ls ++ ls') u := by
  induction h' with
  | nil =>
      rw [List.append_nil]
      exact h
  | snoc _ hs ih =>
      rw [← List.append_assoc]
      exact ih.snoc hs

/-- Runs of a relation are runs of every wider one. -/
theorem Run.mono {step' : σ → ι → σ → Prop} (hsub : ∀ a l b, step a l b → step' a l b)
    {ls : List ι} {t : σ} (h : Run step s ls t) : Run step' s ls t := by
  induction h with
  | nil => exact Run.nil
  | snoc _ hs ih => exact ih.snoc (hsub _ _ _ hs)

/-- The last step of a run that ends in a given label. -/
theorem Run.of_snoc {ls : List ι} {l : ι} {u : σ} (h : Run step s (ls ++ [l]) u) :
    ∃ t, Run step s ls t ∧ step t l u := by
  generalize e : ls ++ [l] = all at h
  cases h with
  | nil => exact absurd e (by simp)
  | snoc hrun hs =>
      obtain ⟨e₁, e₂⟩ := List.append_inj' e rfl
      injection e₂ with e₂
      subst e₁ e₂
      exact ⟨_, hrun, hs⟩

end AuraGateway.Foundations.LabelledRuns
