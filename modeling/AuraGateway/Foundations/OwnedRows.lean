import Mathlib

/-!
# Rows with owners

Tables are lists of rows, of which an observer owns some. `view` is the observer's
part of a table, in table order; two tables with the same view differ only in rows of
others.

A query that selects only owned rows has the same answer in any two tables with the
same view (`filter_eq_of_view`, `find?_eq_of_view`, `any_eq_of_view`). Inserting,
deleting and updating act on the view as they act on the table, so they keep equal views
equal. A deletion or an update that selects only owned rows leaves every other row where
it was (`Kept`).
-/

set_option autoImplicit false

namespace AuraGateway.Foundations.OwnedRows

universe u

variable {α : Type u}

/-! ## Operations on tables -/

/-- Delete the rows that satisfy `p`. -/
def deleteWhere (p : α → Bool) (t : List α) : List α := t.filter fun r => !p r

/-- Update the rows that satisfy `p`. -/
def updateWhere (p : α → Bool) (f : α → α) (t : List α) : List α :=
  t.map fun r => if p r then f r else r

theorem mem_deleteWhere {p : α → Bool} {t : List α} {r : α} :
    r ∈ deleteWhere p t ↔ r ∈ t ∧ p r = false := by
  simp only [deleteWhere]
  rw [List.mem_filter, Bool.not_eq_true']

/-- An update that keeps its own condition changes the first row that meets it. -/
theorem find?_updateWhere {p : α → Bool} {f : α → α} (hf : ∀ r, p (f r) = p r) (t : List α) :
    (updateWhere p f t).find? p = (t.find? p).map f := by
  induction t with
  | nil => rfl
  | cons r t ih =>
      simp only [updateWhere] at ih ⊢
      rw [List.map_cons]
      by_cases hr : p r = true
      · rw [if_pos hr, List.find?_cons_of_pos (by rw [hf, hr]), List.find?_cons_of_pos hr,
          Option.map_some]
      · rw [if_neg hr, List.find?_cons_of_neg hr, List.find?_cons_of_neg hr, ih]

/-- A property of rows that an update keeps holds of every row of the updated table. -/
theorem forall_updateWhere {p : α → Bool} {f : α → α} {t : List α} {P : α → Prop}
    (h : ∀ r ∈ t, P r) (hf : ∀ r, P r → P (f r)) : ∀ r ∈ updateWhere p f t, P r := by
  intro r hr
  obtain ⟨r₀, hr₀, rfl⟩ := List.mem_map.mp hr
  split
  · exact hf r₀ (h r₀ hr₀)
  · exact h r₀ hr₀

theorem forall_append_singleton {t : List α} {r : α} {P : α → Prop} (h : ∀ r ∈ t, P r)
    (hr : P r) : ∀ r' ∈ t ++ [r], P r' := by
  intro r' hr'
  rcases List.mem_append.mp hr' with hr' | hr'
  · exact h r' hr'
  · rw [List.mem_singleton.mp hr']
    exact hr

theorem forall_filter {t : List α} {p : α → Bool} {P : α → Prop} (h : ∀ r ∈ t, P r) :
    ∀ r ∈ t.filter p, P r :=
  fun r hr => h r (List.mem_of_mem_filter hr)

/-! ## Views -/

/-- The owned rows of a table. -/
def view (own : α → Bool) (t : List α) : List α := t.filter own

/-- The rows of `t` that `q` selects are owned. -/
def Selects (own : α → Bool) (q : α → Bool) (t : List α) : Prop :=
  ∀ r ∈ t, q r = true → own r = true

variable {own : α → Bool} {q p : α → Bool} {f : α → α} {t t₁ t₂ : List α}

instance : Decidable (Selects own q t) := by
  simp only [Selects]
  infer_instance

/-- A query that selects owned rows can be asked of the view. -/
theorem filter_view (h : Selects own q t) : (view own t).filter q = t.filter q := by
  simp only [view]
  rw [List.filter_filter]
  apply List.filter_congr
  intro r hr
  cases hq : q r with
  | false => rfl
  | true => rw [h r hr hq]; rfl

section SameView

variable (hview : view own t₁ = view own t₂)

include hview

theorem filter_eq_of_view (h₁ : Selects own q t₁) (h₂ : Selects own q t₂) :
    t₁.filter q = t₂.filter q := by
  rw [← filter_view h₁, hview, filter_view h₂]

theorem find?_eq_of_view (h₁ : Selects own q t₁) (h₂ : Selects own q t₂) :
    t₁.find? q = t₂.find? q := by
  rw [← List.head?_filter, ← List.head?_filter, filter_eq_of_view hview h₁ h₂]

theorem any_eq_of_view (h₁ : Selects own q t₁) (h₂ : Selects own q t₂) :
    t₁.any q = t₂.any q := by
  have hany : ∀ t : List α, t.any q = (t.find? q).isSome := by
    intro t
    rw [Bool.eq_iff_iff, List.any_eq_true, List.find?_isSome]
  rw [hany, hany, find?_eq_of_view hview h₁ h₂]

theorem view_append_eq (r : α) : view own (t₁ ++ [r]) = view own (t₂ ++ [r]) := by
  simp only [view] at hview ⊢
  rw [List.filter_append, List.filter_append, hview]

theorem view_deleteWhere_eq : view own (deleteWhere p t₁) = view own (deleteWhere p t₂) := by
  have hcomm : ∀ t : List α, view own (deleteWhere p t) = deleteWhere p (view own t) := by
    intro t
    exact List.filter_comm _ _ t
  rw [hcomm, hcomm, hview]

theorem view_updateWhere_eq (hf : ∀ r, own (f r) = own r) :
    view own (updateWhere p f t₁) = view own (updateWhere p f t₂) := by
  have hown : (own ∘ fun r => if p r then f r else r) = own := by
    funext r
    show own (if p r then f r else r) = own r
    split
    · exact hf r
    · rfl
  simp only [view] at hview
  simp only [view, updateWhere]
  rw [List.filter_map, List.filter_map, hown, hview]

end SameView

/-! ## Rows that stay -/

/-- Every row of `t` that is not owned is still in `t'`. -/
def Kept (own : α → Bool) (t t' : List α) : Prop := ∀ r ∈ t, own r = false → r ∈ t'

theorem Kept.refl (t : List α) : Kept own t t := fun _ hr _ => hr

theorem Kept.trans {t' : List α} (h₁ : Kept own t t₁) (h₂ : Kept own t₁ t') : Kept own t t' :=
  fun r hr ho => h₂ r (h₁ r hr ho) ho

theorem kept_append (r : α) : Kept own t (t ++ [r]) :=
  fun _ hr _ => List.mem_append_left _ hr

theorem not_selected (h : Selects own p t) {r : α} (hr : r ∈ t) (ho : own r = false) :
    p r = false := by
  cases hp : p r with
  | false => rfl
  | true => rw [h r hr hp] at ho; cases ho

theorem kept_deleteWhere (h : Selects own p t) : Kept own t (deleteWhere p t) :=
  fun _ hr ho => mem_deleteWhere.mpr ⟨hr, not_selected h hr ho⟩

theorem kept_updateWhere (h : Selects own p t) : Kept own t (updateWhere p f t) := by
  intro r hr ho
  refine List.mem_map.mpr ⟨r, hr, ?_⟩
  rw [not_selected h hr ho]
  rfl

end AuraGateway.Foundations.OwnedRows
