import Mathlib

/-!
# Keyed tables

Tables from keys to values, filled by a list of rows in order. Inserting lets the last row
of a key win (`lookup_insertAll`); inserting only where there is nothing yet lets the first
one win (`lookup_orInsertAll`).
-/

set_option autoImplicit false

namespace AuraGateway.Foundations.KeyedTable

universe u v w

variable {κ : Type u} {β : Type v} {α : Type w} [BEq κ]

/-- Insert a value, in front of the one that was there. -/
def insert (t : List (κ × β)) (k : κ) (v : β) : List (κ × β) := (k, v) :: t

/-- Insert a value unless there is one. -/
def orInsert (t : List (κ × β)) (k : κ) (v : β) : List (κ × β) :=
  if (t.lookup k).isSome then t else insert t k v

/-- Insert every row that has a key. -/
def insertAll (key : α → Option κ) (val : α → β) (t : List (κ × β)) (rows : List α) :
    List (κ × β) :=
  rows.foldl (fun t r => match key r with
    | some k => insert t k (val r)
    | none => t) t

/-- Insert every row under each of its keys at which there is nothing yet. -/
def orInsertAll (keys : α → List κ) (val : α → β) (t : List (κ × β)) (rows : List α) :
    List (κ × β) :=
  rows.foldl (fun t r => (keys r).foldl (fun t k => orInsert t k (val r)) t) t

variable [LawfulBEq κ] [DecidableEq κ]

theorem lookup_insert (t : List (κ × β)) (k k' : κ) (v : β) :
    (insert t k v).lookup k' = if k' = k then some v else t.lookup k' := by
  rw [insert, List.lookup_cons]
  by_cases hk : k' = k
  · rw [if_pos hk, beq_iff_eq.mpr hk]
  · rw [if_neg hk, beq_eq_false_iff_ne.mpr hk]

theorem lookup_orInsert (t : List (κ × β)) (k k' : κ) (v : β) :
    (orInsert t k v).lookup k' = (t.lookup k').or (if k' = k then some v else none) := by
  simp only [orInsert]
  by_cases hk : k' = k
  · subst hk
    rw [if_pos rfl]
    cases h : t.lookup k' with
    | some w => simp [h]
    | none => simp [lookup_insert]
  · rw [if_neg hk, Option.or_none]
    split
    · rfl
    · rw [lookup_insert, if_neg hk]

/-- The last row of a key wins. -/
theorem lookup_insertAll (key : α → Option κ) (val : α → β) (t : List (κ × β)) (rows : List α)
    (k : κ) :
    (insertAll key val t rows).lookup k =
      ((rows.filter fun r => decide (key r = some k)).getLast?.map val).or (t.lookup k) := by
  induction rows using List.reverseRecOn with
  | nil => rfl
  | append_singleton rows r ih =>
      rw [insertAll] at ih ⊢
      rw [List.foldl_append, List.filter_append, List.filter_singleton, List.foldl_cons,
        List.foldl_nil]
      cases hr : key r with
      | none =>
          rw [ih]
          simp
      | some k' =>
          show (insert _ k' (val r)).lookup k = _
          rw [lookup_insert]
          by_cases hk : k = k'
          · subst hk
            simp
          · rw [if_neg hk, ih]
            have hne : decide (some k' = some k) = false := by simpa using fun h : k' = k => hk h.symm
            simp only [hne, Bool.cond_false, List.append_nil]

theorem lookup_foldl_orInsert (ks : List κ) (t : List (κ × β)) (v : β) (k : κ) :
    (ks.foldl (fun t k => orInsert t k v) t).lookup k =
      (t.lookup k).or (if k ∈ ks then some v else none) := by
  induction ks generalizing t with
  | nil => simp
  | cons k' ks ih =>
      rw [List.foldl_cons, ih, lookup_orInsert, Option.or_assoc]
      by_cases hk : k = k'
      · simp [hk]
      · simp [hk]

/-- The first row that has the key wins. -/
theorem lookup_orInsertAll (keys : α → List κ) (val : α → β) (t : List (κ × β)) (rows : List α)
    (k : κ) :
    (orInsertAll keys val t rows).lookup k =
      (t.lookup k).or ((rows.find? fun r => decide (k ∈ keys r)).map val) := by
  induction rows generalizing t with
  | nil => simp [orInsertAll]
  | cons r rows ih =>
      simp only [orInsertAll] at ih ⊢
      rw [List.foldl_cons, ih, lookup_foldl_orInsert, Option.or_assoc]
      by_cases hr : k ∈ keys r
      · simp [hr]
      · simp [hr]

end AuraGateway.Foundations.KeyedTable
