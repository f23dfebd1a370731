import Mathlib.Data.List.Basic

/-!
# Header lists

A list of values under names, where a name may have several values: `append` adds a value, `set`
leaves one. What a name has afterwards is all that these operations change (`values_append`,
`values_set`).
-/

set_option autoImplicit false

namespace AuraGateway.Foundations.HeaderList

universe u v

variable {κ : Type u} {β : Type v} [DecidableEq κ]

/-- The values of a name, in their order. -/
def values (headers : List (κ × β)) (name : κ) : List β :=
  headers.filterMap fun h => if h.1 = name then some h.2 else none

/-- Add a value. -/
def append (headers : List (κ × β)) (name : κ) (value : β) : List (κ × β) :=
  headers ++ [(name, value)]

/-- Set the first value of a name and remove the others. -/
def set : List (κ × β) → κ → β → List (κ × β)
  | [], name, value => [(name, value)]
  | h :: rest, name, value =>
      if h.1 = name then (name, value) :: rest.filter fun h => h.1 ≠ name
      else h :: set rest name value

theorem values_nil (name : κ) : values ([] : List (κ × β)) name = [] := rfl

theorem values_cons (h : κ × β) (rest : List (κ × β)) (name : κ) :
    values (h :: rest) name = if h.1 = name then h.2 :: values rest name else values rest name := by
  rw [values, List.filterMap_cons]
  by_cases heq : h.1 = name
  · rw [if_pos heq, if_pos heq]
    rfl
  · rw [if_neg heq, if_neg heq]
    rfl

/-- A name has a value exactly if it is there. -/
theorem values_eq_nil_iff {headers : List (κ × β)} {name : κ} :
    values headers name = [] ↔ ∀ h ∈ headers, h.1 ≠ name := by
  rw [values, List.filterMap_eq_nil_iff]
  refine forall₂_congr fun h _ => ?_
  by_cases heq : h.1 = name <;> simp [heq]

theorem values_append (headers : List (κ × β)) (name : κ) (value : β) (other : κ) :
    values (append headers name value) other
      = if name = other then values headers other ++ [value] else values headers other := by
  rw [append, values, List.filterMap_append]
  by_cases heq : name = other <;> simp [heq, values]

/-- Names that are removed are as if they had not been there. -/
theorem values_filter (headers : List (κ × β)) (name other : κ) :
    values (headers.filter fun h => h.1 ≠ name) other
      = if name = other then [] else values headers other := by
  induction headers with
  | nil => split <;> rfl
  | cons h rest ih =>
      by_cases hname : h.1 = name
      · rw [List.filter_cons_of_neg (by simpa using hname), ih, values_cons]
        by_cases heq : name = other
        · rw [if_pos heq, if_pos heq]
        · rw [if_neg heq, if_neg heq, if_neg fun h' => heq (hname.symm.trans h')]
      · rw [List.filter_cons_of_pos (by simpa using hname), values_cons, values_cons, ih]
        by_cases heq : name = other
        · rw [if_pos heq, if_pos heq, if_neg fun h' => hname (h'.trans heq.symm)]
        · rw [if_neg heq, if_neg heq]

theorem values_set (headers : List (κ × β)) (name : κ) (value : β) (other : κ) :
    values (set headers name value) other
      = if name = other then [value] else values headers other := by
  induction headers with
  | nil => rw [set, values_cons, values_nil]
  | cons h rest ih =>
      rw [set]
      by_cases hname : h.1 = name
      · rw [if_pos hname, values_cons, values_filter, values_cons]
        by_cases heq : name = other
        · rw [if_pos heq, if_pos heq, if_pos heq]
        · rw [if_neg heq, if_neg heq, if_neg heq, if_neg fun h' => heq (hname.symm.trans h')]
      · rw [if_neg hname, values_cons, values_cons, ih]
        by_cases heq : name = other
        · rw [if_pos heq, if_pos heq, if_neg fun h' => hname (h'.trans heq.symm)]
        · rw [if_neg heq, if_neg heq]

end AuraGateway.Foundations.HeaderList
