import Mathlib

/-!
# Cuts of sorted lists

A sort by keys, whatever the comparison does outside the list (`pairwise_mergeSort_of_key`); a list
cut at two places, whose pieces inherit order and distinctness (`cut_append`); and the first elements
of a list in which the preferred ones come first (`mem_take_of_preferred`).
-/

set_option autoImplicit false

namespace AuraGateway.Foundations.SortedCuts

universe u v

variable {α : Type u} {κ : Type v}

/-- A comparison that agrees with the order of keys on a list sorts the list by the keys. -/
theorem pairwise_mergeSort_of_key [LinearOrder κ] (key : α → κ) {le : α → α → Bool} {l : List α}
    (hle : ∀ a ∈ l, ∀ b ∈ l, le a b = decide (key a ≤ key b)) :
    (l.mergeSort le).Pairwise fun a b => key a ≤ key b := by
  have hsame : (l.mergeSort le).map id = (l.map id).mergeSort fun a b => decide (key a ≤ key b) :=
    List.map_mergeSort hle
  rw [List.map_id, List.map_id] at hsame
  have hsorted : (l.mergeSort fun a b => decide (key a ≤ key b)).Pairwise
      fun a b => decide (key a ≤ key b) = true := by
    apply List.pairwise_mergeSort
    · intro a b c hab hbc
      exact decide_eq_true ((of_decide_eq_true hab).trans (of_decide_eq_true hbc))
    · intro a b
      rw [Bool.or_eq_true, decide_eq_true_eq, decide_eq_true_eq]
      exact le_total (key a) (key b)
  rw [hsame]
  exact hsorted.imp of_decide_eq_true

/-- The pieces of a list that is cut at two places. -/
theorem cut_append (l : List α) {i j : Nat} (h : i ≤ j) :
    l.take i ++ ((l.take j).drop i ++ l.drop j) = l := by
  have hfront : (l.take j).take i ++ (l.take j).drop i = l.take j := List.take_append_drop i _
  rw [List.take_take, min_eq_left h] at hfront
  rw [← List.append_assoc, hfront, List.take_append_drop]

section Preferred

variable (preferred : α → Bool)

/-- Preferred elements come first, and otherwise the order is kept. -/
def preferredFirst (l : List α) : List α :=
  l.mergeSort fun a b => preferred a || !preferred b

variable {preferred}

theorem preferredFirst_perm (l : List α) : (preferredFirst preferred l).Perm l :=
  List.mergeSort_perm _ _

theorem pairwise_preferredFirst (l : List α) :
    (preferredFirst preferred l).Pairwise fun a b => preferred b = true → preferred a = true := by
  have hsorted : (preferredFirst preferred l).Pairwise
      fun a b => (preferred a || !preferred b) = true := by
    apply List.pairwise_mergeSort
    · intro a b c hab hbc
      cases ha : preferred a with
      | true => rfl
      | false =>
          rw [ha, Bool.false_or, Bool.not_eq_true'] at hab
          rwa [hab] at hbc
    · intro a b
      cases preferred a <;> cases preferred b <;> rfl
  refine hsorted.imp fun {a b} hab hb => ?_
  rwa [hb, Bool.not_true, Bool.or_false] at hab

/-- Where an element that is not preferred is among the first, every preferred one is. -/
theorem mem_take_of_preferred {l : List α} {k : Nat} {a b : α} (ha : a ∈ l)
    (hpa : preferred a = true) (hb : b ∈ (preferredFirst preferred l).take k)
    (hpb : preferred b = false) : a ∈ (preferredFirst preferred l).take k := by
  have hmem : a ∈ preferredFirst preferred l := (preferredFirst_perm l).mem_iff.mpr ha
  have hpairs : (preferredFirst preferred l).Pairwise
      fun a b => preferred b = true → preferred a = true := pairwise_preferredFirst l
  rw [← List.take_append_drop k (preferredFirst preferred l)] at hmem hpairs
  rcases List.mem_append.mp hmem with htake | hdrop
  · exact htake
  · have hfirst := (List.pairwise_append.mp hpairs).2.2 b hb a hdrop hpa
    rw [hpb] at hfirst
    cases hfirst

end Preferred

/-- What is left of a list without the elements of some of its keys. -/
theorem length_filter_not_any [DecidableEq κ] (key : α → κ) {l s : List α}
    (hl : (l.map key).Nodup) (hs : (s.map key).Nodup) (hsub : ∀ a ∈ s, a ∈ l) :
    (l.filter fun a => !s.any fun b => key b == key a).length = l.length - s.length := by
  have hkeys : (l.filter fun a => s.any fun b => key b == key a).Perm s := by
    rw [List.perm_ext_iff_of_nodup (hl.of_map.filter _) hs.of_map]
    intro a
    rw [List.mem_filter, List.any_eq_true]
    constructor
    · rintro ⟨ha, b, hb, hkey⟩
      rw [beq_iff_eq] at hkey
      -- keys are distinct, so that the element with this key is the one of the list
      rwa [List.inj_on_of_nodup_map hl ha (hsub b hb) hkey.symm]
    · intro ha
      exact ⟨hsub a ha, a, ha, beq_self_eq_true _⟩
  have hlength := List.length_eq_length_filter_add (l := l) fun a => s.any fun b => key b == key a
  have heq := hkeys.length_eq
  omega

end AuraGateway.Foundations.SortedCuts
