import Mathlib

/-!
# Keyset pages

Rows with distinct keys are listed in descending order of their keys, a page at a time. A
page of `n` rows is cut off a probe of `n + 1`; if the probe is longer than the page, the key
of the last row of the page is the cursor of the next one, which lists the rows below it.

Following the cursors from the start ends, and gives every row exactly once, in order
(`exists_walk`).
-/

set_option autoImplicit false

namespace AuraGateway.Foundations.KeysetPages

universe u v w z

/-! ## Descending rows -/

section Order

variable {α : Type u} {κ : Type v} [LinearOrder κ] (key : α → κ)

/-- Each key is below those before it. -/
abbrev Descending (l : List α) : Prop := l.Pairwise fun a b => key b < key a

/-- Rows in descending order of their keys. -/
def newestFirst (l : List α) : List α := l.mergeSort fun a b => decide (key b ≤ key a)

theorem newestFirst_perm (l : List α) : (newestFirst key l).Perm l := List.mergeSort_perm _ _

variable {key}

theorem descending_newestFirst {l : List α} (h : (l.map key).Nodup) :
    Descending key (newestFirst key l) := by
  have hsorted : (newestFirst key l).Pairwise fun a b => decide (key b ≤ key a) = true := by
    refine List.pairwise_mergeSort ?_ ?_ l
    · intro a b c hab hbc
      exact decide_eq_true ((of_decide_eq_true hbc).trans (of_decide_eq_true hab))
    · intro a b
      rw [Bool.or_eq_true, decide_eq_true_iff, decide_eq_true_iff]
      exact le_total _ _
  have hdistinct : (newestFirst key l).Pairwise fun a b => key a ≠ key b :=
    List.pairwise_map.mp (((newestFirst_perm key l).map key).nodup_iff.mpr h)
  refine (hsorted.and hdistinct).imp fun hab => ?_
  exact lt_of_le_of_ne (of_decide_eq_true hab.1) (Ne.symm hab.2)

/-- Descending rows are determined by which they are. -/
theorem eq_of_descending {l m : List α} (hl : Descending key l) (hm : Descending key m)
    (h : l.Perm m) : l = m :=
  h.eq_of_pairwise (fun _ _ _ _ hab hba => absurd hab (lt_asymm hba)) hl hm

theorem newestFirst_filter {l : List α} (h : (l.map key).Nodup) (p : α → Bool) :
    newestFirst key (l.filter p) = (newestFirst key l).filter p := by
  have hnodup : ((l.filter p).map key).Nodup := h.sublist (List.filter_sublist.map key)
  refine eq_of_descending (descending_newestFirst hnodup)
    ((descending_newestFirst h).filter p) ?_
  exact (newestFirst_perm key _).trans ((newestFirst_perm key l).filter p).symm

/-- The rows below a row are those after it. -/
theorem filter_below {l m : List α} {a : α} (h : Descending key (l ++ a :: m)) :
    (l ++ a :: m).filter (fun b => key b < key a) = m := by
  obtain ⟨-, hrest, hbefore⟩ := List.pairwise_append.mp h
  obtain ⟨hafter, -⟩ := List.pairwise_cons.mp hrest
  have hl : l.filter (fun b => key b < key a) = [] := by
    refine List.filter_eq_nil_iff.mpr fun b hb hlt => ?_
    exact lt_asymm (of_decide_eq_true hlt) (hbefore b hb a (List.mem_cons_self ..))
  have hm : m.filter (fun b => key b < key a) = m :=
    List.filter_eq_self.mpr fun b hb => decide_eq_true (hafter b hb)
  rw [List.filter_append, hl, List.nil_append, List.filter_cons_of_neg, hm]
  simp

end Order

/-! ## Pages -/

section Pages

variable {α : Type u} {χ : Type w} {ε : Type z}

/-- The page that is cut off a probe, and the cursor of the next one. -/
def page (cursor : α → χ) (n : Nat) (probe : List α) : List α × Option χ :=
  if n < probe.length then (probe.take n, (probe.take n).getLast?.map cursor) else (probe, none)

/-- Follow the cursors from one: `fetch` may differ from one request to the next. -/
inductive Walk (fetch : Nat → Option χ → Except ε (List α × Option χ)) :
    Nat → Option χ → List (List α) → Prop where
  | last {i : Nat} {c : Option χ} {rows : List α} (h : fetch i c = .ok (rows, none)) :
      Walk fetch i c [rows]
  | more {i : Nat} {c : Option χ} {rows : List α} {c' : χ} {pages : List (List α)}
      (h : fetch i c = .ok (rows, some c')) (hrest : Walk fetch (i + 1) (some c') pages) :
      Walk fetch i c (rows :: pages)

variable {fetch : Nat → Option χ → Except ε (List α × Option χ)}

/-- The pages are determined by the cursor. -/
theorem Walk.unique {i : Nat} {c : Option χ} {pages pages' : List (List α)}
    (h : Walk fetch i c pages) (h' : Walk fetch i c pages') : pages = pages' := by
  induction h generalizing pages' with
  | last hfetch =>
      cases h' with
      | last hfetch' =>
          rw [hfetch] at hfetch'
          cases hfetch'
          rfl
      | more hfetch' _ =>
          rw [hfetch] at hfetch'
          cases hfetch'
  | more hfetch _ ih =>
      cases h' with
      | last hfetch' =>
          rw [hfetch] at hfetch'
          cases hfetch'
      | more hfetch' hrest' =>
          rw [hfetch] at hfetch'
          cases hfetch'
          rw [ih hrest']

variable {κ : Type v} [LinearOrder κ] {key : α → κ} {encode : κ → χ} {n : Nat} {rows : List α}

/-- From the cursor of a suffix of the rows, the pages give the suffix. -/
theorem exists_walk_from (hn : 0 < n) (hrows : Descending key rows)
    (hfetch : ∀ i k, fetch i (some (encode k))
      = .ok (page (encode ∘ key) n ((rows.filter fun a => key a < k).take (n + 1))))
    (before rest : List α) (hsplit : rows = before ++ rest) (i : Nat) (c : Option χ)
    (hc : fetch i c = .ok (page (encode ∘ key) n (rest.take (n + 1)))) :
    ∃ pages, Walk fetch i c pages ∧ pages.flatten = rest := by
  by_cases hshort : rest.length ≤ n
  · have hprobe : rest.take (n + 1) = rest := List.take_of_length_le (by omega)
    rw [hprobe, page, if_neg (by omega)] at hc
    exact ⟨[rest], .last hc, List.flatten_singleton⟩
  · have hlong : n < (rest.take (n + 1)).length := by
      rw [List.length_take]
      omega
    have hpage : (rest.take (n + 1)).take n = rest.take n := by
      rw [List.take_take, Nat.min_eq_left (by omega)]
    -- the last row of the page, whose key is the next cursor
    obtain ⟨front, a, hfront⟩ : ∃ front a, rest.take n = front ++ [a] := by
      have hne : rest.take n ≠ [] := by
        intro hnil
        have hlength := congrArg List.length hnil
        rw [List.length_take, List.length_nil] at hlength
        omega
      exact ⟨_, _, (List.dropLast_append_getLast hne).symm⟩
    have hrest : rest = front ++ a :: rest.drop n := by
      conv_lhs => rw [← List.take_append_drop n rest, hfront, List.append_assoc]
      rfl
    have hbelow : rows.filter (fun b => key b < key a) = rest.drop n := by
      have hrows' : rows = (before ++ front) ++ a :: rest.drop n := by
        rw [List.append_assoc, ← hrest]
        exact hsplit
      rw [hrows'] at hrows ⊢
      exact filter_below hrows
    rw [page, if_pos hlong, hpage, hfront, List.getLast?_concat] at hc
    have hnext := hfetch (i + 1) (key a)
    rw [hbelow] at hnext
    obtain ⟨pages, hwalk, hflatten⟩ := exists_walk_from hn hrows hfetch
      (before ++ rest.take n) (rest.drop n)
      (by rw [List.append_assoc, List.take_append_drop]; exact hsplit) (i + 1) _ hnext
    refine ⟨(front ++ [a]) :: pages, .more hc hwalk, ?_⟩
    rw [List.flatten_cons, hflatten, ← hfront, List.take_append_drop]
termination_by rest.length
decreasing_by
  rw [List.length_drop]
  omega

/-- Following the cursors from the start ends, and gives every row exactly once, in order. -/
theorem exists_walk (hn : 0 < n) (hrows : Descending key rows)
    (hstart : fetch 0 none = .ok (page (encode ∘ key) n (rows.take (n + 1))))
    (hfetch : ∀ i k, fetch i (some (encode k))
      = .ok (page (encode ∘ key) n ((rows.filter fun a => key a < k).take (n + 1)))) :
    ∃ pages, Walk fetch 0 none pages ∧ pages.flatten = rows :=
  exists_walk_from hn hrows hfetch [] rows rfl 0 none hstart

end Pages

end AuraGateway.Foundations.KeysetPages
