import Mathlib

/-!
# Walking over cumulative weights

A target is looked for in a list of weights: the walk adds the weights up and stops at the first
position where the sum exceeds the target. It stops at a position exactly for the targets between
the sum of the weights before it and the sum up to it (`walk_eq_some_iff`). So, of the targets below
the sum of all weights, each position gets as many as its weight (`card_walk`), and none is left
over (`walk_isSome_iff`).

Whatever divides targets among positions hands out no more of them than there are
(`sum_shares_le`).
-/

set_option autoImplicit false

namespace AuraGateway.Foundations.CumulativeWalk

/-- The first position at which the cumulative weight exceeds the target. -/
def walk (target : Nat) : Nat → List Nat → Option Nat
  | _, [] => none
  | cumulative, w :: ws =>
      if target < cumulative + w then some 0 else (walk target (cumulative + w) ws).map (· + 1)

theorem walk_stop {target cumulative w : Nat} (h : target < cumulative + w) (ws : List Nat) :
    walk target cumulative (w :: ws) = some 0 := by
  rw [walk, if_pos h]

theorem walk_pass {target cumulative w : Nat} (h : cumulative + w ≤ target) (ws : List Nat) :
    walk target cumulative (w :: ws) = (walk target (cumulative + w) ws).map (· + 1) := by
  rw [walk, if_neg (Nat.not_lt_of_le h)]

/-- The walk ends without a position exactly where the weights do not reach the target. -/
theorem walk_isSome_iff {target cumulative : Nat} (hc : cumulative ≤ target) (ws : List Nat) :
    (walk target cumulative ws).isSome = true ↔ target < cumulative + ws.sum := by
  induction ws generalizing cumulative with
  | nil => exact iff_of_false Bool.false_ne_true (Nat.not_lt_of_le hc)
  | cons w ws ih =>
      rw [List.sum_cons, ← Nat.add_assoc]
      rcases Nat.lt_or_ge target (cumulative + w) with hstop | hpass
      · rw [walk_stop hstop]
        exact iff_of_true rfl (Nat.lt_add_right ws.sum hstop)
      · rw [walk_pass hpass, Option.isSome_map, ih hpass]

/-- The targets of a position lie between two cumulative sums. -/
theorem walk_eq_some_iff {target cumulative : Nat} (hc : cumulative ≤ target) (ws : List Nat)
    (i : Nat) :
    walk target cumulative ws = some i ↔ i < ws.length
      ∧ cumulative + (ws.take i).sum ≤ target ∧ target < cumulative + (ws.take (i + 1)).sum := by
  induction ws generalizing cumulative i with
  | nil =>
      refine iff_of_false ?_ fun h => absurd h.1 (Nat.not_lt_zero i)
      intro h
      cases h
  | cons w ws ih =>
      rcases Nat.lt_or_ge target (cumulative + w) with hstop | hpass
      · rw [walk_stop hstop, Option.some.injEq]
        cases i with
        | zero =>
            refine iff_of_true rfl ⟨Nat.succ_pos _, hc, ?_⟩
            rw [List.take_succ_cons, List.take_zero, List.sum_singleton]
            exact hstop
        | succ i =>
            -- a later position starts behind the target
            refine iff_of_false (Nat.succ_ne_zero i).symm fun h => ?_
            rw [List.take_succ_cons, List.sum_cons] at h
            omega
      · rw [walk_pass hpass]
        cases i with
        | zero =>
            refine iff_of_false ?_ fun h => ?_
            · intro h
              obtain ⟨j, -, hj⟩ := Option.map_eq_some_iff.mp h
              exact Nat.succ_ne_zero j hj
            · obtain ⟨-, -, hlt⟩ := h
              rw [List.take_succ_cons, List.take_zero, List.sum_singleton] at hlt
              omega
        | succ i =>
            have hmap : (walk target (cumulative + w) ws).map (· + 1) = some (i + 1)
                ↔ walk target (cumulative + w) ws = some i := by
              rw [Option.map_eq_some_iff]
              constructor
              · rintro ⟨j, hj, heq⟩
                obtain rfl := Nat.succ.inj heq
                exact hj
              · intro hi
                exact ⟨i, hi, rfl⟩
            rw [hmap, ih hpass, List.take_succ_cons, List.take_succ_cons, List.sum_cons,
              List.sum_cons, List.length_cons, Nat.add_lt_add_iff_right, ← Nat.add_assoc,
              ← Nat.add_assoc]

theorem sum_take_succ (ws : List Nat) {i : Nat} (h : i < ws.length) :
    (ws.take (i + 1)).sum = (ws.take i).sum + ws[i] := by
  rw [List.take_succ_eq_append_getElem h, List.sum_append, List.sum_singleton]

theorem sum_take_le (ws : List Nat) (i : Nat) : (ws.take i).sum ≤ ws.sum := by
  conv_rhs => rw [← List.take_append_drop i ws, List.sum_append]
  exact Nat.le_add_right _ _

/-- Each position gets as many targets as its weight. -/
theorem card_walk (ws : List Nat) {i : Nat} (h : i < ws.length) :
    ((Finset.range ws.sum).filter fun t => walk t 0 ws = some i).card = ws[i] := by
  have hfilter : (Finset.range ws.sum).filter (fun t => walk t 0 ws = some i)
      = Finset.Ico (ws.take i).sum (ws.take (i + 1)).sum := by
    ext t
    rw [Finset.mem_filter, Finset.mem_range, Finset.mem_Ico, walk_eq_some_iff t.zero_le,
      Nat.zero_add, Nat.zero_add]
    constructor
    · rintro ⟨-, -, hbetween⟩
      exact hbetween
    · intro hbetween
      exact ⟨hbetween.2.trans_le (sum_take_le ws (i + 1)), h, hbetween⟩
  rw [hfilter, Nat.card_Ico, sum_take_succ ws h, Nat.add_sub_cancel_left]

/-- However targets are divided among positions, the shares add up to no more than the targets. -/
theorem sum_shares_le (position : Nat → Option Nat) (total : Nat) (ws : List Nat)
    (hshares : ∀ (i : Nat) (h : i < ws.length),
      ((Finset.range total).filter fun t => position t = some i).card = ws[i]) :
    ws.sum ≤ total := by
  have hdisjoint : Set.PairwiseDisjoint (Finset.range ws.length : Set Nat)
      fun i => (Finset.range total).filter fun t => position t = some i := by
    intro i _ j _ hij
    rw [Function.onFun, Finset.disjoint_left]
    intro t hi hj
    have heq := (Finset.mem_filter.mp hi).2.symm.trans (Finset.mem_filter.mp hj).2
    exact hij (Option.some.inj heq)
  calc ws.sum = ∑ i : Fin ws.length, ws[i] := (Fin.sum_univ_getElem ws).symm
    _ = ∑ i ∈ Finset.range ws.length,
          ((Finset.range total).filter fun t => position t = some i).card := by
        rw [Finset.sum_range]
        exact Finset.sum_congr rfl fun i _ => (hshares i i.isLt).symm
    _ = ((Finset.range ws.length).biUnion
          fun i => (Finset.range total).filter fun t => position t = some i).card :=
        (Finset.card_biUnion hdisjoint).symm
    _ ≤ (Finset.range total).card := by
        apply Finset.card_le_card
        intro t ht
        obtain ⟨i, -, hi⟩ := Finset.mem_biUnion.mp ht
        exact (Finset.mem_filter.mp hi).1
    _ = total := Finset.card_range total

end AuraGateway.Foundations.CumulativeWalk
