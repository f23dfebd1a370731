import AuraGateway.Foundations.CumulativeWalk
import AuraGateway.Router.Strategy

/-!
# Weighted choice

The weighted strategy draws a target below the sum of the weights and takes the first endpoint at
which the cumulative weight exceeds it. The weights and their sums are `u32`. As long as the sum of
all weights fits, the loop is a walk over cumulative weights (`pickedPosition_eq_walk`), so that each
endpoint gets as many targets as its weight. Where it does not fit, there are fewer targets than the
weights add up to, and no loop can hand out that many (`sum_lt_of_shares`).
-/

set_option autoImplicit false

namespace AuraGateway.Router

open AuraGateway.Foundations.CumulativeWalk

namespace StrategySelector

variable (endpoints : List ProviderEndpoint)

/-- The range of the random target. -/
def totalWeight : Nat := (endpoints.map (·.weight)).sum % 2 ^ 32

/-- The position at which the loop of the weighted selection returns. -/
def pickedPosition (target : Nat) : Nat → List ProviderEndpoint → Option Nat
  | _, [] => none
  | cumulative, e :: rest =>
      let cumulative := (cumulative + e.weight) % 2 ^ 32
      if target < cumulative then some 0 else (pickedPosition target cumulative rest).map (· + 1)

/-- The targets are divided among the endpoints by their weights. -/
structure SplitByWeight : Prop where
  /-- Each endpoint has as many targets as its weight. -/
  shares : ∀ (i : Nat) (h : i < endpoints.length),
    ((Finset.range (totalWeight endpoints)).filter fun target =>
      pickedPosition target 0 endpoints = some i).card = endpoints[i].weight
  /-- The loop selects for every target, and never an endpoint of weight zero. -/
  selects : ∀ counter, ∀ target < totalWeight endpoints, ∃ i e,
    pickedPosition target 0 endpoints = some i ∧ endpoints[i]? = some e ∧ e.weight ≠ 0
      ∧ selectWeighted ⟨counter, target⟩ endpoints = some e
  /-- No sum of weights overflows. -/
  fits : ∀ i, ((endpoints.take i).map (·.weight)).sum < 2 ^ 32

variable {endpoints}

theorem pickWeighted_eq (target cumulative : Nat) :
    pickWeighted target cumulative endpoints
      = (pickedPosition target cumulative endpoints).bind (endpoints[·]?) := by
  induction endpoints generalizing cumulative with
  | nil => rfl
  | cons e rest ih =>
      rw [pickWeighted, pickedPosition]
      split
      · rfl
      · rw [ih, Option.bind_map]
        rfl

/-- Sums that fit do not wrap, so the loop walks over the cumulative weights. -/
theorem pickedPosition_eq_walk (target : Nat) {cumulative : Nat}
    (h : cumulative + (endpoints.map (·.weight)).sum < 2 ^ 32) :
    pickedPosition target cumulative endpoints
      = walk target cumulative (endpoints.map (·.weight)) := by
  induction endpoints generalizing cumulative with
  | nil => rfl
  | cons e rest ih =>
      rw [List.map_cons, List.sum_cons, ← Nat.add_assoc] at h
      have hwrap : (cumulative + e.weight) % 2 ^ 32 = cumulative + e.weight :=
        Nat.mod_eq_of_lt (lt_of_le_of_lt (Nat.le_add_right _ _) h)
      rw [List.map_cons, pickedPosition, walk, hwrap, ih h]

/-- Targets that are divided by the weights are as many as the weights add up to. -/
theorem sum_lt_of_shares
    (hshares : ∀ (i : Nat) (h : i < endpoints.length),
      ((Finset.range (totalWeight endpoints)).filter fun target =>
        pickedPosition target 0 endpoints = some i).card = endpoints[i].weight) :
    (endpoints.map (·.weight)).sum < 2 ^ 32 := by
  have hle : (endpoints.map (·.weight)).sum ≤ totalWeight endpoints := by
    refine sum_shares_le (fun target => pickedPosition target 0 endpoints) _ _ fun i h => ?_
    rw [List.getElem_map]
    exact hshares i ((List.length_map _).symm ▸ h)
  exact hle.trans_lt (Nat.mod_lt _ (by decide))

theorem shares_of_fits (h : (endpoints.map (·.weight)).sum < 2 ^ 32) (i : Nat)
    (hi : i < endpoints.length) :
    ((Finset.range (totalWeight endpoints)).filter fun target =>
      pickedPosition target 0 endpoints = some i).card = endpoints[i].weight := by
  have hlength : i < (endpoints.map (·.weight)).length := by
    rw [List.length_map]
    exact hi
  have hcard := card_walk _ hlength
  rw [List.getElem_map] at hcard
  have hfits : 0 + (endpoints.map (·.weight)).sum < 2 ^ 32 := by
    rw [Nat.zero_add]
    exact h
  rw [totalWeight, Nat.mod_eq_of_lt h, ← hcard]
  refine congrArg Finset.card (Finset.filter_congr fun target _ => ?_)
  rw [pickedPosition_eq_walk target hfits]

/-- A target below the total belongs to an endpoint with a weight. -/
theorem selects_of_fits (h : (endpoints.map (·.weight)).sum < 2 ^ 32) (counter : Nat) {target : Nat}
    (ht : target < totalWeight endpoints) : ∃ i e,
      pickedPosition target 0 endpoints = some i ∧ endpoints[i]? = some e ∧ e.weight ≠ 0
        ∧ selectWeighted ⟨counter, target⟩ endpoints = some e := by
  have hfits : 0 + (endpoints.map (·.weight)).sum < 2 ^ 32 := by
    rw [Nat.zero_add]
    exact h
  have hwalk := pickedPosition_eq_walk target hfits
  have hreached : (walk target 0 (endpoints.map (·.weight))).isSome = true := by
    rw [walk_isSome_iff target.zero_le, Nat.zero_add]
    rw [totalWeight, Nat.mod_eq_of_lt h] at ht
    exact ht
  obtain ⟨i, hi⟩ := Option.isSome_iff_exists.mp hreached
  obtain ⟨hlength, hfrom, hto⟩ := (walk_eq_some_iff target.zero_le _ i).mp hi
  have hpos := sum_take_succ _ hlength
  rw [List.getElem_map] at hpos
  rw [List.length_map] at hlength
  have hget : endpoints[i]? = some endpoints[i] := List.getElem?_eq_getElem hlength
  have hpick : pickWeighted target 0 endpoints = some endpoints[i] := by
    rw [pickWeighted_eq, hwalk, hi]
    exact hget
  refine ⟨i, endpoints[i], hwalk.trans hi, hget, ?_, ?_⟩
  · -- the sums on both sides of the target differ by the weight
    intro hzero
    omega
  · have hmod : target % totalWeight endpoints = target := Nat.mod_eq_of_lt ht
    have hne : totalWeight endpoints ≠ 0 := Nat.ne_of_gt (Nat.zero_lt_of_lt ht)
    rw [totalWeight] at hmod hne
    simp only [selectWeighted, if_neg hne, hmod, hpick, Option.some_or]

/-- The targets are divided among the endpoints by their weights exactly when the sum of the weights
fits in 32 bits. -/
theorem splitByWeight_iff (endpoints : List ProviderEndpoint) :
    SplitByWeight endpoints ↔ (endpoints.map (·.weight)).sum < 2 ^ 32 := by
  constructor
  · intro h
    exact sum_lt_of_shares h.shares
  · intro h
    refine ⟨shares_of_fits h, fun counter target ht => selects_of_fits h counter ht, fun i => ?_⟩
    rw [List.map_take]
    exact (sum_take_le _ i).trans_lt h

end StrategySelector

namespace Sample

def anyProvider : ListedProvider := { name := "openai", supportsModel := fun _ => true, models := [] }

def weighing (id : String) (weight : Nat) : ProviderEndpoint :=
  { id := id, provider := anyProvider, weight := weight }

/-- Two weights whose sum is one more than 32 bits hold. -/
def heavyAndLight : List ProviderEndpoint := [weighing "heavy" 4294967295, weighing "light" 2]

end Sample

/-- One target is left for both endpoints, and the first one has it. -/
theorem light_endpoint_never_selected :
    StrategySelector.totalWeight Sample.heavyAndLight = 1
      ∧ ((StrategySelector.selectWeighted ⟨0, 0⟩ Sample.heavyAndLight).map (·.id)) = some "heavy"
      ∧ ¬ StrategySelector.SplitByWeight Sample.heavyAndLight := by
  refine ⟨by decide, by decide, fun h => ?_⟩
  have hshare := h.shares 1 (by decide)
  exact absurd hshare (by decide)

end AuraGateway.Router
