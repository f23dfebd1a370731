import AuraGateway.Foundations.SaturatingSums
import AuraGateway.Validation.Fanout

/-!
# The usage of a fan-out

The usage that a fan-out attaches to its answer is added up over the candidates that completed
(`usage_of_runFanout`). A candidate that returned a response of another status was paid for as
well and is left out, and so are the reasoning tokens of all candidates. The usage is the sum
over all candidates that returned a response exactly when what is left out does not count
(`usage_honest_iff`).
-/

set_option autoImplicit false

namespace AuraGateway.Validation

open AuraGateway.Types AuraGateway.JsStd AuraGateway.Foundations.SaturatingSums
open AuraGateway.Provider (HashOrder)

/-! ## Which usages are counted -/

section Usages

variable {ε : Type}

/-- The candidates that returned a response. -/
def returned (results : List (Except ε Response)) : List Response :=
  results.filterMap Except.toOption

/-- The candidates whose usage is added up; a single call is not looked at. -/
def counted (n : Nat) (results : List (Except ε Response)) : List Response :=
  if n = 1 then returned results else (returned results).filter fun r => r.status = .completed

/-- The candidates that returned a response and are left out. -/
def skipped (n : Nat) (results : List (Except ε Response)) : List Response :=
  if n = 1 then [] else (returned results).filter fun r => !(r.status = .completed)

/-- The usages of some candidates, a default one for those that report none. -/
def usagesOf (responses : List Response) : List Usage :=
  responses.map fun r => r.usage.getD defaultUsage

/-- The sum of a field over some candidates. -/
def spent (field : Usage → Nat) (responses : List Response) : Nat :=
  ((usagesOf responses).map field).sum

/-- The costs that some candidates carry. -/
def costsOf (responses : List Response) : List Float :=
  (usagesOf responses).filterMap (·.costUsd)

/-- `u32::MAX`. -/
def u32Max : Nat := 2 ^ 32 - 1

def cachedOf (u : Usage) : Nat := u.cachedTokens.getD 0

def reasoningOf (u : Usage) : Nat := u.reasoningTokens.getD 0

/-- The usage is the sum of the usages of the candidates, field by field. -/
structure IsSumOf (responses : List Response) (u : Usage) : Prop where
  inputTokens : u.inputTokens = min (spent (·.inputTokens) responses) u32Max
  outputTokens : u.outputTokens = min (spent (·.outputTokens) responses) u32Max
  cachedTokens : cachedOf u = min (spent cachedOf responses) u32Max
  reasoningTokens : reasoningOf u = min (spent reasoningOf responses) u32Max
  costUsd : u.costUsd = totalCost (usagesOf responses)

/-- What is left out of a field does not count: it is zero, or the rest is at the maximum. -/
def FieldCounted (n : Nat) (results : List (Except ε Response)) (field : Usage → Nat) : Prop :=
  spent field (skipped n results) = 0 ∨ u32Max ≤ spent field (counted n results)

/-- What is left out of the costs does not count: there is nothing, or it is absorbed when the
costs are added up one after the other. -/
def CostCounted (n : Nat) (results : List (Except ε Response)) : Prop :=
  costsOf (skipped n results) = [] ∨
    costsOf (counted n results) ≠ [] ∧
      (costsOf (returned results)).foldl (· + ·) 0.0
        = (costsOf (counted n results)).foldl (· + ·) 0.0

variable (n : Nat) (results : List (Except ε Response))

/-- A field of all candidates is made up of what is counted and what is left out. -/
theorem spent_returned (field : Usage → Nat) :
    spent field (returned results)
      = spent field (counted n results) + spent field (skipped n results) := by
  simp only [counted, skipped]
  split
  · rfl
  · have hsum := sum_filter_add_sum_filter_not (fun r => field (r.usage.getD defaultUsage))
      (fun r => decide (r.status = .completed)) (returned results)
    simp only [spent, usagesOf, List.map_map]
    exact hsum.symm

theorem counted_eq_iff (field : Usage → Nat) :
    min (spent field (counted n results)) u32Max = min (spent field (returned results)) u32Max
      ↔ FieldCounted n results field := by
  rw [spent_returned n]
  exact min_add_eq_iff

theorem totalOf_eq (field : Usage → Nat) (responses : List Response) :
    totalOf field (usagesOf responses) = min (spent field responses) u32Max := by
  have h := foldl_satAdd field (usagesOf responses) (Nat.zero_le u32Max)
  rw [Nat.zero_add] at h
  exact h

/-- The cost that a candidate carries. -/
def costOf (r : Response) : Option Float := (r.usage.getD defaultUsage).costUsd

theorem costsOf_eq (responses : List Response) :
    costsOf responses = responses.filterMap costOf := by
  rw [costsOf, usagesOf, List.filterMap_map]
  rfl

/-- Costs are left out only with a candidate that carries one. -/
theorem costsOf_counted (h : costsOf (skipped n results) = []) :
    costsOf (counted n results) = costsOf (returned results) := by
  simp only [costsOf_eq, counted, skipped] at h ⊢
  split at h
  · rename_i hone
    rw [if_pos hone]
  · rename_i hone
    rw [if_neg hone, List.filterMap_filter]
    apply List.filterMap_congr
    intro r hr
    by_cases hcompleted : r.status = .completed
    · rw [if_pos (decide_eq_true hcompleted)]
    · rw [if_neg (by simpa using hcompleted)]
      have hskipped : r ∈ (returned results).filter fun r => !(r.status = .completed) :=
        List.mem_filter.mpr ⟨hr, by simpa using hcompleted⟩
      exact (List.filterMap_eq_nil_iff.mp h r hskipped).symm

/-- Every cost belongs to a candidate that is counted or to one that is left out. -/
theorem costsOf_skipped (h : costsOf (returned results) = []) :
    costsOf (skipped n results) = [] := by
  rw [costsOf_eq, List.filterMap_eq_nil_iff] at h ⊢
  intro r hr
  apply h
  simp only [skipped] at hr
  split at hr
  · exact nomatch hr
  · exact List.mem_of_mem_filter hr

theorem totalCost_eq (responses : List Response) :
    totalCost (usagesOf responses)
      = if costsOf responses = [] then none
        else some ((costsOf responses).foldl (· + ·) 0.0) := by
  simp only [totalCost, List.isEmpty_iff]
  rfl

theorem totalCost_eq_iff :
    totalCost (usagesOf (counted n results)) = totalCost (usagesOf (returned results))
      ↔ CostCounted n results := by
  rw [totalCost_eq, totalCost_eq]
  constructor
  · intro h
    by_cases hreturned : costsOf (returned results) = []
    · exact .inl (costsOf_skipped n results hreturned)
    · rw [if_neg hreturned] at h
      by_cases hcounted : costsOf (counted n results) = []
      · rw [if_pos hcounted] at h
        cases h
      · rw [if_neg hcounted] at h
        exact .inr ⟨hcounted, (Option.some.inj h).symm⟩
  · rintro (hskipped | ⟨hcounted, hsum⟩)
    · rw [costsOf_counted n results hskipped]
    · -- what is counted is part of what was returned
      have hreturned : costsOf (returned results) ≠ [] := by
        intro hnil
        apply hcounted
        rw [costsOf_counted n results (costsOf_skipped n results hnil), hnil]
      rw [if_neg hcounted, if_neg hreturned, hsum]

/-- What a fan-out adds up is the usage of all candidates exactly when nothing that counts is
left out, and none of them reports reasoning tokens. -/
theorem isSumOf_aggregate_iff :
    IsSumOf (returned results) (aggregateUsage (usagesOf (counted n results)))
      ↔ FieldCounted n results (·.inputTokens) ∧ FieldCounted n results (·.outputTokens)
        ∧ FieldCounted n results cachedOf
        ∧ (∀ r ∈ returned results, reasoningOf (r.usage.getD defaultUsage) = 0)
        ∧ CostCounted n results := by
  have hinput : (aggregateUsage (usagesOf (counted n results))).inputTokens
      = min (spent (·.inputTokens) (counted n results)) u32Max := totalOf_eq _ _
  have houtput : (aggregateUsage (usagesOf (counted n results))).outputTokens
      = min (spent (·.outputTokens) (counted n results)) u32Max := totalOf_eq _ _
  have hcached : cachedOf (aggregateUsage (usagesOf (counted n results)))
      = min (spent cachedOf (counted n results)) u32Max := by
    rw [← totalOf_eq]
    show Option.getD (if 0 < totalOf cachedOf _ then some (totalOf cachedOf _) else none) 0 = _
    split
    · rfl
    · rename_i hzero
      exact (Nat.eq_zero_of_not_pos hzero).symm
  have hreasoning : 0 = min (spent reasoningOf (returned results)) u32Max
      ↔ ∀ r ∈ returned results, reasoningOf (r.usage.getD defaultUsage) = 0 := by
    have hzero : 0 = min (spent reasoningOf (returned results)) u32Max
        ↔ spent reasoningOf (returned results) = 0 := by
      simp only [u32Max]
      omega
    rw [hzero, spent, usagesOf, List.map_map, List.sum_eq_zero_iff]
    simp
  rw [← counted_eq_iff, ← counted_eq_iff, ← counted_eq_iff, ← hreasoning, ← totalCost_eq_iff,
    ← hinput, ← houtput, ← hcached]
  constructor
  · intro h
    exact ⟨h.inputTokens, h.outputTokens, h.cachedTokens, h.reasoningTokens, h.costUsd⟩
  · rintro ⟨hinput, houtput, hcached, hreasoning, hcost⟩
    exact ⟨hinput, houtput, hcached, hreasoning, hcost⟩

end Usages

/-! ## The usage that is attached -/

section Run

variable {ε : Type} {table : CaseTable} {order : HashOrder (String × List Nat)}
  {internal : String → ε} {complete : Nat → CreateResponseRequest → Except ε Response}
  {request : CreateResponseRequest} {n : Nat} {selector : FanoutSelector} {response : Response}

theorem filterMap_completedResponse (results : List (Except ε Response)) :
    results.filterMap completedResponse
      = (returned results).filter fun r => r.status = .completed := by
  rw [returned, List.filter_filterMap]
  apply List.filterMap_congr
  intro result _
  cases result with
  | ok r =>
      by_cases hcompleted : r.status = .completed
      · simp [completedResponse, Except.toOption, Option.filter, hcompleted]
      · simp [completedResponse, Except.toOption, Option.filter, hcompleted]
  | error e => rfl

/-- A fan-out that succeeds attaches the usage of the candidates that are counted. -/
theorem usage_of_runFanout
    (h : runFanout table order internal complete request n selector = some (.ok response)) :
    response.usage
      = some (aggregateUsage (usagesOf (counted n (fired complete request n)))) := by
  by_cases hrange : n = 0 ∨ maxN < n
  · rw [runFanout, if_pos hrange] at h
    cases Option.some.inj h
  · by_cases hone : n = 1
    · subst hone
      rw [runFanout, if_neg hrange, if_pos rfl] at h
      split at h
      · cases Option.some.inj h
      · rename_i r hcomplete
        obtain rfl := Except.ok.inj (Option.some.inj h)
        -- the only candidate
        have hfired : fired complete request 1 = [.ok r] := by
          rw [← hcomplete]
          rfl
        rw [hfired]
        rfl
    · simp only [maxN, not_or, not_lt] at hrange
      rcases runFanout_eq table order internal complete request selector
          (show 2 ≤ n by omega) hrange.2 with
        ⟨index, reason, winner, -, -, -, heq⟩ | ⟨-, heq⟩
      · rw [heq] at h
        obtain rfl := Except.ok.inj (Option.some.inj h)
        rw [counted, if_neg hone, ← filterMap_completedResponse]
        rfl
      · rw [heq] at h
        cases Option.some.inj h

/-- The usage that a fan-out attaches is the sum over all candidates that returned a response
exactly when nothing that counts is left out: in no field the tokens of candidates that did not
complete, nor their costs, nor any reasoning tokens. -/
theorem usage_honest_iff
    (h : runFanout table order internal complete request n selector = some (.ok response)) :
    (∃ u, response.usage = some u ∧ IsSumOf (returned (fired complete request n)) u)
      ↔ FieldCounted n (fired complete request n) (·.inputTokens)
        ∧ FieldCounted n (fired complete request n) (·.outputTokens)
        ∧ FieldCounted n (fired complete request n) cachedOf
        ∧ (∀ r ∈ returned (fired complete request n),
            reasoningOf (r.usage.getD defaultUsage) = 0)
        ∧ CostCounted n (fired complete request n) := by
  rw [← isSumOf_aggregate_iff, usage_of_runFanout h]
  constructor
  · rintro ⟨u, hu, hsum⟩
    obtain rfl := Option.some.inj hu
    exact hsum
  · intro hsum
    exact ⟨_, rfl, hsum⟩

end Run

/-! ### A candidate that was cut off -/

namespace Sample

/-- An answer that is paid for. -/
def priced (r : Response) : Response := { r with usage := some (.new 10 20) }

/-- The second candidate is cut off by the token limit. -/
def secondCut (i : Nat) (_ : CreateResponseRequest) : Except String Response :=
  .ok (if i = 0 then priced (answer "resp_a" "42")
    else { priced (answer "resp_b" "6 * 7 is") with status := .incomplete })

end Sample

open Sample in
/-- The ten input tokens of the second candidate are not accounted for. -/
theorem cut_candidate_not_counted :
    spent (·.inputTokens) (returned (fired secondCut (.text "gpt-4o" "6 * 7?") 2)) = 20
      ∧ ∃ response u, run secondCut = some (.ok response)
        ∧ response.usage = some u ∧ u.inputTokens = 10
        ∧ ¬ IsSumOf (returned (fired secondCut (.text "gpt-4o" "6 * 7?") 2)) u := by
  refine ⟨rfl, _, _, rfl, rfl, rfl, ?_⟩
  intro h
  have hinput := h.inputTokens
  revert hinput
  decide

open Sample in
theorem usage_honest_sample :
    ∃ response, run bothAnswer = some (.ok response)
      ∧ ∃ u, response.usage = some u
        ∧ IsSumOf (returned (fired bothAnswer (.text "gpt-4o" "6 * 7?") 2)) u := by
  obtain ⟨response, hrun⟩ : ∃ response, run bothAnswer = some (.ok response) := ⟨_, rfl⟩
  refine ⟨response, hrun, (usage_honest_iff hrun).mpr ⟨.inl rfl, .inl rfl, .inl rfl, ?_, .inl rfl⟩⟩
  decide

end AuraGateway.Validation
