import AuraGateway.Foundations.FloatOrder
import AuraGateway.Router.TierPolicy

/-!
# The organization's request budget

An organization's `max_cost_usd` is merged with the request's by taking the smaller
one. `org_budget_kept_iff` says exactly when the merged budget keeps every choice of
the router at or below the organization's budget `b` while a model within `b` is
available: a tool loop must not keep a model above it, and where the merged budget
is void or admits nothing, the first tier with an eligible model must hold no
eligible model above `b`. `org_budget_in_force` is the case in which the request does
not lower the budget.
-/

set_option autoImplicit false

namespace AuraGateway.Router

open AuraGateway.RustStd AuraGateway.Types AuraGateway.Foundations.FirstMatch
open AuraGateway.Foundations.FloatOrder

/-! ## Any eligible model can come up -/

section Rotation

variable {cat : TierCatalog} {oracle : Eligibility} {t : Tier} {m : String}

/-- The round-robin pick is the candidate the counter points at. -/
theorem exists_pick_roundRobin (draws : Draws) (oracle : Eligibility) (t : Tier)
    {eligible : List (CandidateInfo × Nat)} {i : Nat} (hi : i < eligible.length)
    (hd : draws.rrCounter = i) :
    ∃ why, pick .roundRobin draws oracle t eligible = some (eligible[i].1.model, why) := by
  cases eligible with
  | nil => exact absurd hi (Nat.not_lt_zero i)
  | cons head rest =>
      simp only [pick]
      rw [hd, Nat.mod_eq_of_lt hi, List.getElem?_eq_getElem hi, Option.getD_some]
      exact ⟨_, rfl⟩

theorem exists_selectWithin_model (hrr : cat.strategy = .roundRobin)
    (hs : SomeEligible cat.tiers oracle t) (hm : m ∈ cat.tiers.get t)
    (he : oracle.isEligible m = .ok true) :
    ∃ n, ∀ draws : Draws, draws.rrCounter = n →
      ∃ looked why, cat.selectWithin draws t oracle = .ok (looked, some (m, why)) := by
  obtain ⟨cs, hcs⟩ := exists_lookAtAll (t := t) hs.1
  obtain ⟨hinfo, hall⟩ := lookAtAll_eq_ok hcs
  obtain ⟨c, hc, rfl⟩ := hall m hm
  have hce : c.eligible = true := by
    have h := (hinfo c hc).2.1
    rw [he] at h
    injection h with h
    exact h.symm
  obtain ⟨k, hk⟩ := exists_mem_eligible hc hce
  -- the counter that points at the candidate's place among the eligible ones
  obtain ⟨i, hi, hik⟩ := List.mem_iff_getElem.mp hk
  refine ⟨i, ?_⟩
  intro draws hdraws
  unfold TierCatalog.selectWithin
  rw [hcs, checked_ok_bind, hrr]
  obtain ⟨why, hw⟩ := exists_pick_roundRobin draws oracle t hi hdraws
  dsimp only
  rw [hw, hik]
  exact ⟨cs, why, rfl⟩

/-- Under round robin, every eligible model of the first tier is selected for some
value of the counter. -/
theorem exists_searchTiers_model (hrr : cat.strategy = .roundRobin) {order : List Tier}
    (hf : FirstIn (SomeEligible cat.tiers oracle) (NoneEligible cat.tiers oracle) order t)
    (hm : m ∈ cat.tiers.get t) (he : oracle.isEligible m = .ok true) :
    ∃ n, ∀ (draws : Draws) (tier : Tier) (seen : List CandidateInfo), draws.rrCounter = n →
      ∃ sel, cat.searchTiers draws oracle tier order seen = .ok (some sel) ∧ sel.model = m := by
  induction order with
  | nil => exact absurd hf not_firstIn_nil
  | cons a rest ih =>
      rcases firstIn_cons.mp hf with ⟨rfl, hs⟩ | ⟨hn, hrest⟩
      · obtain ⟨n, hw⟩ := exists_selectWithin_model hrr hs hm he
        refine ⟨n, ?_⟩
        intro draws tier seen hdraws
        obtain ⟨looked, why, hw⟩ := hw draws hdraws
        simp only [TierCatalog.searchTiers]
        rw [hw]
        exact ⟨_, rfl, rfl⟩
      · obtain ⟨n, hw⟩ := ih hrest
        refine ⟨n, ?_⟩
        intro draws tier seen hdraws
        obtain ⟨looked, hnone⟩ := selectWithin_of_noneEligible draws hn
        simp only [TierCatalog.searchTiers]
        rw [hnone]
        exact hw draws tier _ hdraws

end Rotation

/-! ## Searches with a budget -/

/-- Some searched model is eligible and predicted to cost at most `b`. -/
def CheapAmong (tiers : TierModels) (order : List Tier) (base : Eligibility) (b : Float) : Prop :=
  ∃ t ∈ order, ∃ m ∈ tiers.get t, base.isEligible m = .ok true ∧
    ∃ c, base.predictedCostUsd m = some c ∧ c ≤ b

/-- The search runs without a budget: there is none, or no searched model is within it. -/
def BudgetVoid (tiers : TierModels) (order : List Tier) (base : Eligibility)
    (budget : Option Float) : Prop :=
  ∀ limit ∈ budget, ∀ t ∈ order, NoneEligible tiers (budgetOracle base limit) t

/-- When the search runs without a budget, every eligible model of the tier it selects
from is predicted to cost at most `b`, or its cost is unknown. -/
def CheapWhenVoid (tiers : TierModels) (order : List Tier) (base : Eligibility)
    (budget : Option Float) (b : Float) : Prop :=
  BudgetVoid tiers order base budget → ∀ t,
    FirstIn (SomeEligible tiers base) (NoneEligible tiers base) order t →
    ∀ m ∈ tiers.get t, base.isEligible m = .ok true →
      exceeds b (base.predictedCostUsd m) = false

section Search

variable {tiers : TierModels} {order : List Tier} {base o : Eligibility}
  {budget : Option Float} {b : Float}

theorem exceeds_mono {limit : Float} (h : ∀ c, b < c → limit < c) {cost : Option Float}
    (hc : exceeds limit cost = false) : exceeds b cost = false := by
  cases cost with
  | none => rfl
  | some c =>
      simp only [exceeds, decide_eq_false_iff_not] at hc ⊢
      exact fun hb => hc (h c hb)

/-- A budget of at most `b` selects nothing above `b`, provided the search without the
budget does not. -/
theorem selected_not_exceeds (hle : ∀ limit ∈ budget, ∀ c, b < c → limit < c)
    (hvoid : CheapWhenVoid tiers order base budget b)
    (ho : ThroughBudget tiers order base budget o) {sel : TierSelection}
    (hs : Selected tiers o order sel) : exceeds b (base.predictedCostUsd sel.model) = false := by
  rcases ho.void_or_limited with ⟨rfl, hv⟩ | ⟨limit, hb, rfl⟩
  · exact hvoid hv sel.tier hs.first sel.model hs.listed hs.eligible
  · have hc := (budgetOracle_eligible_iff.mp hs.eligible).1
    exact exceeds_mono (hle limit hb) hc

/-- With a model within the budget `b` available, a search with that budget is never
run without it. -/
theorem cheapWhenVoid_of_budget (hb : budget = some b)
    (hcheap : CheapAmong tiers order base b) : CheapWhenVoid tiers order base budget b := by
  intro hv
  obtain ⟨t, ht, m, hm, he, c, hc, hle⟩ := hcheap
  have hin : (budgetOracle base b).isEligible m = .ok true := by
    apply budgetOracle_eligible_iff.mpr
    refine ⟨?_, he⟩
    rw [hc]
    simpa [exceeds] using float_not_lt_of_le hle
  -- a search without the budget has refused the cheap model under it
  rw [hv b hb t ht m hm] at hin
  cases hin

end Search

/-! ## The merged budget -/

section Merged

variable (org : OrgAutoRoutingOverride) (options : Option RoutingOptions)
  (aliasMode : Option RoutingMode) {b : Float}

/-- The merged budget, when positive, is at most the organization's. -/
theorem budgetOf_merged_le (hb : org.maxCostUsd = some b) (hpos : 0 < b) :
    ∀ limit ∈ AutoRouter.budgetOf (some (org.mergedWith options aliasMode)),
      ∀ c, b < c → limit < c := by
  intro limit hl c hc
  obtain ⟨merged, hm, hle⟩ := mergedWith_maxCost_of_org org options aliasMode hb
    (not_isNaN_of_lt hpos).2
  rw [Option.mem_def, AutoRouter.budgetOf, Option.bind_some, hm] at hl
  obtain ⟨e, -⟩ := Option.filter_eq_some_iff.mp hl
  obtain rfl := Option.some.inj e
  exact float_lt_of_le_of_lt hle hc

/-- A request without a budget, or whose budget is `NaN` or at least the
organization's, leaves the organization's in force. -/
theorem budgetOf_merged_eq (hb : org.maxCostUsd = some b) (hpos : 0 < b)
    (ha : ∀ a ∈ (options.getD {}).maxCostUsd, a.isNaN = true ∨ b < a ∨ a = b) :
    AutoRouter.budgetOf (some (org.mergedWith options aliasMode)) = some b := by
  have hnan := (not_isNaN_of_lt hpos).2
  have hm : (org.mergedWith options aliasMode).maxCostUsd = some b := by
    show mergeBound f64Min (options.getD {}).maxCostUsd org.maxCostUsd = some b
    rw [hb]
    cases hopt : (options.getD {}).maxCostUsd with
    | none => rfl
    | some a =>
        show some (f64Min a b) = some b
        simp only [f64Min]
        rcases ha a hopt with h | h | rfl
        · rw [if_pos h]
        · have hna := (not_isNaN_of_lt h).2
          rw [hna, hnan, if_neg Bool.false_ne_true, if_neg Bool.false_ne_true, if_pos h]
        · rw [hnan, if_neg Bool.false_ne_true, if_neg Bool.false_ne_true, ite_self]
  simp only [AutoRouter.budgetOf]
  rw [Option.bind_some, hm]
  exact if_pos (by simpa using hpos)

end Merged

/-! ## The law and its exact condition -/

/-- The router with another within-tier strategy. -/
def AutoRouter.withStrategy (r : AutoRouter) (s : WithinTierStrategy) : AutoRouter :=
  { r with config := { r.config with withinTier := s } }

/-- With a model within `b` available, a decision names no model predicted above `b`. -/
def DecideKeeps (r : AutoRouter) (env : DecisionEnv) (request : CreateResponseRequest)
    (ctx : DecisionContext) (oracle : Eligibility) (ov : Option ClassifierOverride) (b : Float) :
    Prop :=
  ∀ d, r.decideWithOverride env request ctx oracle ov = .ok (.ok d) →
    CheapAmong r.config.tiers (searched r request ctx ov) (filteredOracle oracle ctx.options) b →
    exceeds b (oracle.predictedCostUsd d.selected) = false

/-- With an untried model within `b` available, the next candidate is not predicted
above `b`. -/
def NextKeeps (r : AutoRouter) (env : DecisionEnv) (d : AutoDecision)
    (options : Option RoutingOptions) (oracle : Eligibility) (exclude : List String) (b : Float) :
    Prop :=
  ∀ sel, r.nextCandidate env d options oracle exclude = .ok (some sel) →
    CheapAmong r.config.tiers (escalationOrder d options) (untried oracle options exclude) b →
    exceeds b (oracle.predictedCostUsd sel.model) = false

section Strategy

variable {r : AutoRouter} {request : CreateResponseRequest} {ctx : DecisionContext}
  {ov : Option ClassifierOverride} {oracle : Eligibility} (s : WithinTierStrategy)

theorem stickyKept_withStrategy {prev : String} {t : Tier} :
    StickyKept (r.withStrategy s) request ctx ov oracle prev t ↔
      StickyKept r request ctx ov oracle prev t :=
  ⟨fun h => ⟨h.enabled, h.loop, h.previous, h.admissible, h.listed, h.strong, h.within⟩,
    fun h => ⟨h.enabled, h.loop, h.previous, h.admissible, h.listed, h.strong, h.within⟩⟩

theorem stickyDeclined_withStrategy :
    StickyDeclined (r.withStrategy s) request ctx ov oracle ↔
      StickyDeclined r request ctx ov oracle := by
  simp only [StickyDeclined]
  simp only [stickyKept_withStrategy]
  exact Iff.rfl

end Strategy

/-- Draws with the round-robin counter at `n`. -/
def rotatedTo (n : Nat) : DecisionEnv :=
  { budgeted := ⟨n, fun _ _ => 0⟩, unbudgeted := ⟨n, fun _ _ => 0⟩, elapsedUs := 0 }

section Law

variable {r : AutoRouter} {request : CreateResponseRequest} {ctx : DecisionContext}
  {ov : Option ClassifierOverride} {oracle : Eligibility} {b : Float}

/-- Under round robin a decision without a budget reaches every eligible model of the
first tier. -/
theorem exists_decide_model (hp : Proceeds r ctx) (hno : StickyDeclined r request ctx ov oracle)
    (hv : BudgetVoid r.config.tiers (searched r request ctx ov)
      (filteredOracle oracle ctx.options) (AutoRouter.budgetOf ctx.options))
    {t : Tier} (hf : FirstIn (SomeEligible r.config.tiers (filteredOracle oracle ctx.options))
      (NoneEligible r.config.tiers (filteredOracle oracle ctx.options))
      (searched r request ctx ov) t)
    {m : String} (hm : m ∈ r.config.tiers.get t)
    (he : (filteredOracle oracle ctx.options).isEligible m = .ok true) :
    ∃ env d, (r.withStrategy .roundRobin).decideWithOverride env request ctx oracle ov
      = .ok (.ok d) ∧ d.selected = m := by
  have hrr : (r.withStrategy .roundRobin).catalog.strategy = .roundRobin := rfl
  obtain ⟨n, hn⟩ := exists_searchTiers_model hrr hf hm he
  -- the draws are free, so the counter may point at the model
  refine ⟨rotatedTo n, ?_⟩
  obtain ⟨sel, hsel, rfl⟩ := hn (rotatedTo n).unbudgeted (r.prepare request ctx ov).tier [] rfl
  obtain ⟨note, hnote⟩ := selectWithBudget_of_void (r := r.withStrategy .roundRobin) hv hsel
  have hp' : Proceeds (r.withStrategy .roundRobin) ctx := hp
  have hno' := (stickyDeclined_withStrategy .roundRobin).mpr hno
  exact ⟨_, decide_of_select hp' hno' hnote, rfl⟩

/-- Without a budget that admits an untried model, the next candidate is the one
selected without the budget. -/
theorem nextCandidate_of_void {env : DecisionEnv} {d : AutoDecision}
    {options : Option RoutingOptions} {exclude : List String}
    (hv : BudgetVoid r.config.tiers (escalationOrder d options) (untried oracle options exclude)
      (AutoRouter.budgetOf options)) :
    r.nextCandidate env d options oracle exclude
      = r.catalog.select env.unbudgeted d.tier d.tier (AutoRouter.escalationMaxTier d options)
          (untried oracle options exclude) := by
  simp only [AutoRouter.nextCandidate]
  cases hb : AutoRouter.budgetOf options with
  | none => rfl
  | some limit =>
      have hnone : r.catalog.select env.budgeted d.tier d.tier
          (AutoRouter.escalationMaxTier d options)
          (budgetOracle (untried oracle options exclude) limit) = .ok none :=
        select_eq_none_iff.mpr (hv limit hb)
      dsimp only
      rw [show excludingOracle (filteredOracle oracle options) exclude
        = untried oracle options exclude from rfl, hnone, checked_ok_bind]

/-- Under round robin an escalation without a budget reaches every untried eligible
model of the first tier. -/
theorem exists_nextCandidate_model {d : AutoDecision} {options : Option RoutingOptions}
    {exclude : List String}
    (hv : BudgetVoid r.config.tiers (escalationOrder d options) (untried oracle options exclude)
      (AutoRouter.budgetOf options))
    {t : Tier} (hf : FirstIn (SomeEligible r.config.tiers (untried oracle options exclude))
      (NoneEligible r.config.tiers (untried oracle options exclude))
      (escalationOrder d options) t)
    {m : String} (hm : m ∈ r.config.tiers.get t)
    (he : (untried oracle options exclude).isEligible m = .ok true) :
    ∃ env sel, (r.withStrategy .roundRobin).nextCandidate env d options oracle exclude
      = .ok (some sel) ∧ sel.model = m := by
  have hrr : (r.withStrategy .roundRobin).catalog.strategy = .roundRobin := rfl
  obtain ⟨n, hn⟩ := exists_searchTiers_model hrr hf hm he
  obtain ⟨sel, hsel, hmodel⟩ := hn (rotatedTo n).unbudgeted d.tier [] rfl
  refine ⟨rotatedTo n, sel, ?_, hmodel⟩
  rw [nextCandidate_of_void (r := r.withStrategy .roundRobin) hv]
  exact hsel

/-- Decisions keep the budget `b`, whatever the within-tier strategy and the draws,
exactly when no kept model is above it and the search without a budget is not either. -/
theorem decideKeeps_iff (hle : ∀ limit ∈ AutoRouter.budgetOf ctx.options, ∀ c, b < c → limit < c) :
    (∀ s env, DecideKeeps (r.withStrategy s) env request ctx oracle ov b) ↔
      (Proceeds r ctx →
        CheapAmong r.config.tiers (searched r request ctx ov)
          (filteredOracle oracle ctx.options) b →
        (∀ prev t, StickyKept r request ctx ov oracle prev t →
          exceeds b (oracle.predictedCostUsd prev) = false) ∧
        (StickyDeclined r request ctx ov oracle →
          CheapWhenVoid r.config.tiers (searched r request ctx ov)
            (filteredOracle oracle ctx.options) (AutoRouter.budgetOf ctx.options) b)) := by
  constructor
  · intro h hp hcheap
    -- every eligible model of the tier comes up for some counter under round robin
    constructor
    · intro prev t hk
      have hk' := (stickyKept_withStrategy r.config.withinTier).mpr hk
      exact h r.config.withinTier (rotatedTo 0) _ (decide_of_sticky hp hk') hcheap
    · intro hno hv t hf m hm he
      obtain ⟨env, d, hd, rfl⟩ := exists_decide_model hp hno hv hf hm he
      exact h .roundRobin env d hd hcheap
  · intro h s env d hd hcheap
    have hp : Proceeds (r.withStrategy s) ctx := proceeds_of_decide hd
    obtain ⟨hsticky, hvoid⟩ := h hp hcheap
    rcases decide_cases hd with ⟨prev, t, hk, rfl⟩ | ⟨hno, sel, note, o, draws, hs, rfl⟩
    · exact hsticky prev t ((stickyKept_withStrategy s).mp hk)
    · have hno' := (stickyDeclined_withStrategy s).mp hno
      exact selected_not_exceeds hle (hvoid hno') hs.inForce hs.selected

/-- The same for the next candidate of an escalation. -/
theorem nextKeeps_iff {d : AutoDecision} {options : Option RoutingOptions}
    {exclude : List String}
    (hle : ∀ limit ∈ AutoRouter.budgetOf options, ∀ c, b < c → limit < c) :
    (∀ s env, NextKeeps (r.withStrategy s) env d options oracle exclude b) ↔
      (CheapAmong r.config.tiers (escalationOrder d options) (untried oracle options exclude) b →
        CheapWhenVoid r.config.tiers (escalationOrder d options)
          (untried oracle options exclude) (AutoRouter.budgetOf options) b) := by
  constructor
  · intro h hcheap hv t hf m hm he
    obtain ⟨env, sel, hsel, rfl⟩ := exists_nextCandidate_model hv hf hm he
    exact h .roundRobin env sel hsel hcheap
  · intro h s env sel hsel hcheap
    obtain ⟨o, ho, hs⟩ := nextCandidate_through hsel
    exact selected_not_exceeds hle (h hcheap) ho hs

end Law

section Org

variable (org : OrgAutoRoutingOverride) (options : Option RoutingOptions)
  (aliasMode : Option RoutingMode) {b : Float}

/-- A request that does not lower the budget leaves no search without it while a
model within the organization's budget is available. -/
theorem org_budget_in_force {tiers : TierModels} {order : List Tier} {base : Eligibility}
    (hb : org.maxCostUsd = some b) (hpos : 0 < b)
    (ha : ∀ a ∈ (options.getD {}).maxCostUsd, a.isNaN = true ∨ b < a ∨ a = b)
    (hcheap : CheapAmong tiers order base b) :
    CheapWhenVoid tiers order base
      (AutoRouter.budgetOf (mergedOptions org options aliasMode)) b :=
  cheapWhenVoid_of_budget (budgetOf_merged_eq org options aliasMode hb hpos ha) hcheap

/-- The organization's budget `b` under the merged options. Whatever the within-tier
strategy and the draws, decisions and next candidates stay within `b` while a model
within `b` is available, exactly when a tool loop keeps no model above `b` and a
search that runs without a budget finds nothing above `b` in the tier it selects from. -/
theorem org_budget_kept_iff (r : AutoRouter) (request : CreateResponseRequest)
    (ctx : DecisionContext) (ov : Option ClassifierOverride) (oracle next : Eligibility)
    (d : AutoDecision) (exclude : List String) (hb : org.maxCostUsd = some b) (hpos : 0 < b)
    (hctx : ctx.options = mergedOptions org options aliasMode) :
    (∀ s env, DecideKeeps (r.withStrategy s) env request ctx oracle ov b ∧
        NextKeeps (r.withStrategy s) env d ctx.options next exclude b) ↔
      (Proceeds r ctx →
        CheapAmong r.config.tiers (searched r request ctx ov)
          (filteredOracle oracle ctx.options) b →
        (∀ prev t, StickyKept r request ctx ov oracle prev t →
          exceeds b (oracle.predictedCostUsd prev) = false) ∧
        (StickyDeclined r request ctx ov oracle →
          CheapWhenVoid r.config.tiers (searched r request ctx ov)
            (filteredOracle oracle ctx.options) (AutoRouter.budgetOf ctx.options) b)) ∧
      (CheapAmong r.config.tiers (escalationOrder d ctx.options)
          (untried next ctx.options exclude) b →
        CheapWhenVoid r.config.tiers (escalationOrder d ctx.options)
          (untried next ctx.options exclude) (AutoRouter.budgetOf ctx.options) b) := by
  have hle : ∀ limit ∈ AutoRouter.budgetOf ctx.options, ∀ c, b < c → limit < c := by
    rw [hctx]
    exact budgetOf_merged_le org options aliasMode hb hpos
  rw [← decideKeeps_iff hle, ← nextKeeps_iff hle]
  constructor
  · intro h
    exact ⟨fun s env => (h s env).1, fun s env => (h s env).2⟩
  · intro h s env
    exact ⟨h.1 s env, h.2 s env⟩

end Org

namespace Sample

/-- `m` costs 2, everything else 0.5. -/
def priced : Eligibility :=
  { oracle with predictedCostUsd := fun m => some (if m == "m" then 2 else 0.5) }

/-- An organization with a budget of 1. -/
def budgetOrg : OrgAutoRoutingOverride := { maxCostUsd := some 1 }

/-- The sample context with the options merged for an organization. -/
def contextFor (org : OrgAutoRoutingOverride) (options : Option RoutingOptions) :
    DecisionContext :=
  { context with options := mergedOptions org options none }

end Sample

/-- A request without a budget stays within the sample organization's. -/
theorem org_budget_kept_sample :
    DecideKeeps (Sample.router.withStrategy .cheapest) Sample.env Sample.request
      (Sample.contextFor Sample.budgetOrg none) Sample.priced (Sample.forced .medium) 1 := by
  have hno : ∀ prev t, ¬ StickyKept Sample.router Sample.request
      (Sample.contextFor Sample.budgetOrg none) (Sample.forced .medium) Sample.priced prev t := by
    intro prev t hk
    exact absurd hk.previous (by simp [Sample.contextFor, Sample.context])
  have hkeep := (org_budget_kept_iff Sample.budgetOrg none none Sample.router Sample.request
    (Sample.contextFor Sample.budgetOrg none) (Sample.forced .medium) Sample.priced Sample.priced
    (AutoRouter.stickyDecision Sample.router Sample.env Sample.context Sample.priced
      (Sample.router.prepare Sample.request Sample.context none) "m" .medium) []
    (b := 1) rfl (by decide) rfl).mpr
  refine (hkeep ⟨?_, ?_⟩ .cheapest Sample.env).1
  · intro _ hcheap
    refine ⟨fun prev t hk => absurd hk (hno prev t), fun _ => ?_⟩
    exact org_budget_in_force _ _ _ rfl (by decide) (by simp) hcheap
  · exact org_budget_in_force _ _ _ rfl (by decide) (by simp)

/-- A request budget of 0 voids the organization's budget of 1: `n` costs 0.5, and the
sample gateway decides for `m`, which costs 2. -/
theorem org_budget_broken :
    CheapAmong Sample.router.config.tiers
        (searched Sample.router Sample.request
          (Sample.contextFor Sample.budgetOrg (some { maxCostUsd := some 0 }))
          (Sample.forced .medium))
        (filteredOracle Sample.priced
          (Sample.contextFor Sample.budgetOrg (some { maxCostUsd := some 0 })).options) 1 ∧
      ∃ d, Sample.router.decideWithOverride Sample.env Sample.request
          (Sample.contextFor Sample.budgetOrg (some { maxCostUsd := some 0 })) Sample.priced
          (Sample.forced .medium) = .ok (.ok d) ∧
        exceeds 1 (Sample.priced.predictedCostUsd d.selected) = true := by
  constructor
  · exact ⟨.medium, by decide, "n", by decide, by decide, 0.5, rfl, by decide⟩
  · obtain ⟨d, hd, hm, -⟩ := exists_of_outcomeOf
      (show outcomeOf (Sample.router.decideWithOverride Sample.env Sample.request
        (Sample.contextFor Sample.budgetOrg (some { maxCostUsd := some 0 })) Sample.priced
        (Sample.forced .medium)) = some ("m", .medium) by decide)
    refine ⟨d, hd, ?_⟩
    rw [hm]
    decide

end AuraGateway.Router
