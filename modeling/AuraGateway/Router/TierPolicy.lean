import AuraGateway.Router.SelectionSafety

/-!
# Lower tier bounds: the tools floor and the organization's policy

The search of a decision goes up before it goes down, so a decision falls below a
tier `b` only when no tier from `b` to the top of the search has an eligible model
and one below has. `exists_decide_below_iff` makes this exact for every `b` the
search starts at or above. Two bounds follow from it: the tools floor
(`tools_floor_kept_iff`) and the organization's `min_tier`
(`org_tier_bounds_kept_iff`). Neither is kept by every decision.
-/

set_option autoImplicit false

namespace AuraGateway.Router

open AuraGateway.RustStd AuraGateway.Types AuraGateway.Foundations.FirstMatch

/-! ## Falling below a tier -/

/-- Some tier from `lo` up to but not including `b` has an eligible model, while no
tier above that one and up to `top` has. -/
def FallsBelow (tiers : TierModels) (oracle : Eligibility) (lo top b : Tier) : Prop :=
  ∃ t, lo ≤ t ∧ t ≤ top ∧ t < b ∧ SomeEligible tiers oracle t ∧
    ∀ u, t < u → u ≤ top → NoneEligible tiers oracle u

theorem tiersBelow_pairwise (t : Tier) : (tiersBelow t).Pairwise (· > ·) := by
  cases t <;> decide

section Order

variable {accept reject : Tier → Prop} {tier minTier maxTier t : Tier}

/-- A tier below the requested one is reached after every higher tier of the search. -/
theorem firstIn_searchOrder_below_iff (ht : t < tier) :
    FirstIn accept reject (searchOrder tier minTier maxTier) t ↔
      t ∈ searchOrder tier minTier maxTier ∧ accept t ∧
        ∀ u ∈ searchOrder tier minTier maxTier, t < u → reject u := by
  have hdown : ((tiersBelow tier).filter (minTier ≤ ·)).Pairwise (· > ·) :=
    (tiersBelow_pairwise tier).filter _
  have hup : ∀ u ∈ tier :: (tiersAbove tier).filter (· ≤ maxTier), t < u := by
    intro u hu
    rcases List.mem_cons.mp hu with rfl | hu
    · exact ht
    · exact ht.trans (mem_tiersAbove.mp (List.mem_filter.mp hu).1)
  exact firstIn_append_descending_iff hup hdown

/-- At the top of the search nothing is above the requested tier, so it is first. -/
theorem firstIn_searchOrder_self_iff :
    FirstIn accept reject (searchOrder tier minTier maxTier) tier ↔ accept tier := by
  constructor
  · exact fun h => h.accepted
  · intro h
    exact firstIn_cons.mpr (Or.inl ⟨rfl, h⟩)

end Order

section Below

variable {r : AutoRouter} {request : CreateResponseRequest} {ctx : DecisionContext}
  {ov : Option ClassifierOverride}

/-- For a bound the search starts at or above, or above whose start nothing is
searched, the first tier is below the bound exactly when the search falls below it. -/
theorem exists_firstIn_below_iff {b : Tier} {o : Eligibility}
    (hb : b ≤ (r.prepare request ctx ov).tier ∨
      (r.prepare request ctx ov).tier = searchTop r request ctx) :
    (∃ t, t < b ∧ FirstIn (SomeEligible r.config.tiers o) (NoneEligible r.config.tiers o)
        (searched r request ctx ov) t) ↔
      FallsBelow r.config.tiers o (boundsOf ctx.options).minTier (searchTop r request ctx) b := by
  have hbounds := prepare_tier_bounds r request ctx ov
  constructor
  · rintro ⟨t, hlt, hf⟩
    have hrange := (mem_searchOrder_prepare r request ctx ov).mp hf.mem
    refine ⟨t, hrange.1, hrange.2, hlt, hf.accepted, ?_⟩
    intro u hu htop
    rcases lt_or_ge t (r.prepare request ctx ov).tier with hlow | hhigh
    · apply ((firstIn_searchOrder_below_iff hlow).mp hf).2.2 u _ hu
      exact (mem_searchOrder_prepare r request ctx ov).mpr ⟨hrange.1.trans hu.le, htop⟩
    · -- The search started at `t` or below it, so it started at the top.
      rcases hb with hb | hb
      · exact absurd (hlt.trans_le (hb.trans hhigh)) (lt_irrefl t)
      · rw [hb] at hhigh
        exact absurd (hu.trans_le htop) (not_lt.mpr hhigh)
  · intro h
    obtain ⟨t, hlo, htop, hlt, hs, hn⟩ := h
    have hmem := (mem_searchOrder_prepare r request ctx ov).mpr ⟨hlo, htop⟩
    refine ⟨t, hlt, ?_⟩
    rcases lt_or_ge t (r.prepare request ctx ov).tier with hlow | hhigh
    · apply (firstIn_searchOrder_below_iff hlow).mpr
      refine ⟨hmem, hs, ?_⟩
      intro u hu hu'
      exact hn u hu' ((mem_searchOrder_prepare r request ctx ov).mp hu).2
    · have heq : t = (r.prepare request ctx ov).tier := by
        rcases hb with hb | hb
        · exact absurd (hlt.trans_le (hb.trans hhigh)) (lt_irrefl t)
        · exact le_antisymm (htop.trans hb.ge) hhigh
      simp only [searched]
      rw [heq] at hs ⊢
      exact firstIn_searchOrder_self_iff.mpr hs

/-- When a decision falls below a bound: it keeps the previous model of a lower tier,
or its search falls below the bound under the oracle in force. -/
theorem exists_decide_below_iff (env : DecisionEnv) (oracle : Eligibility) {b : Tier}
    (hb : b ≤ (r.prepare request ctx ov).tier ∨
      (r.prepare request ctx ov).tier = searchTop r request ctx) :
    (∃ d, r.decideWithOverride env request ctx oracle ov = .ok (.ok d) ∧ d.tier < b) ↔
      Proceeds r ctx ∧
        ((∃ prev t, StickyKept r request ctx ov oracle prev t ∧ t < b) ∨
          (StickyDeclined r request ctx ov oracle ∧ ∃ o, InForce r request ctx ov oracle o ∧
            FallsBelow r.config.tiers o (boundsOf ctx.options).minTier
              (searchTop r request ctx) b)) := by
  have key : (∃ d, r.decideWithOverride env request ctx oracle ov = .ok (.ok d) ∧ d.tier < b) ↔
      ∃ t, t < b ∧
        ∃ d, r.decideWithOverride env request ctx oracle ov = .ok (.ok d) ∧ d.tier = t := by
    constructor
    · rintro ⟨d, hd, hlt⟩
      exact ⟨d.tier, hlt, d, hd, rfl⟩
    · rintro ⟨t, hlt, d, hd, rfl⟩
      exact ⟨d, hd, hlt⟩
  rw [key]
  simp only [exists_decide_tier_iff]
  constructor
  · rintro ⟨t, hlt, hp, ⟨prev, hk⟩ | ⟨hno, o, ho, hf⟩⟩
    · exact ⟨hp, Or.inl ⟨prev, t, hk, hlt⟩⟩
    · exact ⟨hp, Or.inr ⟨hno, o, ho, (exists_firstIn_below_iff hb).mp ⟨t, hlt, hf⟩⟩⟩
  · rintro ⟨hp, ⟨prev, t, hk, hlt⟩ | ⟨hno, o, ho, hf⟩⟩
    · exact ⟨t, hlt, hp, Or.inl ⟨prev, hk⟩⟩
    · obtain ⟨t, hlt, hfirst⟩ := (exists_firstIn_below_iff hb).mpr hf
      exact ⟨t, hlt, hp, Or.inr ⟨hno, o, ho, hfirst⟩⟩

end Below

/-! ## The tools floor -/

theorem floorFor_of_tools {config : AutoRoutingConfig} {request : CreateResponseRequest}
    (ht : 0 < (request.tools.map List.length).getD 0) :
    floorFor config request = config.toolsMinTier := if_pos ht

/-- A request with tools keeps the tools floor unless a decision is made, no previous
model is kept, and the search falls below the floor: between the effective lower bound
and the floor some tier has an eligible model, and no tier above it has one up to the
effective upper bound or the floor. -/
theorem tools_floor_kept_iff (r : AutoRouter) (env : DecisionEnv)
    (request : CreateResponseRequest) (ctx : DecisionContext) (oracle : Eligibility)
    (ov : Option ClassifierOverride) (floor : Tier)
    (hfloor : r.config.toolsMinTier = some floor)
    (htools : 0 < (request.tools.map List.length).getD 0) :
    (∀ d, r.decideWithOverride env request ctx oracle ov = .ok (.ok d) → floor ≤ d.tier) ↔
      ¬ (Proceeds r ctx ∧ StickyDeclined r request ctx ov oracle ∧
        ∃ o, InForce r request ctx ov oracle o ∧
          FallsBelow r.config.tiers o (effectiveMin ctx.options)
            (max (effectiveMax ctx.options) floor) floor) := by
  have hfor : (floorFor r.config request).getD .simple = floor := by
    rw [floorFor_of_tools htools, hfloor]
    rfl
  have hstart : floor ≤ (r.prepare request ctx ov).tier := by
    rw [prepare_tier, hfor]
    exact le_max_right _ _
  have htop : searchTop r request ctx = max (effectiveMax ctx.options) floor := by
    simp only [searchTop]
    rw [boundsOf_maxTier, hfor]
    rfl
  have hbelow := exists_decide_below_iff env oracle (Or.inl hstart)
  rw [htop, ← effectiveMin_eq] at hbelow
  constructor
  · intro h hbad
    obtain ⟨hp, hno, hf⟩ := hbad
    obtain ⟨d, hd, hlt⟩ := hbelow.mpr ⟨hp, Or.inr ⟨hno, hf⟩⟩
    exact absurd (h d hd) (not_le.mpr hlt)
  · intro h d hd
    by_contra hc
    obtain ⟨hp, hor⟩ := hbelow.mp ⟨d, hd, not_le.mp hc⟩
    rcases hor with ⟨prev, t, hk, hlt⟩ | ⟨hno, hf⟩
    · -- A kept model is at least as strong as the tier asked for, hence as the floor.
      exact absurd (hstart.trans hk.strong) (not_le.mpr hlt)
    · exact h ⟨hp, hno, hf⟩

namespace Sample

/-- A request with one tool. -/
def toolRequest : CreateResponseRequest :=
  { request with tools := some [{ function := { name := "lookup" } }] }

/-- Only the model of the simple tier is eligible. -/
def simpleOnly : Eligibility := { oracle with isEligible := fun m => .ok (m == "s") }

def context : DecisionContext := { requestedModel := "auto" }

end Sample

/-- With every model eligible the sample gateway keeps its tools floor `medium`. -/
theorem tools_floor_kept_sample :
    ∃ d, Sample.router.decideWithOverride Sample.env Sample.toolRequest Sample.context
      Sample.oracle (Sample.forced .simple) = .ok (.ok d) ∧ Tier.medium ≤ d.tier := by
  obtain ⟨d, hd, -, -⟩ := exists_of_outcomeOf
    (show outcomeOf (Sample.router.decideWithOverride Sample.env Sample.toolRequest
      Sample.context Sample.oracle (Sample.forced .simple)) = some ("m", .medium) by decide)
  refine ⟨d, hd, (tools_floor_kept_iff Sample.router Sample.env Sample.toolRequest Sample.context
    Sample.oracle (Sample.forced .simple) .medium rfl (by decide)).mpr ?_ d hd⟩
  rintro ⟨-, -, o, ho, t, -, -, hlt, -, hnone⟩
  have hm := hnone .medium hlt (by decide) "m" (by decide)
  cases ho with
  | unbudgeted _ => cases hm
  | budgeted hb => cases hb
  | ignored hb _ => cases hb

/-- With nothing but the simple tier eligible, a request that carries a tool is sent
below the tools floor. -/
theorem tools_floor_broken :
    Sample.router.config.toolsMinTier = some .medium ∧
      0 < (Sample.toolRequest.tools.map List.length).getD 0 ∧
      ∃ d, Sample.router.decideWithOverride Sample.env Sample.toolRequest Sample.context
          Sample.simpleOnly (Sample.forced .simple) = .ok (.ok d) ∧
        ¬ Tier.medium ≤ d.tier := by
  obtain ⟨d, hd, -, ht⟩ := exists_of_outcomeOf
    (show outcomeOf (Sample.router.decideWithOverride Sample.env Sample.toolRequest
      Sample.context Sample.simpleOnly (Sample.forced .simple)) = some ("s", .simple) by decide)
  refine ⟨rfl, by decide, d, hd, ?_⟩
  rw [ht]
  decide

/-! ## The organization's tier bounds -/

section Merged

variable (org : OrgAutoRoutingOverride) (options : Option RoutingOptions)
  (aliasMode : Option RoutingMode)

/-- The merged options a decision is made under. -/
abbrev mergedOptions : Option RoutingOptions := some (org.mergedWith options aliasMode)

/-- The organization's upper bound caps the effective one. -/
theorem effectiveMax_merged_le {hi : Tier} (h : org.maxTier = some hi) :
    effectiveMax (mergedOptions org options aliasMode) ≤ hi := by
  obtain ⟨t, ht, hle⟩ := mergedWith_maxTier_of_org org options aliasMode h
  show ((org.mergedWith options aliasMode).maxTier).getD .reasoning ≤ hi
  rw [ht]
  exact hle

/-- The effective lower bound is the organization's, or at least it, unless the merged
upper bound is below it; then the upper bound takes over. -/
theorem boundsOf_merged {lo : Tier} (h : org.minTier = some lo) :
    (lo ≤ effectiveMax (mergedOptions org options aliasMode) →
        lo ≤ (boundsOf (mergedOptions org options aliasMode)).minTier) ∧
      (effectiveMax (mergedOptions org options aliasMode) < lo →
        (boundsOf (mergedOptions org options aliasMode)).minTier
          = (boundsOf (mergedOptions org options aliasMode)).maxTier) := by
  obtain ⟨t, ht, hle⟩ := mergedWith_minTier_of_org org options aliasMode h
  have hmax := boundsOf_maxTier (mergedOptions org options aliasMode)
  have hmin := boundsOf_minTier (mergedOptions org options aliasMode)
  have hlo : ((mergedOptions org options aliasMode).bind (·.minTier)).getD .simple = t := by
    show ((org.mergedWith options aliasMode).minTier).getD .simple = t
    rw [ht]
    rfl
  rw [hlo] at hmin
  constructor
  · intro hc
    rw [hmin]
    exact le_min hle (hc.trans hmax.ge)
  · intro hc
    rw [hmin]
    exact min_eq_right (hmax.le.trans (hc.le.trans hle))

end Merged

/-- When the bounds coincide the search starts at its top. -/
theorem prepare_tier_eq_top (r : AutoRouter) (request : CreateResponseRequest)
    (ctx : DecisionContext) (ov : Option ClassifierOverride)
    (h : (boundsOf ctx.options).minTier = (boundsOf ctx.options).maxTier) :
    (r.prepare request ctx ov).tier = searchTop r request ctx := by
  have hc := clampedTier_mem r request ctx ov
  rw [h] at hc
  rw [prepare_tier, le_antisymm hc.2 hc.1]
  rfl

section Merged

variable {r : AutoRouter} {request : CreateResponseRequest} {ctx : DecisionContext}
  {org : OrgAutoRoutingOverride} {options : Option RoutingOptions} {aliasMode : Option RoutingMode}

theorem searchTop_merged (h : ctx.options = mergedOptions org options aliasMode) :
    searchTop r request ctx
      = max (effectiveMax (mergedOptions org options aliasMode))
          ((floorFor r.config request).getD .simple) := by
  simp only [searchTop]
  rw [boundsOf_maxTier, h]
  rfl

/-- With the bounds crossed both become the upper one, the search starts at its top, and a
decision below the organization's lower bound is one of two kinds. -/
theorem exists_decide_below_merged_iff (h : ctx.options = mergedOptions org options aliasMode)
    (env : DecisionEnv) (oracle : Eligibility) (ov : Option ClassifierOverride) {lo : Tier}
    (hlo : lo ∈ org.minTier) (hlt : effectiveMax (mergedOptions org options aliasMode) < lo) :
    (∃ d, r.decideWithOverride env request ctx oracle ov = .ok (.ok d) ∧ d.tier < lo) ↔
      Proceeds r ctx ∧
        ((∃ prev t, StickyKept r request ctx ov oracle prev t ∧ t < lo) ∨
          (StickyDeclined r request ctx ov oracle ∧ ∃ o, InForce r request ctx ov oracle o ∧
            FallsBelow r.config.tiers o (effectiveMax (mergedOptions org options aliasMode))
              (max (effectiveMax (mergedOptions org options aliasMode))
                ((floorFor r.config request).getD .simple)) lo)) := by
  have hcoin := (boundsOf_merged org options aliasMode hlo).2 hlt
  rw [← h] at hcoin
  have hmin : (boundsOf ctx.options).minTier
      = effectiveMax (mergedOptions org options aliasMode) := by
    rw [hcoin, boundsOf_maxTier, h]
    rfl
  rw [← searchTop_merged h, ← hmin]
  exact exists_decide_below_iff env oracle (Or.inr (prepare_tier_eq_top r request ctx ov hcoin))

/-- A model that is kept is in a tier up to the merged upper bound. -/
theorem stickyKept_tier_merged (h : ctx.options = mergedOptions org options aliasMode)
    {oracle : Eligibility} {ov : Option ClassifierOverride} {prev : String} {t : Tier}
    (hk : StickyKept r request ctx ov oracle prev t) :
    t ≤ effectiveMax (mergedOptions org options aliasMode) := by
  have hwithin := hk.within
  rw [boundsOf_maxTier, h] at hwithin
  exact hwithin

end Merged

/-- Under the merge of an organization's override with a request's options, decisions
respect the organization's upper bound (the tools floor aside), and they respect its
lower bound unless the merged upper bound `hi` is below it and the gateway then keeps
a previous model, or has an eligible model below the lower bound and none above it up
to `hi` or the tools floor. -/
theorem org_tier_bounds_kept_iff (r : AutoRouter) (env : DecisionEnv)
    (request : CreateResponseRequest) (ctx : DecisionContext) (oracle : Eligibility)
    (ov : Option ClassifierOverride) (org : OrgAutoRoutingOverride)
    (options : Option RoutingOptions) (aliasMode : Option RoutingMode) :
    (∀ d, r.decideWithOverride env request
        { ctx with options := mergedOptions org options aliasMode } oracle ov = .ok (.ok d) →
      (∀ lo ∈ org.minTier, lo ≤ d.tier) ∧
        ∀ hi ∈ org.maxTier, d.tier ≤ max hi ((floorFor r.config request).getD .simple)) ↔
      ∀ lo ∈ org.minTier, ∀ hi, effectiveMax (mergedOptions org options aliasMode) = hi →
        hi < lo →
        ¬ (Proceeds r ctx ∧
          ((∃ prev t, StickyKept r request
              { ctx with options := mergedOptions org options aliasMode } ov oracle prev t) ∨
            (StickyDeclined r request
                { ctx with options := mergedOptions org options aliasMode } ov oracle ∧
              ∃ o, InForce r request
                  { ctx with options := mergedOptions org options aliasMode } ov oracle o ∧
                FallsBelow r.config.tiers o hi
                  (max hi ((floorFor r.config request).getD .simple)) lo))) := by
  generalize hctx : { ctx with options := mergedOptions org options aliasMode } = ctx'
  have hopt : ctx'.options = mergedOptions org options aliasMode := by rw [← hctx]
  have hshadow : Proceeds r ctx ↔ Proceeds r ctx' := by rw [← hctx]; exact Iff.rfl
  constructor
  · rintro h lo hlo _ rfl hlt ⟨hp, hor⟩
    -- a model that is kept is below the bound as well
    have hkept : ∀ {prev t}, StickyKept r request ctx' ov oracle prev t → t < lo :=
      fun hk => (stickyKept_tier_merged hopt hk).trans_lt hlt
    obtain ⟨d, hd, hd'⟩ := (exists_decide_below_merged_iff hopt env oracle ov hlo hlt).mpr
      ⟨hshadow.mp hp, hor.imp_left fun ⟨prev, t, hk⟩ => ⟨prev, t, hk, hkept hk⟩⟩
    exact absurd ((h d hd).1 lo hlo) (not_le.mpr hd')
  · intro h d hd
    -- a decision below the lower bound is of one of the two kinds, which are excluded
    have hmem := decide_tier_mem hd
    constructor
    · intro lo hlo
      by_contra hc
      rcases le_or_gt lo (effectiveMax (mergedOptions org options aliasMode)) with hle | hlt
      · have hb := (boundsOf_merged org options aliasMode hlo).1 hle
        rw [← hopt] at hb
        exact hc (hb.trans hmem.1)
      · obtain ⟨hp, hor⟩ := (exists_decide_below_merged_iff hopt env oracle ov hlo hlt).mp
          ⟨d, hd, not_le.mp hc⟩
        refine h lo hlo _ rfl hlt ⟨hshadow.mpr hp, ?_⟩
        exact hor.imp_left fun ⟨prev, t, hk, _⟩ => ⟨prev, t, hk⟩
    · intro hi hhi
      rw [searchTop_merged hopt] at hmem
      exact hmem.2.trans (max_le_max (effectiveMax_merged_le org options aliasMode hhi) le_rfl)

/-- An organization that never routes below `medium` and a request with `max_tier`
`simple`: the sample gateway decides for the simple tier. -/
theorem org_tier_bounds_broken :
    ∃ d, Sample.router.decideWithOverride Sample.env Sample.request
        { Sample.context with
          options := mergedOptions { minTier := some .medium } (some { maxTier := some .simple }) none }
        Sample.oracle (Sample.forced .complex) = .ok (.ok d) ∧
      ¬ Tier.medium ≤ d.tier := by
  obtain ⟨d, hd, -, ht⟩ := exists_of_outcomeOf
    (show outcomeOf (Sample.router.decideWithOverride Sample.env Sample.request
      { Sample.context with
        options := mergedOptions { minTier := some .medium } (some { maxTier := some .simple }) none }
      Sample.oracle (Sample.forced .complex)) = some ("s", .simple) by decide)
  refine ⟨d, hd, ?_⟩
  rw [ht]
  decide

end AuraGateway.Router
