import AuraGateway.Router.AutoRouter

/-!
# What a decision is

Specification lemmas of the router's stages. `decide_cases` lists the ways a
decision can come about: the previous model kept inside a tool loop, a selection
within the budget, or a selection without one. Every property of decisions in this
development is read off that list, or off `decide_selects` where the recorded note
about the budget matters.
-/

set_option autoImplicit false

namespace AuraGateway.Router

open AuraGateway.RustStd AuraGateway.Types AuraGateway.Foundations.FirstMatch

/-! ## Oracle wrappers -/

/-- The options, when given, permit the model for the provider the oracle reports. -/
def Permitted (options : Option RoutingOptions) (oracle : Eligibility) (model : String) : Prop :=
  ∀ opts ∈ options, opts.permits ((oracle.providerOf model).getD "") model = .ok true

/-- The oracle accepts the model and the options permit it. -/
def Admissible (options : Option RoutingOptions) (oracle : Eligibility) (model : String) : Prop :=
  oracle.isEligible model = .ok true ∧ Permitted options oracle model

section Wrappers

variable {oracle : Eligibility} {options : Option RoutingOptions} {model : String}

theorem filteredOracle_eligible_iff :
    (filteredOracle oracle options).isEligible model = .ok true ↔
      Admissible options oracle model := by
  cases options with
  | none =>
      show oracle.isEligible model = .ok true ↔ _
      simp [Admissible, Permitted]
  | some opts =>
      have e : (filteredOracle oracle (some opts)).isEligible model
          = (opts.permits ((oracle.providerOf model).getD "") model >>= fun ok =>
              if ok then oracle.isEligible model else .ok false) := rfl
      rw [e, checked_bind_eq_ok]
      constructor
      · intro h
        obtain ⟨b, hb, h⟩ := h
        cases b with
        | true => exact ⟨h, fun o ho => by cases ho; exact hb⟩
        | false => cases h
      · intro h
        exact ⟨true, h.2 opts rfl, h.1⟩

theorem budgetOracle_eligible_iff {limit : Float} :
    (budgetOracle oracle limit).isEligible model = .ok true ↔
      exceeds limit (oracle.predictedCostUsd model) = false ∧
        oracle.isEligible model = .ok true := by
  show (if exceeds limit (oracle.predictedCostUsd model) then (.ok false : Checked Bool)
    else oracle.isEligible model) = .ok true ↔ _
  cases exceeds limit (oracle.predictedCostUsd model) <;> simp

theorem excludingOracle_eligible_iff {exclude : List String} :
    (excludingOracle oracle exclude).isEligible model = .ok true ↔
      model ∉ exclude ∧ oracle.isEligible model = .ok true := by
  show (if exclude.contains model then (.ok false : Checked Bool)
    else oracle.isEligible model) = .ok true ↔ _
  by_cases h : model ∈ exclude
  · simp [h]
  · simp [h]

end Wrappers

/-! ## Tier bounds -/

theorem boundsOf_le (options : Option RoutingOptions) :
    (boundsOf options).minTier ≤ (boundsOf options).maxTier := by
  simp only [boundsOf]
  split
  · exact le_rfl
  · rename_i h
    exact not_lt.mp h

theorem boundsOf_maxTier (options : Option RoutingOptions) :
    (boundsOf options).maxTier = (options.bind (·.maxTier)).getD .reasoning := by
  simp only [boundsOf]
  split <;> rfl

theorem boundsOf_minTier (options : Option RoutingOptions) :
    (boundsOf options).minTier
      = min ((options.bind (·.minTier)).getD .simple) (boundsOf options).maxTier := by
  simp only [boundsOf]
  split
  · rename_i h
    exact (min_eq_right h.le).symm
  · rename_i h
    exact (min_eq_left (not_lt.mp h)).symm

theorem clampTier_mem {b : TierBounds} (hb : b.minTier ≤ b.maxTier) (t : Tier) :
    b.minTier ≤ (clampTier b t).1 ∧ (clampTier b t).1 ≤ b.maxTier := by
  simp only [clampTier]
  by_cases h₁ : t < b.minTier
  · simp only [h₁, if_true]
    rw [if_neg (not_lt.mpr hb)]
    exact ⟨le_rfl, hb⟩
  · simp only [h₁, if_false]
    by_cases h₂ : b.maxTier < t
    · rw [if_pos h₂]
      exact ⟨hb, le_rfl⟩
    · rw [if_neg h₂]
      exact ⟨not_lt.mp h₁, not_lt.mp h₂⟩

/-- The floor that binds a request: the configured one, when the request carries tools. -/
def floorFor (config : AutoRoutingConfig) (request : CreateResponseRequest) : Option Tier :=
  if 0 < (request.tools.map List.length).getD 0 then config.toolsMinTier else none

theorem applyToolsFloor_eq (floor : Option Tier) (n : Nat) (maxTier tier : Tier) :
    (applyToolsFloor floor n maxTier tier).1
      = if 0 < n then max tier (floor.getD .simple) else tier := by
  cases floor with
  | none =>
      show tier = _
      rw [Option.getD_none, max_eq_left (Tier.simple_le tier), ite_self]
  | some floor =>
      simp only [applyToolsFloor]
      by_cases hn : 0 < n
      · by_cases hlt : tier < floor
        · rw [if_pos ⟨hn, hlt⟩, if_pos hn]
          exact (max_eq_right hlt.le).symm
        · rw [if_neg (fun h => hlt h.2), if_pos hn]
          exact (max_eq_left (not_lt.mp hlt)).symm
      · rw [if_neg (fun h => hn h.1), if_neg hn]

section Prepare

variable (r : AutoRouter) (request : CreateResponseRequest) (ctx : DecisionContext)
  (ov : Option ClassifierOverride)

@[simp] theorem prepare_minTier :
    (r.prepare request ctx ov).minTier = (boundsOf ctx.options).minTier := rfl

@[simp] theorem prepare_maxTier :
    (r.prepare request ctx ov).maxTier = (boundsOf ctx.options).maxTier := rfl

/-- Tier the classifiers ask for, moved into the bounds. -/
def clampedTier : Tier :=
  (clampTier (boundsOf ctx.options)
    (applyOverride (r.scorer.score (r.features request) (r.effectiveMode ctx)) ov).1.tier).1

/-- The tier asked for is the clamped one, raised to the floor that binds the request. -/
theorem prepare_tier :
    (r.prepare request ctx ov).tier
      = max (clampedTier r request ctx ov) ((floorFor r.config request).getD .simple) := by
  show (applyToolsFloor r.config.toolsMinTier (r.features request).toolCount _ _).1 = _
  rw [applyToolsFloor_eq]
  have e : (r.features request).toolCount = (request.tools.map List.length).getD 0 := rfl
  rw [e]
  simp only [floorFor, clampedTier]
  split
  · rfl
  · exact (max_eq_left (Tier.simple_le _)).symm

theorem clampedTier_mem :
    (boundsOf ctx.options).minTier ≤ clampedTier r request ctx ov ∧
      clampedTier r request ctx ov ≤ (boundsOf ctx.options).maxTier :=
  clampTier_mem (boundsOf_le ctx.options) _

/-- Upper end of every search: the upper bound, or the floor when it is higher. -/
def searchTop : Tier :=
  max (boundsOf ctx.options).maxTier ((floorFor r.config request).getD .simple)

theorem prepare_tier_bounds :
    (boundsOf ctx.options).minTier ≤ (r.prepare request ctx ov).tier ∧
      (r.prepare request ctx ov).tier ≤ searchTop r request ctx := by
  rw [prepare_tier]
  obtain ⟨h₁, h₂⟩ := clampedTier_mem r request ctx ov
  exact ⟨h₁.trans (le_max_left _ _), max_le_max h₂ le_rfl⟩

/-- A search of a decision looks at the tiers between the lower bound and the top. -/
theorem mem_searchOrder_prepare {t : Tier} :
    t ∈ searchOrder (r.prepare request ctx ov).tier (r.prepare request ctx ov).minTier
        (r.prepare request ctx ov).maxTier ↔
      (boundsOf ctx.options).minTier ≤ t ∧ t ≤ searchTop r request ctx := by
  rw [mem_searchOrder, prepare_minTier, prepare_maxTier]
  obtain ⟨h₁, h₂⟩ := prepare_tier_bounds r request ctx ov
  have htop : (boundsOf ctx.options).maxTier ≤ searchTop r request ctx := le_max_left _ _
  constructor
  · rintro (rfl | ⟨hlt, hle⟩ | ⟨hlt, hle⟩)
    · exact ⟨h₁, h₂⟩
    · exact ⟨h₁.trans hlt.le, hle.trans htop⟩
    · exact ⟨hle, hlt.le.trans h₂⟩
  · rintro ⟨hmin, hmax⟩
    rcases lt_trichotomy t (r.prepare request ctx ov).tier with h | h | h
    · exact Or.inr (Or.inr ⟨h, hmin⟩)
    · exact Or.inl h
    · refine Or.inr (Or.inl ⟨h, ?_⟩)
      by_contra hc
      -- Above the bound only the floor raises the tier, and then nothing is above it.
      have hlt : (boundsOf ctx.options).maxTier < searchTop r request ctx :=
        (not_le.mp hc).trans_le hmax
      have hfloor : searchTop r request ctx = (floorFor r.config request).getD .simple := by
        simp only [searchTop] at hlt ⊢
        rcases lt_max_iff.mp hlt with h' | h'
        · exact absurd h' (lt_irrefl _)
        · exact max_eq_right h'.le
      have hge : searchTop r request ctx ≤ (r.prepare request ctx ov).tier := by
        rw [hfloor, prepare_tier]
        exact le_max_right _ _
      exact absurd h (not_lt.mpr (hmax.trans hge))

end Prepare

/-! ## Sticky tool loops -/

/-- The previous turn's model `prev` of tier `t` is kept: the request continues a tool
loop, stickiness is on, the model is admissible, and its tier is at least the one
asked for and within the upper bound. -/
structure StickyKept (r : AutoRouter) (request : CreateResponseRequest) (ctx : DecisionContext)
    (ov : Option ClassifierOverride) (oracle : Eligibility) (prev : String) (t : Tier) : Prop where
  enabled : r.stickyEnabled ctx = true
  loop : (r.features request).isToolLoopTurn = true
  previous : ctx.previousModel = some prev
  admissible : Admissible ctx.options oracle prev
  listed : r.catalog.tierOf prev = some t
  strong : (r.prepare request ctx ov).tier ≤ t
  within : t ≤ (boundsOf ctx.options).maxTier

/-- The sticky check answers without keeping a model. -/
def StickyDeclined (r : AutoRouter) (request : CreateResponseRequest) (ctx : DecisionContext)
    (ov : Option ClassifierOverride) (oracle : Eligibility) : Prop :=
  r.stickyEnabled ctx = false ∨ (r.features request).isToolLoopTurn = false ∨
    ∀ prev ∈ ctx.previousModel, ∃ b,
      (filteredOracle oracle ctx.options).isEligible prev = .ok b ∧
        ∀ t, ¬ StickyKept r request ctx ov oracle prev t

section Stages

variable {r : AutoRouter} {request : CreateResponseRequest} {ctx : DecisionContext}
  {ov : Option ClassifierOverride} {oracle : Eligibility}

theorem stickyModel_eq_some {prev : String} {t : Tier} :
    r.stickyModel (r.prepare request ctx ov) ctx (filteredOracle oracle ctx.options)
        = .ok (some (prev, t)) ↔
      StickyKept r request ctx ov oracle prev t := by
  constructor
  · intro h
    simp only [AutoRouter.stickyModel] at h
    split at h
    · rename_i hcond
      obtain ⟨hen, hloop⟩ := Bool.and_eq_true_iff.mp hcond
      cases hp : ctx.previousModel with
      | none => rw [hp] at h; cases h
      | some m =>
          simp only [hp] at h
          rw [checked_bind_eq_ok] at h
          obtain ⟨b, hb, h⟩ := h
          cases b with
          | false => cases h
          | true =>
              cases hm : r.catalog.tierOf m with
              | none => simp [hm] at h
              | some u =>
                  simp only [hm, if_true, Except.ok.injEq] at h
                  split at h
                  · rename_i hr
                    obtain ⟨rfl, rfl⟩ : m = prev ∧ u = t := by simpa using h
                    exact ⟨hen, hloop, hp, filteredOracle_eligible_iff.mp hb, hm, hr.1, hr.2⟩
                  · cases h
    · cases h
  · intro h
    have hloop : (r.prepare request ctx ov).features.isToolLoopTurn = true := h.loop
    have hrange : (r.prepare request ctx ov).tier ≤ t ∧ t ≤ (r.prepare request ctx ov).maxTier :=
      ⟨h.strong, h.within⟩
    simp only [AutoRouter.stickyModel]
    rw [h.enabled, hloop, h.previous]
    simp only [Bool.and_self, if_true]
    rw [filteredOracle_eligible_iff.mpr h.admissible, checked_ok_bind, h.listed]
    simp only [if_true, if_pos hrange]

theorem stickyModel_eq_none :
    r.stickyModel (r.prepare request ctx ov) ctx (filteredOracle oracle ctx.options) = .ok none ↔
      StickyDeclined r request ctx ov oracle := by
  constructor
  · intro h
    by_cases hen : r.stickyEnabled ctx = true
    · by_cases hloop : (r.features request).isToolLoopTurn = true
      · -- the previous model, if any, was asked about and not kept
        refine Or.inr (Or.inr ?_)
        intro prev hp
        have hno : ∀ t, ¬ StickyKept r request ctx ov oracle prev t := by
          intro t hk
          rw [stickyModel_eq_some.mpr hk] at h
          cases h
        have hloop' : (r.prepare request ctx ov).features.isToolLoopTurn = true := hloop
        simp only [AutoRouter.stickyModel] at h
        rw [hen, hloop', Option.mem_def.mp hp] at h
        simp only [Bool.and_self, if_true] at h
        rw [checked_bind_eq_ok] at h
        obtain ⟨b, hb, -⟩ := h
        exact ⟨b, hb, hno⟩
      · exact Or.inr (Or.inl (by simpa using hloop))
    · exact Or.inl (by simpa using hen)
  · intro h
    cases hm : r.stickyModel (r.prepare request ctx ov) ctx (filteredOracle oracle ctx.options) with
    | ok found =>
        cases found with
        | none => rfl
        | some p =>
            have hk := stickyModel_eq_some.mp hm
            rcases h with h | h | h
            · rw [hk.enabled] at h; cases h
            · rw [hk.loop] at h; cases h
            · obtain ⟨-, -, hno⟩ := h p.1 hk.previous
              exact absurd hk (hno p.2)
    | error e =>
        -- the check panics only where the oracle does, and it answered for `m`
        exfalso
        simp only [AutoRouter.stickyModel] at hm
        split at hm
        -- only a tool loop with stickiness on reaches the check
        · rename_i hcond
          obtain ⟨hen, hloop⟩ := Bool.and_eq_true_iff.mp hcond
          have hloop' : (r.features request).isToolLoopTurn = true := hloop
          cases hp : ctx.previousModel with
          | none => rw [hp] at hm; cases hm
          | some m =>
              rcases h with h | h | h
              · rw [hen] at h; cases h
              · rw [hloop'] at h; cases h
              · obtain ⟨b, hb, -⟩ := h m hp
                simp only [hp, hb, checked_ok_bind] at hm
                cases b with
                | false => cases hm
                | true =>
                    cases ht : r.catalog.tierOf m with
                    | none => simp [ht] at hm
                    | some u => simp [ht] at hm
        · cases hm

end Stages

/-! ## Selection with a budget -/

/-- The oracle a search with an optional budget selects through: the given one, limited
by the budget unless there is none or no searched tier has a model within it. -/
inductive ThroughBudget (tiers : TierModels) (order : List Tier) (base : Eligibility)
    (budget : Option Float) : Eligibility → Prop where
  | unbudgeted (hb : budget = none) : ThroughBudget tiers order base budget base
  | budgeted {limit : Float} (hb : budget = some limit) :
      ThroughBudget tiers order base budget (budgetOracle base limit)
  | ignored {limit : Float} (hb : budget = some limit)
      (hn : ∀ t ∈ order, NoneEligible tiers (budgetOracle base limit) t) :
      ThroughBudget tiers order base budget base

section Through

variable {tiers : TierModels} {order : List Tier} {base o : Eligibility} {budget : Option Float}

/-- A budget only removes models. -/
theorem ThroughBudget.eligible (h : ThroughBudget tiers order base budget o) {m : String}
    (hm : o.isEligible m = .ok true) : base.isEligible m = .ok true := by
  cases h with
  | unbudgeted _ => exact hm
  | budgeted _ => exact (budgetOracle_eligible_iff.mp hm).2
  | ignored _ _ => exact hm

/-- The search is limited by a budget, or runs without one because no budget admits a
searched model. -/
theorem ThroughBudget.void_or_limited (h : ThroughBudget tiers order base budget o) :
    (o = base ∧ ∀ limit ∈ budget, ∀ t ∈ order, NoneEligible tiers (budgetOracle base limit) t) ∨
      ∃ limit ∈ budget, o = budgetOracle base limit := by
  cases h with
  | unbudgeted hb =>
      left
      refine ⟨rfl, ?_⟩
      intro limit hl
      rw [hb] at hl
      cases hl
  | @budgeted limit hb => exact Or.inr ⟨limit, hb, rfl⟩
  | @ignored limit hb hn =>
      left
      refine ⟨rfl, ?_⟩
      intro limit' hl
      obtain rfl : limit = limit' := Option.some.inj (hb.symm.trans hl)
      exact hn

/-- A budget does not change which provider serves a model. -/
theorem ThroughBudget.providerOf (h : ThroughBudget tiers order base budget o) (m : String) :
    o.providerOf m = base.providerOf m := by
  cases h <;> rfl

end Through

section Stages

variable {r : AutoRouter} {request : CreateResponseRequest} {ctx : DecisionContext}
  {ov : Option ClassifierOverride} {oracle : Eligibility}

/-- The tiers a decision searches. -/
def searched (r : AutoRouter) (request : CreateResponseRequest) (ctx : DecisionContext)
    (ov : Option ClassifierOverride) : List Tier :=
  searchOrder (r.prepare request ctx ov).tier (r.prepare request ctx ov).minTier
    (r.prepare request ctx ov).maxTier

/-- The oracle a decision selects through: the filtered one, limited by the budget
unless there is none or no searched tier has a model within it. -/
abbrev InForce (r : AutoRouter) (request : CreateResponseRequest) (ctx : DecisionContext)
    (ov : Option ClassifierOverride) (oracle : Eligibility) : Eligibility → Prop :=
  ThroughBudget r.config.tiers (searched r request ctx ov) (filteredOracle oracle ctx.options)
    (AutoRouter.budgetOf ctx.options)

/-- Every oracle in force accepts only admissible models. -/
theorem inForce_admissible {o : Eligibility} (h : InForce r request ctx ov oracle o) {m : String}
    (hm : o.isEligible m = .ok true) : Admissible ctx.options oracle m :=
  filteredOracle_eligible_iff.mp (h.eligible hm)

/-- A selection of a decision, the draws it used and the note about the budget. -/
structure SelectedBy (r : AutoRouter) (env : DecisionEnv) (request : CreateResponseRequest)
    (ctx : DecisionContext) (ov : Option ClassifierOverride) (oracle : Eligibility)
    (sel : TierSelection) (o : Eligibility) (draws : Draws) : Prop where
  inForce : InForce r request ctx ov oracle o
  drawn : draws = env.budgeted ∨ draws = env.unbudgeted
  select : r.catalog.select draws (r.prepare request ctx ov).tier
    (r.prepare request ctx ov).minTier (r.prepare request ctx ov).maxTier o = .ok (some sel)

variable {env : DecisionEnv}

theorem SelectedBy.selected {sel : TierSelection} {o : Eligibility} {draws : Draws}
    (h : SelectedBy r env request ctx ov oracle sel o draws) :
    Selected r.config.tiers o (searched r request ctx ov) sel :=
  select_eq_some h.select

theorem selectWithBudget_some {sel : TierSelection} {note : Option String}
    (h : r.selectWithBudget env (r.prepare request ctx ov) (AutoRouter.budgetOf ctx.options)
      (filteredOracle oracle ctx.options) = .ok (some (sel, note))) :
    ∃ o draws, SelectedBy r env request ctx ov oracle sel o draws := by
  simp only [AutoRouter.selectWithBudget] at h
  split at h
  · rename_i hb
    rw [checked_bind_eq_ok] at h
    obtain ⟨found, hf, h⟩ := h
    cases found with
    | none => cases h
    | some s =>
        obtain ⟨rfl, -⟩ : s = sel ∧ none = note := by simpa using h
        exact ⟨_, _, .unbudgeted hb, Or.inr rfl, hf⟩
  · rename_i limit hb
    rw [checked_bind_eq_ok] at h
    obtain ⟨found, hf, h⟩ := h
    cases found with
    | some s =>
        obtain ⟨rfl, -⟩ : s = sel ∧ none = note := by simpa using h
        -- the first search: the budget is in force
        exact ⟨_, _, .budgeted hb, Or.inl rfl, hf⟩
    | none =>
        dsimp only at h
        rw [checked_bind_eq_ok] at h
        obtain ⟨found, hf', h⟩ := h
        cases found with
        | none => cases h
        | some s =>
            -- the second search: nothing was found within the budget
            have hs : s = sel := by
              simp only [Option.map_some, Except.ok.injEq, Option.some.injEq, Prod.mk.injEq] at h
              exact h.1
            subst hs
            exact ⟨_, _, .ignored hb (select_eq_none_iff.mp hf), Or.inr rfl, hf'⟩

/-- With a budget, the selection is within it and says nothing, or nothing searched is
within it and the note says that it was ignored. -/
theorem selectWithBudget_note {sel : TierSelection} {note : Option String} {limit : Float}
    (hb : AutoRouter.budgetOf ctx.options = some limit)
    (h : r.selectWithBudget env (r.prepare request ctx ov) (AutoRouter.budgetOf ctx.options)
      (filteredOracle oracle ctx.options) = .ok (some (sel, note))) :
    exceeds limit (oracle.predictedCostUsd sel.model) = false ∨
      ((∀ t ∈ searched r request ctx ov,
          NoneEligible r.config.tiers (budgetOracle (filteredOracle oracle ctx.options) limit) t) ∧
        note = some (AutoRouter.budgetIgnoredNote limit)) := by
  rw [hb] at h
  simp only [AutoRouter.selectWithBudget] at h
  rw [checked_bind_eq_ok] at h
  obtain ⟨found, hf, h⟩ := h
  cases found with
  | some s =>
      obtain ⟨rfl, -⟩ : s = sel ∧ none = note := by simpa using h
      exact Or.inl (budgetOracle_eligible_iff.mp (select_eq_some hf).eligible).1
  | none =>
      dsimp only at h
      rw [checked_bind_eq_ok] at h
      obtain ⟨found, -, h⟩ := h
      cases found with
      | none => cases h
      | some s =>
          obtain ⟨-, rfl⟩ : s = sel ∧ some (AutoRouter.budgetIgnoredNote limit) = note := by
            simpa using h
          exact Or.inr ⟨select_eq_none_iff.mp hf, rfl⟩

/-- Without a budget that admits a searched model, the selection is the one made
without the budget. -/
theorem selectWithBudget_of_void
    (hv : ∀ limit ∈ AutoRouter.budgetOf ctx.options, ∀ t ∈ searched r request ctx ov,
      NoneEligible r.config.tiers (budgetOracle (filteredOracle oracle ctx.options) limit) t)
    {sel : TierSelection}
    (hs : r.catalog.select env.unbudgeted (r.prepare request ctx ov).tier
      (r.prepare request ctx ov).minTier (r.prepare request ctx ov).maxTier
      (filteredOracle oracle ctx.options) = .ok (some sel)) :
    ∃ note, r.selectWithBudget env (r.prepare request ctx ov) (AutoRouter.budgetOf ctx.options)
      (filteredOracle oracle ctx.options) = .ok (some (sel, note)) := by
  simp only [AutoRouter.selectWithBudget]
  cases hb : AutoRouter.budgetOf ctx.options with
  | none =>
      refine ⟨none, ?_⟩
      dsimp only
      rw [hs]
      rfl
  | some limit =>
      have hnone : r.catalog.select env.budgeted (r.prepare request ctx ov).tier
          (r.prepare request ctx ov).minTier (r.prepare request ctx ov).maxTier
          (budgetOracle (filteredOracle oracle ctx.options) limit) = .ok none :=
        select_eq_none_iff.mpr (hv limit hb)
      refine ⟨some (AutoRouter.budgetIgnoredNote limit), ?_⟩
      dsimp only
      rw [hnone, checked_ok_bind]
      dsimp only
      rw [hs]
      rfl

/-- A tier that is first under an oracle in force is selected from. -/
theorem exists_selectWithBudget (env : DecisionEnv) {o : Eligibility} {t : Tier}
    (ho : InForce r request ctx ov oracle o)
    (ht : FirstIn (SomeEligible r.config.tiers o) (NoneEligible r.config.tiers o)
      (searched r request ctx ov) t) :
    ∃ sel note, r.selectWithBudget env (r.prepare request ctx ov)
      (AutoRouter.budgetOf ctx.options) (filteredOracle oracle ctx.options)
        = .ok (some (sel, note)) ∧ sel.tier = t := by
  have hsel : ∀ draws, ∃ sel, r.catalog.select draws (r.prepare request ctx ov).tier
      (r.prepare request ctx ov).minTier (r.prepare request ctx ov).maxTier o = .ok (some sel) ∧
        sel.tier = t := fun _ => select_tier_iff.mpr ht
  -- Which draws are used depends on the stage that answers; the tier does not.
  rcases ho.void_or_limited with ⟨rfl, hv⟩ | ⟨limit, hb, rfl⟩
  · obtain ⟨sel, hs, e⟩ := hsel env.unbudgeted
    obtain ⟨note, hn⟩ := selectWithBudget_of_void hv hs
    exact ⟨sel, note, hn, e⟩
  · obtain ⟨sel, hs, e⟩ := hsel env.budgeted
    refine ⟨sel, none, ?_, e⟩
    rw [Option.mem_def.mp hb]
    simp only [AutoRouter.selectWithBudget]
    rw [hs]
    rfl

/-! ## Decisions -/

/-- A decision keeps the previous model, or records what `selectWithBudget` returned. -/
theorem decide_selects {d : AutoDecision}
    (h : r.decideWithOverride env request ctx oracle ov = .ok (.ok d)) :
    (∃ prev t, StickyKept r request ctx ov oracle prev t ∧
      d = r.stickyDecision env ctx oracle (r.prepare request ctx ov) prev t) ∨
    (StickyDeclined r request ctx ov oracle ∧ ∃ sel note,
      r.selectWithBudget env (r.prepare request ctx ov) (AutoRouter.budgetOf ctx.options)
        (filteredOracle oracle ctx.options) = .ok (some (sel, note)) ∧
      d = r.selectedDecision env ctx (filteredOracle oracle ctx.options)
        (r.prepare request ctx ov) (AutoRouter.budgetOf ctx.options) sel note) := by
  unfold AutoRouter.decideWithOverride at h
  split at h
  · cases h
  · dsimp only at h
    rw [checked_bind_eq_ok] at h
    obtain ⟨kept, hk, h⟩ := h
    cases kept with
    | some p =>
        obtain ⟨prev, t⟩ := p
        have hd : r.stickyDecision env ctx oracle (r.prepare request ctx ov) prev t = d := by
          injection h with h
          injection h
        exact Or.inl ⟨prev, t, stickyModel_eq_some.mp hk, hd.symm⟩
    | none =>
        dsimp only at h
        rw [checked_bind_eq_ok] at h
        obtain ⟨found, hf, h⟩ := h
        cases found with
        | none => injection h with h; cases h
        | some p =>
            obtain ⟨sel, note⟩ := p
            injection h with h
            injection h with h
            exact Or.inr ⟨stickyModel_eq_none.mp hk, sel, note, hf, h.symm⟩

/-- The ways a decision comes about: the previous model is kept, or a model is
selected through the oracle in force. -/
theorem decide_cases {d : AutoDecision}
    (h : r.decideWithOverride env request ctx oracle ov = .ok (.ok d)) :
    (∃ prev t, StickyKept r request ctx ov oracle prev t ∧
      d = r.stickyDecision env ctx oracle (r.prepare request ctx ov) prev t) ∨
    (StickyDeclined r request ctx ov oracle ∧ ∃ sel note o draws,
      SelectedBy r env request ctx ov oracle sel o draws ∧
      d = r.selectedDecision env ctx (filteredOracle oracle ctx.options)
        (r.prepare request ctx ov) (AutoRouter.budgetOf ctx.options) sel note) := by
  rcases decide_selects h with hkept | ⟨hno, sel, note, hs, hd⟩
  · exact Or.inl hkept
  · obtain ⟨o, draws, hby⟩ := selectWithBudget_some hs
    exact Or.inr ⟨hno, sel, note, o, draws, hby, hd⟩

/-- The router is on, or the decision is only recorded. -/
def Proceeds (r : AutoRouter) (ctx : DecisionContext) : Prop :=
  r.config.enabled = true ∨ ctx.shadow = true

theorem proceeds_of_decide {d : AutoDecision}
    (h : r.decideWithOverride env request ctx oracle ov = .ok (.ok d)) : Proceeds r ctx := by
  simp only [AutoRouter.decideWithOverride] at h
  split at h
  · cases h
  · rename_i hc
    simp only [Proceeds]
    by_contra hn
    exact hc (by simpa using hn)

theorem not_disabled_of_proceeds (h : Proceeds r ctx) :
    (!r.config.enabled && !ctx.shadow) = false := by
  rcases h with h | h <;> simp [h]

/-- A kept model is decided for. -/
theorem decide_of_sticky (hp : Proceeds r ctx) {prev : String} {t : Tier}
    (hk : StickyKept r request ctx ov oracle prev t) :
    r.decideWithOverride env request ctx oracle ov
      = .ok (.ok (r.stickyDecision env ctx oracle (r.prepare request ctx ov) prev t)) := by
  unfold AutoRouter.decideWithOverride
  rw [not_disabled_of_proceeds hp, if_neg Bool.false_ne_true]
  dsimp only
  rw [stickyModel_eq_some.mpr hk]
  rfl

/-- A selection that no kept model forestalls is decided for. -/
theorem decide_of_select (hp : Proceeds r ctx) (hno : StickyDeclined r request ctx ov oracle)
    {sel : TierSelection} {note : Option String}
    (hs : r.selectWithBudget env (r.prepare request ctx ov) (AutoRouter.budgetOf ctx.options)
      (filteredOracle oracle ctx.options) = .ok (some (sel, note))) :
    r.decideWithOverride env request ctx oracle ov
      = .ok (.ok (r.selectedDecision env ctx (filteredOracle oracle ctx.options)
          (r.prepare request ctx ov) (AutoRouter.budgetOf ctx.options) sel note)) := by
  unfold AutoRouter.decideWithOverride
  rw [not_disabled_of_proceeds hp, if_neg Bool.false_ne_true]
  dsimp only
  rw [stickyModel_eq_none.mpr hno, checked_ok_bind]
  dsimp only
  rw [hs]
  rfl

/-- The tiers a decision can have: the tier of a model kept in a tool loop, or the
first searched tier with an eligible model under the oracle in force. -/
theorem exists_decide_tier_iff {t : Tier} :
    (∃ d, r.decideWithOverride env request ctx oracle ov = .ok (.ok d) ∧ d.tier = t) ↔
      Proceeds r ctx ∧
        ((∃ prev, StickyKept r request ctx ov oracle prev t) ∨
          (StickyDeclined r request ctx ov oracle ∧ ∃ o, InForce r request ctx ov oracle o ∧
            FirstIn (SomeEligible r.config.tiers o) (NoneEligible r.config.tiers o)
              (searched r request ctx ov) t)) := by
  constructor
  · rintro ⟨d, h, rfl⟩
    refine ⟨proceeds_of_decide h, ?_⟩
    rcases decide_cases h with ⟨prev, t, hk, rfl⟩ | ⟨hno, sel, note, o, draws, hs, rfl⟩
    · exact Or.inl ⟨prev, hk⟩
    · exact Or.inr ⟨hno, o, hs.inForce, hs.selected.first⟩
  · rintro ⟨hp, h⟩
    rcases h with ⟨prev, hk⟩ | ⟨hno, o, ho, hf⟩
    · exact ⟨_, decide_of_sticky hp hk, rfl⟩
    · obtain ⟨sel, note, hs, rfl⟩ := exists_selectWithBudget env ho hf
      exact ⟨_, decide_of_select hp hno hs, rfl⟩

end Stages

end AuraGateway.Router
