import AuraGateway.Foundations.LabelledRuns
import AuraGateway.Router.DecisionSpec

/-!
# Selected models are admissible and in range

Whatever path chose it, the model of a decision is accepted by the oracle and
permitted by the options (`decision_and_escalations_admissible`), and its tier is
within the effective bounds (`decision_tier_in_bounds`). The same is shown for the
models that escalations move to; `NextModel` collects what one escalation step
guarantees.
-/

set_option autoImplicit false

namespace AuraGateway.Router

open AuraGateway.RustStd AuraGateway.Types AuraGateway.Foundations.FirstMatch
open AuraGateway.Foundations.LabelledRuns

/-! ## One decision -/

section Decision

variable {r : AutoRouter} {env : DecisionEnv} {request : CreateResponseRequest}
  {ctx : DecisionContext} {oracle : Eligibility} {ov : Option ClassifierOverride}
  {d : AutoDecision}

theorem decide_admissible (h : r.decideWithOverride env request ctx oracle ov = .ok (.ok d)) :
    Admissible ctx.options oracle d.selected := by
  rcases decide_cases h with ⟨prev, t, hk, rfl⟩ | ⟨-, sel, note, o, draws, hs, rfl⟩
  · exact hk.admissible
  · exact inForce_admissible hs.inForce hs.selected.eligible

theorem decide_listed (h : r.decideWithOverride env request ctx oracle ov = .ok (.ok d)) :
    d.selected ∈ r.config.tiers.get d.tier := by
  rcases decide_cases h with ⟨prev, t, hk, rfl⟩ | ⟨-, sel, note, o, draws, hs, rfl⟩
  · exact TierModels.mem_get_of_tierOf hk.listed
  · exact hs.selected.listed

/-- A decision's tier lies between the lower bound in force and the top of the search. -/
theorem decide_tier_mem (h : r.decideWithOverride env request ctx oracle ov = .ok (.ok d)) :
    (boundsOf ctx.options).minTier ≤ d.tier ∧ d.tier ≤ searchTop r request ctx := by
  rcases decide_cases h with ⟨prev, t, hk, rfl⟩ | ⟨-, sel, note, o, draws, hs, rfl⟩
  · have hb := prepare_tier_bounds r request ctx ov
    exact ⟨hb.1.trans hk.strong, hk.within.trans (le_max_left _ _)⟩
  · exact (mem_searchOrder_prepare r request ctx ov).mp hs.selected.first.mem

/-- A decision starts with no escalations. -/
theorem decide_escalations (h : r.decideWithOverride env request ctx oracle ov = .ok (.ok d)) :
    d.escalations = [] := by
  rcases decide_cases h with ⟨prev, t, -, rfl⟩ | ⟨-, sel, note, o, draws, -, rfl⟩
  · rfl
  · rfl

end Decision

/-! ## One escalation -/

/-- What one escalation step reads besides the decision it moves. -/
structure EscalationInput where
  env : DecisionEnv
  options : Option RoutingOptions
  oracle : Eligibility
  exclude : List String
  errorCode : String

/-- One `nextCandidate` / `applyEscalation` step. -/
def Escalates (r : AutoRouter) (d : AutoDecision) (s : EscalationInput) (d' : AutoDecision) :
    Prop :=
  ∃ sel, r.nextCandidate s.env d s.options s.oracle s.exclude = .ok (some sel) ∧
    d' = AutoRouter.applyEscalation d sel s.errorCode

/-- What the next candidate after a failure satisfies. -/
structure NextModel (r : AutoRouter) (d : AutoDecision) (options : Option RoutingOptions)
    (oracle : Eligibility) (exclude : List String) (sel : TierSelection) : Prop where
  admissible : Admissible options oracle sel.model
  fresh : sel.model ∉ exclude
  listed : sel.model ∈ r.config.tiers.get sel.tier
  notBelow : d.tier ≤ sel.tier
  notAbove : sel.tier ≤ AutoRouter.escalationMaxTier d options
  provider : sel.provider = oracle.providerOf sel.model

section Escalation

variable {r : AutoRouter} {d : AutoDecision} {options : Option RoutingOptions}
  {oracle : Eligibility} {exclude : List String} {sel : TierSelection}

/-- Searching upwards from a tier reaches nothing below it. -/
theorem mem_searchOrder_up {t maxTier u : Tier} (ht : t ≤ maxTier) :
    u ∈ searchOrder t t maxTier ↔ t ≤ u ∧ u ≤ maxTier := by
  rw [mem_searchOrder]
  constructor
  · rintro (rfl | ⟨hlt, hle⟩ | ⟨hlt, hle⟩)
    · exact ⟨le_rfl, ht⟩
    · exact ⟨hlt.le, hle⟩
    · exact absurd hlt (not_lt.mpr hle)
  · rintro ⟨hle, hmax⟩
    rcases hle.lt_or_eq with hlt | heq
    · exact Or.inr (Or.inl ⟨hlt, hmax⟩)
    · exact Or.inl heq.symm

/-- The tiers an escalation searches. -/
def escalationOrder (d : AutoDecision) (options : Option RoutingOptions) : List Tier :=
  searchOrder d.tier d.tier (AutoRouter.escalationMaxTier d options)

/-- The oracle an escalation searches through before its budget is applied. -/
def untried (oracle : Eligibility) (options : Option RoutingOptions) (exclude : List String) :
    Eligibility :=
  excludingOracle (filteredOracle oracle options) exclude

theorem untried_eligible_iff {m : String} :
    (untried oracle options exclude).isEligible m = .ok true ↔
      m ∉ exclude ∧ Admissible options oracle m := by
  simp only [untried]
  rw [excludingOracle_eligible_iff, filteredOracle_eligible_iff]

/-- A next candidate is selected through the untried models, limited by the budget. -/
theorem nextCandidate_through {env : DecisionEnv}
    (h : r.nextCandidate env d options oracle exclude = .ok (some sel)) :
    ∃ o, ThroughBudget r.config.tiers (escalationOrder d options)
        (untried oracle options exclude) (AutoRouter.budgetOf options) o ∧
      Selected r.config.tiers o (escalationOrder d options) sel := by
  simp only [AutoRouter.nextCandidate] at h
  split at h
  · rename_i hb
    exact ⟨_, .unbudgeted hb, select_eq_some h⟩
  · rename_i limit hb
    rw [checked_bind_eq_ok] at h
    obtain ⟨found, hf, h⟩ := h
    cases found with
    | some s =>
        obtain rfl := checked_some_inj.mp h
        exact ⟨_, .budgeted hb, select_eq_some hf⟩
    | none => exact ⟨_, .ignored hb (select_eq_none_iff.mp hf), select_eq_some h⟩

/-- The next candidate is admissible, not excluded, and in the decision's tier or
above it, within the limit. -/
theorem nextCandidate_some {env : DecisionEnv}
    (h : r.nextCandidate env d options oracle exclude = .ok (some sel)) :
    NextModel r d options oracle exclude sel := by
  obtain ⟨o, ho, hs⟩ := nextCandidate_through h
  have he := untried_eligible_iff.mp (ho.eligible hs.eligible)
  have hmem := (mem_searchOrder_up (le_max_right _ d.tier)).mp hs.first.mem
  exact
    { admissible := he.2
      fresh := he.1
      listed := hs.listed
      notBelow := hmem.1
      notAbove := hmem.2
      provider := hs.provider.trans (ho.providerOf sel.model) }

/-- After an escalation the decision names an admissible model that was not excluded. -/
theorem Escalates.admissible {s : EscalationInput} {d' : AutoDecision}
    (h : Escalates r d s d') :
    Admissible s.options s.oracle d'.selected ∧ d'.selected ∉ s.exclude := by
  obtain ⟨sel, hn, rfl⟩ := h
  have hnext := nextCandidate_some hn
  exact ⟨hnext.admissible, hnext.fresh⟩

/-- What comes next depends on the decision only through its tier. -/
theorem nextCandidate_eq_of_tier {env : DecisionEnv} {d₁ d₂ : AutoDecision}
    (h : d₁.tier = d₂.tier) :
    r.nextCandidate env d₁ options oracle exclude
      = r.nextCandidate env d₂ options oracle exclude := by
  simp only [AutoRouter.nextCandidate, AutoRouter.escalationMaxTier, h]

end Escalation

/-! ## Admissibility of decisions and escalations -/

/-- The model of a decision is accepted by the oracle and permitted by the options;
after any sequence of escalation steps the model moved to last is accepted and
permitted by that step's oracle and options, and is not in its exclude list. -/
theorem decision_and_escalations_admissible (r : AutoRouter) (env : DecisionEnv)
    (request : CreateResponseRequest) (ctx : DecisionContext) (oracle : Eligibility)
    (ov : Option ClassifierOverride) (d : AutoDecision)
    (h : r.decideWithOverride env request ctx oracle ov = .ok (.ok d)) :
    Admissible ctx.options oracle d.selected ∧
      ∀ (steps : List EscalationInput) (last : EscalationInput) (d' : AutoDecision),
        Run (Escalates r) d (steps ++ [last]) d' →
          Admissible last.options last.oracle d'.selected ∧ d'.selected ∉ last.exclude := by
  refine ⟨decide_admissible h, ?_⟩
  intro steps last d' hrun
  obtain ⟨d₁, -, hstep⟩ := hrun.of_snoc
  exact hstep.admissible

/-! ### A small gateway -/

namespace Sample

/-- A text engine for texts none of the built-in expressions match. -/
def engine : TextEngine :=
  { build := fun _ _ => some fun _ => false
    escape := id
    isAlphabetic := Char.isAlpha
    isNumeric := Char.isDigit }

/-- Two models in the medium tier, one in each other tier. -/
def tiers : TierModels :=
  { simple := ["s"], medium := ["m", "n"], complex := ["c"], reasoning := ["r"] }

/-- Auto routing switched on over `tiers`, without keywords. -/
def config : AutoRoutingConfig :=
  { enabled := true, keywords := ⟨[], [], [], [], [], []⟩, tiers }

def router : AutoRouter := { engine, config }

/-- Everything is eligible and served by one provider. -/
def oracle : Eligibility :=
  { isEligible := fun _ => .ok true
    blendedCostPerMillion := fun _ => none
    providerOf := fun _ => some "openai" }

def draws : Draws := { rrCounter := 0, betaSample := fun _ _ => 0.5 }

def env : DecisionEnv := { budgeted := draws, unbudgeted := draws, elapsedUs := 0 }

def request : CreateResponseRequest := .text "auto" "hi"

/-- Force a tier. -/
def forced (tier : Tier) : Option ClassifierOverride :=
  some { tier, classifier := "llm@s", confidence := 0.5 }

end Sample

/-- Model and tier of the decision returned, if one is. -/
def outcomeOf : Checked (Except AutoRouteError AutoDecision) → Option (String × Tier)
  | .ok (.ok d) => some (d.selected, d.tier)
  | _ => none

theorem exists_of_outcomeOf {x : Checked (Except AutoRouteError AutoDecision)} {m : String}
    {t : Tier} (h : outcomeOf x = some (m, t)) :
    ∃ d, x = .ok (.ok d) ∧ d.selected = m ∧ d.tier = t := by
  rcases x with e | e | d
  · cases h
  · cases h
  · injection h with h
    injection h with h₁ h₂
    exact ⟨d, rfl, h₁, h₂⟩

/-- With `anthropic/*` denied the sample gateway decides for `m`, and after `m` has
failed it moves to `n`; both are admissible. -/
theorem decision_and_escalations_admissible_sample :
    ∃ d d', Escalates Sample.router d
        { env := Sample.env, options := none, oracle := Sample.oracle, exclude := ["m"],
          errorCode := "timeout" } d' ∧
      Admissible (some { deny := ["anthropic/*"] }) Sample.oracle d.selected ∧
      Admissible none Sample.oracle d'.selected ∧ d'.selected ∉ ["m"] := by
  obtain ⟨d, hd, hm, ht⟩ := exists_of_outcomeOf
    (show outcomeOf (Sample.router.decideWithOverride Sample.env Sample.request
      { requestedModel := "auto", options := some { deny := ["anthropic/*"] } }
      Sample.oracle (Sample.forced .medium)) = some ("m", .medium) by decide)
  obtain ⟨hadm, hrun⟩ := decision_and_escalations_admissible _ _ _ _ _ _ d hd
  obtain ⟨sel, hsel⟩ : ∃ sel, Sample.router.nextCandidate Sample.env d none Sample.oracle ["m"]
      = .ok (some sel) := by
    rw [nextCandidate_eq_of_tier (show d.tier = { d with tier := .medium }.tier from ht)]
    exact ⟨_, rfl⟩
  have hstep : Escalates Sample.router d
      { env := Sample.env, options := none, oracle := Sample.oracle, exclude := ["m"],
        errorCode := "timeout" } (AutoRouter.applyEscalation d sel "timeout") := ⟨sel, hsel, rfl⟩
  obtain ⟨hadm', hfresh⟩ := hrun [] _ _ (.snoc .nil hstep)
  exact ⟨d, _, hstep, hadm, hadm', hfresh⟩

/-! ## Tier bounds of decisions -/

/-- The bounds the options ask for, the upper one winning a conflict. -/
def effectiveMin (options : Option RoutingOptions) : Tier :=
  let lo := (options.bind (·.minTier)).getD .simple
  let hi := (options.bind (·.maxTier)).getD .reasoning
  if hi < lo then hi else lo

/-- The upper bound the options ask for. -/
def effectiveMax (options : Option RoutingOptions) : Tier :=
  (options.bind (·.maxTier)).getD .reasoning

theorem effectiveMin_eq (options : Option RoutingOptions) :
    effectiveMin options = (boundsOf options).minTier := by
  simp only [effectiveMin, boundsOf]
  split <;> rfl

/-- The tier of a decision is at least the effective lower bound and at most the
effective upper bound or, when the request carries tools, the tools floor; the
selected model is listed in that tier. -/
theorem decision_tier_in_bounds (r : AutoRouter) (env : DecisionEnv)
    (request : CreateResponseRequest) (ctx : DecisionContext) (oracle : Eligibility)
    (ov : Option ClassifierOverride) (d : AutoDecision)
    (h : r.decideWithOverride env request ctx oracle ov = .ok (.ok d)) :
    effectiveMin ctx.options ≤ d.tier ∧
      (d.tier ≤ effectiveMax ctx.options ∨
        ∃ floor ∈ r.config.toolsMinTier, 0 < (request.tools.map List.length).getD 0 ∧
          d.tier ≤ max (effectiveMax ctx.options) floor) ∧
      d.selected ∈ r.config.tiers.get d.tier := by
  obtain ⟨hmin, hmax⟩ := decide_tier_mem h
  refine ⟨?_, ?_, decide_listed h⟩
  · rw [effectiveMin_eq]
    exact hmin
  · simp only [searchTop] at hmax
    rw [boundsOf_maxTier] at hmax
    change d.tier ≤ max (effectiveMax ctx.options) _ at hmax
    -- The floor enters only when it is configured and the request carries tools.
    by_cases ht : 0 < (request.tools.map List.length).getD 0
    · cases hf : r.config.toolsMinTier with
      | none =>
          left
          simpa [floorFor, hf, Tier.simple_le] using hmax
      | some floor =>
          right
          refine ⟨floor, rfl, ht, ?_⟩
          simpa [floorFor, hf, ht] using hmax
    · left
      simpa [floorFor, ht, Tier.simple_le] using hmax

/-- A decision of the sample gateway inside its bounds. -/
theorem decision_tier_in_bounds_sample :
    ∃ d : AutoDecision,
      effectiveMin (some { minTier := some .complex, maxTier := some .medium }) ≤ d.tier ∧
        d.selected ∈ Sample.router.config.tiers.get d.tier := by
  obtain ⟨d, hd, -, -⟩ := exists_of_outcomeOf
    (show outcomeOf (Sample.router.decideWithOverride Sample.env Sample.request
      { requestedModel := "auto",
        options := some { minTier := some .complex, maxTier := some .medium } }
      Sample.oracle (Sample.forced .reasoning)) = some ("m", .medium) by decide)
  have hb := decision_tier_in_bounds _ _ _ _ _ _ d hd
  exact ⟨d, hb.1, hb.2.2⟩

end AuraGateway.Router
