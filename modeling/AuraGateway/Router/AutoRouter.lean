import AuraGateway.Router.Scorer
import AuraGateway.Router.TierCatalog

/-!
# The auto router

Resolves a request to a concrete model: score the request, clamp the tier to the
bounds and the tools floor, keep the previous model inside a tool loop, and
otherwise select through the caller's oracle wrapped with the allow / deny lists
and the budget. After a provider failure `nextCandidate` finds the next model and
`applyEscalation` records the step.

`decide` is split along its stages (`prepare`, `stickyModel`,
`selectWithBudget`), each of which has one specification lemma.
-/

set_option autoImplicit false

namespace AuraGateway.Router

open AuraGateway.RustStd AuraGateway.Types

/-! ## Decisions -/

/-- What the router knows about a request beyond its body. -/
structure DecisionContext where
  requestedModel : String
  aliasMode : Option RoutingMode := none
  options : Option RoutingOptions := none
  previousModel : Option String := none
  shadow : Bool := false

/-- A tier chosen by a non-heuristic classifier. -/
structure ClassifierOverride where
  tier : Tier
  classifier : String
  confidence : Float

/-- One escalation step taken after a provider failure. -/
structure Escalation where
  fromModel : String
  fromTier : Tier
  toModel : String
  toTier : Tier
  errorCode : String
  deriving DecidableEq, Repr

/-- A recorded routing decision. -/
structure AutoDecision where
  requestedModel : String
  mode : RoutingMode
  classifier : String
  score : Float
  rawScore : Float
  classifiedTier : Tier
  boundaries : TierBoundaries
  tier : Tier
  signals : BTreeMap Float
  features : RequestFeatures
  hardFilters : List String
  candidates : List CandidateInfo
  selected : String
  selectedProvider : Option String
  reason : String
  shadow : Bool
  latencyUs : Nat
  escalations : List Escalation
  predictedCostUsd : Option Float
  options : Option RoutingOptions
  synthetic : Bool

/-- Why no model could be selected. -/
inductive AutoRouteError where
  | disabled
  | noCandidate (tier : Tier) (considered : Nat)
  deriving DecidableEq, Repr

/-- Text of an error. -/
def AutoRouteError.message : AutoRouteError → String
  | .disabled => "auto routing is disabled"
  | .noCandidate tier considered =>
      "no eligible model for tier " ++ tier.asStr ++ " (considered " ++ Nat.repr considered ++ ")"

/-- Values one decision reads from shared or random sources and the clock: the
draws of the selection within the budget, those of the selection without it, and
the microseconds spent. -/
structure DecisionEnv where
  budgeted : Draws
  unbudgeted : Draws
  elapsedUs : Nat

/-- The auto router; everything it holds is built from its configuration. -/
structure AutoRouter where
  engine : TextEngine
  config : AutoRoutingConfig

namespace AutoRouter

variable (r : AutoRouter)

/-- Compiled keyword lists. -/
def matcher : KeywordMatcher := KeywordMatcher.new r.engine r.config.keywords

/-- Heuristic scorer. -/
def scorer : HeuristicScorer := HeuristicScorer.new r.config

/-- Tier catalog. -/
def catalog : TierCatalog := { tiers := r.config.tiers, strategy := r.config.withinTier }

/-- Extract features only. -/
def features (request : CreateResponseRequest) : RequestFeatures :=
  extractFeatures r.engine request r.matcher

/-- Resolve the effective mode for a request. -/
def effectiveMode (ctx : DecisionContext) : RoutingMode :=
  ((ctx.options.bind (·.mode)).or ctx.aliasMode).getD r.config.defaultMode

/-- Resolve the effective classifier for a request. -/
def effectiveClassifier (ctx : DecisionContext) : ClassifierKind :=
  (ctx.options.bind (·.classifier)).getD r.config.defaultClassifier

end AutoRouter

/-! ## Oracle wrappers -/

/-- The caller's oracle with the request's allow / deny lists applied. -/
def filteredOracle (inner : Eligibility) (options : Option RoutingOptions) : Eligibility :=
  { inner with
    isEligible := fun model =>
      match options with
      | none => inner.isEligible model
      | some opts => do
          let provider := (inner.providerOf model).getD ""
          if ← opts.permits provider model then inner.isEligible model else .ok false }

/-- Whether a predicted cost exceeds a limit; an unknown cost does not. -/
def exceeds (limit : Float) : Option Float → Bool
  | some cost => decide (limit < cost)
  | none => false

/-- The oracle without the models whose predicted cost exceeds the limit. -/
def budgetOracle (inner : Eligibility) (limit : Float) : Eligibility :=
  { inner with
    isEligible := fun model =>
      if exceeds limit (inner.predictedCostUsd model) then .ok false
      else inner.isEligible model }

/-- The oracle without the models that already failed this request. -/
def excludingOracle (inner : Eligibility) (exclude : List String) : Eligibility :=
  { inner with
    isEligible := fun model =>
      if exclude.contains model then .ok false else inner.isEligible model }

/-! ## Tier bounds -/

/-- Bounds in force for a decision, and what to record about them. -/
structure TierBounds where
  minTier : Tier
  maxTier : Tier
  notes : List String

/-- The bounds of the options; the upper one wins when they conflict. -/
def boundsOf (options : Option RoutingOptions) : TierBounds :=
  let minTier := (options.bind (·.minTier)).getD .simple
  let maxTier := (options.bind (·.maxTier)).getD .reasoning
  if maxTier < minTier then
    { minTier := maxTier
      maxTier
      notes := ["min_tier " ++ minTier.asStr ++ " > max_tier " ++ maxTier.asStr
        ++ ": using max_tier for both"] }
  else { minTier, maxTier, notes := [] }

/-- Move a tier into the bounds. -/
def clampTier (b : TierBounds) (tier : Tier) : Tier × List String :=
  let (tier, notes) :=
    if tier < b.minTier then (b.minTier, ["min_tier " ++ b.minTier.asStr]) else (tier, [])
  if b.maxTier < tier then (b.maxTier, notes ++ ["max_tier " ++ b.maxTier.asStr]) else (tier, notes)

/-- Raise a request that carries tools to the tools floor, past the upper bound if need be. -/
def applyToolsFloor (floor : Option Tier) (toolCount : Nat) (maxTier tier : Tier) :
    Tier × List String :=
  match floor with
  | none => (tier, [])
  | some floor =>
      if 0 < toolCount ∧ tier < floor then
        (floor,
          if maxTier < floor then
            ["tools present: floor " ++ floor.asStr ++ " overrides max_tier " ++ maxTier.asStr]
          else ["tools present: floor " ++ floor.asStr])
      else (tier, [])

/-! ## The decision -/

/-- Everything settled before a model is looked for. -/
structure Prepared where
  mode : RoutingMode
  features : RequestFeatures
  scored : ScoreResult
  classifier : String
  tier : Tier
  minTier : Tier
  maxTier : Tier
  hardFilters : List String

/-- Replace the heuristic tier by another classifier's, keeping the heuristic score. -/
def applyOverride (scored : ScoreResult) : Option ClassifierOverride → ScoreResult × String
  | none => (scored, heuristicVersion)
  | some ov =>
      ({ scored with
          notes := scored.notes ++
            [ov.classifier ++ " chose " ++ ov.tier.asStr ++ " (confidence "
              ++ formatFixed 2 ov.confidence ++ "); heuristic said " ++ scored.tier.asStr]
          signals := BTreeMap.insert "classifier_confidence" ov.confidence scored.signals
          tier := ov.tier },
        ov.classifier)

/-- Constraints recorded besides the tier bounds. -/
def requirementNotes (features : RequestFeatures) (options : Option RoutingOptions) :
    List String :=
  (if features.hasImages then ["needs vision"] else [])
    ++ (if 0 < features.toolCount then ["needs tools"] else [])
    ++ (match options with
        | some o => if !o.allow.isEmpty || !o.deny.isEmpty then ["allow/deny lists"] else []
        | none => [])

namespace AutoRouter

variable (r : AutoRouter)

/-- Score the request and settle the tier to ask for. -/
def prepare (request : CreateResponseRequest) (ctx : DecisionContext)
    (overrideTier : Option ClassifierOverride) : Prepared :=
  let mode := r.effectiveMode ctx
  let features := r.features request
  let scored := applyOverride (r.scorer.score features mode) overrideTier
  let bounds := boundsOf ctx.options
  let clamped := clampTier bounds scored.1.tier
  let floored := applyToolsFloor r.config.toolsMinTier features.toolCount bounds.maxTier clamped.1
  { mode
    features
    scored := scored.1
    classifier := scored.2
    tier := floored.1
    minTier := bounds.minTier
    maxTier := bounds.maxTier
    hardFilters := bounds.notes ++ clamped.2 ++ floored.2 ++ requirementNotes features ctx.options }

/-- Whether tool loops keep the previous turn's model. -/
def stickyEnabled (ctx : DecisionContext) : Bool :=
  (ctx.options.bind (·.sticky)).getD r.config.stickyToolLoops

/-- The previous turn's model and its tier, when a tool loop keeps it: eligible,
at least as strong as the tier asked for and not above the upper bound. -/
def stickyModel (p : Prepared) (ctx : DecisionContext) (filtered : Eligibility) :
    Checked (Option (String × Tier)) :=
  if r.stickyEnabled ctx && p.features.isToolLoopTurn then
    match ctx.previousModel with
    | none => .ok none
    | some prev => do
        if ← filtered.isEligible prev then
          match r.catalog.tierOf prev with
          -- the lower bound is not compared: `p.tier` is at or above it
          | some t => .ok (if p.tier ≤ t ∧ t ≤ p.maxTier then some (prev, t) else none)
          | none => .ok none
        else .ok none
  else .ok none

/-- A budget counts only when it is positive. -/
def budgetOf (options : Option RoutingOptions) : Option Float :=
  (options.bind (·.maxCostUsd)).filter fun b => (0 : Float) < b

/-- What is recorded when nothing fits the budget. -/
def budgetIgnoredNote (limit : Float) : String :=
  "no candidate within max_cost_usd " ++ formatFixed 5 limit ++ "; budget ignored"

/-- Select within the budget, and without it when nothing fits; the note says that
the budget was ignored. -/
def selectWithBudget (env : DecisionEnv) (p : Prepared) (budget : Option Float)
    (filtered : Eligibility) : Checked (Option (TierSelection × Option String)) :=
  match budget with
  | none => do
      let sel ← r.catalog.select env.unbudgeted p.tier p.minTier p.maxTier filtered
      .ok (sel.map fun s => (s, none))
  | some limit => do
      let sel ← r.catalog.select env.budgeted p.tier p.minTier p.maxTier
        (budgetOracle filtered limit)
      match sel with
      | some s => .ok (some (s, none))
      | none => do
          -- the budget is a preference: without a candidate it is dropped
          let sel ← r.catalog.select env.unbudgeted p.tier p.minTier p.maxTier filtered
          .ok (sel.map fun s => (s, some (budgetIgnoredNote limit)))

/-- The record of a decision that kept the previous model. -/
def stickyDecision (env : DecisionEnv) (ctx : DecisionContext) (oracle : Eligibility)
    (p : Prepared) (prev : String) (tier : Tier) : AutoDecision :=
  { requestedModel := ctx.requestedModel
    options := ctx.options
    mode := p.mode
    classifier := p.classifier
    score := p.scored.score
    rawScore := p.scored.rawScore
    classifiedTier := p.scored.tier
    boundaries := r.config.boundaries
    tier
    signals := p.scored.signals
    features := p.features
    hardFilters := p.hardFilters ++ ["sticky tool loop"]
    candidates :=
      [{ model := prev
         provider := oracle.providerOf prev
         tier
         costPerMillion := oracle.blendedCostPerMillion prev
         eligible := true
         predictedCostUsd := oracle.predictedCostUsd prev }]
    selected := prev
    selectedProvider := oracle.providerOf prev
    reason := "kept previous turn's model inside tool loop"
    shadow := ctx.shadow
    latencyUs := env.elapsedUs
    escalations := []
    predictedCostUsd := oracle.predictedCostUsd prev
    synthetic := false }

/-- The record of a decision that selected a model. -/
def selectedDecision (env : DecisionEnv) (ctx : DecisionContext) (filtered : Eligibility)
    (p : Prepared) (budget : Option Float) (sel : TierSelection) (budgetNote : Option String) :
    AutoDecision :=
  { requestedModel := ctx.requestedModel
    options := ctx.options
    mode := p.mode
    classifier := p.classifier
    score := p.scored.score
    rawScore := p.scored.rawScore
    classifiedTier := p.scored.tier
    boundaries := r.config.boundaries
    tier := sel.tier
    signals := p.scored.signals
    features := p.features
    hardFilters :=
      p.hardFilters ++ (budget.map fun limit => "max_cost_usd " ++ formatFixed 5 limit).toList
    candidates := sel.candidates
    selected := sel.model
    selectedProvider := sel.provider
    reason := (p.scored.notes ++ budgetNote.toList).foldl (fun s note => s ++ "; " ++ note) sel.reason
    shadow := ctx.shadow
    latencyUs := env.elapsedUs
    escalations := []
    predictedCostUsd := filtered.predictedCostUsd sel.model
    synthetic := false }

/-- Make a decision, optionally with the tier of another classifier. -/
def decideWithOverride (env : DecisionEnv) (request : CreateResponseRequest)
    (ctx : DecisionContext) (oracle : Eligibility) (overrideTier : Option ClassifierOverride) :
    Checked (Except AutoRouteError AutoDecision) :=
  if !r.config.enabled && !ctx.shadow then .ok (.error .disabled)
  else do
    let p := r.prepare request ctx overrideTier
    let filtered := filteredOracle oracle ctx.options
    match ← r.stickyModel p ctx filtered with
    | some (prev, tier) => .ok (.ok (r.stickyDecision env ctx oracle p prev tier))
    | none => do
        let budget := budgetOf ctx.options
        match ← r.selectWithBudget env p budget filtered with
        | some (sel, note) => .ok (.ok (r.selectedDecision env ctx filtered p budget sel note))
        | none => .ok (.error (.noCandidate p.tier r.catalog.allModels.length))

/-- Make a decision with the heuristic classifier. -/
def decide (env : DecisionEnv) (request : CreateResponseRequest) (ctx : DecisionContext)
    (oracle : Eligibility) : Checked (Except AutoRouteError AutoDecision) :=
  r.decideWithOverride env request ctx oracle none

/-! ## Escalation -/

/-- The upper tier limit of an escalation: the request's bound, or the decision's
own tier when that is already above it. -/
def escalationMaxTier (decision : AutoDecision) (options : Option RoutingOptions) : Tier :=
  max ((options.bind (·.maxTier)).getD .reasoning) decision.tier

/-- After a provider failure, the next model to try: in the decision's tier first,
then above it. Models in `exclude` are skipped. -/
def nextCandidate (env : DecisionEnv) (decision : AutoDecision)
    (options : Option RoutingOptions) (oracle : Eligibility) (exclude : List String) :
    Checked (Option TierSelection) :=
  let maxTier := escalationMaxTier decision options
  let excluding := excludingOracle (filteredOracle oracle options) exclude
  match budgetOf options with
  | none => r.catalog.select env.unbudgeted decision.tier decision.tier maxTier excluding
  | some limit => do
      let sel ← r.catalog.select env.budgeted decision.tier decision.tier maxTier
        (budgetOracle excluding limit)
      match sel with
      | some s => .ok (some s)
      | none => r.catalog.select env.unbudgeted decision.tier decision.tier maxTier excluding

/-- Apply an escalation to a decision: the selected model, tier and provider move to
the new candidate and the step is recorded. -/
def applyEscalation (decision : AutoDecision) (selection : TierSelection) (errorCode : String) :
    AutoDecision :=
  { decision with
    escalations := decision.escalations ++
      [{ fromModel := decision.selected
         fromTier := decision.tier
         toModel := selection.model
         toTier := selection.tier
         errorCode }]
    reason := decision.reason ++ "; escalated from " ++ decision.selected ++ " after "
      ++ errorCode ++ ": " ++ selection.reason
    tier := selection.tier
    selected := selection.model
    selectedProvider := selection.provider
    candidates := decision.candidates ++ selection.candidates }

end AutoRouter

end AuraGateway.Router
