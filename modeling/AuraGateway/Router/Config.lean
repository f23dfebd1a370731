import AuraGateway.Types.Routing

/-!
# Auto-routing configuration

The gateway configuration of the auto router, the per-organization override and
the merge of the override with a request's own options. The configuration fields
that only background jobs read are left out.
-/

set_option autoImplicit false

namespace AuraGateway.Router

open AuraGateway.RustStd AuraGateway.Types AuraGateway.Foundations.FloatOrder

/-! ## Gateway configuration -/

/-- Candidate models per tier, in preference order. -/
structure TierModels where
  simple : List String := ["gemini-3.1-flash-lite", "gemini-3.5-flash", "gpt-5.6-luna"]
  medium : List String := ["gemini-3.8-flash", "gpt-5.4-mini", "claude-haiku-4-5"]
  complex : List String := ["claude-sonnet-5", "gemini-3-pro-preview", "gpt-5.6-terra"]
  reasoning : List String := ["claude-opus-5", "gpt-5.6-sol", "claude-fable-5-1"]
  deriving DecidableEq, Repr

/-- Candidates for a tier. -/
def TierModels.get (m : TierModels) : Tier → List String
  | .simple => m.simple
  | .medium => m.medium
  | .complex => m.complex
  | .reasoning => m.reasoning

/-- The highest tier a model is listed in, if any. -/
def TierModels.tierOf (m : TierModels) (model : String) : Option Tier :=
  Tier.all.reverse.find? fun t => (m.get t).contains model

/-- A model is listed in the tier `tierOf` gives. -/
theorem TierModels.mem_get_of_tierOf {m : TierModels} {model : String} {t : Tier}
    (h : m.tierOf model = some t) : model ∈ m.get t := by
  have hc := List.find?_some h
  simpa using hc

/-- Score boundaries between tiers (inclusive lower bound of the upper tier). -/
structure TierBoundaries where
  simpleMedium : Float := 0.15
  mediumComplex : Float := 0.35
  complexReasoning : Float := 0.60
  deriving DecidableEq

/-- Map a score to a tier. -/
def TierBoundaries.tierFor (b : TierBoundaries) (score : Float) : Tier :=
  if b.complexReasoning ≤ score then .reasoning
  else if b.mediumComplex ≤ score then .complex
  else if b.simpleMedium ≤ score then .medium
  else .simple

/-- Score offsets per mode. -/
structure ModeOffsets where
  cost : Float := -0.10
  balanced : Float := 0.0
  quality : Float := 0.15
  deriving DecidableEq

/-- Offset for a mode. -/
def ModeOffsets.forMode (o : ModeOffsets) : RoutingMode → Float
  | .cost => o.cost
  | .balanced => o.balanced
  | .quality => o.quality

/-- Weights for the heuristic scorer. -/
structure FeatureWeights where
  tokens : Float := 0.10
  code : Float := 0.30
  reasoning : Float := 0.25
  technical : Float := 0.25
  simple : Float := 0.05
  multiStep : Float := 0.03
  questions : Float := 0.02
  tools : Float := 0.15
  explicitIntent : Float := 0.30
  continuation : Float := 0.05
  outputLength : Float := 0.05

/-- Token thresholds for the token-count feature. -/
structure TokenThresholds where
  short : Nat := 15
  long : Nat := 400
  longOutput : Nat := 2000

/-- Keyword lists for the heuristic scorer. -/
structure KeywordLists where
  code : List String
  reasoning : List String
  technical : List String
  simple : List String
  intentQuick : List String
  intentDeep : List String

/-- How to pick among the candidates of the chosen tier. -/
inductive WithinTierStrategy where
  | predictedCost
  | configOrder
  | roundRobin
  | thompson
  | cheapest
  deriving DecidableEq, Repr

/-- Settings for the LLM classifier. -/
structure LlmClassifierConfig where
  model : String := "claude-haiku-4-5"
  timeoutMs : Nat := 800

/-- Escalation after provider failures. -/
structure EscalationConfig where
  enabled : Bool := true
  maxAttempts : Nat := 1
  onErrors : List String :=
    ["rate_limit_exceeded", "service_unavailable", "timeout", "network_error",
      "model_not_found", "internal_error"]
  breakerFailures : Nat := 3
  breakerWindowSecs : Nat := 60
  breakerCooldownSecs : Nat := 30

/-- Whether an error code should trigger escalation. -/
def EscalationConfig.triggersOn (c : EscalationConfig) (errorCode : String) : Bool :=
  c.enabled && c.onErrors.contains errorCode

/-- Top-level auto-routing configuration. -/
structure AutoRoutingConfig where
  enabled : Bool := false
  defaultMode : RoutingMode := .balanced
  defaultClassifier : ClassifierKind := .heuristic
  llmClassifier : LlmClassifierConfig := {}
  shadowForPinnedModels : Bool := true
  tiers : TierModels := {}
  boundaries : TierBoundaries := {}
  modeOffsets : ModeOffsets := {}
  weights : FeatureWeights := {}
  tokenThresholds : TokenThresholds := {}
  keywords : KeywordLists
  withinTier : WithinTierStrategy := .cheapest
  stickyToolLoops : Bool := true
  toolsMinTier : Option Tier := some .medium
  reasoningOverrideMatches : Nat := 3
  goldSampleRate : Float := 0.0
  goldSampleShadow : Bool := false
  goldJudgeModel : String := "claude-sonnet-5"
  goldMaxTextChars : Nat := 4000
  escalation : EscalationConfig := {}

/-! ## Organization override -/

/-- Per-organization override; every field is optional. -/
structure OrgAutoRoutingOverride where
  enabled : Option Bool := none
  shadowForPinnedModels : Option Bool := none
  defaultMode : Option RoutingMode := none
  defaultClassifier : Option ClassifierKind := none
  minTier : Option Tier := none
  maxTier : Option Tier := none
  allow : List String := []
  deny : List String := []
  maxCostUsd : Option Float := none
  allowSynthetic : Option Bool := none
  deriving DecidableEq

/-- True when nothing is overridden. A present budget differs from the default
whatever its value, so equality with the default decides it. -/
def OrgAutoRoutingOverride.isEmpty (o : OrgAutoRoutingOverride) : Bool := decide (o = {})

/-- Combine two optional bounds: `f` of both when both are given, else the one given. -/
def mergeBound {α : Type} (f : α → α → α) : Option α → Option α → Option α
  | some r, some o => some (f r o)
  | r, o => r.or o

/-- Merge the organization override under the request's own options. -/
def OrgAutoRoutingOverride.mergedWith (org : OrgAutoRoutingOverride)
    (request : Option RoutingOptions) (aliasMode : Option RoutingMode) : RoutingOptions :=
  let req := request.getD {}
  -- allow lists stay apart: a candidate has to pass both
  { mode := (req.mode.or aliasMode).or org.defaultMode
    minTier := mergeBound max req.minTier org.minTier
    maxTier := mergeBound min req.maxTier org.maxTier
    allow := req.allow
    policyAllow := org.allow
    deny := org.deny ++ req.deny
    sticky := req.sticky
    classifier := req.classifier.or org.defaultClassifier
    maxCostUsd := mergeBound f64Min req.maxCostUsd org.maxCostUsd }

section Merge

variable (org : OrgAutoRoutingOverride) (request : Option RoutingOptions)
  (aliasMode : Option RoutingMode)

/-- A model the organization denies stays denied after the merge. -/
theorem mergedWith_deny_of_org {p : String} (h : p ∈ org.deny) :
    p ∈ (org.mergedWith request aliasMode).deny := by
  simp only [OrgAutoRoutingOverride.mergedWith]
  exact List.mem_append_left _ h

/-- The merged lower tier bound is at least the organization's. -/
theorem mergedWith_minTier_of_org {t : Tier} (h : org.minTier = some t) :
    ∃ t', (org.mergedWith request aliasMode).minTier = some t' ∧ t ≤ t' := by
  show ∃ t', mergeBound max (request.getD {}).minTier org.minTier = some t' ∧ t ≤ t'
  rw [h]
  cases (request.getD {}).minTier with
  | none => exact ⟨t, rfl, le_rfl⟩
  | some r => exact ⟨max r t, rfl, le_max_right r t⟩

/-- The merged upper tier bound is at most the organization's. -/
theorem mergedWith_maxTier_of_org {t : Tier} (h : org.maxTier = some t) :
    ∃ t', (org.mergedWith request aliasMode).maxTier = some t' ∧ t' ≤ t := by
  show ∃ t', mergeBound min (request.getD {}).maxTier org.maxTier = some t' ∧ t' ≤ t
  rw [h]
  cases (request.getD {}).maxTier with
  | none => exact ⟨t, rfl, le_rfl⟩
  | some r => exact ⟨min r t, rfl, min_le_right r t⟩

/-- The merged budget is at most the organization's. -/
theorem mergedWith_maxCost_of_org {b : Float} (h : org.maxCostUsd = some b)
    (hb : b.isNaN = false) :
    ∃ c, (org.mergedWith request aliasMode).maxCostUsd = some c ∧ c ≤ b := by
  show ∃ c, mergeBound f64Min (request.getD {}).maxCostUsd org.maxCostUsd = some c ∧ c ≤ b
  rw [h]
  cases (request.getD {}).maxCostUsd with
  | none => exact ⟨b, rfl, float_le_refl hb⟩
  | some a => exact ⟨f64Min a b, rfl, f64Min_le_right hb⟩

end Merge

end AuraGateway.Router
