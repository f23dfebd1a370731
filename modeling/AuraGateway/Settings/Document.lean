import AuraGateway.Router.Config

/-!
# The gateway settings document

The overrides an operator may set while the gateway runs. Every field is optional; a
field left out inherits the boot value. `validate` rejects values the gateway could not
apply, and `applyToAuto` lays the routing overrides over a configuration.
-/

set_option autoImplicit false

namespace AuraGateway.Settings

open AuraGateway.RustStd AuraGateway.Types AuraGateway.Router

/-- Longest response-cache TTL an operator may set. -/
def maxCacheTtlSecs : Nat := 7 * 24 * 60 * 60

/-- Overrides for `routing.auto`. -/
structure RoutingSettings where
  enabled : Option Bool := none
  shadowForPinnedModels : Option Bool := none
  defaultMode : Option RoutingMode := none
  defaultClassifier : Option ClassifierKind := none
  withinTier : Option WithinTierStrategy := none
  stickyToolLoops : Option Bool := none
  tiers : Option TierModels := none
  llmClassifierModel : Option String := none
  goldSampleRate : Option Float := none
  escalationEnabled : Option Bool := none
  deriving DecidableEq

/-- Overrides for feature flags. -/
structure FeatureSettings where
  payloadCapture : Option Bool := none
  replayToolContext : Option Bool := none
  deriving DecidableEq, Repr

/-- Overrides for the response cache. -/
structure CacheSettings where
  enabled : Option Bool := none
  defaultTtlSecs : Option Nat := none
  deriving DecidableEq, Repr

/-- Overrides for rate limiting. -/
structure RateLimitSettings where
  enabled : Option Bool := none
  defaultRpm : Option Nat := none
  deriving DecidableEq, Repr

/-- Runtime overrides layered over the boot configuration. -/
structure GatewaySettings where
  routing : RoutingSettings := {}
  features : FeatureSettings := {}
  cache : CacheSettings := {}
  rateLimit : RateLimitSettings := {}
  deriving DecidableEq

/-- True when at least one tier lists a model. -/
def hasCandidates (tiers : TierModels) : Bool :=
  !(tiers.simple.isEmpty && tiers.medium.isEmpty && tiers.complex.isEmpty
    && tiers.reasoning.isEmpty)

/-- Trimmed, de-duplicated model ids in their original order. -/
def cleaned (models : List String) : List String :=
  models.foldl
    (fun out m =>
      let m := trim m
      -- the first of equal ids keeps its place
      if !m.isEmpty && !out.contains m then out ++ [m] else out)
    []

namespace GatewaySettings

variable (s : GatewaySettings)

/-- True when no field is set. -/
def isEmpty : Bool :=
  decide (s.routing = {}) && decide (s.features = {}) && decide (s.cache = {})
    && decide (s.rateLimit = {})

/-- Reject a condition with a message. -/
def reject (bad : Bool) (message : String) : Except String Unit :=
  if bad then .error message else .ok ()

/-- Reject tier lists with an empty model id, or without any model. -/
def validateTiers (tiers : TierModels) : Except String Unit :=
  match Tier.all.find? fun t => (tiers.get t).any fun m => (trim m).isEmpty with
  | some t => .error ("routing.tiers." ++ t.asStr ++ " contains an empty model id")
  | none => reject (!hasCandidates tiers) "routing.tiers must list at least one model"

/-- Reject values the gateway could not apply. -/
def validate : Except String Unit := do
  reject (s.routing.goldSampleRate.any fun rate =>
      !(decide (0.0 ≤ rate) && decide (rate ≤ 1.0)) || rate.isNaN)
    "routing.gold_sample_rate must be between 0 and 1"
  reject (s.routing.llmClassifierModel.any fun m => (trim m).isEmpty)
    "routing.llm_classifier_model must not be empty"
  -- an override of the tiers replaces all four
  match s.routing.tiers with
  | some tiers => validateTiers tiers
  | none => .ok ()
  reject (s.cache.defaultTtlSecs.any fun ttl => ttl == 0 || decide (maxCacheTtlSecs < ttl))
    ("cache.default_ttl_secs must be between 1 and " ++ Nat.repr maxCacheTtlSecs)
  reject (s.rateLimit.defaultRpm.any fun rpm => rpm == 0)
    "rate_limit.default_rpm must be at least 1"

/-- The auto-routing configuration with these overrides applied. -/
def applyToAuto (base : AutoRoutingConfig) : AutoRoutingConfig :=
  let r := s.routing
  { base with
    enabled := r.enabled.getD base.enabled
    shadowForPinnedModels := r.shadowForPinnedModels.getD base.shadowForPinnedModels
    defaultMode := r.defaultMode.getD base.defaultMode
    defaultClassifier := r.defaultClassifier.getD base.defaultClassifier
    withinTier := r.withinTier.getD base.withinTier
    stickyToolLoops := r.stickyToolLoops.getD base.stickyToolLoops
    tiers :=
      match r.tiers with
      | some tiers =>
          { simple := cleaned tiers.simple
            medium := cleaned tiers.medium
            complex := cleaned tiers.complex
            reasoning := cleaned tiers.reasoning }
      | none => base.tiers
    llmClassifier :=
      { base.llmClassifier with
        model := (r.llmClassifierModel.map trim).getD base.llmClassifier.model }
    goldSampleRate := r.goldSampleRate.getD base.goldSampleRate
    escalation :=
      { base.escalation with enabled := r.escalationEnabled.getD base.escalation.enabled } }

variable {s}

/-- The empty document is the only one without a field set. -/
theorem isEmpty_iff : s.isEmpty = true ↔ s = {} := by
  obtain ⟨routing, features, cache, rateLimit⟩ := s
  simp [isEmpty, and_assoc]

end GatewaySettings

end AuraGateway.Settings
