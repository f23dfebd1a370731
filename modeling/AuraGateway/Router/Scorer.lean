import AuraGateway.Router.Features

/-!
# Heuristic complexity scorer

Combines the features into one score with the configured weights, applies the
mode offset and the tier boundaries, and records the signals that fired.
-/

set_option autoImplicit false

namespace AuraGateway.Router

open AuraGateway.RustStd AuraGateway.Types

/-- Version tag recorded with every heuristic decision. -/
def heuristicVersion : String := "heuristic@v1"

/-- Output of the scorer. -/
structure ScoreResult where
  rawScore : Float
  score : Float
  tier : Tier
  signals : BTreeMap Float
  notes : List String

/-- Rule-based scorer. -/
structure HeuristicScorer where
  weights : FeatureWeights
  thresholds : TokenThresholds
  boundaries : TierBoundaries
  offsets : ModeOffsets
  reasoningOverrideMatches : Nat

/-- Build a scorer from config. -/
def HeuristicScorer.new (config : AutoRoutingConfig) : HeuristicScorer :=
  { weights := config.weights
    thresholds := config.tokenThresholds
    boundaries := config.boundaries
    offsets := config.modeOffsets
    reasoningOverrideMatches := config.reasoningOverrideMatches }

/-- Clamp to the unit interval. -/
def clamp01 (x : Float) : Float := f64Clamp x 0.0 1.0

/-- Round to three decimal places. -/
def roundMilli (x : Float) : Float := f64Round (x * 1000.0) / 1000.0

/-- Token-count feature: `-1` up to the short threshold, then rising to `1`. -/
def HeuristicScorer.tokenFeature (s : HeuristicScorer) (tokens : Nat) : Float :=
  let short := s.thresholds.short.toFloat
  let long := f64Max s.thresholds.long.toFloat (short + 1.0)
  let t := tokens.toFloat
  if t ≤ short then -1.0 else f64Clamp ((t - short) / (long - short)) 0.0 1.0

/-- Add one weighted feature to the running sum and record it when it is not negligible. -/
def addSignal (acc : Float × BTreeMap Float) (feature : String × Float × Float) :
    Float × BTreeMap Float :=
  let c := feature.2.1 * feature.2.2
  (acc.1 + c,
    if f64Epsilon < c.abs then BTreeMap.insert feature.1 (roundMilli c) acc.2 else acc.2)

/-- The weighted features in the order the scorer adds them: name, weight, value. -/
def HeuristicScorer.terms (s : HeuristicScorer) (f : RequestFeatures) :
    List (String × Float × Float) :=
  let w := s.weights
  let toolsValue := if f.toolRequired then 1.0 else if 0 < f.toolCount then 0.5 else 0.0
  let intentValue :=
    match f.explicitIntent with
    | some .quick => -1.0
    | some .deep => 1.0
    | none => 0.0
  let longOutput := (f.maxOutputTokens.map fun m => decide (s.thresholds.longOutput ≤ m)).getD false
  [("tokens", w.tokens, s.tokenFeature f.estInputTokens),
    ("code", w.code, f.code),
    ("reasoning", w.reasoning, f.reasoning),
    ("technical", w.technical, f.technical),
    ("simple", w.simple, -f.simple),
    ("multi_step", w.multiStep, f.multiStep),
    ("questions", w.questions, if 3 < f.questionMarks then 0.5 else 0.0),
    ("tools", w.tools, toolsValue),
    ("explicit_intent", w.explicitIntent, intentValue),
    ("continuation", w.continuation, if f.isContinuation then 0.5 else 0.0),
    ("output_length", w.outputLength, if longOutput then 0.5 else 0.0)]

/-- Score a feature vector under a mode. -/
def HeuristicScorer.score (s : HeuristicScorer) (f : RequestFeatures) (mode : RoutingMode) :
    ScoreResult :=
  let (raw, signals) := (s.terms f).foldl addSignal (0.0, [])
  let rawScore := roundMilli (f64Clamp raw (-1.0) 1.0)
  let offset := s.offsets.forMode mode
  let score := roundMilli (clamp01 (rawScore + offset))
  let signals :=
    if f64Epsilon < offset.abs then BTreeMap.insert "mode_offset" offset signals else signals
  let tier := s.boundaries.tierFor score
  -- enough reasoning markers decide for the top tier, unless a quick answer is asked for
  if 0 < s.reasoningOverrideMatches && s.reasoningOverrideMatches ≤ f.reasoningMatches
      && f.explicitIntent != some .quick then
    { rawScore, score, tier := .reasoning, signals
      notes :=
        if tier < .reasoning then
          ["reasoning override: " ++ Nat.repr f.reasoningMatches ++ " reasoning markers"]
        else [] }
  else { rawScore, score, tier, signals, notes := [] }

end AuraGateway.Router
