import AuraGateway.Router.Scorer

/-!
# The order of the modes

The scorer, over any arithmetic. On doubles it is the scorer of the gateway (`score_float`).
With exact numbers every stage behind the weighted sum keeps the order of the offsets: the
clamp, the rounding to three decimals and the three boundaries, which need not be ordered. So a
higher offset never gives a lower tier (`tier_le_of_offset_le`).
-/

set_option autoImplicit false

namespace AuraGateway.Router.Scoring

open AuraGateway.RustStd AuraGateway.Types

/-! ## Arithmetic -/

/-- What the scorer uses of its numbers, besides the operators. -/
class ScoreOps (R : Type) where
  ofNat : Nat → R
  abs : R → R
  max : R → R → R
  round : R → R
  epsilon : R

instance : ScoreOps Float where
  ofNat := Nat.toFloat
  abs := Float.abs
  max := f64Max
  round := f64Round
  epsilon := f64Epsilon

/-- To the nearest integer, halfway cases away from zero. -/
def roundAway (x : ℚ) : ℚ := if x < 0 then -⌊-x + 1 / 2⌋ else ⌊x + 1 / 2⌋

/-- Exact numbers. -/
instance : ScoreOps ℚ where
  ofNat := Nat.cast
  abs x := |x|
  max := Max.max
  round := roundAway
  epsilon := 1 / 2 ^ 52

/-! ## The scorer -/

/-- Weights for the features. -/
structure Weights (R : Type) where
  tokens : R
  code : R
  reasoning : R
  technical : R
  simple : R
  multiStep : R
  questions : R
  tools : R
  explicitIntent : R
  continuation : R
  outputLength : R

/-- Score boundaries between tiers. -/
structure Boundaries (R : Type) where
  simpleMedium : R
  mediumComplex : R
  complexReasoning : R

/-- Score offsets per mode. -/
structure Offsets (R : Type) where
  cost : R
  balanced : R
  quality : R

/-- The features that are scored. -/
structure Features (R : Type) where
  estInputTokens : Nat
  code : R
  reasoning : R
  technical : R
  simple : R
  multiStep : R
  questionMarks : Nat
  toolRequired : Bool
  toolCount : Nat
  explicitIntent : Option IntentHint
  isContinuation : Bool
  maxOutputTokens : Option Nat
  reasoningMatches : Nat

/-- Rule-based scorer. -/
structure Scorer (R : Type) where
  weights : Weights R
  thresholds : TokenThresholds
  boundaries : Boundaries R
  offsets : Offsets R
  reasoningOverrideMatches : Nat

/-- Output of the scorer. -/
structure Scored (R : Type) where
  rawScore : R
  score : R
  tier : Tier
  signals : BTreeMap R
  notes : List String

section Generic

variable {R : Type} [Add R] [Sub R] [Mul R] [Div R] [Neg R] [OfScientific R] [LE R] [LT R]
  [DecidableLE R] [DecidableLT R] [ScoreOps R]

/-- Map a score to a tier. -/
def Boundaries.tierFor (b : Boundaries R) (score : R) : Tier :=
  if b.complexReasoning ≤ score then .reasoning
  else if b.mediumComplex ≤ score then .complex
  else if b.simpleMedium ≤ score then .medium
  else .simple

/-- Offset for a mode. -/
def Offsets.forMode (o : Offsets R) : RoutingMode → R
  | .cost => o.cost
  | .balanced => o.balanced
  | .quality => o.quality

def clamp (x lo hi : R) : R :=
  let x := if x < lo then lo else x
  if hi < x then hi else x

/-- Clamp to the unit interval. -/
def clamp01 (x : R) : R := clamp x 0.0 1.0

/-- Round to three decimal places. -/
def roundMilli (x : R) : R := ScoreOps.round (x * 1000.0) / 1000.0

/-- Token-count feature: `-1` up to the short threshold, then rising to `1`. -/
def Scorer.tokenFeature (s : Scorer R) (tokens : Nat) : R :=
  let short : R := ScoreOps.ofNat s.thresholds.short
  let long : R := ScoreOps.max (ScoreOps.ofNat s.thresholds.long) (short + 1.0)
  let t : R := ScoreOps.ofNat tokens
  if t ≤ short then -1.0 else clamp ((t - short) / (long - short)) 0.0 1.0

/-- Add one weighted feature to the running sum and record it when it is not negligible. -/
def addSignal (acc : R × BTreeMap R) (feature : String × R × R) : R × BTreeMap R :=
  let c := feature.2.1 * feature.2.2
  (acc.1 + c,
    if ScoreOps.epsilon < ScoreOps.abs c then BTreeMap.insert feature.1 (roundMilli c) acc.2
    else acc.2)

/-- The weighted features in the order the scorer adds them: name, weight, value. -/
def Scorer.terms (s : Scorer R) (f : Features R) : List (String × R × R) :=
  let w := s.weights
  let toolsValue : R := if f.toolRequired then 1.0 else if 0 < f.toolCount then 0.5 else 0.0
  let intentValue : R :=
    match f.explicitIntent with
    | some .quick => -1.0
    | some .deep => 1.0
    | none => 0.0
  let longOutput := (f.maxOutputTokens.map fun m => decide (s.thresholds.longOutput ≤ m)).getD false
  [("tokens", w.tokens, s.tokenFeature f.estInputTokens),
    ("code", w.code, f.code),
    ("reasoning", w.reasoning, f.reasoning),
    ("technical", w.technical, f.technical),
    ("simple", w.simple, -f.simple),
    ("multi_step", w.multiStep, f.multiStep),
    ("questions", w.questions, if 3 < f.questionMarks then 0.5 else 0.0),
    ("tools", w.tools, toolsValue),
    ("explicit_intent", w.explicitIntent, intentValue),
    ("continuation", w.continuation, if f.isContinuation then 0.5 else 0.0),
    ("output_length", w.outputLength, if longOutput then 0.5 else 0.0)]

/-- Score a feature vector under a mode. -/
def Scorer.score (s : Scorer R) (f : Features R) (mode : RoutingMode) : Scored R :=
  let (raw, signals) := (s.terms f).foldl addSignal (0.0, [])
  let rawScore := roundMilli (clamp raw (-1.0) 1.0)
  let offset := s.offsets.forMode mode
  let score := roundMilli (clamp01 (rawScore + offset))
  let signals :=
    if ScoreOps.epsilon < ScoreOps.abs offset then BTreeMap.insert "mode_offset" offset signals
    else signals
  let tier := s.boundaries.tierFor score
  -- enough reasoning markers decide for the top tier, unless a quick answer is asked for
  if 0 < s.reasoningOverrideMatches && s.reasoningOverrideMatches ≤ f.reasoningMatches
      && f.explicitIntent != some .quick then
    { rawScore, score, tier := .reasoning, signals
      notes :=
        if tier < .reasoning then
          ["reasoning override: " ++ Nat.repr f.reasoningMatches ++ " reasoning markers"]
        else [] }
  else { rawScore, score, tier, signals, notes := [] }

end Generic

/-! ## The scorer of the gateway -/

/-- The gateway's scorer as one on doubles. -/
def ofHeuristic (s : HeuristicScorer) : Scorer Float where
  weights :=
    { tokens := s.weights.tokens
      code := s.weights.code
      reasoning := s.weights.reasoning
      technical := s.weights.technical
      simple := s.weights.simple
      multiStep := s.weights.multiStep
      questions := s.weights.questions
      tools := s.weights.tools
      explicitIntent := s.weights.explicitIntent
      continuation := s.weights.continuation
      outputLength := s.weights.outputLength }
  thresholds := s.thresholds
  boundaries := ⟨s.boundaries.simpleMedium, s.boundaries.mediumComplex, s.boundaries.complexReasoning⟩
  offsets := ⟨s.offsets.cost, s.offsets.balanced, s.offsets.quality⟩
  reasoningOverrideMatches := s.reasoningOverrideMatches

def ofFeatures (f : RequestFeatures) : Features Float where
  estInputTokens := f.estInputTokens
  code := f.code
  reasoning := f.reasoning
  technical := f.technical
  simple := f.simple
  multiStep := f.multiStep
  questionMarks := f.questionMarks
  toolRequired := f.toolRequired
  toolCount := f.toolCount
  explicitIntent := f.explicitIntent
  isContinuation := f.isContinuation
  maxOutputTokens := f.maxOutputTokens
  reasoningMatches := f.reasoningMatches

def ofResult (r : ScoreResult) : Scored Float := ⟨r.rawScore, r.score, r.tier, r.signals, r.notes⟩

theorem terms_float (s : HeuristicScorer) (f : RequestFeatures) :
    (ofHeuristic s).terms (ofFeatures f) = s.terms f := rfl

theorem forMode_float (s : HeuristicScorer) (mode : RoutingMode) :
    (ofHeuristic s).offsets.forMode mode = s.offsets.forMode mode := by
  cases mode <;> rfl

/-- On doubles this is the scorer of the gateway. -/
theorem score_float (s : HeuristicScorer) (f : RequestFeatures) (mode : RoutingMode) :
    (ofHeuristic s).score (ofFeatures f) mode = ofResult (s.score f mode) := by
  rw [Scorer.score, HeuristicScorer.score, terms_float, forMode_float]
  dsimp only
  rw [apply_ite ofResult]
  rfl

/-! ## Exact numbers -/

theorem roundAway_mono {x y : ℚ} (h : x ≤ y) : roundAway x ≤ roundAway y := by
  have hfloor : ∀ {x y : ℚ}, x ≤ y → ((⌊x + 1 / 2⌋ : ℤ) : ℚ) ≤ (⌊y + 1 / 2⌋ : ℤ) := by
    intro x y h
    exact_mod_cast Int.floor_le_floor (by linarith)
  have hnonneg : ∀ {x : ℚ}, 0 ≤ x → (0 : ℚ) ≤ (⌊x + 1 / 2⌋ : ℤ) := by
    intro x hx
    exact_mod_cast Int.floor_nonneg.mpr (by linarith)
  rw [roundAway, roundAway]
  by_cases hx : x < 0
  · rw [if_pos hx]
    by_cases hy : y < 0
    · rw [if_pos hy]
      exact neg_le_neg (hfloor (neg_le_neg h))
    · -- from below zero to above
      rw [if_neg hy]
      have h₁ := hnonneg (neg_nonneg.mpr hx.le)
      have h₂ := hnonneg (not_lt.mp hy)
      linarith
  · rw [if_neg hx, if_neg (not_lt.mpr ((not_lt.mp hx).trans h))]
    exact hfloor h

theorem clamp_mono {R : Type} [LinearOrder R] {x y lo hi : R} (h : x ≤ y) :
    clamp x lo hi ≤ clamp y lo hi := by
  rw [clamp, clamp]
  split_ifs <;> order

theorem roundMilli_mono {x y : ℚ} (h : x ≤ y) : roundMilli x ≤ roundMilli y := by
  rw [roundMilli, roundMilli]
  refine div_le_div_of_nonneg_right (roundAway_mono ?_) (by norm_num)
  exact mul_le_mul_of_nonneg_right h (by norm_num)

/-- The boundaries may come in any order. -/
theorem Boundaries.tierFor_mono {R : Type} [LinearOrder R] (b : Boundaries R) {x y : R} (h : x ≤ y) :
    b.tierFor x ≤ b.tierFor y := by
  rw [Tier.le_iff_ordinal, tierFor, tierFor]
  by_cases h₁ : b.complexReasoning ≤ x
  · rw [if_pos h₁, if_pos (h₁.trans h)]
  · rw [if_neg h₁]
    by_cases h₂ : b.mediumComplex ≤ x
    · rw [if_pos h₂, if_pos (h₂.trans h)]
      split <;> decide
    · rw [if_neg h₂]
      by_cases h₃ : b.simpleMedium ≤ x
      · rw [if_pos h₃, if_pos (h₃.trans h)]
        split_ifs <;> decide
      · rw [if_neg h₃]
        exact Nat.zero_le _

section Modes

variable (s : Scorer ℚ) (f : Features ℚ)

/-- The score before the offset is the same in every mode. -/
theorem Scorer.rawScore_eq (mode mode' : RoutingMode) :
    (s.score f mode).rawScore = (s.score f mode').rawScore := by
  rw [score, score]
  dsimp only
  split <;> rfl

/-- The tier of a mode: that of the shifted score, unless the reasoning markers decide. -/
theorem Scorer.tier_score (mode : RoutingMode) :
    (s.score f mode).tier =
      if 0 < s.reasoningOverrideMatches && s.reasoningOverrideMatches ≤ f.reasoningMatches
          && f.explicitIntent != some .quick then .reasoning
      else s.boundaries.tierFor
        (roundMilli (clamp01 ((s.score f .balanced).rawScore + s.offsets.forMode mode))) := by
  rw [s.rawScore_eq f .balanced mode, score]
  dsimp only
  split <;> rfl

/-- A higher offset never gives a lower tier. -/
theorem Scorer.tier_le_of_offset_le {mode mode' : RoutingMode}
    (h : s.offsets.forMode mode ≤ s.offsets.forMode mode') :
    (s.score f mode).tier ≤ (s.score f mode').tier := by
  rw [s.tier_score f mode, s.tier_score f mode']
  split
  · exact le_rfl
  · apply Boundaries.tierFor_mono
    apply roundMilli_mono
    apply clamp_mono
    linarith

/-- Modes in the order of their offsets give tiers in the same order. -/
theorem tiers_follow_modes (hcost : s.offsets.cost ≤ s.offsets.balanced)
    (hquality : s.offsets.balanced ≤ s.offsets.quality) :
    (s.score f .cost).tier ≤ (s.score f .balanced).tier
      ∧ (s.score f .balanced).tier ≤ (s.score f .quality).tier :=
  ⟨s.tier_le_of_offset_le f hcost, s.tier_le_of_offset_le f hquality⟩

end Modes

namespace Sample

/-- The default weights and offsets, and boundaries out of order. -/
def scorer : Scorer ℚ where
  weights :=
    { tokens := 0.10
      code := 0.30
      reasoning := 0.25
      technical := 0.25
      simple := 0.05
      multiStep := 0.03
      questions := 0.02
      tools := 0.15
      explicitIntent := 0.30
      continuation := 0.05
      outputLength := 0.05 }
  thresholds := {}
  boundaries := ⟨0.15, 0.60, 0.35⟩
  offsets := ⟨-0.10, 0.0, 0.15⟩
  reasoningOverrideMatches := 2

/-- A short question about code. -/
def features : Features ℚ where
  estInputTokens := 200
  code := 1.0
  reasoning := 0.0
  technical := 0.0
  simple := 1.0
  multiStep := 0.0
  questionMarks := 1
  toolRequired := false
  toolCount := 0
  explicitIntent := none
  isContinuation := false
  maxOutputTokens := none
  reasoningMatches := 0

end Sample

example : (Sample.scorer.score Sample.features .balanced).tier = .medium
    ∧ (Sample.scorer.score Sample.features .quality).tier = .reasoning := by decide +kernel

theorem tiers_follow_modes_sample :
    (Sample.scorer.score Sample.features .cost).tier
        ≤ (Sample.scorer.score Sample.features .balanced).tier
      ∧ (Sample.scorer.score Sample.features .balanced).tier
        ≤ (Sample.scorer.score Sample.features .quality).tier :=
  tiers_follow_modes Sample.scorer Sample.features (by decide +kernel) (by decide +kernel)

end AuraGateway.Router.Scoring
