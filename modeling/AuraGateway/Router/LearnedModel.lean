import AuraGateway.Foundations.Softmax
import AuraGateway.Router.ModeOrder

/-!
# The learned classifier

A multinomial logistic regression over the 24 numbers that a request's features are turned into,
over any arithmetic. An index out of range is a panic of the process, `none` here. A model that
`validate` accepts answers every request (`classify_of_validate`). With exact numbers its
probabilities are a distribution (`prediction_distribution`), and the tier does not fall when the
features move the way their weights do or the offset rises (`classify_mono`).
-/

set_option autoImplicit false
set_option linter.unusedSectionVars false

namespace AuraGateway.Router.Learned

open AuraGateway.RustStd AuraGateway.Types Scoring

/-! ## Arithmetic -/

/-- What the classifier and the cost model use of their numbers, besides the operators. -/
class ModelOps (R : Type) where
  ofNat : Nat → R
  max : R → R → R
  exp : R → R
  ln : R → R
  negInfinity : R
  isFinite : R → Bool

instance : ModelOps Float where
  ofNat := Nat.toFloat
  max := f64Max
  exp := Float.exp
  ln := Float.log
  negInfinity := -(1.0 / 0.0)
  isFinite := Float.isFinite

/-- Exact numbers. The running maximum of the logits starts anywhere: a common shift of the logits
leaves the probabilities alone. -/
noncomputable instance : ModelOps ℝ where
  ofNat := Nat.cast
  max := Max.max
  exp := Real.exp
  ln := Real.log
  negInfinity := 0
  isFinite _ := true

/-! ## The feature vector -/

/-- Canonical feature order. -/
def featureNames : List String :=
  ["log_input_tokens", "log_last_user_tokens", "input_items", "user_messages",
    "function_call_outputs", "is_continuation", "is_tool_loop_turn", "tool_count",
    "tool_required", "has_images", "log_max_output_tokens", "code", "code_matches", "reasoning",
    "reasoning_matches", "technical", "technical_matches", "simple", "simple_matches",
    "multi_step", "question_marks", "intent_quick", "intent_deep", "non_ascii_ratio"]

/-- The features of a request that are turned into numbers. -/
structure Inputs (R : Type) where
  estInputTokens : Nat
  estLastUserTokens : Nat
  inputItems : Nat
  userMessages : Nat
  functionCallOutputs : Nat
  isContinuation : Bool
  isToolLoopTurn : Bool
  toolCount : Nat
  toolRequired : Bool
  hasImages : Bool
  maxOutputTokens : Option Nat
  code : R
  codeMatches : Nat
  reasoning : R
  reasoningMatches : Nat
  technical : R
  technicalMatches : Nat
  simple : R
  simpleMatches : Nat
  multiStep : R
  questionMarks : Nat
  explicitIntent : Option IntentHint
  nonAsciiRatio : R

/-- The features of a request, on doubles. -/
def ofRequest (f : RequestFeatures) : Inputs Float where
  estInputTokens := f.estInputTokens
  estLastUserTokens := f.estLastUserTokens
  inputItems := f.inputItems
  userMessages := f.userMessages
  functionCallOutputs := f.functionCallOutputs
  isContinuation := f.isContinuation
  isToolLoopTurn := f.isToolLoopTurn
  toolCount := f.toolCount
  toolRequired := f.toolRequired
  hasImages := f.hasImages
  maxOutputTokens := f.maxOutputTokens
  code := f.code
  codeMatches := f.codeMatches
  reasoning := f.reasoning
  reasoningMatches := f.reasoningMatches
  technical := f.technical
  technicalMatches := f.technicalMatches
  simple := f.simple
  simpleMatches := f.simpleMatches
  multiStep := f.multiStep
  questionMarks := f.questionMarks
  explicitIntent := f.explicitIntent
  nonAsciiRatio := f.nonAsciiRatio

section Generic

variable {R : Type} [Add R] [Sub R] [Mul R] [Div R] [OfScientific R] [LE R] [LT R]
  [DecidableLE R] [DecidableLT R] [ModelOps R]

/-- Turn the features into the canonical numeric vector. -/
def featurize (f : Inputs R) : List R :=
  let b (x : Bool) : R := if x then 1.0 else 0.0
  let ln1p (x : Nat) : R := ModelOps.ln (ModelOps.ofNat x + 1.0)
  let count (x : Nat) : R := ModelOps.ofNat (min x 50)
  [ln1p f.estInputTokens, ln1p f.estLastUserTokens, count f.inputItems, count f.userMessages,
    count f.functionCallOutputs, b f.isContinuation, b f.isToolLoopTurn, count f.toolCount,
    b f.toolRequired, b f.hasImages, ln1p (f.maxOutputTokens.getD 0), f.code, count f.codeMatches,
    f.reasoning, count f.reasoningMatches, f.technical, count f.technicalMatches, f.simple,
    count f.simpleMatches, f.multiStep, count f.questionMarks,
    b (f.explicitIntent == some .quick), b (f.explicitIntent == some .deep), f.nonAsciiRatio]

theorem length_featurize (f : Inputs R) : (featurize f).length = featureNames.length := rfl

/-- The sum of the standardised features, each with its weight, on top of an intercept. -/
def linearSum (mean scale coef : List R) (intercept : R) (x : List R) : Option R :=
  x.zipIdx.foldlM (fun z e => do
    let mean ← mean[e.2]?
    let scale ← scale[e.2]?
    let weight ← coef[e.2]?
    some (z + weight * ((e.1 - mean) / scale))) intercept

/-! ## The model -/

/-- A trained model as it is stored. -/
structure LearnedModel (R : Type) where
  name : String
  version : String
  featureNames : List String
  mean : List R
  scale : List R
  classes : List Tier
  coef : List (List R)
  intercept : List R
  boundaries : Option (Boundaries R)
  metrics : Json

/-- Why a model file was rejected. -/
inductive LearnedModelError where
  | featureMismatch
  | classMismatch
  | shape
  | scale
  deriving DecidableEq, Repr

/-- The text of a rejection. -/
def LearnedModelError.message : LearnedModelError → String
  | .featureMismatch => "feature names do not match the gateway's feature vector"
  | .classMismatch => "classes must be [simple, medium, complex, reasoning]"
  | .shape => "weights have the wrong shape"
  | .scale => "scale entries must be positive"

/-- The names of a model differ from the gateway's feature vector. -/
def namesMismatch (names : List String) : Bool :=
  names.length != featureNames.length || (names.zip featureNames).any fun e => e.1 != e.2

/-- Prediction for one request: a probability for each tier, the expected tier position and the
most likely tier. -/
structure LearnedPrediction (R : Type) where
  probs : Fin 4 → R
  score : R
  argmax : Tier

/-- The tier at a position of the class order. -/
def tierAt (i : Fin 4) : Tier := Tier.all[i]

/-- The position of a tier in the class order. -/
def position (t : Tier) : Fin 4 :=
  match t with
  | .simple => 0
  | .medium => 1
  | .complex => 2
  | .reasoning => 3

/-- The position of the largest value, the last one of several. -/
def lastMax (p : Fin 4 → R) : Fin 4 :=
  (List.finRange 4).foldl (fun best i => if p i < p best then best else i) 0

/-- Probabilities of the logits, shifted by their maximum. -/
def probabilities (logits : Fin 4 → R) : Fin 4 → R :=
  let max := (List.ofFn logits).foldl ModelOps.max ModelOps.negInfinity
  let weight (i : Fin 4) : R := ModelOps.exp (logits i - max)
  let sum := (List.ofFn weight).foldl (· + ·) 0.0
  fun i => weight i / sum

/-- The expected tier position. -/
def expectedPosition (p : Fin 4 → R) : R :=
  Scoring.clamp01 ((List.ofFn fun i => p i * ModelOps.ofNat i.val / 3.0).foldl (· + ·) 0.0)

namespace LearnedModel

/-- Validate shapes and names. -/
def validate (m : LearnedModel R) : Except LearnedModelError Unit :=
  let f := Learned.featureNames.length
  if namesMismatch m.featureNames then .error .featureMismatch
  else if m.classes != Tier.all then .error .classMismatch
  else if m.mean.length != f || m.scale.length != f || m.coef.length != 4
      || m.coef.any (fun row => row.length != f) || m.intercept.length != 4 then .error .shape
  else if m.scale.any fun s => s ≤ 0.0 || !ModelOps.isFinite s then .error .scale
  else if m.coef.flatten.any (fun v => !ModelOps.isFinite v)
      || m.intercept.any (fun v => !ModelOps.isFinite v)
      || m.mean.any (fun v => !ModelOps.isFinite v) then .error .shape
  else .ok ()

/-- Parse and validate a JSON model. The reader of the JSON is a parameter. -/
def fromJson (read : Json → Except String (LearnedModel R)) (json : Json) :
    Except String (LearnedModel R) :=
  match read json with
  | .error e => .error ("invalid model json: " ++ e)
  | .ok model =>
    match model.validate with
    | .error e => .error e.message
    | .ok () => .ok model

/-- The logit of a class. -/
def logit (m : LearnedModel R) (x : List R) (c : Fin 4) : Option R := do
  let intercept ← m.intercept[c.val]?
  let row ← m.coef[c.val]?
  linearSum m.mean m.scale row intercept x

/-- Class probabilities and expected score for a feature vector. -/
def predict (m : LearnedModel R) (features : Inputs R) : Option (LearnedPrediction R) := do
  let x := featurize features
  let l₀ ← m.logit x 0
  let l₁ ← m.logit x 1
  let l₂ ← m.logit x 2
  let l₃ ← m.logit x 3
  let probs := probabilities ![l₀, l₁, l₂, l₃]
  some ⟨probs, expectedPosition probs, tierAt (lastMax probs)⟩

/-- Tier, adjusted score and confidence for a request under a mode: the expected score plus the
mode's offset, through the boundaries of the model or else the gateway's. -/
def classify (m : LearnedModel R) (features : Inputs R) (mode : RoutingMode)
    (fallback : Boundaries R) (offsets : Offsets R) : Option (Tier × R × R) := do
  let pred ← m.predict features
  let score := Scoring.clamp01 (pred.score + offsets.forMode mode)
  let tier := (m.boundaries.getD fallback).tierFor score
  some (tier, score, pred.probs (position tier))

/-- Label recorded on decisions. -/
def classifierLabel (m : LearnedModel R) : String := "learned@" ++ m.version

end LearnedModel

end Generic

theorem position_eq (t : Tier) : Tier.all.findIdx? (fun u => u == t) = some (position t).val := by
  cases t <;> decide

theorem position_tierAt (i : Fin 4) : position (tierAt i) = i := by fin_cases i <;> rfl

/-! ## Accepted models -/

section Accepted

/-- A fold whose steps all succeed. -/
theorem foldlM_some {α β : Type} {f : β → α → Option β} {g : β → α → β} {l : List α}
    (h : ∀ a ∈ l, ∀ b, f b a = some (g b a)) (b : β) : l.foldlM f b = some (l.foldl g b) := by
  induction l generalizing b with
  | nil => rfl
  | cons a l ih =>
      rw [List.foldlM_cons, h a List.mem_cons_self b, List.foldl_cons]
      exact ih (fun a ha => h a (List.mem_cons_of_mem _ ha)) _

variable {R : Type} [Add R] [Sub R] [Mul R] [Div R] [OfScientific R] [LE R] [LT R]
  [DecidableLE R] [DecidableLT R] [ModelOps R]

/-- What `validate` asks of a model. -/
structure LearnedModel.Accepted (m : LearnedModel R) : Prop where
  names : namesMismatch m.featureNames = false
  classes : m.classes = Tier.all
  mean : m.mean.length = Learned.featureNames.length
  scale : m.scale.length = Learned.featureNames.length
  coef : m.coef.length = 4
  rows : ∀ row ∈ m.coef, row.length = Learned.featureNames.length
  intercept : m.intercept.length = 4
  scalePos : ∀ s ∈ m.scale, ¬ s ≤ 0.0 ∧ ModelOps.isFinite s = true
  coefFinite : ∀ row ∈ m.coef, ∀ v ∈ row, ModelOps.isFinite v = true
  interceptFinite : ∀ v ∈ m.intercept, ModelOps.isFinite v = true
  meanFinite : ∀ v ∈ m.mean, ModelOps.isFinite v = true

theorem LearnedModel.validate_ok_iff (m : LearnedModel R) : m.validate = .ok () ↔ m.Accepted := by
  constructor
  · intro h
    simp only [validate] at h
    split_ifs at h with hnames hclasses hshape hscale hfinite
    simp only [Bool.not_eq_true, bne_eq_false_iff_eq, List.any_eq_false, Bool.not_eq_eq_eq_not,
      Bool.not_true, Bool.not_eq_false, decide_eq_true_eq, not_or, Bool.or_eq_true]
      at hnames hclasses hshape hscale hfinite
    obtain ⟨⟨⟨⟨hmean, hlength⟩, hcoef⟩, hrows⟩, hintercept⟩ := hshape
    exact ⟨hnames, hclasses, hmean, hlength, hcoef, hrows, hintercept, hscale,
      fun row hrow v hv => hfinite.1.1 v (List.mem_flatten_of_mem hrow hv), hfinite.1.2, hfinite.2⟩
  · intro h
    have hscale : ¬ (m.scale.any fun s => s ≤ 0.0 || !ModelOps.isFinite s) = true := by
      simpa using h.scalePos
    have hfinite := And.intro (And.intro h.coefFinite h.interceptFinite) h.meanFinite
    rw [validate, if_neg (by simp [h.names]), if_neg (by simp [h.classes]),
      if_neg (by simpa [h.mean, h.scale, h.coef, h.intercept] using h.rows), if_neg hscale,
      if_neg (by simpa using hfinite)]

/-- The weighted sum where no index is out of range. -/
def linearTotal (mean scale coef : List R) (intercept : R) (x : List R) : R :=
  x.zipIdx.foldl (fun z e =>
    z + coef.getD e.2 0.0 * ((e.1 - mean.getD e.2 0.0) / scale.getD e.2 0.0)) intercept

/-- No index is out of range where the lists are as long as the vector. -/
theorem linearSum_eq {mean scale coef x : List R} (hmean : mean.length = x.length)
    (hscale : scale.length = x.length) (hcoef : coef.length = x.length) (z : R) :
    linearSum mean scale coef z x = some (linearTotal mean scale coef z x) := by
  refine foldlM_some (fun e he z => ?_) z
  have hlt := List.snd_lt_of_mem_zipIdx he
  have hget : ∀ l : List R, l.length = x.length → l[e.2]? = some (l.getD e.2 0.0) := by
    intro l hl
    rw [List.getD_eq_getElem?_getD, List.getElem?_eq_getElem (by omega), Option.getD_some]
  rw [hget mean hmean, hget scale hscale, hget coef hcoef]
  rfl

namespace LearnedModel

/-- What is read from JSON has been validated. -/
theorem validate_of_fromJson {read : Json → Except String (LearnedModel R)} {json : Json}
    {m : LearnedModel R} (h : fromJson read json = .ok m) : m.validate = .ok () := by
  simp only [fromJson] at h
  split at h
  · cases h
  split at h
  · cases h
  next hvalid =>
  cases h
  exact hvalid

/-- The row of weights of a class. -/
def row (m : LearnedModel R) (c : Fin 4) : List R := m.coef.getD c []

/-- The logit of a class of an accepted model. -/
def total (m : LearnedModel R) (x : List R) (c : Fin 4) : R :=
  linearTotal m.mean m.scale (m.row c) (m.intercept.getD c 0.0) x

/-- The prediction of an accepted model. -/
def prediction (m : LearnedModel R) (features : Inputs R) : LearnedPrediction R :=
  let probs := probabilities (m.total (featurize features))
  ⟨probs, expectedPosition probs, tierAt (lastMax probs)⟩

variable {m : LearnedModel R}

theorem Accepted.length_row (h : m.Accepted) (c : Fin 4) :
    (m.row c).length = Learned.featureNames.length := by
  have hlt : c.val < m.coef.length := by rw [h.coef]; exact c.isLt
  apply h.rows
  rw [row, List.getD_eq_getElem _ _ hlt]
  exact List.getElem_mem hlt

theorem Accepted.logit_eq (h : m.Accepted) (f : Inputs R) (c : Fin 4) :
    m.logit (featurize f) c = some (m.total (featurize f) c) := by
  have hcoef : m.coef[c.val]? = some (m.row c) := by
    rw [row, List.getD_eq_getElem?_getD, List.getElem?_eq_getElem (by rw [h.coef]; exact c.isLt),
      Option.getD_some]
  have hintercept : m.intercept[c.val]? = some (m.intercept.getD c 0.0) := by
    rw [List.getD_eq_getElem?_getD, List.getElem?_eq_getElem (by rw [h.intercept]; exact c.isLt),
      Option.getD_some]
  rw [logit, hcoef, hintercept]
  exact linearSum_eq h.mean h.scale (h.length_row c) _

theorem Accepted.predict_eq (h : m.Accepted) (f : Inputs R) :
    m.predict f = some (m.prediction f) := by
  simp only [predict, h.logit_eq, Option.bind_eq_bind, Option.bind_some, prediction]
  congr 3 <;>
  · congr 1
    funext i
    fin_cases i <;> rfl

theorem Accepted.classify_eq (h : m.Accepted) (f : Inputs R) (mode : RoutingMode)
    (fallback : Boundaries R) (offsets : Offsets R) :
    m.classify f mode fallback offsets =
      some (let score := Scoring.clamp01 ((m.prediction f).score + offsets.forMode mode)
        let tier := (m.boundaries.getD fallback).tierFor score
        (tier, score, (m.prediction f).probs (position tier))) := by
  rw [classify, h.predict_eq]
  rfl

/-- A model that is accepted answers every request in every mode. -/
theorem classify_of_validate (hm : m.validate = .ok ()) (f : Inputs R) (mode : RoutingMode)
    (fallback : Boundaries R) (offsets : Offsets R) :
    ∃ pred r, m.predict f = some pred ∧ m.classify f mode fallback offsets = some r
      ∧ r.1 = (m.boundaries.getD fallback).tierFor r.2.1
      ∧ r.2.1 = Scoring.clamp01 (pred.score + offsets.forMode mode)
      ∧ r.2.2 = pred.probs (position r.1) := by
  have h := m.validate_ok_iff.mp hm
  exact ⟨_, _, h.predict_eq f, h.classify_eq f mode fallback offsets, rfl, rfl, rfl⟩

end LearnedModel

namespace Sample

/-- Reasoning grows with the markers of reasoning, code pushes to complex, short prompts to simple. -/
def model : LearnedModel R where
  name := "test"
  version := "t1"
  featureNames := featureNames
  mean := List.replicate 24 0.0
  scale := List.replicate 24 1.0
  classes := Tier.all
  coef :=
    let zeros : List R := List.replicate 24 0.0
    [(zeros.set 0 (0.0 - 0.5)).set 17 3.0, zeros, zeros.set 11 3.0, (zeros.set 13 4.0).set 15 1.0]
  intercept := [0.5, 0.5, 0.0, 0.0 - 1.0]
  boundaries := none
  metrics := .object []

/-- A prompt of 200 tokens with so many markers of code and reasoning. -/
def inputs (code reasoning : R) : Inputs R where
  estInputTokens := 200
  estLastUserTokens := 0
  inputItems := 0
  userMessages := 0
  functionCallOutputs := 0
  isContinuation := false
  isToolLoopTurn := false
  toolCount := 0
  toolRequired := false
  hasImages := false
  maxOutputTokens := none
  code := code
  codeMatches := 0
  reasoning := reasoning
  reasoningMatches := 0
  technical := 0.0
  technicalMatches := 0
  simple := 0.0
  simpleMatches := 0
  multiStep := 0.0
  questionMarks := 0
  explicitIntent := none
  nonAsciiRatio := 0.0

def boundaries : Boundaries R := ⟨0.15, 0.35, 0.60⟩

def offsets : Offsets R := ⟨0.0 - 0.10, 0.0, 0.15⟩

end Sample

end Accepted

theorem sample_classify : ∃ pred r,
    (Sample.model : LearnedModel Float).predict (Sample.inputs 1.0 0.0) = some pred
      ∧ (Sample.model : LearnedModel Float).classify (Sample.inputs 1.0 0.0) .balanced
        Sample.boundaries Sample.offsets = some r
      ∧ r.1 = Sample.boundaries.tierFor r.2.1
      ∧ r.2.1 = Scoring.clamp01 (pred.score + 0.0) ∧ r.2.2 = pred.probs (position r.1) :=
  LearnedModel.classify_of_validate rfl (Sample.inputs 1.0 0.0) .balanced Sample.boundaries
    Sample.offsets

/-! ## Exact numbers -/

section Exact

open Foundations Finset

theorem foldl_add_eq {α : Type} (g : α → ℝ) (l : List α) (z : ℝ) :
    l.foldl (fun z a => z + g a) z = z + (l.map g).sum := by
  induction l generalizing z with
  | nil => simp
  | cons a l ih => rw [List.foldl_cons, ih, List.map_cons, List.sum_cons, add_assoc]

/-- The probabilities are the softmax of the logits. -/
theorem probabilities_eq (logits : Fin 4 → ℝ) : probabilities logits = Softmax.softmax logits := by
  rw [← Softmax.softmax_sub logits ((List.ofFn logits).foldl max 0)]
  funext i
  simp only [probabilities, foldl_add_eq (fun a => a), List.map_id', List.sum_ofFn, Softmax.softmax]
  norm_num
  rfl

/-- Positions of the tiers, from zero to one. -/
noncomputable def tierPosition (i : Fin 4) : ℝ := i.val / 3

theorem tierPosition_mem (i : Fin 4) : tierPosition i ∈ Set.Icc 0 1 := by
  fin_cases i <;> norm_num [tierPosition]

theorem tierPosition_mono : Monotone tierPosition := fun i j h =>
  div_le_div_of_nonneg_right (by exact_mod_cast h) (by norm_num)

theorem clamp01_eq_self {x : ℝ} (h : x ∈ Set.Icc 0 1) : Scoring.clamp01 x = x := by
  rw [Scoring.clamp01, clamp]
  norm_num
  rw [if_neg (not_lt.mpr h.1), if_neg (not_lt.mpr h.2)]

/-- The expected position is the mean of the positions. -/
theorem expectedPosition_eq (z : Fin 4 → ℝ) :
    expectedPosition (Softmax.softmax z) = Softmax.mean z tierPosition := by
  have hmean := Softmax.mean_mem_Icc z tierPosition tierPosition_mem
  have hsum : (List.ofFn fun i : Fin 4 => Softmax.softmax z i * ModelOps.ofNat i.val / 3.0).foldl
      (· + ·) 0.0 = Softmax.mean z tierPosition := by
    rw [foldl_add_eq (fun a => a), List.map_id', List.sum_ofFn, Softmax.mean]
    norm_num
    exact sum_congr rfl fun i _ => mul_div_assoc _ _ _
  rw [expectedPosition, hsum, clamp01_eq_self hmean]

theorem expectedPosition_mem (z : Fin 4 → ℝ) :
    expectedPosition (Softmax.softmax z) ∈ Set.Icc 0 1 := by
  rw [expectedPosition_eq]
  exact Softmax.mean_mem_Icc z tierPosition tierPosition_mem

/-- No value is above the one found. -/
theorem le_lastMax (p : Fin 4 → ℝ) (i : Fin 4) : p i ≤ p (lastMax p) := by
  have hfold : ∀ (l : List (Fin 4)) (best : Fin 4) (i : Fin 4), (i = best ∨ i ∈ l) →
      p i ≤ p (l.foldl (fun best i => if p i < p best then best else i) best) := by
    intro l
    induction l with
    | nil =>
        intro best i hi
        obtain rfl | hi := hi
        · exact le_rfl
        · cases hi
    | cons a l ih =>
        intro best i hi
        rw [List.foldl_cons]
        by_cases hlt : p a < p best
        · rw [if_pos hlt]
          obtain rfl | hi := hi
          · exact ih _ _ (.inl rfl)
          obtain rfl | hi := List.mem_cons.mp hi
          · exact hlt.le.trans (ih best best (.inl rfl))
          · exact ih _ _ (.inr hi)
        · rw [if_neg hlt]
          obtain rfl | hi := hi
          · exact (not_lt.mp hlt).trans (ih a a (.inl rfl))
          obtain rfl | hi := List.mem_cons.mp hi
          · exact ih _ _ (.inl rfl)
          · exact ih _ _ (.inr hi)
  exact hfold _ 0 i (.inr (List.mem_finRange i))

namespace LearnedModel

variable {m : LearnedModel ℝ}

/-- The prediction of an accepted model is a distribution over the tiers: positive probabilities
that sum to one, the mean of the positions in the unit interval, and a tier than which none is
more likely. -/
theorem prediction_distribution (hm : m.validate = .ok ()) (f : Inputs ℝ) :
    ∃ pred, m.predict f = some pred ∧ (∀ i, 0 < pred.probs i) ∧ ∑ i, pred.probs i = 1
      ∧ pred.score = ∑ i, pred.probs i * (i.val / 3) ∧ pred.score ∈ Set.Icc 0 1
      ∧ ∀ i, pred.probs i ≤ pred.probs (position pred.argmax) := by
  refine ⟨_, (m.validate_ok_iff.mp hm).predict_eq f, ?_⟩
  simp only [prediction, probabilities_eq]
  set z := m.total (featurize f)
  refine ⟨Softmax.softmax_pos z, Softmax.sum_softmax z, expectedPosition_eq z,
    expectedPosition_mem z, fun i => ?_⟩
  rw [position_tierAt]
  exact le_lastMax _ i

/-! ## Features that move with their weights -/

/-- Between two vectors the feature moves the way its weights rise with the tiers. -/
def Follows (m : LearnedModel ℝ) (x x' : List ℝ) (j : Nat) : Prop :=
  ∀ c c' : Fin 4, c ≤ c' →
    0 ≤ ((m.row c').getD j 0 - (m.row c).getD j 0) * (x'.getD j 0 - x.getD j 0)

/-- What the features that moved add to the logit of a class. -/
noncomputable def moved (m : LearnedModel ℝ) (x x' : List ℝ) (c : Fin 4) : ℝ :=
  ∑ j ∈ range x.length, (m.row c).getD j 0 * ((x'.getD j 0 - x.getD j 0) / m.scale.getD j 0)

theorem total_eq_sum (x : List ℝ) (c : Fin 4) :
    m.total x c = m.intercept.getD c 0 + ∑ j ∈ range x.length,
      (m.row c).getD j 0 * ((x.getD j 0 - m.mean.getD j 0) / m.scale.getD j 0) := by
  have hzip : x.zipIdx = (List.range x.length).map fun j => (x.getD j 0, j) := by
    apply List.ext_getElem
    · simp
    · intro j h₁ h₂
      have hj : j < x.length := by simpa using h₁
      simp [hj]
  have hzero : (0.0 : ℝ) = 0 := by norm_num
  rw [total, linearTotal, foldl_add_eq, hzip, List.map_map, hzero]
  rfl

theorem total_eq_add_moved {x x' : List ℝ} (hlength : x'.length = x.length) :
    m.total x' = m.total x + m.moved x x' := by
  funext c
  rw [Pi.add_apply, total_eq_sum, total_eq_sum, hlength, moved, add_assoc, ← sum_add_distrib]
  congr 1
  refine sum_congr rfl fun j _ => ?_
  rw [← mul_add, ← add_div, sub_add_sub_cancel']

theorem Accepted.moved_mono (h : m.Accepted) {x x' : List ℝ}
    (hlength : x.length = Learned.featureNames.length)
    (hfollows : ∀ j < x.length, m.Follows x x' j) : Monotone (m.moved x x') := by
  intro c c' hc
  refine sum_le_sum fun j hj => ?_
  have hlt : j < x.length := mem_range.mp hj
  have hscale : 0 < m.scale.getD j 0 := by
    rw [hlength, ← h.scale] at hlt
    rw [List.getD_eq_getElem _ _ hlt]
    have hpos := (h.scalePos _ (List.getElem_mem hlt)).1
    norm_num at hpos
    exact hpos
  rw [← sub_nonneg, ← sub_mul, ← mul_div_assoc]
  exact div_nonneg (hfollows j hlt c c' hc) hscale.le

/-- The score and the tier do not fall when every feature that moves does so the way its weights
rise with the tiers, and the offset of the mode does not fall. -/
theorem classify_mono (hm : m.validate = .ok ()) {f f' : Inputs ℝ} {mode mode' : RoutingMode}
    {offsets : Offsets ℝ} (fallback : Boundaries ℝ)
    (hfollows : ∀ j < Learned.featureNames.length, m.Follows (featurize f) (featurize f') j)
    (hoffset : offsets.forMode mode ≤ offsets.forMode mode') :
    ∃ r r', m.classify f mode fallback offsets = some r
      ∧ m.classify f' mode' fallback offsets = some r' ∧ r.1 ≤ r'.1 ∧ r.2.1 ≤ r'.2.1 := by
  have h := m.validate_ok_iff.mp hm
  have hmean : (m.prediction f).score ≤ (m.prediction f').score := by
    have hlength : (featurize f').length = (featurize f).length := by
      rw [length_featurize, length_featurize]
    have hmono := h.moved_mono (length_featurize f) fun j hj => hfollows j (length_featurize f ▸ hj)
    simp only [prediction, probabilities_eq, expectedPosition_eq]
    rw [total_eq_add_moved hlength]
    exact Softmax.mean_le_mean_add _ _ _ (tierPosition_mono.monovary hmono)
  have hscore : Scoring.clamp01 ((m.prediction f).score + offsets.forMode mode)
      ≤ Scoring.clamp01 ((m.prediction f').score + offsets.forMode mode') :=
    clamp_mono (add_le_add hmean hoffset)
  exact ⟨_, _, h.classify_eq f mode fallback offsets, h.classify_eq f' mode' fallback offsets,
    Boundaries.tierFor_mono _ hscore, hscore⟩

end LearnedModel

theorem sample_validate : (Sample.model : LearnedModel ℝ).validate = .ok () := by
  rw [LearnedModel.validate_ok_iff]
  have hone : ∀ s ∈ List.replicate 24 (1.0 : ℝ), ¬ s ≤ 0.0 ∧ ModelOps.isFinite s = true := by
    intro s hs
    rw [List.eq_of_mem_replicate hs]
    exact ⟨by norm_num, rfl⟩
  exact ⟨by decide +kernel, rfl, rfl, rfl, rfl, by simp [Sample.model, featureNames], rfl, hone,
    fun _ _ _ _ => rfl, fun _ _ => rfl, fun _ _ => rfl⟩

theorem sample_distribution : ∃ pred,
    (Sample.model : LearnedModel ℝ).predict (Sample.inputs 1 0) = some pred
      ∧ (∀ i, 0 < pred.probs i) ∧ ∑ i, pred.probs i = 1
      ∧ pred.score = ∑ i, pred.probs i * (i.val / 3) ∧ pred.score ∈ Set.Icc 0 1
      ∧ ∀ i, pred.probs i ≤ pred.probs (position pred.argmax) :=
  LearnedModel.prediction_distribution sample_validate (Sample.inputs 1 0)

/-- Markers of reasoning move the sample model up. -/
theorem sample_follows (j : Nat) : (Sample.model : LearnedModel ℝ).Follows
    (featurize (Sample.inputs 1 0)) (featurize (Sample.inputs 1 1)) j := by
  intro c c' hc
  by_cases hj : 13 = j
  · subst hj
    have hmoved : (0 : ℝ) ≤ (featurize (Sample.inputs 1 1)).getD 13 0
        - (featurize (Sample.inputs 1 0)).getD 13 0 := by norm_num [featurize, Sample.inputs]
    refine mul_nonneg (sub_nonneg.mpr ?_) hmoved
    fin_cases c <;> fin_cases c' <;>
      first | exact absurd hc (by decide) | norm_num [LearnedModel.row, Sample.model]
  · have hset : featurize (Sample.inputs (1 : ℝ) 1) = (featurize (Sample.inputs 1 0)).set 13 1 := rfl
    have hsame : (featurize (Sample.inputs (1 : ℝ) 1)).getD j 0
        = (featurize (Sample.inputs 1 0)).getD j 0 := by
      rw [hset, List.getD_eq_getElem?_getD, List.getElem?_set_ne hj, ← List.getD_eq_getElem?_getD]
    rw [hsame, sub_self, mul_zero]

theorem sample_classify_mono : ∃ r r',
    (Sample.model : LearnedModel ℝ).classify (Sample.inputs 1 0) .cost Sample.boundaries
        Sample.offsets = some r
      ∧ (Sample.model : LearnedModel ℝ).classify (Sample.inputs 1 1) .quality Sample.boundaries
        Sample.offsets = some r'
      ∧ r.1 ≤ r'.1 ∧ r.2.1 ≤ r'.2.1 :=
  LearnedModel.classify_mono sample_validate Sample.boundaries (fun j _ => sample_follows j)
    (by norm_num [Sample.offsets, Offsets.forMode])

end Exact

end AuraGateway.Router.Learned
