import AuraGateway.Foundations.FloatOrder
import AuraGateway.Router.LearnedModel

/-!
# The learned cost model

One regression of the output length for each model and a global one for the others, over the
feature vector of the classifier. The lengths are kept between one token and 200000 (`clamp_float`), and an accepted model has a
prediction for every request and every model (`CostModel.predictCost_of_validate`).
-/

set_option autoImplicit false
set_option linter.unusedSectionVars false

namespace AuraGateway.Router.Learned

open AuraGateway.RustStd AuraGateway.Types Scoring

/-- Kind label of cost models. -/
def costModelKind : String := "cost_lr"

/-- One linear head. -/
structure CostHead (R : Type) where
  coef : List R
  intercept : R
  rows : Nat := 0

/-- Prices captured at training time. -/
structure SnapshotPrice (R : Type) where
  inputPerMillion : R
  outputPerMillion : R

/-- A trained cost model as it is stored. -/
structure CostModel (R : Type) where
  kind : String := costModelKind
  name : String
  version : String
  featureNames : List String
  mean : List R
  scale : List R
  heads : List (String × CostHead R)
  global : CostHead R
  prices : List (String × SnapshotPrice R)
  metrics : Json

/-- Why a cost model was rejected. -/
inductive CostModelError where
  | kind
  | featureMismatch
  | shape (head : String)
  | scale
  deriving DecidableEq, Repr

/-- The text of a rejection. -/
def CostModelError.message : CostModelError → String
  | .kind => "kind must be cost_lr"
  | .featureMismatch => "feature names do not match the gateway's feature vector"
  | .shape head => "head `" ++ head ++ "` has the wrong number of weights"
  | .scale => "scale entries must be positive"

/-- A cost prediction for one candidate. -/
structure CostPrediction (R : Type) where
  outputTokens : R
  costUsd : R
  modelSpecific : Bool

section Generic

variable {R : Type} [Add R] [Sub R] [Mul R] [Div R] [OfScientific R] [LE R] [LT R]
  [DecidableLE R] [DecidableLT R] [ModelOps R]

/-- All numbers of a head are finite. -/
def CostHead.finite (h : CostHead R) : Bool :=
  ModelOps.isFinite h.intercept && h.coef.all fun v => ModelOps.isFinite v

namespace CostModel

/-- Validate names and shapes. The heads may come in any order. -/
def validate (m : CostModel R) : Except CostModelError Unit :=
  let f := Learned.featureNames.length
  if m.kind != costModelKind then .error .kind
  else if namesMismatch m.featureNames then .error .featureMismatch
  else if m.mean.length != f || m.scale.length != f then .error (.shape "standardisation")
  else if m.scale.any fun s => s ≤ 0.0 || !ModelOps.isFinite s then .error .scale
  else if m.mean.any fun v => !ModelOps.isFinite v then .error (.shape "standardisation")
  else if !m.global.finite then .error (.shape "global")
  else match m.heads.find? fun e => !e.2.finite with
    | some e => .error (.shape e.1)
    | none =>
      if m.global.coef.length != f then .error (.shape "global")
      else match m.heads.find? fun e => e.2.coef.length != f with
        | some e => .error (.shape e.1)
        | none => .ok ()

/-- Parse and validate a JSON model. The reader of the JSON is a parameter. -/
def fromJson (read : Json → Except String (CostModel R)) (json : Json) :
    Except String (CostModel R) :=
  match read json with
  | .error e => .error ("invalid cost model json: " ++ e)
  | .ok model =>
    match model.validate with
    | .error e => .error e.message
    | .ok () => .ok model

/-- Label recorded on decisions. -/
def label (m : CostModel R) : String := "cost@" ++ m.version

/-- The head of a model, and whether it is its own. -/
def headOf (m : CostModel R) (model : String) : CostHead R × Bool :=
  match m.heads.lookup model with
  | some h => (h, true)
  | none => (m.global, false)

section Prediction

-- the exponential minus one
variable (expM1 : R → R)

/-- Predicted output tokens for a model, and whether a head of its own was used. -/
def predictOutputTokens (m : CostModel R) (features : Inputs R) (model : String) :
    Option (R × Bool) := do
  let head := m.headOf model
  let z ← linearSum m.mean m.scale head.1.coef head.1.intercept (featurize features)
  some (clamp (expM1 z) 1.0 200000.0, head.2)

/-- Predicted request cost for a model, at the catalog's prices when known, else those of the
training. The inner `none` is a model without a price. -/
def predictCost (m : CostModel R) (features : Inputs R) (model : String)
    (catalogPrices : Option (R × R)) : Option (Option (CostPrediction R)) :=
  match catalogPrices.or
    ((m.prices.lookup model).map fun p => (p.inputPerMillion, p.outputPerMillion)) with
  | none => some none
  | some (inputPerMillion, outputPerMillion) => do
    let tokens ← m.predictOutputTokens expM1 features model
    let inputTokens : R := ModelOps.ofNat features.estInputTokens
    let costUsd :=
      (inputTokens * inputPerMillion + tokens.1 * outputPerMillion) / 1000000.0
    some (some ⟨tokens.1, costUsd, tokens.2⟩)

end Prediction

/-! ## Accepted models -/

/-- What is read from JSON has been validated. -/
theorem validate_of_fromJson {read : Json → Except String (CostModel R)} {json : Json}
    {m : CostModel R} (h : fromJson read json = .ok m) : m.validate = .ok () := by
  simp only [fromJson] at h
  split at h
  · cases h
  split at h
  · cases h
  next hvalid =>
  cases h
  exact hvalid

theorem headOf_mem (m : CostModel R) (model : String) :
    (m.headOf model).1 = m.global ∨ (model, (m.headOf model).1) ∈ m.heads := by
  rw [headOf]
  cases h : m.heads.lookup model with
  | none => exact .inl rfl
  | some head =>
      obtain ⟨before, after, hsplit, -⟩ := List.lookup_eq_some_iff.mp h
      exact .inr (hsplit ▸ List.mem_append_right before List.mem_cons_self)

/-- A check that was passed, and what comes after it. -/
theorem ok_of_ite {ε α : Type} {c : Prop} [Decidable c] {e : ε} {rest : Except ε α} {a : α}
    (h : (if c then .error e else rest) = .ok a) : ¬ c ∧ rest = .ok a := by
  by_cases hc : c
  · rw [if_pos hc] at h
    cases h
  · exact ⟨hc, by rwa [if_neg hc] at h⟩

/-- What the predictions use of an accepted model. -/
theorem lengths_of_validate {m : CostModel R} (hm : m.validate = .ok ()) :
    m.mean.length = Learned.featureNames.length ∧ m.scale.length = Learned.featureNames.length
      ∧ ∀ model, (m.headOf model).1.coef.length = Learned.featureNames.length := by
  obtain ⟨-, hm⟩ := ok_of_ite hm -- the kind
  obtain ⟨-, hm⟩ := ok_of_ite hm -- the names
  obtain ⟨hlengths, hm⟩ := ok_of_ite hm
  obtain ⟨-, hm⟩ := ok_of_ite hm -- the scale
  obtain ⟨-, hm⟩ := ok_of_ite hm -- the mean
  obtain ⟨-, hm⟩ := ok_of_ite hm -- the global head is finite
  split at hm
  · cases hm
  obtain ⟨hglobal, hm⟩ := ok_of_ite hm
  split at hm
  · cases hm
  next hheads =>
  simp only [Bool.or_eq_true, not_or, Bool.not_eq_true, bne_eq_false_iff_eq] at hlengths hglobal
  refine ⟨hlengths.1, hlengths.2, fun model => ?_⟩
  obtain h | h := m.headOf_mem model
  · rw [h, hglobal]
  · simpa using List.find?_eq_none.mp hheads _ h

variable {expM1 : R → R} {m : CostModel R}

/-- An accepted model has a length for every request and every model. -/
theorem predictOutputTokens_of_validate (hm : m.validate = .ok ()) (f : Inputs R) (model : String) :
    ∃ z, m.predictOutputTokens expM1 f model
      = some (clamp (expM1 z) 1.0 200000.0, (m.headOf model).2) := by
  obtain ⟨hmean, hscale, hcoef⟩ := lengths_of_validate hm
  rw [predictOutputTokens, linearSum_eq hmean hscale (hcoef model)]
  exact ⟨_, rfl⟩

/-- So has the cost, where there are prices for it. -/
theorem predictCost_of_validate (hm : m.validate = .ok ()) (f : Inputs R) (model : String)
    (catalogPrices : Option (R × R)) :
    ∃ p, m.predictCost expM1 f model catalogPrices = some p := by
  obtain ⟨z, hz⟩ := predictOutputTokens_of_validate hm f model
  rw [predictCost]
  split
  · exact ⟨none, rfl⟩
  · rw [hz]
    exact ⟨_, rfl⟩

end CostModel

end Generic

open AuraGateway.Foundations.FloatOrder in
/-- A value kept between two doubles is between them, unless it is not a number. -/
theorem clamp_float {x lo hi : Float} (hle : lo ≤ hi) (hlo : lo.isNaN = false)
    (hhi : hi.isNaN = false) :
    (clamp x lo hi).isNaN = true ∨ (lo ≤ clamp x lo hi ∧ clamp x lo hi ≤ hi) := by
  simp only [clamp]
  by_cases hlt : x < lo
  · rw [if_pos hlt, if_neg (float_not_lt_of_le hle)]
    exact .inr ⟨float_le_refl hlo, hle⟩
  rw [if_neg hlt]
  by_cases hgt : hi < x
  · rw [if_pos hgt]
    exact .inr ⟨hle, float_le_refl hhi⟩
  rw [if_neg hgt]
  cases hx : x.isNaN with
  | true => exact .inl rfl
  | false => exact .inr ⟨float_le_of_not_lt hlo hx hlt, float_le_of_not_lt hx hhi hgt⟩

end AuraGateway.Router.Learned
