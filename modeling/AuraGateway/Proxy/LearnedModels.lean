import AuraGateway.Foundations.KeyedFolds
import AuraGateway.Proxy.State
import AuraGateway.Router.ModelRegistry

/-!
# Learned models of a request

The process hands a request the classifier and the cost model in memory. The tier and the
confidence that a request gets are those of the regression (`classify_ofLearned`), and so is a
predicted cost (`predictCost_ofCost`).
-/

set_option autoImplicit false

namespace AuraGateway.Proxy

open AuraGateway.Router AuraGateway.RustStd AuraGateway.Types

/-- Boundaries as numbers. -/
def ofBoundaries (b : TierBoundaries) : Scoring.Boundaries Float :=
  ⟨b.simpleMedium, b.mediumComplex, b.complexReasoning⟩

def toBoundaries (b : Scoring.Boundaries Float) : TierBoundaries :=
  { simpleMedium := b.simpleMedium, mediumComplex := b.mediumComplex,
    complexReasoning := b.complexReasoning }

def ofOffsets (o : ModeOffsets) : Scoring.Offsets Float := ⟨o.cost, o.balanced, o.quality⟩

/-- The classifier of a request, from the one in memory. -/
def ofLearned (m : Learned.LearnedModel Float) : LearnedModel where
  version := m.version
  boundaries := m.boundaries.map toBoundaries
  predict f :=
    match m.predict (Learned.ofRequest f) with
    | some p => (p.score, fun t => p.probs (Learned.position t))
    | none => (0.0, fun _ => 0.0)

/-- The tier and the confidence of a request are those of the regression. -/
theorem classify_ofLearned {m : Learned.LearnedModel Float} (hm : m.validate = .ok ())
    (f : RequestFeatures) (mode : RoutingMode) (fallback : TierBoundaries) (offsets : ModeOffsets) :
    (m.classify (Learned.ofRequest f) mode (ofBoundaries fallback) (ofOffsets offsets)).map
        (fun r => (r.1, r.2.2))
      = some ((ofLearned m).classify f mode fallback offsets) := by
  have h := m.validate_ok_iff.mp hm
  have hpredict : (ofLearned m).predict f = ((m.prediction (Learned.ofRequest f)).score,
      fun t => (m.prediction (Learned.ofRequest f)).probs (Learned.position t)) := by
    simp only [ofLearned, h.predict_eq]
  have hoffset : (ofOffsets offsets).forMode mode = offsets.forMode mode := by cases mode <;> rfl
  rw [h.classify_eq, LearnedModel.classify, hpredict, hoffset, ofLearned]
  cases m.boundaries <;> rfl

def ofPrice (p : Learned.SnapshotPrice Float) : ModelPricing := ⟨p.inputPerMillion, p.outputPerMillion⟩

/-- The cost model of a request, from the one in memory. -/
def ofCost (expM1 : Float → Float) (m : Learned.CostModel Float) : CostModel where
  prices := m.prices.map fun e => (e.1, ofPrice e.2)
  predictOutputTokens f model :=
    match m.predictOutputTokens expM1 (Learned.ofRequest f) model with
    | some tokens => tokens.1
    | none => 0.0

/-- The predicted cost of a request is that of the regression. -/
theorem predictCost_ofCost {expM1 : Float → Float} {m : Learned.CostModel Float}
    (hm : m.validate = .ok ()) (f : RequestFeatures) (model : String)
    (catalogPrices : Option ModelPricing) :
    (m.predictCost expM1 (Learned.ofRequest f) model
        (catalogPrices.map fun p => (p.inputPerMillion, p.outputPerMillion))).map
        (fun p => p.map fun p => p.costUsd)
      = some ((ofCost expM1 m).predictCost f model catalogPrices) := by
  obtain ⟨z, hz⟩ : ∃ z, m.predictOutputTokens expM1 (Learned.ofRequest f) model = some z :=
    (Learned.CostModel.predictOutputTokens_of_validate hm (Learned.ofRequest f) model).imp'
      _ fun _ h => h
  have htokens : (ofCost expM1 m).predictOutputTokens f model = z.1 := by
    simp only [ofCost, hz]
  have hprices : (ofCost expM1 m).prices.lookup model = (m.prices.lookup model).map ofPrice :=
    Foundations.KeyedFolds.lookup_map_snd (fun _ => ofPrice) m.prices model
  rw [Learned.CostModel.predictCost, CostModel.predictCost, htokens, hprices]
  cases catalogPrices with
  | some p => simp [hz]; rfl
  | none =>
      cases m.prices.lookup model with
      | none => rfl
      | some p => simp [hz]; rfl

end AuraGateway.Proxy
