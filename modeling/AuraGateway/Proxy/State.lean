import AuraGateway.Router.AutoRouter

/-!
# Gateway state

What the gateway holds while it serves requests, as far as routing reads it: the
provider registry with its exact model map, the model catalog and the prices, the
circuit breaker, the learned models and the auto router in force.

A registry can only be built with every provider stored under its own name and every
mapped model pointing at a registered provider. Provider code is outside the model
(`Provider.complete` is what a run supplies); only its name and `supports_model` are
read here.
-/

set_option autoImplicit false

namespace AuraGateway.Proxy

open AuraGateway.RustStd AuraGateway.Types AuraGateway.Router

/-! ## Providers -/

/-- What the gateway asks of a provider before it calls it. -/
structure Provider where
  name : String
  supportsModel : String → Bool

/-- The default `supports_model`: a listed model, or a name that starts with one. -/
def supportsListed (models : List String) (model : String) : Bool :=
  models.any fun m => m == model || m.toList.isPrefixOf model.toList

/-- `supports_model` of Ollama and HuggingFace: any non-empty name. -/
def supportsAny (model : String) : Bool := !model.isEmpty

/-- Providers by name, in the iteration order of the map, and the exact mapping of
models to provider names. -/
structure ProviderRegistry where
  providers : List (String × Provider)
  modelMap : List (String × String)
  named : ∀ e ∈ providers, e.2.name = e.1
  distinct : (providers.map Prod.fst).Nodup
  mapped : ∀ e ∈ modelMap, e.2 ∈ providers.map Prod.fst

namespace ProviderRegistry

/-- No providers. -/
def empty : ProviderRegistry where
  providers := []
  modelMap := []
  named := fun _ h => absurd h List.not_mem_nil
  distinct := List.nodup_nil
  mapped := fun _ h => absurd h List.not_mem_nil

variable (r : ProviderRegistry)

/-- The provider a request for a model is sent to: by the exact mapping, otherwise the
first one that supports the model. -/
def getProvider (model : String) : Option Provider :=
  match r.modelMap.lookup model with
  | some name => r.providers.lookup name
  | none => (r.providers.find? fun e => e.2.supportsModel model).map Prod.snd

/-- The provider name of a model the gateway serves explicitly: by the exact mapping,
otherwise the first provider other than Ollama that supports the model. -/
def providerNameForCatalogModel (model : String) : Option String :=
  match r.modelMap.lookup model with
  | some name => some name
  | none =>
      ((r.providers.filter fun e => e.1 != "ollama").find? fun e => e.2.supportsModel model).map
        Prod.fst

end ProviderRegistry

/-! ## Prices and capabilities -/

/-- Price of a model in USD per million tokens. -/
structure ModelPricing where
  inputPerMillion : Float
  outputPerMillion : Float

/-- Whether one of the name prefixes starts the text. -/
def startsWithAny (prefixes : List String) (text : String) : Bool :=
  prefixes.any fun p => p.toList.isPrefixOf text.toList

/-- True when the model is known to accept image input. -/
def modelSupportsVision (model : String) : Bool :=
  let m := toAsciiLowercase model
  if contains m.toList "vision".toList || contains m.toList "-vl".toList then true
  else if startsWithAny ["o1-mini", "o1-preview", "o3-mini", "gpt-3.5", "gpt-4-"] m || m == "gpt-4"
      || startsWithAny ["claude-2", "claude-instant", "mistral-", "mixtral", "codestral",
        "deepseek", "llama", "qwen", "glm", "kimi", "gpt-oss"] m then false
  else
    startsWithAny ["gpt-4o", "gpt-4.1", "gpt-5", "o1", "o3", "o4", "claude-3", "claude-opus",
      "claude-sonnet", "claude-haiku", "gemini", "pixtral"] m

/-- True when the model is known to support function / tool calling. -/
def modelSupportsTools (model : String) : Bool :=
  let m := toAsciiLowercase model
  !(startsWithAny ["o1-mini", "o1-preview", "gpt-3.5-turbo-instruct", "claude-2",
      "claude-instant"] m
    || contains m.toList "-image".toList || contains m.toList "embedding".toList)

/-- Catalog entry of a servable model. -/
structure CatalogEntry where
  model : String
  provider : String
  capabilities : List String := []
  contextWindow : Option Nat := none
  inputPerMillion : Option Float := none
  outputPerMillion : Option Float := none

namespace CatalogEntry

variable (e : CatalogEntry)

/-- Blended price (70% input, 30% output), if both prices are known. -/
def blendedPerMillion : Option Float := do
  let input ← e.inputPerMillion
  let output ← e.outputPerMillion
  some (0.7 * input + 0.3 * output)

def hasTag (tag : String) : Bool := e.capabilities.any fun c => eqIgnoreAsciiCase c tag

/-- Vision support: database tags first, static hints otherwise. -/
def supportsVision : Bool :=
  if !e.capabilities.isEmpty && (e.hasTag "vision" || e.hasTag "multimodal") then true
  else modelSupportsVision e.model

/-- Whether the database tagged the model as a reasoning model. -/
def isReasoning : Bool := e.hasTag "reasoning"

/-- Tool support: a database tag is authoritative, static hints otherwise. -/
def supportsTools : Bool :=
  if e.hasTag "tool-calling" || e.hasTag "agentic" then true else modelSupportsTools e.model

end CatalogEntry

/-- The learned cost model: the prices of its training snapshot and the regression of
output tokens. -/
structure CostModel where
  prices : List (String × ModelPricing)
  predictOutputTokens : RequestFeatures → String → Float

/-- Predicted request cost for a model, at the catalog's prices when known. -/
def CostModel.predictCost (c : CostModel) (features : RequestFeatures) (model : String)
    (catalogPrices : Option ModelPricing) : Option Float := do
  let p ← catalogPrices.or (c.prices.lookup model)
  let outputTokens := c.predictOutputTokens features model
  let inputTokens := Float.ofNat features.estInputTokens
  some ((inputTokens * p.inputPerMillion + outputTokens * p.outputPerMillion) / 1000000.0)

/-- The learned classifier: its version, its calibrated boundaries if it has any, and
the score and tier probabilities it predicts. -/
structure LearnedModel where
  version : String
  boundaries : Option TierBoundaries
  predict : RequestFeatures → Float × (Tier → Float)

/-- Tier and confidence for a request. -/
def LearnedModel.classify (l : LearnedModel) (features : RequestFeatures) (mode : RoutingMode)
    (fallback : TierBoundaries) (offsets : ModeOffsets) : Tier × Float :=
  let pred := l.predict features
  let boundaries := l.boundaries.getD fallback
  let tier := boundaries.tierFor (f64Clamp (pred.1 + offsets.forMode mode) 0.0 1.0)
  (tier, pred.2 tier)

def LearnedModel.classifierLabel (l : LearnedModel) : String := "learned@" ++ l.version

/-! ## The state -/

/-- A reading of the monotonic clock, in nanoseconds. -/
abbrev Instant := Nat

/-- `Duration::from_secs`. -/
def fromSecs (secs : Nat) : Nat := secs * 1000000000

/-- Circuit-breaker state for one model. -/
structure BreakerState where
  failures : List Instant := []
  openUntil : Option Instant := none

/-- State of the gateway process. -/
structure AppState where
  registry : ProviderRegistry
  escalation : EscalationConfig := {}
  catalog : List (String × CatalogEntry) := []
  pricing : List (String × ModelPricing) := []
  autoRouter : Option AutoRouter := none
  armStats : List ((String × String) × ArmStats) := []
  learnedModel : Option LearnedModel := none
  costModel : Option CostModel := none
  modelBreaker : List (String × BreakerState) := []
  hasDatabase : Bool := false

/-- Replace the value of a key, or add it. -/
def assocInsert {α β : Type} [BEq α] (k : α) (v : β) : List (α × β) → List (α × β)
  | [] => [(k, v)]
  | e :: rest => if e.1 == k then (k, v) :: rest else e :: assocInsert k v rest

theorem lookup_cons_eq_ite {β : Type} (k a : String) (b : β) (l : List (String × β)) :
    ((a, b) :: l).lookup k = if k = a then some b else l.lookup k := by
  by_cases h : k = a
  · simp [h]
  · have hne : (k == a) = false := by simpa using h
    simp [List.lookup_cons, h, hne]

/-- Only the inserted key is looked up differently. -/
theorem lookup_assocInsert {β : Type} (k k' : String) (v : β) (l : List (String × β)) :
    (assocInsert k v l).lookup k' = if k' = k then some v else l.lookup k' := by
  induction l with
  | nil => exact lookup_cons_eq_ite k' k v []
  | cons e rest ih =>
      obtain ⟨a, b⟩ := e
      by_cases ha : a = k
      · subst ha
        simp only [assocInsert, BEq.rfl, if_true, lookup_cons_eq_ite]
        by_cases h : k' = a <;> simp [h]
      · have hne : (a == k) = false := by simpa using ha
        simp only [assocInsert, hne, if_neg Bool.false_ne_true, lookup_cons_eq_ite, ih]
        by_cases h : k' = k
        · subst h
          simp [Ne.symm ha]
        · simp [h]

/-- Removing the entries of a key leaves the other keys alone. -/
theorem lookup_filter_ne {β : Type} (k k' : String) (l : List (String × β)) :
    (l.filter fun e => e.1 != k).lookup k' = if k' = k then none else l.lookup k' := by
  induction l with
  | nil => simp
  | cons e rest ih =>
      obtain ⟨a, b⟩ := e
      by_cases ha : a = k
      · subst ha
        rw [List.filter_cons_of_neg (by simp), ih, lookup_cons_eq_ite]
        by_cases h : k' = a <;> simp [h]
      · rw [List.filter_cons_of_pos (by simpa using ha), lookup_cons_eq_ite, lookup_cons_eq_ite, ih]
        by_cases h : k' = k
        · subst h
          simp [Ne.symm ha]
        · simp [h]

namespace AppState

variable (state : AppState)

/-- The provider a request for a model is sent to. -/
def getProvider (model : String) : Option Provider := state.registry.getProvider model

/-- The provider name of a model the gateway serves explicitly. -/
def providerNameForCatalogModel (model : String) : Option String :=
  state.registry.providerNameForCatalogModel model

/-- Blended price of the cost calculator. -/
def blendedCostPerMillion (model : String) : Option Float :=
  (state.pricing.lookup model).map fun p => 0.7 * p.inputPerMillion + 0.3 * p.outputPerMillion

/-- Record a provider failure: the breaker opens once enough failures land within
the window, and the failures are then forgotten. -/
def recordModelFailure (now : Instant) (model : String) : AppState :=
  let cfg := state.escalation
  let window := fromSecs (max cfg.breakerWindowSecs 1)
  let st := (state.modelBreaker.lookup model).getD {}
  -- only failures inside the window count towards the threshold
  let failures := (st.failures.filter fun t => decide (now - t < window)) ++ [now]
  let st :=
    if max cfg.breakerFailures 1 ≤ failures.length then
      { failures := [], openUntil := some (now + fromSecs (max cfg.breakerCooldownSecs 1)) }
    else { st with failures }
  { state with modelBreaker := assocInsert model st state.modelBreaker }

/-- Record a success: the model's failure history is cleared. -/
def recordModelSuccess (model : String) : AppState :=
  { state with modelBreaker := state.modelBreaker.filter fun e => e.1 != model }

/-- True while the model's breaker is open. -/
def isModelBreakerOpen (now : Instant) (model : String) : Bool :=
  match (state.modelBreaker.lookup model).bind (·.openUntil) with
  | some u => decide (now < u)
  | none => false

end AppState

end AuraGateway.Proxy
