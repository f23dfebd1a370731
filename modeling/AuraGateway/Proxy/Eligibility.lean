import AuraGateway.Proxy.State

/-!
# The gateway's eligibility oracle

`GatewayEligibility` answers the router's questions about a model for one request: it
is served explicitly, its breaker is closed, and it can take the request's images,
tools and length. Its requirements are read off the request once.
-/

set_option autoImplicit false

namespace AuraGateway.Proxy

open AuraGateway.RustStd AuraGateway.Types AuraGateway.Router

/-! ## Requirements of a request -/

/-- Scan the parts of a message up to its first image: whether there is one, and the
bytes of text before it. -/
def scanParts : List ContentPart → Bool × Nat
  | [] => (false, 0)
  | .image _ _ _ :: _ => (true, 0)
  | .text t :: rest => ((scanParts rest).1, t.utf8ByteSize + (scanParts rest).2)
  | .audio _ _ :: rest => scanParts rest

/-- Scan the input up to its first image. -/
def scanInput : List InputItem → Bool × Nat
  | [] => (false, 0)
  | .message _ (.parts parts) :: rest =>
      if (scanParts parts).1 then scanParts parts
      else ((scanInput rest).1, (scanParts parts).2 + (scanInput rest).2)
  | .message _ (.text t) :: rest => ((scanInput rest).1, t.utf8ByteSize + (scanInput rest).2)
  | .functionCallOutput _ output :: rest =>
      ((scanInput rest).1, output.utf8ByteSize + (scanInput rest).2)
  | .functionCall _ _ _ :: rest => scanInput rest

/-- `u32::saturating_add`. -/
def saturatingAddU32 (a b : Nat) : Nat := min (a + b) (2 ^ 32 - 1)

/-- Eligibility oracle for one request. -/
structure GatewayEligibility where
  state : AppState
  now : Instant
  needsVision : Bool
  needsTools : Bool
  needsContext : Nat
  features : Option RequestFeatures

namespace GatewayEligibility

/-- Build an oracle for one request. -/
def forRequest (state : AppState) (now : Instant) (request : CreateResponseRequest) :
    GatewayEligibility :=
  let scanned := scanInput request.input
  let textChars := (request.instructions.map String.utf8ByteSize).getD 0 + scanned.2
  { state
    now
    needsVision := scanned.1
    needsTools := (request.tools.map fun t => !t.isEmpty).getD false
    -- the length is estimated from bytes, capped before the division
    needsContext :=
      saturatingAddU32 (tokensForChars (min textChars 4000000)) (request.maxOutputTokens.getD 0)
    features :=
      match state.costModel, state.autoRouter with
      | some _, some router => some (router.features request)
      | _, _ => none }

variable (g : GatewayEligibility)

/-- Whether a model can take the request. -/
def isEligible (model : String) : Bool :=
  let entry := g.state.catalog.lookup model
  let visionOk := (entry.map (·.supportsVision)).getD (modelSupportsVision model)
  let toolsOk := (entry.map (·.supportsTools)).getD (modelSupportsTools model)
  if (g.state.providerNameForCatalogModel model).isNone then false
  else if g.state.isModelBreakerOpen g.now model then false
  else if g.needsVision && !visionOk then false
  else if g.needsTools && !toolsOk then false
  else
    match entry.bind (·.contextWindow) with
    | some window => decide (g.needsContext ≤ window)
    | none => true

/-- Blended price, from the catalog first. -/
def blendedCostPerMillion (model : String) : Option Float :=
  ((g.state.catalog.lookup model).bind (·.blendedPerMillion)).or
    (g.state.blendedCostPerMillion model)

/-- Prices of a catalog entry, when it has both. -/
def entryPrices (e : CatalogEntry) : Option ModelPricing := do
  let inputPerMillion ← e.inputPerMillion
  let outputPerMillion ← e.outputPerMillion
  some { inputPerMillion, outputPerMillion }

/-- Cost predicted by the learned cost model, if one is loaded. -/
def predictedCostUsd (model : String) : Option Float := do
  let costModel ← g.state.costModel
  let features ← g.features
  let prices := ((g.state.catalog.lookup model).bind entryPrices).or (g.state.pricing.lookup model)
  costModel.predictCost features model prices

/-- The oracle as the router sees it. -/
def oracle : Eligibility :=
  { isEligible := fun model => .ok (g.isEligible model)
    blendedCostPerMillion := g.blendedCostPerMillion
    providerOf := g.state.providerNameForCatalogModel
    armStats := fun tier model => g.state.armStats.lookup (tier.asStr, model)
    predictedCostUsd := g.predictedCostUsd }

end GatewayEligibility

end AuraGateway.Proxy
