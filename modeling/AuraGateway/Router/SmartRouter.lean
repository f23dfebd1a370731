import AuraGateway.Foundations.FirstMatch
import AuraGateway.Router.Strategy

/-!
# The smart router

A router holds a pool of endpoints per provider, an index from models to providers and a chain
of fallback providers per provider. A request goes to the provider of its model. If none of that
provider's endpoints is available, the providers of its chain are tried one after the other.

A provider takes the request exactly when one of its endpoints is healthy and enabled
(`tryRouteToProvider_eq_none_iff`). Which model was asked for plays no part in that: the model is
checked for the pool as a whole, so the endpoint that is returned need not support it
(`route_dispatches_iff`).
-/

set_option autoImplicit false

namespace AuraGateway.Router

open AuraGateway.RustStd AuraGateway.JsStd AuraGateway.Proxy AuraGateway.Foundations.Selection
  AuraGateway.Foundations.FirstMatch

/-! ## Pools -/

/-- Pool of endpoints for a single provider; the models are the union of the endpoints'. -/
structure EndpointPool where
  providerName : String
  endpoints : List ProviderEndpoint
  selector : StrategySelector
  models : List String
  union : ∀ model, model ∈ models ↔ ∃ e ∈ endpoints, model ∈ e.models

namespace EndpointPool

def new (providerName : String) (selector : StrategySelector) : EndpointPool where
  providerName := providerName
  endpoints := []
  selector := selector
  models := []
  union := by simp

/-- The models with those of an endpoint, each once. -/
def addModels (models : List String) (e : ProviderEndpoint) : List String :=
  e.models.foldl (fun models model => if models.contains model then models else models ++ [model])
    models

theorem mem_addModels (models : List String) (e : ProviderEndpoint) (model : String) :
    model ∈ addModels models e ↔ model ∈ models ∨ model ∈ e.models := by
  unfold addModels
  induction e.models generalizing models with
  | nil => simp
  | cons m l ih =>
      rw [List.foldl_cons, ih, List.mem_cons]
      split
      · rename_i hmem
        rw [List.contains_iff_mem] at hmem
        constructor
        · exact Or.imp_right .inr
        · rintro (h | rfl | h)
          exacts [.inl h, .inl hmem, .inr h]
      · rw [List.mem_append, List.mem_singleton, or_assoc]

variable (pool : EndpointPool)

/-- Add an endpoint to the pool. -/
def addEndpoint (e : ProviderEndpoint) : EndpointPool where
  providerName := pool.providerName
  endpoints := pool.endpoints ++ [e]
  selector := pool.selector
  models := addModels pool.models e
  union := by
    intro model
    rw [mem_addModels, pool.union]
    simp [or_and_right, exists_or]

/-- Check if the pool supports a model. -/
def supportsModel (model : String) : Bool := pool.endpoints.any (·.supportsModel model)

/-- Set the strategy selector. -/
def withSelector (selector : StrategySelector) : EndpointPool := { pool with selector := selector }

/-- Get an endpoint by ID. -/
def getEndpoint (endpointId : String) : Option ProviderEndpoint :=
  pool.endpoints.find? (·.id == endpointId)

/-- The endpoints that the tracker has as healthy. -/
def healthyEndpoints (tracker : HealthTracker) : List ProviderEndpoint :=
  pool.endpoints.filter fun e => tracker.isHealthy e.id

/-- Some endpoint is healthy and enabled. -/
def hasAvailable (tracker : HealthTracker) : Bool :=
  pool.endpoints.any fun e => tracker.isHealthy e.id && e.enabled

theorem hasAvailable_eq_false_iff (tracker : HealthTracker) :
    pool.hasAvailable tracker = false
      ↔ ∀ e ∈ pool.healthyEndpoints tracker, e.enabled = false := by
  simp [hasAvailable, healthyEndpoints]

end EndpointPool

/-! ## Fallback chains -/

/-- Fallback chain for provider failover. -/
structure FallbackChain where
  providers : List String := []
  maxAttempts : Nat := 3

/-! ## The router -/

/-- Result of a routing decision. -/
structure RoutingDecision where
  providerName : String
  endpointId : String
  isFallback : Bool
  fallbackDepth : Nat
  deriving DecidableEq, Repr

namespace RoutingDecision

def primary (providerName endpointId : String) : RoutingDecision :=
  ⟨providerName, endpointId, false, 0⟩

def fallback (providerName endpointId : String) (depth : Nat) : RoutingDecision :=
  ⟨providerName, endpointId, true, depth⟩

/-- Depth zero is the primary provider. -/
def atDepth (providerName : String) (depth : Nat) (endpoint : ProviderEndpoint) : RoutingDecision :=
  if depth = 0 then primary providerName endpoint.id else fallback providerName endpoint.id depth

@[simp] theorem atDepth_providerName (providerName : String) (depth : Nat) (e : ProviderEndpoint) :
    (atDepth providerName depth e).providerName = providerName := by
  unfold atDepth
  split <;> rfl

@[simp] theorem atDepth_endpointId (providerName : String) (depth : Nat) (e : ProviderEndpoint) :
    (atDepth providerName depth e).endpointId = e.id := by
  unfold atDepth
  split <;> rfl

end RoutingDecision

/-- An error of the router with its model or message. -/
structure RouteError where
  error : ProviderError
  detail : String
  deriving DecidableEq, Repr

/-- Smart router for LLM providers. -/
structure SmartRouter where
  pools : String → Option EndpointPool := fun _ => none
  modelMap : String → Option String := fun _ => none
  healthTracker : HealthTracker := {}
  fallbackChains : String → Option FallbackChain := fun _ => none

/-- The names of the registered providers, in the order in which the map yields them. -/
structure PoolOrder (pools : String → Option EndpointPool) where
  names : List String
  distinct : names.Nodup
  registered : ∀ name, name ∈ names ↔ (pools name).isSome = true

/-- Register an endpoint for tracking. -/
def HealthTracker.registerEndpoint (tracker : HealthTracker) (endpointId : String) : HealthTracker :=
  { tracker with
    entries := tracker.config.apply tracker.entries ⟨endpointId, tracker.now, .registerEndpoint⟩ }

namespace SmartRouter

/-- Create a new SmartRouter with the given configuration. -/
def new (config : HealthConfig) : SmartRouter := { healthTracker := { config := config } }

/-- Register a provider endpoint pool. -/
def registerPool (r : SmartRouter) (providerName : String) (pool : EndpointPool) : SmartRouter :=
  { r with
    modelMap := pool.models.foldl (fun map model => Function.update map model (some providerName))
      r.modelMap
    healthTracker := pool.endpoints.foldl (fun tracker e => tracker.registerEndpoint e.id)
      r.healthTracker
    pools := Function.update r.pools providerName (some pool) }

/-- Add a fallback chain for a provider. -/
def addFallbackChain (r : SmartRouter) (primaryProvider : String) (chain : FallbackChain) :
    SmartRouter :=
  { r with fallbackChains := Function.update r.fallbackChains primaryProvider (some chain) }

section Route

variable (r : SmartRouter)

/-- Whether the pool registered for a provider supports the model. -/
def serves (model provider : String) : Bool := (r.pools provider).any (·.supportsModel model)

/-- Get the provider name for a model: by the index, otherwise the first whose pool supports
it. -/
def getProviderForModel (order : PoolOrder r.pools) (model : String) : Option String :=
  match r.modelMap model with
  | some provider => some provider
  | none => order.names.find? (r.serves model)

variable (table : CaseTable) (draws : SelectorDraws)

/-- Try to route to a specific provider. -/
def tryRouteToProvider (provider : String) (fallbackDepth : Nat) : Option RoutingDecision :=
  match r.pools provider with
  | none => none
  | some pool =>
      let healthyEndpoints := pool.healthyEndpoints r.healthTracker
      if healthyEndpoints.isEmpty then none
      else
        match pool.selector.select table r.healthTracker draws healthyEndpoints with
        | none => none
        | some endpoint => some (.atDepth provider fallbackDepth endpoint)

/-- The loop over the chain from a depth on: the fallbacks that are tried, each with its depth,
and the decision of the one that takes the request. -/
def tryFallbacks (model : String) (depth : Nat) :
    List String → List (String × Nat) × Option RoutingDecision
  | [] => ([], none)
  | fallbackProvider :: rest =>
      if r.serves model fallbackProvider then
        match r.tryRouteToProvider table draws fallbackProvider (depth + 1) with
        | some decision => ([(fallbackProvider, depth + 1)], some decision)
        | none =>
            let later := tryFallbacks model (depth + 1) rest
            ((fallbackProvider, depth + 1) :: later.1, later.2)
      else tryFallbacks model (depth + 1) rest

/-- Route a request to an endpoint. -/
def route (order : PoolOrder r.pools) (model : String) : Except RouteError RoutingDecision :=
  match r.getProviderForModel order model with
  | none => .error ⟨.modelNotFound, model⟩
  | some primaryProvider =>
      match r.tryRouteToProvider table draws primaryProvider 0 with
      | some decision => .ok decision
      | none =>
          let viaChain := (r.fallbackChains primaryProvider).bind fun chain =>
            (r.tryFallbacks table draws model 0 chain.providers).2
          match viaChain with
          | some decision => .ok decision
          | none =>
              .error ⟨.serviceUnavailable, "No healthy endpoints available for model '" ++ model
                ++ "' (provider: " ++ primaryProvider ++ ")"⟩

end Route

/-! ## Which provider takes a request -/

section Taking

variable {r : SmartRouter}

/-- Whether a provider has an endpoint that is healthy and enabled. -/
def hasAvailable (r : SmartRouter) (provider : String) : Bool :=
  (r.pools provider).any (·.hasAvailable r.healthTracker)

/-- The providers that may take a request, in the order in which they are tried. -/
def candidates (r : SmartRouter) (model primaryProvider : String) : List String :=
  primaryProvider ::
    (((r.fallbackChains primaryProvider).map (·.providers)).getD []).filter (r.serves model)

/-- The first of the candidates that has an endpoint available takes the request. -/
def Takes (r : SmartRouter) (model primaryProvider : String) : String → Prop :=
  FirstIn (fun p => r.hasAvailable p = true) (fun p => r.hasAvailable p = false)
    (r.candidates model primaryProvider)

variable {table : CaseTable} {draws : SelectorDraws} {model provider : String} {depth : Nat}
  {decision : RoutingDecision}

/-- The pick of the pool's strategy among the healthy endpoints, as a decision. -/
theorem tryRouteToProvider_eq {pool : EndpointPool} (h : r.pools provider = some pool) :
    r.tryRouteToProvider table draws provider depth
      = (pool.selector.select table r.healthTracker draws
          (pool.healthyEndpoints r.healthTracker)).map (.atDepth provider depth) := by
  unfold tryRouteToProvider
  rw [h]
  dsimp only
  split
  · rename_i hnil
    rw [List.isEmpty_iff.mp hnil]
    rfl
  · split <;> simp_all

theorem tryRouteToProvider_eq_none_iff :
    r.tryRouteToProvider table draws provider depth = none ↔ r.hasAvailable provider = false := by
  cases hpool : r.pools provider with
  | none => simp [tryRouteToProvider, hasAvailable, hpool]
  | some pool =>
      rw [tryRouteToProvider_eq hpool, Option.map_eq_none_iff,
        StrategySelector.select_eq_none_iff, hasAvailable, hpool, Option.any_some,
        pool.hasAvailable_eq_false_iff]

/-- The decision names an endpoint of the pool that is healthy and enabled. -/
theorem exists_endpoint_of_tryRouteToProvider {pool : EndpointPool}
    (hpool : r.pools provider = some pool)
    (h : r.tryRouteToProvider table draws provider depth = some decision) :
    decision.providerName = provider ∧ ∃ e ∈ pool.endpoints,
      r.healthTracker.isHealthy e.id = true ∧ e.enabled = true ∧ decision.endpointId = e.id := by
  rw [tryRouteToProvider_eq hpool, Option.map_eq_some_iff] at h
  obtain ⟨e, hselect, rfl⟩ := h
  obtain ⟨hmem, henabled⟩ := StrategySelector.select_mem _ _ _ _ hselect
  obtain ⟨hpoolMem, hhealthy⟩ := List.mem_filter.mp hmem
  exact ⟨by simp, e, hpoolMem, hhealthy, henabled, by simp⟩

/-- Taken in turn, every endpoint that is healthy and enabled is returned at some count. -/
theorem exists_draws_tryRouteToProvider (table : CaseTable) {pool : EndpointPool}
    {e : ProviderEndpoint}
    (hpool : r.pools provider = some pool) (hturn : pool.selector.strategy = .roundRobin)
    (hmem : e ∈ pool.endpoints) (hhealthy : r.healthTracker.isHealthy e.id = true)
    (henabled : e.enabled = true) :
    ∃ draws, ∀ depth,
      r.tryRouteToProvider table draws provider depth = some (.atDepth provider depth e) := by
  have havailable : e ∈ (pool.healthyEndpoints r.healthTracker).filter (·.enabled) :=
    List.mem_filter.mpr ⟨List.mem_filter.mpr ⟨hmem, hhealthy⟩, henabled⟩
  obtain ⟨i, hi⟩ := List.mem_iff_getElem?.mp havailable
  have hlt := (List.getElem?_eq_some_iff.mp hi).1
  refine ⟨⟨i, 0⟩, fun depth => ?_⟩
  rw [tryRouteToProvider_eq hpool, StrategySelector.select_roundRobin _ _ _ hturn,
    Nat.mod_eq_of_lt hlt, hi]
  rfl

/-- A chain none of whose providers has an endpoint available gives no decision. -/
theorem tryFallbacks_eq_none {l : List String}
    (h : ∀ p ∈ l.filter (r.serves model), r.hasAvailable p = false) :
    (r.tryFallbacks table draws model depth l).2 = none := by
  induction l generalizing depth with
  | nil => rfl
  | cons a l ih =>
      rw [tryFallbacks]
      split
      · rename_i hserves
        rw [List.filter_cons_of_pos hserves, List.forall_mem_cons] at h
        rw [tryRouteToProvider_eq_none_iff.mpr h.1]
        exact ih h.2
      · rename_i hserves
        rw [List.filter_cons_of_neg hserves] at h
        exact ih h

/-- The first provider of the chain that has an endpoint available decides. -/
theorem tryFallbacks_eq_of_firstIn (table : CaseTable) (draws : SelectorDraws) (depth : Nat)
    {l : List String}
    (h : FirstIn (fun p => r.hasAvailable p = true) (fun p => r.hasAvailable p = false)
      (l.filter (r.serves model)) provider) :
    ∃ depth', (r.tryFallbacks table draws model depth l).2
      = r.tryRouteToProvider table draws provider depth' := by
  induction l generalizing depth with
  | nil => exact absurd h not_firstIn_nil
  | cons a l ih =>
      rw [tryFallbacks]
      split
      · rename_i hserves
        rw [List.filter_cons_of_pos hserves, firstIn_cons] at h
        rcases h with ⟨rfl, havailable⟩ | ⟨hnone, hrest⟩
        · refine ⟨depth + 1, ?_⟩
          cases htry : r.tryRouteToProvider table draws a (depth + 1) with
          | none =>
              rw [tryRouteToProvider_eq_none_iff, havailable] at htry
              cases htry
          | some decision => rfl
        · rw [tryRouteToProvider_eq_none_iff.mpr hnone]
          exact ih (depth + 1) hrest
      · rename_i hserves
        rw [List.filter_cons_of_neg hserves] at h
        exact ih (depth + 1) h

/-- The provider that takes the request decides. -/
theorem route_of_takes (table : CaseTable) (draws : SelectorDraws) {order : PoolOrder r.pools} {primaryProvider : String}
    (hprimary : r.getProviderForModel order model = some primaryProvider)
    (htakes : r.Takes model primaryProvider provider) :
    ∃ depth, ∀ decision, r.route table draws order model = .ok decision
      ↔ r.tryRouteToProvider table draws provider depth = some decision := by
  have htry : ∀ depth, r.hasAvailable provider = true →
      ∃ decision, r.tryRouteToProvider table draws provider depth = some decision := by
    intro depth havailable
    rw [← Option.ne_none_iff_exists', Ne, tryRouteToProvider_eq_none_iff, havailable]
    exact Bool.noConfusion
  unfold route
  rw [hprimary]
  dsimp only
  rw [Takes, candidates, firstIn_cons] at htakes
  rcases htakes with ⟨rfl, havailable⟩ | ⟨hnone, hrest⟩
  · obtain ⟨decision, hdecision⟩ := htry 0 havailable
    refine ⟨0, fun decision' => ?_⟩
    rw [hdecision]
    simp
  · obtain ⟨chain, hchain⟩ : ∃ chain, r.fallbackChains primaryProvider = some chain := by
      cases hchain : r.fallbackChains primaryProvider with
      | none =>
          rw [hchain] at hrest
          exact absurd hrest not_firstIn_nil
      | some chain => exact ⟨chain, rfl⟩
    rw [hchain, Option.map_some, Option.getD_some] at hrest
    obtain ⟨depth, hdepth⟩ := tryFallbacks_eq_of_firstIn table draws 0 hrest
    obtain ⟨decision, hdecision⟩ := htry depth hrest.accepted
    refine ⟨depth, fun decision' => ?_⟩
    rw [tryRouteToProvider_eq_none_iff.mpr hnone, hchain, Option.bind_some, hdepth, hdecision]
    simp

/-- A request that is routed was taken by some provider. -/
theorem exists_takes_of_route {order : PoolOrder r.pools}
    (h : r.route table draws order model = .ok decision) :
    ∃ primaryProvider provider, r.getProviderForModel order model = some primaryProvider
      ∧ r.Takes model primaryProvider provider := by
  unfold route at h
  cases hprimary : r.getProviderForModel order model with
  | none =>
      rw [hprimary] at h
      cases h
  | some primaryProvider =>
      refine ⟨primaryProvider, ?_⟩
      have hdecided : ∀ p ∈ r.candidates model primaryProvider,
          r.hasAvailable p = true ∨ r.hasAvailable p = false :=
        fun p _ => Bool.eq_false_or_eq_true (r.hasAvailable p)
      rcases exists_firstIn_or_forall hdecided with ⟨p, hp⟩ | hall
      · exact ⟨p, rfl, hp⟩
      · -- no candidate has an endpoint available, so the request fails
        rw [candidates, List.forall_mem_cons] at hall
        rw [hprimary] at h
        dsimp only at h
        rw [tryRouteToProvider_eq_none_iff.mpr hall.1] at h
        cases hchain : r.fallbackChains primaryProvider with
        | none =>
            rw [hchain] at h
            cases h
        | some chain =>
            rw [hchain, Option.map_some, Option.getD_some] at hall
            rw [hchain, Option.bind_some, tryFallbacks_eq_none hall.2] at h
            cases h

end Taking

/-! ## What a decision points to -/

section Dispatch

/-- The router with other strategies in its pools. -/
def withSelectors (r : SmartRouter) (selectors : String → StrategySelector) : SmartRouter :=
  { r with pools := fun p => (r.pools p).map (·.withSelector (selectors p)) }

variable {r : SmartRouter} {selectors : String → StrategySelector}

theorem isSome_withSelectors_pools (provider : String) :
    ((r.withSelectors selectors).pools provider).isSome = (r.pools provider).isSome :=
  Option.isSome_map

end Dispatch

end SmartRouter

/-- The same names, in the same order. -/
def PoolOrder.withSelectors {r : SmartRouter} (order : PoolOrder r.pools)
    (selectors : String → StrategySelector) : PoolOrder (r.withSelectors selectors).pools where
  names := order.names
  distinct := order.distinct
  registered := by
    intro name
    rw [SmartRouter.isSome_withSelectors_pools]
    exact order.registered name

namespace SmartRouter

section Dispatch

variable (r : SmartRouter) (selectors : String → StrategySelector)

@[simp] theorem serves_withSelectors : (r.withSelectors selectors).serves = r.serves := by
  funext model provider
  rw [serves, serves, withSelectors, Option.any_map]
  rfl

@[simp] theorem hasAvailable_withSelectors :
    (r.withSelectors selectors).hasAvailable = r.hasAvailable := by
  funext provider
  rw [hasAvailable, hasAvailable, withSelectors, Option.any_map]
  rfl

@[simp] theorem getProviderForModel_withSelectors (order : PoolOrder r.pools) (model : String) :
    (r.withSelectors selectors).getProviderForModel (order.withSelectors selectors) model
      = r.getProviderForModel order model := by
  unfold getProviderForModel
  rw [serves_withSelectors]
  rfl

@[simp] theorem takes_withSelectors (model primaryProvider : String) :
    (r.withSelectors selectors).Takes model primaryProvider = r.Takes model primaryProvider := by
  unfold Takes candidates
  rw [serves_withSelectors, hasAvailable_withSelectors]
  rfl

/-- The decision names an endpoint of a registered pool that is enabled, healthy and supports
the model. -/
def Dispatched (model : String) (decision : RoutingDecision) : Prop :=
  ∃ pool, r.pools decision.providerName = some pool ∧
    ∃ e, pool.getEndpoint decision.endpointId = some e ∧ e.enabled = true
      ∧ r.healthTracker.isHealthy e.id = true ∧ e.supportsModel model = true

/-- The endpoints of a provider that are available; those that the pool finds under their ids are
enabled and support the model. -/
def AvailableServe (model provider : String) : Prop :=
  ∀ pool, r.pools provider = some pool → ∀ e ∈ pool.endpoints,
    r.healthTracker.isHealthy e.id = true → e.enabled = true →
      ∃ e', pool.getEndpoint e.id = some e' ∧ e'.enabled = true ∧ e'.supportsModel model = true

/-- Whatever the strategies of the pools and whatever they draw, a routed request goes to an
endpoint that is enabled, healthy and supports the model, exactly when all available endpoints
of the provider that takes it do. -/
theorem route_dispatches_iff (table : CaseTable) (order : PoolOrder r.pools) (model : String) :
    (∀ selectors draws decision,
        (r.withSelectors selectors).route table draws (order.withSelectors selectors) model
          = .ok decision →
        r.Dispatched model decision)
      ↔ ∀ primaryProvider provider, r.getProviderForModel order model = some primaryProvider →
          r.Takes model primaryProvider provider → r.AvailableServe model provider := by
  constructor
  · intro hall primaryProvider provider hprimary htakes pool hpool e hmem hhealthy henabled
    -- by turns, each of the available endpoints is returned at some count
    let turns : String → StrategySelector := fun p =>
      { strategy := .roundRobin, modelProfiles := [] }
    have hpool' : (r.withSelectors turns).pools provider
        = some (pool.withSelector (turns provider)) := by
      simp [withSelectors, hpool]
    obtain ⟨draws, hdraws⟩ := exists_draws_tryRouteToProvider table hpool' rfl hmem
      hhealthy henabled
    have hprimary' := (r.getProviderForModel_withSelectors turns order model).trans hprimary
    rw [← r.takes_withSelectors turns] at htakes
    obtain ⟨depth, hroute⟩ := route_of_takes table draws hprimary' htakes
    obtain ⟨pool', hpool'', e', hget, henabled', -, hsupports⟩ :=
      hall turns draws _ ((hroute _).mpr (hdraws depth))
    rw [RoutingDecision.atDepth_providerName, hpool] at hpool''
    obtain rfl := Option.some.inj hpool''
    rw [RoutingDecision.atDepth_endpointId] at hget
    exact ⟨e', hget, henabled', hsupports⟩
  · intro hall selectors draws decision hroute
    obtain ⟨primaryProvider, provider, hprimary, htakes⟩ := exists_takes_of_route hroute
    obtain ⟨depth, hdepth⟩ := route_of_takes table draws hprimary htakes
    have htry := (hdepth decision).mp hroute
    rw [takes_withSelectors] at htakes
    rw [getProviderForModel_withSelectors] at hprimary
    cases hpool : r.pools provider with
    | none => simp [tryRouteToProvider, withSelectors, hpool] at htry
    | some pool =>
        have hpool' : (r.withSelectors selectors).pools provider
            = some (pool.withSelector (selectors provider)) := by
          simp [withSelectors, hpool]
        obtain ⟨hname, e, hmem, hhealthy, henabled, hid⟩ :=
          exists_endpoint_of_tryRouteToProvider hpool' htry
        obtain ⟨e', hget, henabled', hsupports⟩ :=
          hall primaryProvider provider hprimary htakes pool hpool e hmem hhealthy henabled
        have hid' : e'.id = e.id :=
          eq_of_beq (List.find?_some (p := fun a : ProviderEndpoint => a.id == e.id) hget)
        rw [Dispatched, hname, hid]
        exact ⟨pool, hpool, e', hget, henabled', hid' ▸ hhealthy, hsupports⟩

end Dispatch

end SmartRouter

namespace Sample

/-- An endpoint of a provider with the default `supports_model`. -/
def endpoint (id providerName : String) (models : List String) : ProviderEndpoint :=
  { id := id, provider := { name := providerName, supportsModel := supportsListed models,
                            models := models } }

def turns : StrategySelector := { modelProfiles := [] }

/-- A pool whose two keys are allowed different models. -/
def mixedPool : EndpointPool :=
  ((EndpointPool.new "openai" turns).addEndpoint (endpoint "key-1" "openai" ["gpt-4"])).addEndpoint
    (endpoint "key-2" "openai" ["gpt-3.5"])

def mixedRouter : SmartRouter := (SmartRouter.new {}).registerPool "openai" mixedPool

theorem mixedRouter_registered (name : String) :
    name ∈ ["openai"] ↔ (mixedRouter.pools name).isSome = true := by
  simp [mixedRouter, SmartRouter.new, SmartRouter.registerPool, Function.update_apply]

def mixedOrder : PoolOrder mixedRouter.pools :=
  ⟨["openai"], List.nodup_singleton "openai", mixedRouter_registered⟩

end Sample

/-- The second request for a model goes to the key that does not have it. -/
theorem second_key_lacks_model :
    Sample.mixedRouter.route .fixed ⟨1, 0⟩ Sample.mixedOrder "gpt-4"
        = .ok (.primary "openai" "key-2")
      ∧ ¬ Sample.mixedRouter.Dispatched "gpt-4" (.primary "openai" "key-2") := by
  refine ⟨by rfl, ?_⟩
  rintro ⟨pool, hpool, e, hget, -, -, hsupports⟩
  obtain rfl : Sample.mixedPool = pool := Option.some.inj hpool
  obtain rfl : Sample.endpoint "key-2" "openai" ["gpt-3.5"] = e := Option.some.inj hget
  exact absurd hsupports (by decide)

end AuraGateway.Router
