import AuraGateway.Router.SmartRouter

/-!
# Session affinity

The sticky strategy takes a key modulo the number of available endpoints. The key is the sum of the
session id's bytes where the request names a previous response, and otherwise the counter that
all requests of the selector share.

So an endpoint is picked exactly where the key falls on the number of available endpoints that
stand before it (`stickyPick_eq_some_iff`), and a session keeps its endpoint exactly as long as
that stays so (`session_keeps_endpoint_iff`).
-/

set_option autoImplicit false

namespace AuraGateway.Router

open AuraGateway.RustStd AuraGateway.JsStd AuraGateway.Foundations.Selection

/-- Set agent context for agentic strategies. -/
def StrategySelector.withAgentContext (s : StrategySelector) (context : AgentContext) :
    StrategySelector :=
  { s with agentContext := some context }

/-- A request of a session: its context, the health of the endpoints when it comes in, and what
its selection reads. -/
structure SessionRequest where
  context : AgentContext
  tracker : HealthTracker
  draws : SelectorDraws

/-- Whether an endpoint is healthy and enabled. -/
def HealthTracker.isAvailable (tracker : HealthTracker) (e : ProviderEndpoint) : Bool :=
  e.enabled && tracker.isHealthy e.id

namespace EndpointPool

section Pick

variable (pool : EndpointPool) (table : CaseTable) (q : SessionRequest)

/-- The endpoint that a pool selects for a request. -/
def pick : Option ProviderEndpoint :=
  (pool.selector.withAgentContext q.context).select table q.tracker q.draws
    (pool.healthyEndpoints q.tracker)

theorem filter_healthyEndpoints (tracker : HealthTracker) :
    (pool.healthyEndpoints tracker).filter (·.enabled)
      = pool.endpoints.filter tracker.isAvailable := by
  rw [healthyEndpoints, List.filter_filter]
  rfl

end Pick

end EndpointPool

/-- The key of a request of a session. -/
def SessionRequest.key (q : SessionRequest) (sessionId : String) : Nat :=
  if q.context.previousResponseId.isSome then StrategySelector.byteSum sessionId
  else q.draws.counter

section Sticky

variable {pool : EndpointPool} {table : CaseTable} {q : SessionRequest} {sessionId : String}

/-- The sticky strategy indexes the available endpoints by the key. -/
theorem pick_eq_of_sticky (hsticky : pool.selector.strategy = .stickySession)
    (hsession : q.context.sessionId = some sessionId) :
    pool.pick table q
      = (pool.endpoints.filter q.tracker.isAvailable)[
          q.key sessionId % (pool.endpoints.filter q.tracker.isAvailable).length]? := by
  have hstrategy : (pool.selector.withAgentContext q.context).strategy = .stickySession := hsticky
  have hcontext : (pool.selector.withAgentContext q.context).agentContext = some q.context := rfl
  rw [← pool.filter_healthyEndpoints, EndpointPool.pick,
    StrategySelector.select_stickySession table q.tracker q.draws hstrategy hcontext,
    SessionRequest.key]
  cases q.context.previousResponseId with
  | none => rfl
  | some previous =>
      rw [hsession]
      rfl

/-- An endpoint is picked exactly where the key falls on the number of available endpoints before
it. -/
theorem pick_eq_some_iff_of_sticky (hsticky : pool.selector.strategy = .stickySession)
    (hsession : q.context.sessionId = some sessionId) (e : ProviderEndpoint) :
    pool.pick table q = some e
      ↔ ∃ before after, pool.endpoints = before ++ e :: after ∧ q.tracker.isAvailable e = true
          ∧ before.countP q.tracker.isAvailable
            = q.key sessionId % pool.endpoints.countP q.tracker.isAvailable := by
  rw [pick_eq_of_sticky hsticky hsession, List.countP_eq_length_filter, getElem?_filter_eq_some_iff]

end Sticky

/-! ## Runs of a session -/

/-- In a run, the first request that an endpoint is picked for gets it, and a later request comes in
after the endpoint has been healthy at all requests since. -/
structure LaterRequest (pool : EndpointPool) (table : CaseTable) (run : List SessionRequest)
    (e : ProviderEndpoint) (q : SessionRequest) : Prop where
  split : ∃ early first before after, run = early ++ first :: (before ++ q :: after)
    ∧ (∀ q' ∈ early, pool.pick table q' = none) ∧ pool.pick table first = some e
    ∧ ∀ q' ∈ before, q'.tracker.isHealthy e.id = true
  healthy : q.tracker.isHealthy e.id = true

/-- The key of the request falls on a place of the endpoint: modulo the number of available
endpoints it is the number of those before the place. -/
def SessionRequest.KeyFallsOn (q : SessionRequest) (sessionId : String) (pool : EndpointPool)
    (e : ProviderEndpoint) : Prop :=
  ∃ before after, pool.endpoints = before ++ e :: after ∧
    before.countP q.tracker.isAvailable
      = q.key sessionId % pool.endpoints.countP q.tracker.isAvailable

section Run

variable {pool : EndpointPool} {table : CaseTable} {run : List SessionRequest}
  {sessionId : String} {e : ProviderEndpoint} {q : SessionRequest}

theorem LaterRequest.mem (h : LaterRequest pool table run e q) : q ∈ run := by
  obtain ⟨early, first, before, after, rfl, -⟩ := h.split
  simp

/-- The endpoint was available once, so it is enabled. -/
theorem LaterRequest.isAvailable (h : LaterRequest pool table run e q) :
    q.tracker.isAvailable e = true := by
  obtain ⟨early, first, before, after, -, -, hpick, -⟩ := h.split
  have henabled := (StrategySelector.select_mem _ _ _ _ hpick).2
  rw [HealthTracker.isAvailable, henabled, h.healthy]
  rfl

/-- The session's endpoint is picked for every later request, as long as it is healthy, exactly when
the key of each of these requests falls on it. -/
theorem session_keeps_endpoint_iff (hsticky : pool.selector.strategy = .stickySession)
    (hsession : ∀ q ∈ run, q.context.sessionId = some sessionId) :
    (∀ e q, LaterRequest pool table run e q → pool.pick table q = some e)
      ↔ ∀ e q, LaterRequest pool table run e q → q.KeyFallsOn sessionId pool e := by
  have hpick : ∀ e q, LaterRequest pool table run e q →
      (pool.pick table q = some e ↔ q.KeyFallsOn sessionId pool e) := by
    intro e q hlater
    rw [pick_eq_some_iff_of_sticky hsticky (hsession q hlater.mem)]
    constructor
    · rintro ⟨before, after, hplace, -, hkey⟩
      exact ⟨before, after, hplace, hkey⟩
    · rintro ⟨before, after, hplace, hkey⟩
      exact ⟨before, after, hplace, hlater.isAvailable, hkey⟩
  constructor
  · intro h e q hlater
    exact (hpick e q hlater).mp (h e q hlater)
  · intro h e q hlater
    exact (hpick e q hlater).mpr (h e q hlater)

end Run

namespace Sample

/-- Three keys of one provider, chosen by session. -/
def stickyPool : EndpointPool :=
  (((EndpointPool.new "openai" { turns with strategy := .stickySession }).addEndpoint
    (endpoint "key-1" "openai" ["gpt-4"])).addEndpoint (endpoint "key-2" "openai" ["gpt-4"])).addEndpoint
    (endpoint "key-3" "openai" ["gpt-4"])

def conversation : AgentContext := { previousResponseId := some "resp_1", sessionId := some "s" }

/-- The first key is marked unhealthy. -/
def firstKeyDown : HealthTracker :=
  { entries := HealthConfig.run {}
      [⟨"key-1", 0, .registerEndpoint⟩, ⟨"key-1", 0, .markUnhealthy⟩] }

def beforeOutage : SessionRequest := ⟨conversation, {}, ⟨0, 0⟩⟩

def afterOutage : SessionRequest := ⟨conversation, firstKeyDown, ⟨0, 0⟩⟩

def secondKey : ProviderEndpoint := endpoint "key-2" "openai" ["gpt-4"]

theorem session_of_mem {q : SessionRequest} (h : q ∈ [beforeOutage, afterOutage]) :
    q.context.sessionId = some "s" := by
  rcases List.mem_pair.mp h with rfl | rfl <;> rfl

end Sample

/-- Another endpoint goes down, and the session moves from the second key to the third. -/
theorem session_moves :
    (Sample.stickyPool.pick .fixed Sample.beforeOutage).map (·.id) = some "key-2"
      ∧ (Sample.stickyPool.pick .fixed Sample.afterOutage).map (·.id) = some "key-3"
      ∧ LaterRequest Sample.stickyPool .fixed [Sample.beforeOutage, Sample.afterOutage]
          Sample.secondKey Sample.afterOutage
      ∧ Sample.stickyPool.pick .fixed Sample.afterOutage ≠ some Sample.secondKey := by
  have hafter : (Sample.stickyPool.pick .fixed Sample.afterOutage).map (·.id) = some "key-3" := rfl
  refine ⟨rfl, hafter, ?_, ?_⟩
  · exact ⟨⟨[], Sample.beforeOutage, [], [], rfl, fun q h => absurd h List.not_mem_nil, rfl,
      fun q h => absurd h List.not_mem_nil⟩, by decide⟩
  · intro hpick
    rw [hpick] at hafter
    exact absurd hafter (by decide)

theorem session_keeps_endpoint_sample :
    (∀ e q, LaterRequest Sample.stickyPool .fixed [Sample.beforeOutage, Sample.afterOutage] e q →
        Sample.stickyPool.pick .fixed q = some e)
      ↔ ∀ e q, LaterRequest Sample.stickyPool .fixed [Sample.beforeOutage, Sample.afterOutage] e q →
          q.KeyFallsOn "s" Sample.stickyPool e :=
  session_keeps_endpoint_iff rfl fun _ h => Sample.session_of_mem h

end AuraGateway.Router
