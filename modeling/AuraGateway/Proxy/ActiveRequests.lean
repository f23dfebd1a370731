import AuraGateway.Foundations.Gauges
import AuraGateway.Proxy.PromptEgress
import AuraGateway.Proxy.ResponseHandling

/-!
# The gauge of active requests

A request that is neither streamed nor answered from the cache increments the gauge of the
provider its model resolves to, and decrements one when the provider calls are over: for a
fan-out that of the same provider, for a single call that of the provider which the escalations
have reached. A panic in between decrements none. So a request leaves the gauges as they were
exactly when it does not panic there and its escalations end at a provider of the same name
(`gauges_restored_iff`).
-/

set_option autoImplicit false

namespace AuraGateway.Proxy

open AuraGateway.RustStd AuraGateway.Types AuraGateway.Router AuraGateway.Storage
open AuraGateway.Foundations AuraGateway.Foundations.Gauges

/-! ## The provider reached -/

/-- The provider of the last call: escalations replace it, as in `sendRetrying`. -/
def reachedProvider (request : CreateResponseRequest) (decision : Option AutoDecision)
    (provider : Provider) (attempt : Nat) : List ProviderFailure → Checked Provider
  | [] => .ok provider
  | f :: failures => do
      let res ← escalateAfterFailure f.now f.env f.state request decision f.error attempt
      match res.provider with
      | none => .ok provider
      | some next => reachedProvider res.request res.decision next (attempt + 1) failures

/-- A request is sent at least once. -/
theorem sendRetrying_calls_ne_nil {failures : List ProviderFailure}
    {request : CreateResponseRequest} {decision : Option AutoDecision} {provider : Provider}
    {attempt : Nat} {sent : Sent}
    (h : sendRetrying request decision provider attempt failures = .ok sent) :
    sent.calls ≠ [] := by
  cases failures with
  | nil =>
      obtain rfl := Except.ok.inj h
      exact List.cons_ne_nil _ _
  | cons f failures =>
      simp only [sendRetrying] at h
      rw [checked_bind_eq_ok] at h
      obtain ⟨res, -, h⟩ := h
      split at h
      · obtain rfl := Except.ok.inj h
        exact List.cons_ne_nil _ _
      · rw [checked_bind_eq_ok] at h
        obtain ⟨rest, -, h⟩ := h
        obtain rfl := Except.ok.inj h
        exact List.cons_ne_nil _ _

/-- The last call of a request goes to the provider reached. -/
theorem sendRetrying_last (failures : List ProviderFailure) (request : CreateResponseRequest)
    (decision : Option AutoDecision) (provider : Provider) (attempt : Nat) :
    (sendRetrying request decision provider attempt failures).map
        (fun sent => sent.calls.getLast?.map (·.provider)) =
      (reachedProvider request decision provider attempt failures).map some := by
  induction failures generalizing request decision provider attempt with
  | nil => rfl
  | cons f failures ih =>
      simp only [sendRetrying, reachedProvider]
      cases escalateAfterFailure f.now f.env f.state request decision f.error attempt with
      | error e => rfl
      | ok res =>
          rw [checked_ok_bind, checked_ok_bind]
          cases res.provider with
          | none => rfl
          | some next =>
              dsimp only
              rw [← ih res.request res.decision next (attempt + 1)]
              cases hsent : sendRetrying res.request res.decision next (attempt + 1) failures with
              | error e => rfl
              | ok sent =>
                  obtain ⟨c, calls, hcalls⟩ :=
                    List.exists_cons_of_ne_nil (sendRetrying_calls_ne_nil hsent)
                  show Except.ok _ = Except.ok _
                  simp only [hcalls, List.getLast?_cons_cons]

/-! ## What a request does to the gauges -/

/-- The decrement at the end of the provider calls; a panic leaves it out. -/
def dispatchOps (turn : Turn) (request : CreateResponseRequest) (decision : Option AutoDecision)
    (provider : Provider) : List (Op String) :=
  if needsFanout request then
    -- a fan-out stays with its provider, and both its exits decrement
    [.decrement provider.name]
  else
    match reachedProvider request decision provider 0 turn.failures with
    | .ok last => [.decrement last.name]
    | .error _ => []

/-- Operations of a request that has a provider. -/
def answerOps (gw : Gateway) (turn : Turn) (stored : Stored) (request : CreateResponseRequest)
    (decision : Option AutoDecision) (provider : Provider) : List (Op String) :=
  let request := degradeStream request
  if request.stream then []
  else
    match consultCache gw turn stored.cache request with
    | some _ => []
    | none =>
        .increment provider.name ::
          match getOrCreateConversation gw turn stored.db request with
          | .ok _ => dispatchOps turn request decision provider
          | .error _ => []

/-- What a request does to the gauge of active requests. -/
def activeOps (gw : Gateway) (auth : Option AuthContext) (turn : Turn) (stored : Stored)
    (request : CreateResponseRequest) : List (Op String) :=
  if scopeMissing auth then []
  else
    match prepare gw auth turn stored.db request with
    | .error _ => []
    | .ok p =>
        match p.resolution.result with
        | .error _ => []
        | .ok decision =>
            match gw.state.getProvider p.resolution.request.model with
            | none => []
            | some provider => answerOps gw turn stored p.resolution.request decision provider

/-! ## When the gauges are restored -/

/-- The request goes on to a provider, without streaming. -/
structure Dispatched (gw : Gateway) (auth : Option AuthContext) (turn : Turn) (stored : Stored)
    (request resolved : CreateResponseRequest) (decision : Option AutoDecision)
    (provider : Provider) : Prop where
  allowed : scopeMissing auth = false
  prepared : ∃ p, prepare gw auth turn stored.db request = .ok p ∧
    p.resolution.result = .ok decision ∧
    gw.state.getProvider p.resolution.request.model = some provider ∧
    resolved = degradeStream p.resolution.request
  collected : resolved.stream = false
  missed : consultCache gw turn stored.cache resolved = none

/-- Neither the conversation nor an escalation panics, and a single call ends at a provider of
the name it started at. -/
def EndsWhereItStarted (gw : Gateway) (turn : Turn) (stored : Stored)
    (resolved : CreateResponseRequest) (decision : Option AutoDecision) (provider : Provider) :
    Prop :=
  (∃ thread, getOrCreateConversation gw turn stored.db resolved = .ok thread) ∧
    (needsFanout resolved = true ∨
      ∃ last, reachedProvider resolved decision provider 0 turn.failures = .ok last ∧
        last.name = provider.name)

section Restored

variable {gw : Gateway} {auth : Option AuthContext} {turn : Turn} {stored : Stored}
  {request resolved : CreateResponseRequest} {decision : Option AutoDecision}
  {provider : Provider}

/-- A request does nothing to the gauges, or goes on to a provider. -/
theorem activeOps_cases (gw : Gateway) (auth : Option AuthContext) (turn : Turn) (stored : Stored)
    (request : CreateResponseRequest) :
    (activeOps gw auth turn stored request = [] ∧
        ∀ resolved decision provider,
          ¬ Dispatched gw auth turn stored request resolved decision provider) ∨
      ∃ resolved decision provider,
        Dispatched gw auth turn stored request resolved decision provider ∧
        activeOps gw auth turn stored request = .increment provider.name ::
          match getOrCreateConversation gw turn stored.db resolved with
          | .ok _ => dispatchOps turn resolved decision provider
          | .error _ => [] := by
  unfold activeOps
  split
  · rename_i hmissing
    refine .inl ⟨rfl, fun resolved decision provider h => ?_⟩
    rw [h.allowed] at hmissing
    cases hmissing
  · rename_i hallowed
    rw [Bool.not_eq_true] at hallowed
    cases hp : prepare gw auth turn stored.db request with
    | error e =>
        refine .inl ⟨rfl, fun resolved decision provider h => ?_⟩
        obtain ⟨p, hp', -⟩ := h.prepared
        cases hp.symm.trans hp'
    | ok p =>
        have huniq : ∀ p', prepare gw auth turn stored.db request = .ok p' → p' = p := by
          intro p' hp'
          exact Except.ok.inj (hp'.symm.trans hp)
        cases hr : p.resolution.result with
        | error e =>
            refine .inl ⟨by simp only [hr], fun resolved decision provider h => ?_⟩
            obtain ⟨p', hp', hr', -⟩ := h.prepared
            rw [huniq p' hp', hr] at hr'
            cases hr'
        | ok decision =>
            cases hprov : gw.state.getProvider p.resolution.request.model with
            | none =>
                refine .inl ⟨by simp only [hr, hprov], fun resolved decision provider h => ?_⟩
                obtain ⟨p', hp', -, hprov', -⟩ := h.prepared
                rw [huniq p' hp', hprov] at hprov'
                cases hprov'
            | some provider =>
                simp only [hr, hprov, answerOps]
                split
                · rename_i hstream
                  refine .inl ⟨rfl, fun resolved decision provider h => ?_⟩
                  obtain ⟨p', hp', -, -, hresolved⟩ := h.prepared
                  have hcollected := h.collected
                  rw [hresolved, huniq p' hp', hstream] at hcollected
                  cases hcollected
                · rename_i hstream
                  rw [Bool.not_eq_true] at hstream
                  cases hcache : consultCache gw turn stored.cache
                      (degradeStream p.resolution.request) with
                  | some hit =>
                      refine .inl ⟨rfl, fun resolved decision provider h => ?_⟩
                      obtain ⟨p', hp', -, -, hresolved⟩ := h.prepared
                      have hmissed := h.missed
                      rw [hresolved, huniq p' hp', hcache] at hmissed
                      cases hmissed
                  | none =>
                      exact .inr ⟨degradeStream p.resolution.request, decision, provider,
                        ⟨hallowed, ⟨p, hp, hr, hprov, rfl⟩, hstream, hcache⟩, rfl⟩

/-- There is one way to go on to a provider. -/
theorem Dispatched.unique (h : Dispatched gw auth turn stored request resolved decision provider)
    {resolved' : CreateResponseRequest} {decision' : Option AutoDecision} {provider' : Provider}
    (h' : Dispatched gw auth turn stored request resolved' decision' provider') :
    resolved' = resolved ∧ decision' = decision ∧ provider' = provider := by
  obtain ⟨p, hp, hr, hprov, rfl⟩ := h.prepared
  obtain ⟨p', hp', hr', hprov', rfl⟩ := h'.prepared
  obtain rfl := Except.ok.inj (hp.symm.trans hp')
  exact ⟨rfl, Except.ok.inj (hr'.symm.trans hr), Option.some.inj (hprov'.symm.trans hprov)⟩

/-- After its increment, a dispatched request restores the gauges exactly when it ends at a
provider of the name it started at. -/
theorem dispatched_balanced_iff (gw : Gateway) (turn : Turn) (stored : Stored)
    (resolved : CreateResponseRequest) (decision : Option AutoDecision) (provider : Provider) :
    Balanced (Op.increment provider.name ::
        match getOrCreateConversation gw turn stored.db resolved with
        | .ok _ => dispatchOps turn resolved decision provider
        | .error _ => []) ↔
      EndsWhereItStarted gw turn stored resolved decision provider := by
  unfold EndsWhereItStarted dispatchOps
  cases hthread : getOrCreateConversation gw turn stored.db resolved with
  | error e => exact iff_of_false (not_balanced_increment _) (by simp)
  | ok thread =>
      cases hfanout : needsFanout resolved with
      | true =>
          rw [if_pos rfl]
          exact iff_of_true ((balanced_pair_iff _ _).mpr rfl) ⟨⟨thread, rfl⟩, .inl rfl⟩
      | false =>
          rw [if_neg Bool.false_ne_true]
          cases hreached : reachedProvider resolved decision provider 0 turn.failures with
          | error e => exact iff_of_false (not_balanced_increment _) (by simp)
          | ok last => rw [balanced_pair_iff]; simp

end Restored

/-- A request leaves every gauge at the value it had exactly when, if it goes on to a provider
without streaming, nothing panics before the provider calls are over and a single call ends at
a provider of the name it started at. -/
theorem gauges_restored_iff (gw : Gateway) (auth : Option AuthContext) (turn : Turn)
    (stored : Stored) (request : CreateResponseRequest) (gauges : String → Int) :
    run gauges (activeOps gw auth turn stored request) = gauges ↔
      ∀ resolved decision provider,
        Dispatched gw auth turn stored request resolved decision provider →
        EndsWhereItStarted gw turn stored resolved decision provider := by
  rw [run_eq_self_iff]
  rcases activeOps_cases gw auth turn stored request with ⟨hnil, hnot⟩ | ⟨resolved, decision,
    provider, hdispatched, hops⟩
  · rw [hnil]
    exact iff_of_true balanced_nil fun resolved decision provider h => absurd h (hnot _ _ _)
  · rw [hops, dispatched_balanced_iff]
    constructor
    · intro hends resolved' decision' provider' h'
      obtain ⟨rfl, rfl, rfl⟩ := hdispatched.unique h'
      exact hends
    · intro hall
      exact hall resolved decision provider hdispatched

/-- Requests that restore the gauges one by one do so in any interleaving. -/
theorem interleaved_gauges_restored (gw : Gateway)
    (requests : List (Option AuthContext × Turn × Stored × CreateResponseRequest))
    (h : ∀ r ∈ requests, ∀ resolved decision provider,
      Dispatched gw r.1 r.2.1 r.2.2.1 r.2.2.2 resolved decision provider →
      EndsWhereItStarted gw r.2.1 r.2.2.1 resolved decision provider)
    {ops : List (Op String)}
    (hops : ops.Perm
      (requests.map fun r => activeOps gw r.1 r.2.1 r.2.2.1 r.2.2.2).flatten)
    (gauges : String → Int) : run gauges ops = gauges := by
  rw [run_eq_self_iff]
  refine Balanced.interleave ?_ hops
  intro series hseries
  obtain ⟨r, hr, rfl⟩ := List.mem_map.mp hseries
  exact (run_eq_self_iff gauges _).mp ((gauges_restored_iff gw _ _ _ _ gauges).mpr (h r hr))

/-! ### A request that escalates to another provider -/

namespace Sample

/-- `openai` serves `m`, `anthropic` serves `n` and the classifier's model. -/
def splitProviders : ProviderRegistry :=
  { providers := [("openai", openai), ("anthropic", anthropic)]
    modelMap := [("m", "openai"), ("n", "anthropic"), ("claude-haiku-4-5", "anthropic")]
    named := twoProviders.named
    distinct := twoProviders.distinct
    mapped := by decide }

def splitState : AppState := { registry := splitProviders, autoRouter := some Router.Sample.router }

def splitGateway : Gateway :=
  { state := splitState
    codec :=
      { inputJson := fun _ => "[]"
        toolsJson := fun _ => "[]"
        toolChoiceJson := fun _ => "\"auto\""
        sha256Hex := id
        parseResponse := fun _ => none }
    preprocessor :=
      { compressionEnabled := fun _ => false
        compress := fun _ _ => none
        augment := fun _ _ instructions => instructions }
    readOverride := fun _ => {} }

/-- A request for `auto` that asks for the LLM classifier. -/
def classifiedRequest : CreateResponseRequest :=
  { Router.Sample.request with routing := some { classifier := some .llm } }

/-- The classifier says medium, and the first call times out. -/
def timedOutTurn : Turn :=
  { now := 0
    decision := Router.Sample.env
    classifierAnswer := some { tier := .medium, confidence := 0.5 }
    newId := 1
    timestamp := 0
    failures := [{ now := 0, env := Router.Sample.env, state := splitState, error := .timeout }] }

end Sample

/-- A request that moves from `openai` to `anthropic` leaves `openai` one request too many and
`anthropic` one too few. -/
theorem escalated_gauges_drift :
    run (fun _ => 0) (activeOps Sample.splitGateway none Sample.timedOutTurn {}
        Sample.classifiedRequest) "openai" = 1 ∧
      run (fun _ => 0) (activeOps Sample.splitGateway none Sample.timedOutTurn {}
        Sample.classifiedRequest) "anthropic" = -1 := by
  have hops : activeOps Sample.splitGateway none Sample.timedOutTurn {} Sample.classifiedRequest =
      [.increment "openai", .decrement "anthropic"] := by
    decide +kernel
  rw [hops, run_eq, run_eq]
  decide

end AuraGateway.Proxy
