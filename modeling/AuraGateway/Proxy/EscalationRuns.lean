import AuraGateway.Proxy.AutoRouting
import AuraGateway.Router.SelectionSafety

/-!
# Escalation runs

The response handler dispatches a request, and while the provider fails it asks
`escalateAfterFailure` for another one, counting attempts from 0. Between two failures
everything the escalation reads may change: the router in force, the breaker, the
oracle, the draws.

`Tracks` relates the request, the decision and the models dispatched so far. It is kept
by every retry (`Tracks.retry`) and gives the bounds of `escalation_run_invariants`.
-/

set_option autoImplicit false

namespace AuraGateway.Proxy

open AuraGateway.RustStd AuraGateway.Types AuraGateway.Router
open AuraGateway.Foundations.LabelledRuns

/-! ## The retry loop -/

/-- State of the handler's retry loop; `dispatched` lists the models sent to a provider
with the tier of the decision at that moment. -/
structure RetryState where
  request : CreateResponseRequest
  decision : Option AutoDecision
  attempt : Nat
  dispatched : List (String × Tier)

/-- The entry of a dispatch under a decision. -/
def dispatchEntry (request : CreateResponseRequest) (decision : Option AutoDecision) :
    List (String × Tier) :=
  (decision.map fun d => (request.model, d.tier)).toList

/-- The loop when the request is first dispatched. -/
def RetryState.start (request : CreateResponseRequest) (d : AutoDecision) : RetryState :=
  { request, decision := some d, attempt := 0, dispatched := dispatchEntry request (some d) }

/-- The loop after an escalation found a provider: the request is dispatched again. -/
def RetryState.retry (s : RetryState) (res : Escalated) : RetryState :=
  { request := res.request
    decision := res.decision
    attempt := s.attempt + 1
    dispatched := s.dispatched ++ dispatchEntry res.request res.decision }

/-- A provider failure, and the surroundings it is handled in. -/
structure Failure where
  oracleFor : AppState → CreateResponseRequest → Eligibility
  now : Instant
  env : DecisionEnv
  state : AppState
  error : ProviderError

/-- Handle a failure. -/
def RetryState.handle (s : RetryState) (f : Failure) : Checked Escalated :=
  escalateThrough f.oracleFor f.now f.env f.state s.request s.decision f.error s.attempt

/-- One turn of the loop: the failure is answered with a provider to retry with. -/
def Retries (s : RetryState) (f : Failure) (s' : RetryState) : Prop :=
  ∃ res, s.handle f = .ok res ∧ res.provider.isSome ∧ s' = s.retry res

/-- The gateway's own handling, with the oracle it builds itself, is one of them. -/
theorem handle_gateway (s : RetryState) (now : Instant) (env : DecisionEnv) (state : AppState)
    (error : ProviderError) :
    s.handle
        { oracleFor := fun state request => (GatewayEligibility.forRequest state now request).oracle
          now, env, state, error }
      = escalateAfterFailure now env state s.request s.decision error s.attempt := rfl

/-! ## Applied decisions -/

/-- The decision was applied to the request and nothing has failed yet. -/
structure Applied (request : CreateResponseRequest) (d : AutoDecision) : Prop where
  real : d.shadow = false
  fresh : d.escalations = []
  model : request.model = d.selected

/-- Resolving a request for `auto` applies the decision it returns. -/
theorem resolveAutoModel_applied {state : AppState} {env : ResolveEnv}
    {request : CreateResponseRequest} {res : Resolution} {d : AutoDecision}
    (hauto : (parseAutoModel request.model).isSome)
    (h : resolveAutoModel state env request = .ok res) (hd : res.result = .ok (some d)) :
    Applied res.request d := by
  rcases resolveAutoModel_cases h with ⟨-, -, hno, -⟩ | ⟨router, -, ctx, merged, -, -, hr⟩
  · exact absurd hd (hno d)
  · obtain ⟨d₀, hdecide, -, -, hesc, hshadow, hmodel⟩ := hr.decided d hd
    have hreal : (parseAutoModel request.model).isNone = false := by
      simpa [Option.isSome_iff_ne_none] using hauto
    rw [hreal] at hshadow
    exact ⟨hshadow, hesc.trans (decide_escalations hdecide), hmodel hreal⟩

/-! ## The invariant -/

/-- Consecutive entries of an escalation list are linked, and the last one leads to the
selected model. -/
def Linked (escalations : List Escalation) (selected : String) : Prop :=
  escalations.IsChain (fun a b => b.fromModel = a.toModel) ∧
    ∀ e ∈ escalations.getLast?, e.toModel = selected

/-- What the loop keeps, for the request's options and the tier of its first decision. -/
structure Tracks (options : Option RoutingOptions) (first : Tier) (s : RetryState)
    (d : AutoDecision) : Prop where
  decision : s.decision = some d
  model : s.request.model = d.selected
  routing : s.request.routing = options
  linked : Linked d.escalations d.selected
  models : s.dispatched.map Prod.fst = d.escalations.map (·.fromModel) ++ [d.selected]
  distinct : (s.dispatched.map Prod.fst).Nodup
  ascending : (s.dispatched.map Prod.snd).Pairwise (· ≤ ·)
  upTo : ∀ e ∈ s.dispatched, e.2 ≤ d.tier
  bounded : d.tier ≤ max ((options.bind (·.maxTier)).getD .reasoning) first
  counted : s.dispatched.length = s.attempt + 1

theorem Tracks.start {request : CreateResponseRequest} {d : AutoDecision}
    (h : Applied request d) :
    Tracks request.routing d.tier (.start request d) d where
  decision := rfl
  model := h.model
  routing := rfl
  linked := by
    rw [h.fresh]
    exact ⟨List.isChain_nil, by simp⟩
  models := by
    rw [h.fresh]
    simp [RetryState.start, dispatchEntry, h.model]
  distinct := by simp [RetryState.start, dispatchEntry]
  ascending := by simp [RetryState.start, dispatchEntry]
  upTo := by
    intro e he
    simp only [RetryState.start, dispatchEntry, Option.map_some, Option.toList_some,
      List.mem_singleton] at he
    rw [he]
  bounded := le_max_right _ _
  counted := rfl

/-- An escalation appended to a linked list keeps it linked. -/
theorem Linked.snoc {l : List Escalation} {m : String} (h : Linked l m) {e : Escalation}
    (hfrom : e.fromModel = m) : Linked (l ++ [e]) e.toModel := by
  refine ⟨?_, by simp⟩
  apply List.isChain_append.mpr
  refine ⟨h.1, List.isChain_singleton e, ?_⟩
  intro x hx y hy
  simp only [List.head?_cons, Option.mem_some_iff] at hy
  rw [← hy, hfrom, h.2 x hx]

section Step

variable {options : Option RoutingOptions} {first : Tier} {s : RetryState} {d : AutoDecision}

/-- A move to the next candidate is tracked by the decision it is recorded in. -/
theorem Tracks.moves (h : Tracks options first s d) {router : AutoRouter} {oracle : Eligibility}
    {env : DecisionEnv} {sel : TierSelection}
    (hm : MovesTo router oracle env s.request d s.attempt sel) (code : String)
    {res : Escalated} (hreq : res.request = { s.request with model := sel.model })
    (hdec : res.decision = some (AutoRouter.applyEscalation d sel code)) :
    Tracks options first (s.retry res) (AutoRouter.applyEscalation d sel code) := by
  have hnext := nextCandidate_some hm.next
  have hentry : (s.retry res).dispatched = s.dispatched ++ [(sel.model, sel.tier)] := by
    show s.dispatched ++ dispatchEntry res.request res.decision = _
    rw [hreq, hdec]
    rfl
  -- The exclude list is exactly what has been dispatched so far.
  have hfresh : sel.model ∉ s.dispatched.map Prod.fst := by
    rw [h.models, ← h.model]
    exact hnext.fresh
  have hmax : sel.tier ≤ max ((options.bind (·.maxTier)).getD .reasoning) first := by
    have habove := hnext.notAbove
    simp only [AutoRouter.escalationMaxTier] at habove
    rw [h.routing] at habove
    exact habove.trans (max_le (le_max_left _ _) h.bounded)
  exact
    { decision := hdec
      model := by
        show res.request.model = sel.model
        rw [hreq]
      routing := by
        show res.request.routing = options
        rw [hreq]
        exact h.routing
      linked := h.linked.snoc rfl
      models := by
        rw [hentry, List.map_append, h.models]
        simp [AutoRouter.applyEscalation]
      distinct := by
        rw [hentry, List.map_append, List.nodup_append]
        refine ⟨h.distinct, by simp, ?_⟩
        intro a ha b hb hab
        simp only [List.map_cons, List.map_nil, List.mem_singleton] at hb
        rw [hab, hb] at ha
        exact hfresh ha
      ascending := by
        rw [hentry, List.map_append, List.pairwise_append]
        refine ⟨h.ascending, by simp, ?_⟩
        intro a ha b hb
        obtain ⟨e, he, rfl⟩ := List.mem_map.mp ha
        simp only [List.map_cons, List.map_nil, List.mem_singleton] at hb
        rw [hb]
        exact (h.upTo e he).trans hnext.notBelow
      upTo := by
        intro e he
        rw [hentry] at he
        rcases List.mem_append.mp he with he | he
        · exact (h.upTo e he).trans hnext.notBelow
        · rw [List.mem_singleton.mp he]
          exact le_rfl
      bounded := hmax
      counted := by
        rw [hentry, List.length_append, h.counted]
        rfl }

/-- Every retry is tracked, by a decision of the same run, and only happens while
attempts are left. -/
theorem Tracks.retry (h : Tracks options first s d) {f : Failure} {s' : RetryState}
    (hs : Retries s f s') :
    (∃ d', Tracks options first s' d') ∧
      ∃ router ∈ f.state.autoRouter, s'.attempt ≤ router.config.escalation.maxAttempts := by
  obtain ⟨res, hres, hsome, rfl⟩ := hs
  rcases escalateThrough_cases hres with ⟨hnone, -, -⟩ | hmoved
  · rw [hnone] at hsome
    cases hsome
  · obtain ⟨router, hrouter, d', sel, provider, hd, hm, -, hreq, hdec, -⟩ := hmoved
    rw [h.decision] at hd
    injection hd with hd
    subst hd
    exact ⟨⟨_, h.moves hm f.error.errorCode hreq hdec⟩, router, hrouter, hm.within⟩

end Step

/-! ## Runs -/

/-- The failures handled so far leave the state tracked, and no more attempts counted
than their routers allow. -/
def RunTracks (options : Option RoutingOptions) (first : Tier) (failures : List Failure)
    (s : RetryState) : Prop :=
  (∃ d, Tracks options first s d) ∧
    ∀ maxAttempts, (∀ f ∈ failures, ∀ router ∈ f.state.autoRouter,
      router.config.escalation.maxAttempts ≤ maxAttempts) → s.attempt ≤ maxAttempts

theorem runTracks_of_run {request : CreateResponseRequest} {d : AutoDecision}
    (h : Applied request d) {failures : List Failure} {s : RetryState}
    (hrun : Run Retries (.start request d) failures s) :
    RunTracks request.routing d.tier failures s := by
  apply Run.invariant (RunTracks request.routing d.tier) ?_ ?_ hrun
  · exact ⟨⟨d, .start h⟩, fun _ _ => Nat.zero_le _⟩
  · -- the bound on attempts is the router's of the failure just handled
    intro fs t f u hinv hs
    obtain ⟨⟨d', ht⟩, -⟩ := hinv
    obtain ⟨hnext, router, hrouter, hle⟩ := ht.retry hs
    refine ⟨hnext, ?_⟩
    intro maxAttempts hmax
    exact hle.trans (hmax f (by simp) router hrouter)

/-- In every state an escalation run reaches: the request asks for the decision's
selected model, the escalation list is linked and leads to it, the models dispatched are
distinct, their tiers never decrease and stay at most the larger of the request's
`max_tier` and the first decision's tier, and there are at most `1 + maxAttempts` of
them. A failure that is not answered with a provider leaves request and decision
unchanged. -/
theorem escalation_run_invariants (request : CreateResponseRequest) (d : AutoDecision)
    (h : Applied request d) (failures : List Failure) (s : RetryState)
    (hrun : Run Retries (.start request d) failures s) :
    (∃ d', s.decision = some d' ∧ s.request.model = d'.selected ∧
      Linked d'.escalations d'.selected) ∧
    (s.dispatched.map Prod.fst).Nodup ∧
    (s.dispatched.map Prod.snd).Pairwise (· ≤ ·) ∧
    (∀ e ∈ s.dispatched,
      e.2 ≤ max ((request.routing.bind (·.maxTier)).getD .reasoning) d.tier) ∧
    (∀ maxAttempts, (∀ f ∈ failures, ∀ router ∈ f.state.autoRouter,
        router.config.escalation.maxAttempts ≤ maxAttempts) →
      s.dispatched.length ≤ 1 + maxAttempts) ∧
    ∀ f res, s.handle f = .ok res → res.provider = none →
      res.request = s.request ∧ res.decision = s.decision := by
  obtain ⟨⟨d', ht⟩, hattempt⟩ := runTracks_of_run h hrun
  refine ⟨⟨d', ht.decision, ht.model, ht.linked⟩, ht.distinct, ht.ascending, ?_, ?_, ?_⟩
  · intro e he
    exact (ht.upTo e he).trans ht.bounded
  · intro maxAttempts hmax
    have hle := hattempt maxAttempts hmax
    rw [ht.counted]
    omega
  · intro f res hres hnone
    rcases escalateThrough_cases hres with ⟨-, hreq, hdec⟩ | hmoved
    · exact ⟨hreq, hdec⟩
    · obtain ⟨-, -, -, -, provider, -, -, -, -, -, hprovider⟩ := hmoved
      rw [hnone] at hprovider
      cases hprovider

/-! ### A small gateway -/

namespace Sample

/-- A provider that serves every model. -/
def openai : Provider := { name := "openai", supportsModel := supportsAny }

/-- The registry of `openai` alone. -/
def registry : ProviderRegistry :=
  { providers := [("openai", openai)]
    modelMap := []
    named := by simp [openai]
    distinct := by simp
    mapped := by simp }

/-- The gateway of the sample router. -/
def state : AppState := { registry, autoRouter := some Router.Sample.router }

/-- A plain request for `auto`. -/
def context : DecisionContext := { requestedModel := "auto" }

/-- A decision for `m` in the medium tier. -/
def decision : AutoDecision :=
  Router.Sample.router.stickyDecision Router.Sample.env context Router.Sample.oracle
    (Router.Sample.router.prepare Router.Sample.request context none) "m" .medium

/-- The sample request, rewritten to `m`. -/
def request : CreateResponseRequest := { Router.Sample.request with model := "m" }

/-- `m` times out. -/
def failure : Failure :=
  { oracleFor := fun _ _ => Router.Sample.oracle
    now := 0
    env := Router.Sample.env
    state
    error := .timeout }

end Sample

/-- After `m` has timed out, the sample gateway has dispatched two distinct models. -/
theorem escalation_run_sample :
    ∃ s, Run Retries (.start Sample.request Sample.decision) [Sample.failure] s ∧
      (s.dispatched.map Prod.fst).Nodup ∧ s.dispatched.length ≤ 1 + 1 := by
  obtain ⟨res, hres, hsome⟩ :
      ∃ res, (RetryState.start Sample.request Sample.decision).handle Sample.failure = .ok res ∧
        res.provider.isSome := by
    refine ⟨_, rfl, ?_⟩
    decide
  have hstep : Retries (.start Sample.request Sample.decision) Sample.failure
      ((RetryState.start Sample.request Sample.decision).retry res) := ⟨res, hres, hsome, rfl⟩
  have hrun : Run Retries (.start Sample.request Sample.decision) [Sample.failure] _ :=
    Run.nil.snoc hstep
  have happ : Applied Sample.request Sample.decision := ⟨rfl, rfl, rfl⟩
  obtain ⟨-, hdistinct, -, -, hlen, -⟩ :=
    escalation_run_invariants Sample.request Sample.decision happ _ _ hrun
  refine ⟨_, hrun, hdistinct, hlen 1 ?_⟩
  intro f hf router hr
  obtain rfl := List.mem_singleton.mp hf
  cases hr
  decide

end AuraGateway.Proxy
