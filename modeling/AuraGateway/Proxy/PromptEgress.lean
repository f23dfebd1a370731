import AuraGateway.Proxy.EscalationRuns

/-!
# Where the prompt goes

The handling of one request as a transition system: resolve, dispatch, escalate after a
failure, and in the background answer and judge a gold pair. Every call to a provider is
logged. Between two events everything but the provider registry may change; the registry
is fixed when the process starts.

`prompt_egress_confined` bounds the calls of a run for `auto`: while every step meets
`Confined`, a call that carries text of the prompt goes to a model that the merged allow
/ deny lists permit for the provider that serves it. Dispatch, escalation and the gold
candidates consult the lists, under the name the gateway would give the provider; the
classifier and the judge are called without consulting them (`prompt_egress_broken`).
-/

set_option autoImplicit false

namespace AuraGateway.Proxy

open AuraGateway.RustStd AuraGateway.Types AuraGateway.Router
open AuraGateway.Foundations.LabelledRuns

/-! ## The handler -/

/-- Where the foreground stands. -/
inductive Phase where
  | arrived
  | ready (provider : Provider)
  | waiting (provider : Provider)
  | done

/-- Where the background collection stands. -/
inductive GoldPhase where
  | idle
  | pending (task : GoldTask)
  | answering (answering : Answering)

/-- State of the handling of one request. -/
structure Handling where
  request : CreateResponseRequest
  decision : Option AutoDecision
  attempt : Nat
  phase : Phase
  gold : GoldPhase
  calls : List ProviderCall

/-- A request as it reaches the resolution, after replay and preprocessing. -/
def Handling.start (request : CreateResponseRequest) : Handling :=
  { request, decision := none, attempt := 0, phase := .arrived, gold := .idle, calls := [] }

/-- What happens next, with what the process holds at that moment. -/
inductive Event where
  | resolve (state : AppState) (env : ResolveEnv)
  | cacheHit
  | dispatch
  | success
  | failure (now : Instant) (env : DecisionEnv) (state : AppState) (error : ProviderError)
  | collect (now : Instant) (state : AppState)
  | judge (state : AppState) (textA textB : String)
  | candidateFailed

/-- The gateway state an event happens in, if it reads any. -/
def Event.state : Event → Option AppState
  | .resolve state _ => some state
  | .failure _ _ state _ => some state
  | .collect _ state => some state
  | .judge state _ _ => some state
  | _ => none

/-- Phase after a request was resolved: the provider of its model is looked up. -/
def resolvedPhase (state : AppState) (res : Resolution) : Phase :=
  match res.result, state.getProvider res.request.model with
  | .ok _, some provider => .ready provider
  | _, _ => .done

/-- The collection a resolution started. -/
def startedGold : Option GoldTask → GoldPhase
  | some task => .pending task
  | none => .idle

/-- The decision of a resolution. -/
def resolvedDecision : Except ApiError (Option AutoDecision) → Option AutoDecision
  | .ok decision => decision
  | .error _ => none

/-- Phase after an escalation: retry with its provider, or give up. -/
def escalatedPhase : Option Provider → Phase
  | some provider => .ready provider
  | none => .done

/-- The handling after an event; `none` when the event cannot happen. -/
def Handling.next (s : Handling) : Event → Checked (Option Handling)
  | .resolve state env =>
      match s.phase with
      | .arrived => do
          let res ← resolveAutoModel state env s.request
          .ok (some
            { request := res.request
              decision := resolvedDecision res.result
              attempt := 0
              phase := resolvedPhase state res
              gold := startedGold res.gold
              calls := s.calls ++ res.calls })
      -- every event below asks for its phase; in another one it cannot happen
      | _ => .ok none
  | .cacheHit =>
      match s.phase with
      | .ready _ => .ok (some { s with phase := .done })
      | _ => .ok none
  | .dispatch =>
      match s.phase with
      | .ready provider =>
          .ok (some
            { s with
              phase := .waiting provider
              calls := s.calls ++ dispatchCalls provider s.request })
      | _ => .ok none
  | .success =>
      match s.phase with
      | .waiting _ => .ok (some { s with phase := .done })
      | _ => .ok none
  | .failure now env state error =>
      match s.phase with
      | .waiting _ =>
          -- A failed fan-out is not escalated.
          if needsFanout s.request then .ok (some { s with phase := .done })
          else do
            let res ← escalateAfterFailure now env state s.request s.decision error s.attempt
            .ok (some
              { s with
                request := res.request
                decision := res.decision
                attempt := s.attempt + 1
                phase := escalatedPhase res.provider })
      | _ => .ok none
  | .collect now state =>
      match s.gold with
      | .pending task => do
          match ← collectGoldPair state now task with
          | some (answering, calls) =>
              .ok (some { s with gold := .answering answering, calls := s.calls ++ calls })
          | none => .ok (some { s with gold := .idle })
      | _ => .ok none
  | .judge state textA textB =>
      match s.gold with
      | .answering a =>
          .ok (some { s with gold := .idle, calls := s.calls ++ judgePair state a textA textB })
      | _ => .ok none
  | .candidateFailed =>
      match s.gold with
      | .answering _ => .ok (some { s with gold := .idle })
      | _ => .ok none

/-- One step of the handling in a process with the given registry. -/
def Handles (registry : ProviderRegistry) (s : Handling) (e : Event) (s' : Handling) : Prop :=
  (∀ state ∈ e.state, state.registry = registry) ∧ s.next e = .ok (some s')

/-! ## When the lists bind every call -/

section Confined

variable (registry : ProviderRegistry) (options : Option RoutingOptions)

/-- The options permit the model for the provider that serves it. -/
def PermittedAt (model : String) : Prop :=
  ∀ provider ∈ registry.getProvider model, ∀ o ∈ options,
    o.permits provider.name model = .ok true

/-- What the options permit under the provider name that is checked, they permit under
the provider that is called. The two differ for a model outside the exact mapping that
Ollama, which accepts every name, comes first to serve. -/
def ServedAsChecked (model : String) : Prop :=
  (∀ o ∈ options,
    o.permits ((registry.providerNameForCatalogModel model).getD "") model = .ok true) →
  PermittedAt registry options model

/-- All candidates of a router are served as checked. -/
def CandidatesServedAsChecked (router : AutoRouter) : Prop :=
  ∀ t, ∀ m ∈ router.config.tiers.get t, ServedAsChecked registry options m

/-- The request once the organization's override is merged, as the resolution reads it. -/
def mergedRequest (env : ResolveEnv) (request : CreateResponseRequest) : CreateResponseRequest :=
  mergeOrg env.org ((parseAutoModel request.model).bind (·.mode)) request

/-- What the router in force is told about an `auto` request. -/
def autoContext (state : AppState) (router : AutoRouter) (env : ResolveEnv)
    (request : CreateResponseRequest) : DecisionContext :=
  resolveContext state router env false ((parseAutoModel request.model).bind (·.mode)) request
    (mergedRequest env request)

/-- The condition on a step, for the options that the resolution merges. The LLM
classifier and the judge, when they would be sent text of the prompt, are permitted for
the provider that serves them, and the candidates of the router in force are served as
checked. -/
def Confined (s : Handling) : Event → Prop
  | .resolve state env =>
      (mergedRequest env s.request).routing = options ∧
      ∀ router ∈ state.autoRouter,
        (router.effectiveClassifier (autoContext state router env s.request) = .llm →
          lastUserExcerpt (mergedRequest env s.request) ≠ "" →
          PermittedAt registry options router.config.llmClassifier.model) ∧
        CandidatesServedAsChecked registry options router
  | .failure _ _ state _ =>
      ∀ router ∈ state.autoRouter, CandidatesServedAsChecked registry options router
  | .collect _ state =>
      ∀ router ∈ state.autoRouter, CandidatesServedAsChecked registry options router
  | .judge _ _ _ =>
      ∀ a, s.gold = .answering a → takeChars a.maxChars a.userText ≠ "" →
        PermittedAt registry options a.judgeModel
  | _ => True

/-- A step of a process with the registry that meets the condition. -/
def ConfinedStep (s : Handling) (e : Event) (s' : Handling) : Prop :=
  Handles registry s e s' ∧ Confined registry options s e

end Confined

/-! ## The invariant -/

/-- Every logged call that carries text of the prompt is permitted. -/
def CallsPermitted (options : Option RoutingOptions) (calls : List ProviderCall) : Prop :=
  ∀ c ∈ calls, c.CarriesPrompt → c.PermittedBy options

/-- What holds while the steps are confined: the calls so far are permitted, so is the
call that would be dispatched next, and a pending collection has the same options. -/
structure Guarded (options : Option RoutingOptions) (request : CreateResponseRequest)
    (s : Handling) : Prop where
  calls : CallsPermitted options s.calls
  arrived : s.phase = .arrived → s.request = request
  ready : ∀ p, s.phase = .ready p →
    s.request.routing = options ∧ ∀ o ∈ options, o.permits p.name s.request.model = .ok true
  waiting : ∀ p, s.phase = .waiting p → s.request.routing = options
  pending : ∀ task, s.gold = .pending task → task.request.routing = options

section Steps

variable {registry : ProviderRegistry} {options : Option RoutingOptions}

theorem CallsPermitted.append {calls more : List ProviderCall} (h : CallsPermitted options calls)
    (h' : CallsPermitted options more) : CallsPermitted options (calls ++ more) := by
  intro c hc
  rcases List.mem_append.mp hc with hc | hc
  · exact h c hc
  · exact h' c hc

/-- A candidate that the lists permit under the provider name the gateway gives it is
permitted for the provider that serves it. -/
theorem permits_of_permitted {state : AppState} (hreg : state.registry = registry)
    {oracle : Eligibility} (hof : oracle.providerOf = state.providerNameForCatalogModel)
    {m : String} (h : Permitted options oracle m) (hs : ServedAsChecked registry options m)
    {p : Provider} (hp : state.getProvider m = some p) :
    ∀ o ∈ options, o.permits p.name m = .ok true := by
  intro o ho
  have hp' : registry.getProvider m = some p := by
    rw [← hreg]
    exact hp
  apply hs ?_ p hp' o ho
  intro o' ho'
  have hperm := h o' ho'
  rw [hof] at hperm
  rw [← hreg]
  exact hperm

/-- The classifier's call is permitted. -/
theorem classify_permitted {state : AppState} (hreg : state.registry = registry)
    {router : AutoRouter} {env : ResolveEnv} {shadow : Bool} {ctx : DecisionContext}
    {merged : CreateResponseRequest}
    (h : router.effectiveClassifier ctx = .llm → lastUserExcerpt merged ≠ "" →
      PermittedAt registry options router.config.llmClassifier.model) :
    CallsPermitted options (classify state router env shadow ctx merged).1 := by
  intro c hc hcarries
  obtain ⟨hllm, hprovider, hmodel, hquoted⟩ := mem_classify_calls hc
  -- a call that carries text quotes a non-empty excerpt
  have hne : lastUserExcerpt merged ≠ "" := by
    obtain ⟨q, hq, hne⟩ := hcarries
    rw [hquoted] at hq
    rw [List.mem_singleton.mp hq] at hne
    intro hempty
    rw [hempty] at hne
    exact hne rfl
  intro o ho
  rw [hmodel]
  have hserved : registry.getProvider router.config.llmClassifier.model = some c.provider := by
    rw [← hreg]
    exact hprovider
  exact h hllm hne c.provider hserved o ho

/-- The calls of the gold candidates are permitted, and the pair to judge is what is
being answered. -/
theorem collect_permitted {state : AppState} (hreg : state.registry = registry) {now : Instant}
    {task : GoldTask} (htask : task.request.routing = options)
    (h : ∀ router ∈ state.autoRouter, CandidatesServedAsChecked registry options router)
    {a : Answering} {calls : List ProviderCall}
    (hc : collectGoldPair state now task = .ok (some (a, calls))) :
    CallsPermitted options calls := by
  simp only [collectGoldPair] at hc
  split at hc
  · rw [checked_bind_eq_ok] at hc
    obtain ⟨found, hpair, hc⟩ := hc
    cases found with
    | none => cases hc
    | some pair =>
        dsimp only at hc
        split at hc
        · rename_i pa pb hpa hpb
          injection hc with hc
          injection hc with hc
          injection hc with _ hc
          obtain ⟨router, hrouter, hboth⟩ := pickPair_some hpair
          have hperm : ∀ m p, m = pair.modelA ∨ m = pair.modelB → state.getProvider m = some p →
              ∀ o ∈ options, o.permits p.name m = .ok true := by
            intro m p hm hp
            obtain ⟨⟨t, ht⟩, hok⟩ := hboth m hm
            have hlists := (permittedAndEligible_true hok).1
            rw [htask] at hlists
            have hpermitted : Permitted options
                (GatewayEligibility.forRequest state now task.request).oracle m := hlists
            exact permits_of_permitted hreg rfl hpermitted (h router hrouter t m ht) hp
          intro c hcm _
          rw [← hc] at hcm
          rcases List.mem_cons.mp hcm with rfl | hcm
          · exact hperm _ _ (Or.inl rfl) hpa
          · rw [List.mem_singleton.mp hcm]
            exact hperm _ _ (Or.inr rfl) hpb
        · cases hc
  · cases hc

/-- The judge's call is permitted. -/
theorem judge_permitted {state : AppState} (hreg : state.registry = registry) {a : Answering}
    {textA textB : String}
    (h : takeChars a.maxChars a.userText ≠ "" → PermittedAt registry options a.judgeModel) :
    CallsPermitted options (judgePair state a textA textB) := by
  intro c hc hcarries
  simp only [judgePair] at hc
  split at hc
  · exact absurd hc List.not_mem_nil
  · rename_i judge hjudge
    obtain rfl := List.mem_singleton.mp hc
    obtain ⟨q, hq, hne⟩ := hcarries
    have hserved : registry.getProvider a.judgeModel = some judge := by
      rw [← hreg]
      exact hjudge
    obtain rfl : q = takeChars a.maxChars a.userText := List.mem_singleton.mp hq
    intro o ho
    exact h hne judge hserved o ho

variable {request : CreateResponseRequest} {s : Handling}

theorem resolvedPhase_eq_ready {state : AppState} {res : Resolution} {p : Provider}
    (h : resolvedPhase state res = .ready p) :
    ∃ decision, res.result = .ok decision ∧ state.getProvider res.request.model = some p := by
  simp only [resolvedPhase] at h
  split at h
  · rename_i decision provider hresult hprovider
    injection h with h
    rw [← h]
    exact ⟨decision, hresult, hprovider⟩
  · cases h

theorem resolvedPhase_settled (state : AppState) (res : Resolution) :
    resolvedPhase state res ≠ .arrived ∧ ∀ p, resolvedPhase state res ≠ .waiting p := by
  simp only [resolvedPhase]
  split
  · exact ⟨by simp, by simp⟩
  · exact ⟨by simp, by simp⟩

/-- The model a resolution applied is a candidate of the router, permitted where it is
served. -/
theorem Routed.permits_served {state : AppState} (hreg : state.registry = registry)
    {router : AutoRouter} {env : ResolveEnv} {ctx : DecisionContext}
    {merged : CreateResponseRequest} {res : Resolution}
    (hr : Routed state router env false ctx merged res) (hctx : ctx.options = options)
    (h : CandidatesServedAsChecked registry options router) {d : AutoDecision}
    (hd : res.result = .ok (some d)) {p : Provider}
    (hp : state.getProvider res.request.model = some p) :
    ∀ o ∈ options, o.permits p.name res.request.model = .ok true := by
  -- the decision recorded names the model the router selected
  obtain ⟨d₀, hdecide, hsel, -, -, -, hmodel⟩ := hr.decided d hd
  have hname : res.request.model = d₀.selected := by rw [hmodel rfl, hsel]
  have hadm := decide_admissible hdecide
  rw [hctx] at hadm
  have hserved := h _ _ (decide_listed hdecide)
  rw [hname] at hp ⊢
  exact permits_of_permitted hreg rfl hadm.2 hserved hp

/-- A resolved `auto` request is ready only for a model that is permitted where it is
served. -/
theorem resolve_guarded (hauto : (parseAutoModel request.model).isSome) {state : AppState}
    (hreg : state.registry = registry) {env : ResolveEnv} {res : Resolution}
    (hres : resolveAutoModel state env request = .ok res)
    (hopt : (mergedRequest env request).routing = options)
    (h : ∀ router ∈ state.autoRouter,
      (router.effectiveClassifier (autoContext state router env request) = .llm →
        lastUserExcerpt (mergedRequest env request) ≠ "" →
        PermittedAt registry options router.config.llmClassifier.model) ∧
      CandidatesServedAsChecked registry options router) :
    CallsPermitted options res.calls ∧
      (∀ p, resolvedPhase state res = .ready p → res.request.routing = options ∧
        ∀ o ∈ options, o.permits p.name res.request.model = .ok true) ∧
      ∀ task ∈ res.gold, task.request.routing = options := by
  have hreal : (parseAutoModel request.model).isNone = false := by
    simpa [Option.isSome_iff_ne_none] using hauto
  rcases resolveAutoModel_cases hres with ⟨hcalls, hgold, hno, hundecided, -⟩ | hrouted
  · -- Nothing was called, and without a decision an `auto` request is not dispatched.
    rw [hcalls, hgold]
    refine ⟨fun c hc => absurd hc List.not_mem_nil, ?_, fun task ht => by cases ht⟩
    intro p hp
    obtain ⟨decision, hresult, -⟩ := resolvedPhase_eq_ready hp
    cases decision with
    | none => rw [hundecided hresult] at hreal; cases hreal
    | some d => exact absurd hresult (hno d)
  · obtain ⟨router, hrouter, ctx, merged, hmerged, hctx, hr⟩ := hrouted
    rw [hreal] at hr hctx
    have hmerged' : merged = mergedRequest env request := hmerged
    have hctx' : ctx = autoContext state router env request := by
      rw [hctx, hmerged']
      rfl
    have hrouting : merged.routing = options := by rw [hmerged', hopt]
    obtain ⟨model, hreq⟩ := hr.request
    refine ⟨?_, ?_, ?_⟩
    · rw [hr.calls]
      apply classify_permitted hreg
      rw [hctx', hmerged']
      exact (h router hrouter).1
    · intro p hp
      obtain ⟨decision, hresult, hprovider⟩ := resolvedPhase_eq_ready hp
      cases decision with
      | none => cases hr.undecided hresult
      | some d =>
          have hctxopt : ctx.options = options := by
            rw [hctx]
            exact hrouting
          refine ⟨?_, hr.permits_served hreg hctxopt (h router hrouter).2 hresult hprovider⟩
          rw [hreq]
          exact hrouting
    · intro task ht
      rw [hr.gold task ht, hrouting]

/-! ### What an event may change -/

theorem Guarded.start (request : CreateResponseRequest) :
    Guarded options request (.start request) where
  calls := fun c hc => absurd hc List.not_mem_nil
  arrived := fun _ => rfl
  ready := fun p hp => by cases hp
  waiting := fun p hp => by cases hp
  pending := fun task ht => by cases ht

/-- Logging permitted calls. -/
theorem Guarded.log (h : Guarded options request s) {more : List ProviderCall}
    (hm : CallsPermitted options more) :
    Guarded options request { s with calls := s.calls ++ more } :=
  { h with calls := h.calls.append hm }

/-- The foreground ends. -/
theorem Guarded.finish (h : Guarded options request s) :
    Guarded options request { s with phase := .done } where
  calls := h.calls
  arrived := fun hp => by cases hp
  ready := fun p hp => by cases hp
  waiting := fun p hp => by cases hp
  pending := h.pending

/-- The foreground waits for a provider. -/
theorem Guarded.wait (h : Guarded options request s) (hr : s.request.routing = options)
    (provider : Provider) : Guarded options request { s with phase := .waiting provider } where
  calls := h.calls
  arrived := fun hp => by cases hp
  ready := fun p hp => by cases hp
  waiting := fun _ _ => hr
  pending := h.pending

/-- The background leaves the pending task. -/
theorem Guarded.background (h : Guarded options request s) {gold : GoldPhase}
    (hg : ∀ task, gold ≠ .pending task) : Guarded options request { s with gold } :=
  { h with pending := fun task ht => absurd ht (hg task) }

/-- The foreground is ready to retry with a permitted model, or gives up. -/
theorem Guarded.escalated (h : Guarded options request s) {req : CreateResponseRequest}
    (decision : Option AutoDecision) {provider : Option Provider}
    (hp : ∀ p ∈ provider, req.routing = options ∧ ∀ o ∈ options, o.permits p.name req.model = .ok true) :
    Guarded options request
      { s with
        request := req
        decision
        attempt := s.attempt + 1
        phase := escalatedPhase provider } where
  calls := h.calls
  arrived := fun ha => by cases provider <;> cases ha
  ready := by
    intro p hr
    cases provider with
    | none => cases hr
    | some q =>
        injection hr with hr
        rw [← hr]
        exact hp q rfl
  waiting := fun p hw => by cases provider <;> cases hw
  pending := h.pending

theorem startedGold_eq_pending {gold : Option GoldTask} {task : GoldTask}
    (h : startedGold gold = .pending task) : gold = some task := by
  cases gold with
  | none => cases h
  | some t =>
      simp only [startedGold] at h
      injection h with h
      rw [h]

/-! ### One step -/

theorem Guarded.resolve (hauto : (parseAutoModel request.model).isSome)
    (h : Guarded options request s) {state : AppState} {env : ResolveEnv} {s' : Handling}
    (hs : ConfinedStep registry options s (.resolve state env) s') :
    Guarded options request s' := by
  obtain ⟨⟨hreg, hnext⟩, hopt, hrouters⟩ := hs
  simp only [Handling.next] at hnext
  split at hnext
  · rename_i harrived
    rw [h.arrived harrived] at hnext hopt hrouters
    rw [checked_bind_eq_ok] at hnext
    obtain ⟨res, hres, hnext⟩ := hnext
    obtain rfl := checked_some_inj.mp hnext
    obtain ⟨hcalls, hready, hgold⟩ := resolve_guarded hauto (hreg state rfl) hres hopt hrouters
    obtain ⟨hnotArrived, hnotWaiting⟩ := resolvedPhase_settled state res
    exact
      { calls := h.calls.append hcalls
        arrived := fun ha => absurd ha hnotArrived
        ready := hready
        waiting := fun p hw => absurd hw (hnotWaiting p)
        pending := by
          intro task ht
          exact hgold task (startedGold_eq_pending ht) }
  · cases hnext

theorem Guarded.dispatch (h : Guarded options request s) {s' : Handling}
    (hs : ConfinedStep registry options s .dispatch s') : Guarded options request s' := by
  obtain ⟨⟨-, hnext⟩, -⟩ := hs
  simp only [Handling.next] at hnext
  split at hnext
  · rename_i provider hready
    obtain rfl := checked_some_inj.mp hnext
    obtain ⟨hrouting, hperm⟩ := h.ready provider hready
    have hsent : CallsPermitted options (dispatchCalls provider s.request) := by
      intro c hc _ o ho
      obtain ⟨hp, hm⟩ := mem_dispatchCalls hc
      rw [hp, hm]
      exact hperm o ho
    exact (h.log hsent).wait hrouting provider
  · cases hnext

theorem Guarded.failure (h : Guarded options request s) {now : Instant} {env : DecisionEnv}
    {state : AppState} {error : ProviderError} {s' : Handling}
    (hs : ConfinedStep registry options s (.failure now env state error) s') :
    Guarded options request s' := by
  obtain ⟨⟨hreg, hnext⟩, hconf⟩ := hs
  simp only [Handling.next] at hnext
  split at hnext
  · rename_i provider hwaiting
    have hrouting := h.waiting provider hwaiting
    split at hnext
    · obtain rfl := checked_some_inj.mp hnext
      exact h.finish
    · rw [checked_bind_eq_ok] at hnext
      obtain ⟨res, hres, hnext⟩ := hnext
      obtain rfl := checked_some_inj.mp hnext
      apply h.escalated
      intro p hp
      rcases escalateThrough_cases hres with ⟨hnone, -, -⟩ | hmoved
      · rw [hnone] at hp
        cases hp
      · -- the candidate was checked under the options of the request that failed
        obtain ⟨router, hrouter, d, sel, provider', -, hm, hprovider, hreq, -, hsome⟩ := hmoved
        have hcand := nextCandidate_some hm.next
        have hadm := hcand.admissible
        rw [hrouting] at hadm
        have hperm := permits_of_permitted (hreg state rfl) rfl hadm.2
          (hconf router hrouter _ _ hcand.listed) hprovider
        rw [hsome] at hp
        injection hp with hp
        rw [hreq, ← hp]
        exact ⟨hrouting, hperm⟩
  · cases hnext

theorem Guarded.collect (h : Guarded options request s) {now : Instant} {state : AppState}
    {s' : Handling} (hs : ConfinedStep registry options s (.collect now state) s') :
    Guarded options request s' := by
  obtain ⟨⟨hreg, hnext⟩, hconf⟩ := hs
  simp only [Handling.next] at hnext
  split at hnext
  · rename_i task htask
    rw [checked_bind_eq_ok] at hnext
    obtain ⟨found, hfound, hnext⟩ := hnext
    cases found with
    | none =>
        obtain rfl := checked_some_inj.mp hnext
        exact h.background fun _ hg => by cases hg
    | some pair =>
        obtain rfl := checked_some_inj.mp hnext
        have hsent := collect_permitted (hreg state rfl) (h.pending task htask) hconf hfound
        exact (h.log hsent).background fun _ hg => by cases hg
  · cases hnext

theorem Guarded.judge (h : Guarded options request s) {state : AppState} {textA textB : String}
    {s' : Handling} (hs : ConfinedStep registry options s (.judge state textA textB) s') :
    Guarded options request s' := by
  obtain ⟨⟨hreg, hnext⟩, hconf⟩ := hs
  simp only [Handling.next] at hnext
  split at hnext
  · rename_i a ha
    obtain rfl := checked_some_inj.mp hnext
    have hsent : CallsPermitted options (judgePair state a textA textB) :=
      judge_permitted (hreg state rfl) (hconf a ha)
    exact (h.log hsent).background fun _ hg => by cases hg
  · cases hnext

/-- The events without a call end the foreground or the background. -/
theorem Guarded.quiet (h : Guarded options request s) {e : Event} {s' : Handling}
    (he : e = .cacheHit ∨ e = .success ∨ e = .candidateFailed)
    (hs : s.next e = .ok (some s')) : Guarded options request s' := by
  rcases he with rfl | rfl | rfl
  · simp only [Handling.next] at hs
    split at hs
    · obtain rfl := checked_some_inj.mp hs
      exact h.finish
    · cases hs
  · simp only [Handling.next] at hs
    split at hs
    · obtain rfl := checked_some_inj.mp hs
      exact h.finish
    · cases hs
  · simp only [Handling.next] at hs
    split at hs
    · obtain rfl := checked_some_inj.mp hs
      exact h.background fun _ hg => by cases hg
    · cases hs

/-- A confined step keeps the guard. -/
theorem Guarded.step (hauto : (parseAutoModel request.model).isSome)
    (h : Guarded options request s) {e : Event} {s' : Handling}
    (hs : ConfinedStep registry options s e s') : Guarded options request s' := by
  cases e with
  | resolve state env => exact h.resolve hauto hs
  | cacheHit => exact h.quiet (Or.inl rfl) hs.1.2
  | dispatch => exact h.dispatch hs
  | success => exact h.quiet (Or.inr (Or.inl rfl)) hs.1.2
  | failure now env state error => exact h.failure hs
  | collect now state => exact h.collect hs
  | judge state textA textB => exact h.judge hs
  | candidateFailed => exact h.quiet (Or.inr (Or.inr rfl)) hs.1.2

end Steps

/-! ## Runs -/

/-- In every run that handles a request for `auto` and whose steps are confined by the
merged options, every call that carries text of the prompt goes to a model the options
permit for the provider that serves it. -/
theorem prompt_egress_confined (registry : ProviderRegistry) (options : Option RoutingOptions)
    (request : CreateResponseRequest) (hauto : (parseAutoModel request.model).isSome)
    (events : List Event) (s : Handling)
    (hrun : Run (ConfinedStep registry options) (.start request) events s) :
    ∀ c ∈ s.calls, c.CarriesPrompt → c.PermittedBy options := by
  have hguard : Guarded options request s := by
    apply Run.stateInvariant (Guarded options request) ?_ ?_ hrun
    · exact Guarded.start request
    · intro t e u ht hs
      exact ht.step hauto hs
  exact hguard.calls

/-- Run the events from a state; `none` when one of them cannot happen. -/
def Handling.runEvents (s : Handling) : List Event → Checked (Option Handling)
  | [] => .ok (some s)
  | e :: es => do
      match ← s.next e with
      | some s' => s'.runEvents es
      | none => .ok none

theorem run_of_runEvents {registry : ProviderRegistry} {events : List Event}
    (hreg : ∀ e ∈ events, ∀ state ∈ e.state, state.registry = registry) {s t : Handling}
    (h : s.runEvents events = .ok (some t)) : Run (Handles registry) s events t := by
  induction events generalizing s with
  | nil =>
      injection h with h
      injection h with h
      rw [h]
      exact .nil
  | cons e es ih =>
      simp only [Handling.runEvents] at h
      rw [checked_bind_eq_ok] at h
      obtain ⟨found, hnext, h⟩ := h
      cases found with
      | none => cases h
      | some s' =>
          have hstep : Handles registry s e s' := ⟨hreg e List.mem_cons_self, hnext⟩
          exact (ih (fun e' he => hreg e' (List.mem_cons_of_mem e he)) h).cons hstep

/-- The calls logged by the end of a run. -/
def callsOf : Checked (Option Handling) → Option (List ProviderCall)
  | .ok (some s) => some s.calls
  | _ => none

theorem exists_of_callsOf {x : Checked (Option Handling)} {p : List ProviderCall → Bool}
    (h : (callsOf x).any p = true) : ∃ s, x = .ok (some s) ∧ p s.calls = true := by
  rcases x with e | (_ | s)
  · cases h
  · cases h
  · exact ⟨s, rfl, h⟩

/-! ### Two providers, one of them denied -/

namespace Sample

/-- A provider that serves the Claude models, next to `openai`. -/
def anthropic : Provider :=
  { name := "anthropic", supportsModel := supportsListed ["claude-haiku-4-5", "claude-sonnet-5"] }

/-- Both providers; the Claude models are mapped to `anthropic`. -/
def twoProviders : ProviderRegistry :=
  { providers := [("openai", openai), ("anthropic", anthropic)]
    modelMap := [("claude-haiku-4-5", "anthropic"), ("claude-sonnet-5", "anthropic")]
    named := by simp [openai, anthropic]
    distinct := by decide
    mapped := by decide }

/-- The sample router with gold sampling always on; classifier and judge are the
default ones. -/
def samplingRouter : AutoRouter :=
  { Router.Sample.router with config := { Router.Sample.config with goldSampleRate := 1.0 } }

def twoProviderState : AppState :=
  { registry := twoProviders, autoRouter := some samplingRouter, hasDatabase := true }

/-- A request for `auto` that denies `anthropic` and asks for the LLM classifier. -/
def deniedRequest : CreateResponseRequest :=
  { Router.Sample.request with
    routing := some { deny := ["anthropic/*"], classifier := some .llm } }

def resolveEnv : ResolveEnv :=
  { now := 0
    decision := Router.Sample.env
    modelOfResponse := fun _ => none
    hasOrganization := false
    org := {}
    synthetic := false
    classifierAnswer := none
    sampleDraw := 0.0
    goldPermit := true }

/-- The request is resolved, and the gold pair it started is answered and judged. -/
def events : List Event :=
  [.resolve twoProviderState resolveEnv, .collect 0 twoProviderState,
    .judge twoProviderState "a" "b"]

/-- The call goes to `anthropic` for the model and quotes `"hi"`. -/
def reachesAnthropic (model : String) (c : ProviderCall) : Bool :=
  c.provider.name == "anthropic" && c.request.model == model && c.quoted == ["hi"]

theorem reachesAnthropic_quotes {model : String} {c : ProviderCall}
    (h : reachesAnthropic model c = true) : c.request.model = model ∧ c.CarriesPrompt := by
  obtain ⟨h₁, hquoted⟩ := Bool.and_eq_true_iff.mp h
  refine ⟨eq_of_beq (Bool.and_eq_true_iff.mp h₁).2, "hi", ?_, by decide⟩
  rw [eq_of_beq hquoted]
  exact List.mem_singleton_self "hi"

theorem reachesAnthropic_not_permitted {model : String} {c : ProviderCall}
    (h : reachesAnthropic model c = true)
    (hdeny : patternMatches "anthropic/*" "anthropic" model = .ok true) :
    ¬ c.PermittedBy deniedRequest.routing := by
  obtain ⟨h₁, -⟩ := Bool.and_eq_true_iff.mp h
  obtain ⟨hname, hmodel⟩ := Bool.and_eq_true_iff.mp h₁
  intro hp
  have hpermits := hp _ rfl
  rw [eq_of_beq hname, eq_of_beq hmodel] at hpermits
  have hno := not_denied_of_permits hpermits "anthropic/*" (by simp)
  rw [hdeny] at hno
  cases hno

end Sample

namespace Sample

/-- A request for `auto` that denies a third provider and asks for the LLM classifier. -/
def openRequest : CreateResponseRequest :=
  { Router.Sample.request with
    routing := some { deny := ["mistral/*"], classifier := some .llm } }

/-- Everything the sampling router may call is permitted where it is served. -/
theorem openRequest_permitted (m : String)
    (h : m = "claude-haiku-4-5" ∨ m ∈ ["s", "m", "n", "c", "r"]) :
    PermittedAt twoProviders openRequest.routing m := by
  intro p hp o ho
  cases ho
  simp only [List.mem_cons, List.not_mem_nil, or_false] at h
  rcases h with rfl | rfl | rfl | rfl | rfl | rfl <;> cases hp <;> decide

end Sample

/-- The classifier's call for a request that denies neither provider is permitted. -/
theorem prompt_egress_confined_sample :
    ∃ c : ProviderCall, c.request.model = "claude-haiku-4-5" ∧ c.CarriesPrompt ∧
      c.PermittedBy Sample.openRequest.routing := by
  obtain ⟨s, hs, hcalls⟩ := exists_of_callsOf
    (show (callsOf ((Handling.start Sample.openRequest).next
        (.resolve Sample.twoProviderState Sample.resolveEnv))).any
        (fun calls => calls.any (Sample.reachesAnthropic "claude-haiku-4-5")) = true by
      decide +kernel)
  have hconf : Confined Sample.twoProviders Sample.openRequest.routing
      (.start Sample.openRequest) (.resolve Sample.twoProviderState Sample.resolveEnv) := by
    refine ⟨rfl, ?_⟩
    intro router hr
    cases hr
    refine ⟨fun _ _ => Sample.openRequest_permitted _ (Or.inl rfl), ?_⟩
    intro t m hm _
    have hlisted : ∀ m ∈ Router.Sample.tiers.get t, m ∈ ["s", "m", "n", "c", "r"] := by
      cases t <;> decide
    exact Sample.openRequest_permitted m (Or.inr (hlisted m hm))
  have hstep : ConfinedStep Sample.twoProviders Sample.openRequest.routing
      (.start Sample.openRequest) (.resolve Sample.twoProviderState Sample.resolveEnv) s := by
    refine ⟨⟨?_, hs⟩, hconf⟩
    intro state hstate
    cases hstate
    rfl
  obtain ⟨c, hc, hreach⟩ := List.any_eq_true.mp hcalls
  obtain ⟨hmodel, hcarries⟩ := Sample.reachesAnthropic_quotes hreach
  exact ⟨c, hmodel, hcarries,
    prompt_egress_confined _ _ _ (by decide) _ _ (Run.nil.snoc hstep) c hc hcarries⟩

/-- The prompt of a request that denies `anthropic` reaches it twice: the classifier is
sent the excerpt, and the judge of the sampled gold pair the user text. -/
theorem prompt_egress_broken :
    ∃ events s, Run (Handles Sample.twoProviders) (.start Sample.deniedRequest) events s ∧
      (∃ c ∈ s.calls, c.request.model = "claude-haiku-4-5" ∧
        c.CarriesPrompt ∧ ¬ c.PermittedBy Sample.deniedRequest.routing) ∧
      ∃ c ∈ s.calls, c.request.model = "claude-sonnet-5" ∧
        c.CarriesPrompt ∧ ¬ c.PermittedBy Sample.deniedRequest.routing := by
  obtain ⟨s, hs, hcalls⟩ := exists_of_callsOf
    (show (callsOf ((Handling.start Sample.deniedRequest).runEvents Sample.events)).any
        (fun calls => calls.any (Sample.reachesAnthropic "claude-haiku-4-5")
          && calls.any (Sample.reachesAnthropic "claude-sonnet-5")) = true by decide +kernel)
  obtain ⟨hclassifier, hjudge⟩ := Bool.and_eq_true_iff.mp hcalls
  obtain ⟨c₁, hc₁, h₁⟩ := List.any_eq_true.mp hclassifier
  obtain ⟨c₂, hc₂, h₂⟩ := List.any_eq_true.mp hjudge
  have hrun : Run (Handles Sample.twoProviders) (.start Sample.deniedRequest) Sample.events s := by
    apply run_of_runEvents ?_ hs
    intro e he state hstate
    simp only [Sample.events, List.mem_cons, List.not_mem_nil, or_false] at he
    rcases he with rfl | rfl | rfl <;> cases hstate <;> rfl
  obtain ⟨hmodel₁, hcarries₁⟩ := Sample.reachesAnthropic_quotes h₁
  obtain ⟨hmodel₂, hcarries₂⟩ := Sample.reachesAnthropic_quotes h₂
  have hleak₁ := Sample.reachesAnthropic_not_permitted h₁ (by decide)
  have hleak₂ := Sample.reachesAnthropic_not_permitted h₂ (by decide)
  exact ⟨Sample.events, s, hrun, ⟨c₁, hc₁, hmodel₁, hcarries₁, hleak₁⟩,
    c₂, hc₂, hmodel₂, hcarries₂, hleak₂⟩

end AuraGateway.Proxy
