import AuraGateway.Proxy.RoutingGold

/-!
# Auto routing in the gateway

`resolveAutoModel` rewrites a request for `auto` to the model the router decides for
(or computes the decision it would have made for a pinned model), and
`escalateAfterFailure` moves a request to the next model after a provider failure.

Both read values from outside the process, which are inputs here: the clock, the
stored model of the previous response, the organization's override, the classifier's
answer and the random draws.
-/

set_option autoImplicit false

namespace AuraGateway.Proxy

open AuraGateway.RustStd AuraGateway.Types AuraGateway.Router

/-! ## The LLM classifier -/

/-- `CLASSIFIER_EXCERPT_CHARS`. -/
def classifierExcerptChars : Nat := 1500

/-- Latest user text, for the LLM classifier excerpt. -/
def lastUserExcerpt (request : CreateResponseRequest) : String :=
  ((lastUserText request).map (takeChars classifierExcerptChars)).getD ""

/-- Text of a truth value. -/
def showBool : Bool → String
  | true => "true"
  | false => "false"

/-- Name of an intent in the classifier prompt. -/
def showIntent : Option IntentHint → String
  | some .quick => "quick"
  | some .deep => "deep"
  | none => "none"

/-- The classifier prompt up to the excerpt. -/
def classifierPromptHead (f : RequestFeatures) : String :=
  "You route requests to LLM tiers. Classify the request below into exactly one tier:\n"
    ++ "- simple: short factual questions, rewrites, translations, greetings\n"
    ++ "- medium: everyday assistant work, light code, single tool calls\n"
    ++ "- complex: multi-step engineering, debugging, long context, hard analysis\n"
    ++ "- reasoning: proofs, derivations, deep multi-constraint planning, research\n\n"
    ++ "Signals: input_tokens=" ++ Nat.repr f.estInputTokens ++ ", code=" ++ formatFixed 1 f.code
    ++ ", reasoning_markers=" ++ Nat.repr f.reasoningMatches
    ++ ", technical_terms=" ++ Nat.repr f.technicalMatches
    ++ ", tools=" ++ Nat.repr f.toolCount ++ ", images=" ++ showBool f.hasImages
    ++ ", continuation=" ++ showBool f.isContinuation
    ++ ", explicit_intent=" ++ showIntent f.explicitIntent
    ++ "\n\nLatest user text (may be truncated):\n\"\"\"\n"

/-- The classifier prompt after the excerpt. -/
def classifierPromptTail : String :=
  "\n\"\"\"\n\nAnswer with one line of JSON and nothing else: "
    ++ "\x7b\"tier\":\"simple|medium|complex|reasoning\",\"confidence\":0.0-1.0\x7d"

/-- Build the classifier prompt. -/
def classifierPrompt (f : RequestFeatures) (excerpt : String) : String :=
  classifierPromptHead f ++ takeChars classifierExcerptChars excerpt ++ classifierPromptTail

/-- What the classifier's reply says. -/
structure ClassifierAnswer where
  tier : Tier
  confidence : Float

/-- The request the classifier is sent. -/
def classifierRequest (cfg : LlmClassifierConfig) (f : RequestFeatures) (excerpt : String) :
    CreateResponseRequest :=
  { CreateResponseRequest.text cfg.model (classifierPrompt f excerpt) with
    temperature := some 0.0
    maxOutputTokens := some 40 }

/-- Ask the configured classifier model for a tier. `answer` is what its reply parses
to; any failure is `none`. -/
def llmClassify (state : AppState) (cfg : LlmClassifierConfig) (f : RequestFeatures)
    (excerpt : String) (answer : Option ClassifierAnswer) :
    List ProviderCall × Option ClassifierOverride :=
  match state.getProvider cfg.model with
  | none => ([], none)
  | some provider =>
      ([quoting provider (classifierRequest cfg f excerpt) (classifierPromptHead f)
          (takeChars classifierExcerptChars excerpt) classifierPromptTail rfl],
        answer.map fun a =>
          { tier := a.tier, classifier := "llm@" ++ cfg.model, confidence := a.confidence })

/-! ## Resolving a request -/

/-- Error reply of the API. -/
structure ApiError where
  status : Nat
  code : String
  message : String
  param : Option String := none
  deriving DecidableEq, Repr

/-- `auto` on a gateway without a router. -/
def autoRoutingMissing : ApiError :=
  { status := 404
    code := "model_not_found"
    message := "Model 'auto' requires auto routing, which is not enabled on this gateway "
      ++ "(set routing.auto.enabled: true or AURA_AUTO_ROUTING=on)"
    param := some "model" }

/-- `auto` switched off for the organization. -/
def autoNotEnabledForOrganization : ApiError :=
  { status := 404
    code := "model_not_found"
    message := "Model 'auto' is not enabled for this organization"
    param := some "model" }

/-- `auto` on a gateway that only runs shadow scoring. -/
def autoRoutingDisabled : ApiError :=
  { status := 404
    code := "model_not_found"
    message := "Model 'auto' requires auto routing, which is not enabled on this gateway"
    param := some "model" }

/-- `auto` without an eligible model. -/
def noEligibleModel (err : AutoRouteError) : ApiError :=
  { status := 503
    code := "no_eligible_model"
    message := "Auto routing could not find an eligible model: " ++ err.message
    param := some "model" }

/-- Values from outside the process that one resolution reads. -/
structure ResolveEnv where
  now : Instant
  decision : DecisionEnv
  modelOfResponse : String → Option String
  hasOrganization : Bool
  org : OrgAutoRoutingOverride
  synthetic : Bool
  classifierAnswer : Option ClassifierAnswer
  sampleDraw : Float
  goldPermit : Bool

/-- The model that produced `previous_response_id`, when the database is available. -/
def previousTurnModel (state : AppState) (env : ResolveEnv) (request : CreateResponseRequest) :
    Option String :=
  if state.hasDatabase then request.previousResponseId.bind env.modelOfResponse else none

/-- Outcome of a resolution: the request as rewritten, the calls made on the way, the
gold collection started, and the decision or the error reply. -/
structure Resolution where
  request : CreateResponseRequest
  calls : List ProviderCall
  gold : Option GoldTask
  result : Except ApiError (Option AutoDecision)

/-- A resolution that made no call and started nothing. -/
def Resolution.quiet (request : CreateResponseRequest)
    (result : Except ApiError (Option AutoDecision)) : Resolution :=
  { request, calls := [], gold := none, result }

/-- The request with the organization's override merged into its options; an empty
override leaves it alone. -/
def mergeOrg (org : OrgAutoRoutingOverride) (aliasMode : Option RoutingMode)
    (request : CreateResponseRequest) : CreateResponseRequest :=
  if org.isEmpty then request
  else { request with routing := some (org.mergedWith request.routing aliasMode) }

/-- Run the classifier the request asks for; shadow decisions stay on the heuristic. -/
def classify (state : AppState) (router : AutoRouter) (env : ResolveEnv) (shadow : Bool)
    (ctx : DecisionContext) (request : CreateResponseRequest) :
    List ProviderCall × Option ClassifierOverride :=
  if shadow then ([], none)
  else
    match router.effectiveClassifier ctx with
    | .llm =>
        llmClassify state router.config.llmClassifier (router.features request)
          (lastUserExcerpt request) env.classifierAnswer
    | .learned =>
        ([], state.learnedModel.map fun model =>
          let answer := model.classify (router.features request) (router.effectiveMode ctx)
            router.config.boundaries router.config.modeOffsets
          { tier := answer.1, classifier := model.classifierLabel, confidence := answer.2 })
    | .heuristic => ([], none)

/-- What the router is told about a merged request. -/
def resolveContext (state : AppState) (router : AutoRouter) (env : ResolveEnv) (shadow : Bool)
    (aliasMode : Option RoutingMode) (request merged : CreateResponseRequest) : DecisionContext :=
  { requestedModel := request.model
    aliasMode
    options := merged.routing
    previousModel := previousTurnModel state env request
    -- a router the gateway left disabled is used for an organization that enables it
    shadow := shadow || !router.config.enabled }

/-- Classify, decide and rewrite a request that is to be routed. -/
def routeMerged (state : AppState) (router : AutoRouter) (env : ResolveEnv) (shadow : Bool)
    (ctx : DecisionContext) (merged : CreateResponseRequest) : Checked Resolution := do
  let classified := classify state router env shadow ctx merged
  let oracle := (GatewayEligibility.forRequest state env.now merged).oracle
  match ← router.decideWithOverride env.decision merged ctx oracle classified.2 with
  | .ok decision =>
      let decision :=
        { decision with
          shadow
          synthetic :=
            env.synthetic && (!env.hasOrganization || env.org.allowSynthetic == some true) }
      .ok
        { request := if shadow then merged else { merged with model := decision.selected }
          calls := classified.1
          gold := maybeCollect state merged decision env.sampleDraw env.goldPermit
          result := .ok (some decision) }
  | .error .disabled =>
      .ok { request := merged, calls := classified.1, gold := none, result := .error autoRoutingDisabled }
  | .error (.noCandidate tier considered) =>
      .ok
        { request := merged
          calls := classified.1
          gold := none
          result :=
            if shadow then .ok none else .error (noEligibleModel (.noCandidate tier considered)) }

/-- Resolve `model: "auto"`, or compute a shadow decision for a pinned model. -/
def resolveAutoModel (state : AppState) (env : ResolveEnv) (request : CreateResponseRequest) :
    Checked Resolution :=
  let parsed := parseAutoModel request.model
  match state.autoRouter with
  | none => .ok (.quiet request (if parsed.isSome then .error autoRoutingMissing else .ok none))
  | some router =>
      let shadow := parsed.isNone
      if shadow && !(env.org.shadowForPinnedModels.getD router.config.shadowForPinnedModels) then
        .ok (.quiet request (.ok none))
      else if !shadow && !(env.org.enabled.getD router.config.enabled) then
        .ok (.quiet request (.error autoNotEnabledForOrganization))
      else
        let aliasMode := parsed.bind (·.mode)
        let merged := mergeOrg env.org aliasMode request
        routeMerged state router env shadow
          (resolveContext state router env shadow aliasMode request merged) merged

/-- The parts of a resolution that went through the router: the calls are the
classifier's, the options are the merged ones, and a decision is the router's. -/
structure Routed (state : AppState) (router : AutoRouter) (env : ResolveEnv) (shadow : Bool)
    (ctx : DecisionContext) (merged : CreateResponseRequest) (res : Resolution) : Prop where
  calls : res.calls = (classify state router env shadow ctx merged).1
  request : ∃ model, res.request = { merged with model }
  decided : ∀ d, res.result = .ok (some d) → ∃ d₀,
    router.decideWithOverride env.decision merged ctx
      (GatewayEligibility.forRequest state env.now merged).oracle
      (classify state router env shadow ctx merged).2 = .ok (.ok d₀) ∧
    d.selected = d₀.selected ∧ d.tier = d₀.tier ∧ d.escalations = d₀.escalations ∧
    d.shadow = shadow ∧ (shadow = false → res.request.model = d.selected)
  undecided : res.result = .ok none → shadow = true
  gold : ∀ task ∈ res.gold, task.request = merged

theorem maybeCollect_request {state : AppState} {request : CreateResponseRequest}
    {decision : AutoDecision} {draw : Float} {permit : Bool} {task : GoldTask}
    (h : task ∈ maybeCollect state request decision draw permit) : task.request = request := by
  rw [Option.mem_def] at h
  simp only [maybeCollect] at h
  split at h
  · cases h
  · split at h
    · cases h
    · split at h
      · cases h
      · split at h
        · injection h with h
          rw [← h]
        · cases h

section Resolve

variable {state : AppState} {router : AutoRouter} {env : ResolveEnv} {shadow : Bool}
  {ctx : DecisionContext} {request merged : CreateResponseRequest} {res : Resolution}

theorem routeMerged_routed (h : routeMerged state router env shadow ctx merged = .ok res) :
    Routed state router env shadow ctx merged res := by
  simp only [routeMerged] at h
  rw [checked_bind_eq_ok] at h
  obtain ⟨outcome, hdecide, h⟩ := h
  cases outcome with
  | ok d₀ =>
      injection h with h
      rw [← h]
      exact
        { calls := rfl
          request := by
            cases shadow with
            | true => exact ⟨merged.model, rfl⟩
            | false => exact ⟨d₀.selected, rfl⟩
          decided := by
            intro d hd
            injection hd with hd
            injection hd with hd
            rw [← hd]
            exact ⟨d₀, hdecide, rfl, rfl, rfl, rfl, fun hs => by rw [hs]; rfl⟩
          undecided := fun hn => by cases hn
          gold := fun task ht => maybeCollect_request ht }
  | error e =>
      -- an error leaves the merged request, without a decision and without a collection
      have hquiet : ∃ r, res = ⟨merged, (classify state router env shadow ctx merged).1, none, r⟩ ∧
          (∀ d, r ≠ .ok (some d)) ∧ (r = .ok none → shadow = true) := by
        cases e with
        | disabled =>
            injection h with h
            exact ⟨_, h.symm, fun d hd => (by cases hd), fun hn => by cases hn⟩
        | noCandidate tier considered =>
            injection h with h
            cases shadow with
            | true => exact ⟨_, h.symm, fun d hd => (by cases hd), fun _ => rfl⟩
            | false => exact ⟨_, h.symm, fun d hd => (by cases hd), fun hn => by cases hn⟩
      obtain ⟨r, rfl, hno, hundecided⟩ := hquiet
      exact
        { calls := rfl
          request := ⟨merged.model, rfl⟩
          decided := fun d hd => absurd hd (hno d)
          undecided := hundecided
          gold := fun task ht => by cases ht }

/-- A resolution is quiet, or went through the router in force with the request's merged
options. -/
theorem resolveAutoModel_cases (h : resolveAutoModel state env request = .ok res) :
    (res.calls = [] ∧ res.gold = none ∧ (∀ d, res.result ≠ .ok (some d)) ∧
      (res.result = .ok none → (parseAutoModel request.model).isNone) ∧
      res.request = request) ∨
    ∃ router ∈ state.autoRouter, ∃ ctx merged,
      merged = mergeOrg env.org ((parseAutoModel request.model).bind (·.mode)) request ∧
      ctx = resolveContext state router env (parseAutoModel request.model).isNone
        ((parseAutoModel request.model).bind (·.mode)) request merged ∧
      Routed state router env (parseAutoModel request.model).isNone ctx merged res := by
  simp only [resolveAutoModel] at h
  split at h
  · injection h with h
    rw [← h]
    unfold Resolution.quiet
    cases hp : parseAutoModel request.model with
    | none => exact Or.inl ⟨rfl, rfl, fun d hd => (by cases hd), fun _ => rfl, rfl⟩
    | some m => exact Or.inl ⟨rfl, rfl, fun d hd => (by cases hd), (fun hn => by cases hn), rfl⟩
  · rename_i router hrouter
    split at h
    · rename_i hshadow
      injection h with h
      rw [← h]
      have hnone := (Bool.and_eq_true_iff.mp hshadow).1
      exact Or.inl ⟨rfl, rfl, fun d hd => (by cases hd), fun _ => hnone, rfl⟩
    · split at h
      · injection h with h
        rw [← h]
        exact Or.inl ⟨rfl, rfl, fun d hd => (by cases hd), (fun hn => by cases hn), rfl⟩
      · exact Or.inr ⟨router, hrouter, _, _, rfl, rfl, routeMerged_routed h⟩

/-- Resolving rewrites the model and the routing options. -/
theorem resolveAutoModel_rewrites (h : resolveAutoModel state env request = .ok res) :
    ∃ model routing, res.request = { request with model, routing } := by
  rcases resolveAutoModel_cases h with ⟨-, -, -, -, hsame⟩ | ⟨_, -, _, merged, hmerged, -, hr⟩
  · exact ⟨request.model, request.routing, hsame⟩
  · obtain ⟨model, hmodel⟩ := hr.request
    refine ⟨model, merged.routing, ?_⟩
    rw [hmodel, hmerged]
    simp only [mergeOrg]
    split <;> rfl

/-- The classifier is called only when it is the LLM, and the call quotes the excerpt. -/
theorem mem_classify_calls {c : ProviderCall}
    (h : c ∈ (classify state router env shadow ctx merged).1) :
    router.effectiveClassifier ctx = .llm ∧
      state.getProvider router.config.llmClassifier.model = some c.provider ∧
      c.request.model = router.config.llmClassifier.model ∧
      c.quoted = [takeChars classifierExcerptChars (lastUserExcerpt merged)] := by
  simp only [classify] at h
  split at h
  · exact absurd h List.not_mem_nil
  · split at h
    · rename_i hllm
      simp only [llmClassify] at h
      split at h
      · exact absurd h List.not_mem_nil
      · rename_i provider hprovider
        obtain rfl := List.mem_singleton.mp h
        exact ⟨hllm, hprovider, rfl, rfl⟩
    · exact absurd h List.not_mem_nil
    · exact absurd h List.not_mem_nil

end Resolve

/-! ## Escalation -/

/-- Errors of a provider call. -/
inductive ProviderError where
  | invalidRequest
  | authentication
  | rateLimit
  | modelNotFound
  | contentFilter
  | serviceUnavailable
  | timeout
  | network
  | parseError
  | streamError
  | providerError
  | internal
  deriving DecidableEq, Repr

/-- Stable code of an error. -/
def ProviderError.errorCode : ProviderError → String
  | .invalidRequest => "invalid_request"
  | .authentication => "authentication_error"
  | .rateLimit => "rate_limit_exceeded"
  | .modelNotFound => "model_not_found"
  | .contentFilter => "content_filter"
  | .serviceUnavailable => "service_unavailable"
  | .timeout => "timeout"
  | .network => "network_error"
  | .parseError => "parse_error"
  | .streamError => "stream_error"
  | .providerError => "provider_error"
  | .internal => "internal_error"

/-- What an escalation leaves behind; `provider` is the one to retry with. -/
structure Escalated where
  state : AppState
  request : CreateResponseRequest
  decision : Option AutoDecision
  provider : Option Provider

/-- `escalateAfterFailure` with the oracle it consults as an argument. -/
def escalateThrough (oracleFor : AppState → CreateResponseRequest → Eligibility) (now : Instant)
    (env : DecisionEnv) (state : AppState) (request : CreateResponseRequest)
    (decision : Option AutoDecision) (error : ProviderError) (attempt : Nat) : Checked Escalated :=
  match state.autoRouter with
  | none => .ok { state, request, decision, provider := none }
  | some router =>
      let cfg := router.config.escalation
      let code := error.errorCode
      -- the breaker is fed before it is known whether the request escalates
      let state :=
        if cfg.triggersOn code then state.recordModelFailure now request.model else state
      match decision.filter fun d => !d.shadow with
      | none => .ok { state, request, decision, provider := none }
      | some d =>
          if !cfg.triggersOn code || decide (cfg.maxAttempts ≤ attempt) then
            .ok { state, request, decision, provider := none }
          else do
            let exclude := d.escalations.map (·.fromModel) ++ [request.model]
            match ← router.nextCandidate env d request.routing (oracleFor state request) exclude with
            | none => .ok { state, request, decision, provider := none }
            | some selection =>
                match state.getProvider selection.model with
                | none => .ok { state, request, decision, provider := none }
                | some provider =>
                    .ok
                      { state
                        request := { request with model := selection.model }
                        decision := some (AutoRouter.applyEscalation d selection code)
                        provider := some provider }

/-- After a provider failure on an auto-routed request, pick the next model and rewrite
the request; always feeds the breaker. -/
def escalateAfterFailure (now : Instant) (env : DecisionEnv) (state : AppState)
    (request : CreateResponseRequest) (decision : Option AutoDecision) (error : ProviderError)
    (attempt : Nat) : Checked Escalated :=
  escalateThrough (fun state request => (GatewayEligibility.forRequest state now request).oracle)
    now env state request decision error attempt

/-! ## What an escalation does -/

/-- An escalation to another model: the router found `sel` among the models that have
not failed, and `provider` serves it. -/
structure MovesTo (router : AutoRouter) (oracle : Eligibility) (env : DecisionEnv)
    (request : CreateResponseRequest) (d : AutoDecision) (attempt : Nat) (sel : TierSelection) :
    Prop where
  applied : d.shadow = false
  within : attempt < router.config.escalation.maxAttempts
  next : router.nextCandidate env d request.routing oracle
    (d.escalations.map (·.fromModel) ++ [request.model]) = .ok (some sel)

section Escalate

variable {oracleFor : AppState → CreateResponseRequest → Eligibility} {now : Instant}
  {env : DecisionEnv} {state : AppState} {request : CreateResponseRequest}
  {decision : Option AutoDecision} {error : ProviderError} {attempt : Nat}
  {res : Escalated}

/-- An escalation either leaves request and decision alone, or moves an applied
decision to the next candidate. -/
theorem escalateThrough_cases
    (h : escalateThrough oracleFor now env state request decision error attempt = .ok res) :
    (res.provider = none ∧ res.request = request ∧ res.decision = decision) ∨
    ∃ router ∈ state.autoRouter, ∃ d sel provider,
      decision = some d ∧
      MovesTo router (oracleFor (state.recordModelFailure now request.model) request) env request d
        attempt sel ∧
      state.getProvider sel.model = some provider ∧
      res.request = { request with model := sel.model } ∧
      res.decision = some (AutoRouter.applyEscalation d sel error.errorCode) ∧
      res.provider = some provider := by
  have hstays : ∀ state', (.ok { state := state', request, decision, provider := none } :
      Checked Escalated) = .ok res →
      res.provider = none ∧ res.request = request ∧ res.decision = decision := by
    intro state' he
    obtain rfl := Except.ok.inj he
    exact ⟨rfl, rfl, rfl⟩
  unfold escalateThrough at h
  split at h
  · exact Or.inl (hstays _ h)
  · rename_i router hrouter
    dsimp only at h
    split at h
    · exact Or.inl (hstays _ h)
    · rename_i d hd
      obtain ⟨hdec, hshadow⟩ := Option.filter_eq_some_iff.mp hd
      split at h
      · exact Or.inl (hstays _ h)
      · rename_i hgo
        have hgo' : router.config.escalation.triggersOn error.errorCode = true ∧
            attempt < router.config.escalation.maxAttempts := by
          simpa using hgo
        rw [if_pos hgo'.1, checked_bind_eq_ok] at h
        obtain ⟨found, hnext, h⟩ := h
        cases found with
        | none =>
            exact Or.inl (hstays _ h)
        | some sel =>
            dsimp only at h
            split at h
            · exact Or.inl (hstays _ h)
            · rename_i provider hprovider
              injection h with h
              rw [← h]
              have hmoves : MovesTo router
                  (oracleFor (state.recordModelFailure now request.model) request) env request d
                  attempt sel :=
                { applied := by simpa using hshadow
                  within := hgo'.2
                  next := hnext }
              exact Or.inr ⟨router, hrouter, d, sel, provider, hdec, hmoves, hprovider, rfl, rfl, rfl⟩

end Escalate

end AuraGateway.Proxy
