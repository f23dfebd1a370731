import AuraGateway.Proxy.CacheRuns

/-!
# Synthetic requests and the routing lab

A request may carry a header that marks it as synthetic. The mark counts for a gateway without
tenants and for organizations that have opted in, so a decision is synthetic exactly when the
request is marked and its organization allows it (`synthetic_mark`): no escalation changes that, and
what is synthetic is not sampled for gold pairs.

The routing lab runs a request on the admin path. It brings its own headers and no key, so that it
is neither streamed nor answered from the cache, is synthetic as the lab says (`lab_run`), and
ends the same whatever the organizations have set and the cache holds (`lab_reads_no_settings`).
-/

set_option autoImplicit false

namespace AuraGateway.Proxy

open AuraGateway.RustStd AuraGateway.Types AuraGateway.Router AuraGateway.Storage

/-! ## Headers -/

/-- Headers by their names in lower case, one character for a byte of the value. -/
abbrev HeaderMap := List (String × String)

/-- `HeaderValue::to_str`: visible ASCII, blanks and tabs. -/
def headerText (value : String) : Option String :=
  if value.toList.all fun c => (32 ≤ c.toNat && c.toNat < 127) || c == '\t' then some value
  else none

/-- The text of the first header of this name. -/
def HeaderMap.text (headers : HeaderMap) (name : String) : Option String :=
  (headers.lookup name).bind headerText

/-- Check if cache bypass is requested via headers. -/
def shouldBypassCache (headers : HeaderMap) : Bool :=
  ((headers.text "x-cache-control").map fun v =>
    eqIgnoreAsciiCase v "no-cache" || eqIgnoreAsciiCase v "no-store").getD false

/-- Request header that marks a synthetic-trace run. -/
def syntheticHeader : String := "x-aura-synthetic"

/-- Whether the request carries the synthetic-trace marker. -/
def isSyntheticRequest (headers : HeaderMap) : Bool :=
  ((headers.text syntheticHeader).map fun v =>
    !(["", "0", "false", "off"].contains (trim v))).getD false

/-- What a request meets, with what its headers say. -/
def Turn.withHeaders (turn : Turn) (headers : HeaderMap) : Turn :=
  { turn with
    bypassCache := shouldBypassCache headers
    synthetic := isSyntheticRequest headers }

/-! ## What is synthetic -/

/-- The decision a request ends with. -/
def Ending.decision : Ending → Option AutoDecision
  | .refused _ => none
  | .fromCache _ decision => decision
  | .fromProvider _ _ sent => sent.decision

/-- Whether a decision is synthetic: the request is marked, and its organization, if it has one, has
opted in. -/
def ResolveEnv.countsSynthetic (env : ResolveEnv) : Bool :=
  env.synthetic && (!env.hasOrganization || env.org.allowSynthetic == some true)

/-- The decision, if there is one, is synthetic exactly as said. -/
def Marked (mark : Bool) (decision : Option AutoDecision) : Prop :=
  ∀ d ∈ decision, d.synthetic = mark

/-- A resolution makes a decision with this mark, and one that is synthetic is not sampled. -/
structure Resolution.MarkedBy (mark : Bool) (res : Resolution) : Prop where
  decision : ∀ d, res.result = .ok (some d) → d.synthetic = mark
  gold : mark = true → res.gold = none

theorem maybeCollect_synthetic {state : AppState} {request : CreateResponseRequest}
    {decision : AutoDecision} (h : decision.synthetic = true) (draw : Float) (permit : Bool) :
    maybeCollect state request decision draw permit = none := by
  have hgold : isGoldEligible request decision = false := if_pos h
  rw [maybeCollect]
  split
  · rfl
  · rw [hgold, Bool.not_false, Bool.or_true, Bool.true_or]
    split <;> rfl

section Resolve

variable {state : AppState} {router : AutoRouter} {env : ResolveEnv} {shadow : Bool}
  {ctx : DecisionContext} {request merged : CreateResponseRequest} {res : Resolution}

theorem routeMerged_marked (h : routeMerged state router env shadow ctx merged = .ok res) :
    res.MarkedBy env.countsSynthetic := by
  simp only [routeMerged] at h
  rw [checked_bind_eq_ok] at h
  obtain ⟨outcome, -, h⟩ := h
  cases outcome with
  | ok d₀ =>
      obtain rfl := Except.ok.inj h
      refine ⟨fun d hd => ?_, fun hmark => maybeCollect_synthetic hmark _ _⟩
      obtain rfl := Option.some.inj (Except.ok.inj hd)
      rfl
  | error e =>
      -- an error comes without a decision
      cases e with
      | disabled =>
          obtain rfl := Except.ok.inj h
          exact ⟨fun d hd => (by cases hd), fun _ => rfl⟩
      | noCandidate tier considered =>
          obtain rfl := Except.ok.inj h
          refine ⟨fun d hd => ?_, fun _ => rfl⟩
          cases shadow with
          | true => cases hd
          | false => cases hd

theorem resolveAutoModel_marked (h : resolveAutoModel state env request = .ok res) :
    res.MarkedBy env.countsSynthetic := by
  have hquiet : ∀ r, (∀ d, r ≠ .ok (some d)) →
      (Resolution.quiet request r).MarkedBy env.countsSynthetic :=
    fun r hr => ⟨fun d hd => absurd hd (hr d), fun _ => rfl⟩
  simp only [resolveAutoModel] at h
  split at h
  · obtain rfl := Except.ok.inj h
    refine hquiet _ fun d hd => ?_
    split at hd <;> cases hd
  · split at h
    · obtain rfl := Except.ok.inj h
      exact hquiet _ fun d hd => by cases hd
    · split at h
      · obtain rfl := Except.ok.inj h
        exact hquiet _ fun d hd => by cases hd
      · exact routeMerged_marked h

end Resolve

/-- An escalation keeps the mark. -/
theorem sendRetrying_marked {mark : Bool} {failures : List ProviderFailure}
    {request : CreateResponseRequest} {decision : Option AutoDecision} {provider : Provider}
    {attempt : Nat} {sent : Sent} (hmarked : Marked mark decision)
    (h : sendRetrying request decision provider attempt failures = .ok sent) :
    Marked mark sent.decision := by
  induction failures generalizing request decision provider attempt sent with
  | nil =>
      obtain rfl := Except.ok.inj h
      exact hmarked
  | cons f failures ih =>
      rw [sendRetrying, checked_bind_eq_ok] at h
      obtain ⟨res, hres, h⟩ := h
      have hkept : Marked mark res.decision := by
        obtain ⟨-, -, hsame⟩ | ⟨_, -, d, sel, _, hd, -, -, -, hmoved, -⟩ := escalateThrough_cases hres
        · rw [hsame]
          exact hmarked
        · rw [hmoved]
          rintro d' ⟨⟩
          exact hmarked d hd
      split at h
      · obtain rfl := Except.ok.inj h
        exact hkept
      · rw [checked_bind_eq_ok] at h
        obtain ⟨rest, hrest, h⟩ := h
        obtain rfl := Except.ok.inj h
        have hlater : Marked mark rest.decision := ih hkept hrest
        exact hlater

theorem send_marked {mark : Bool} {turn : Turn} {request : CreateResponseRequest}
    {decision : Option AutoDecision} {provider : Provider} {sent : Sent}
    (hmarked : Marked mark decision) (h : send turn request decision provider = .ok sent) :
    Marked mark sent.decision := by
  rw [send] at h
  split at h
  · obtain rfl := Except.ok.inj h
    exact hmarked
  · exact sendRetrying_marked hmarked h

section Handler

variable {gw : Gateway} {auth : Option AuthContext} {turn : Turn} {stored : Stored}
  {request : CreateResponseRequest} {o : Observation}

/-- How a request ends that the scope check lets through. -/
theorem conclude_of_createResponse (hscope : scopeMissing auth = false)
    (h : createResponse gw auth turn stored request = .ok o) :
    ∃ p, prepare gw auth turn stored.db request = .ok p ∧
      conclude gw turn stored p.resolution = .ok o.ending ∧ o.gold = p.resolution.gold := by
  rw [createResponse, if_neg (by simp [hscope]), checked_bind_eq_ok] at h
  obtain ⟨p, hp, h⟩ := h
  rw [checked_bind_eq_ok] at h
  obtain ⟨ending, hending, h⟩ := h
  obtain rfl := Except.ok.inj h
  exact ⟨p, hp, hending, rfl⟩

/-- A request with a decision is answered from the cache or by a provider. -/
theorem conclude_cases {res : Resolution} {ending : Ending}
    (h : conclude gw turn stored res = .ok ending) :
    (∃ e, ending = .refused e) ∨
    ∃ decision provider, res.result = .ok decision ∧
      gw.state.getProvider res.request.model = some provider ∧
      ((∃ hit, consultCache gw turn stored.cache (degradeStream res.request) = some hit ∧
          ending = .fromCache (enrichCachedResponse hit
            (generateCacheKey gw.codec (degradeStream res.request))) decision) ∨
        ∃ thread sent, getOrCreateConversation gw turn stored.db (degradeStream res.request)
            = .ok thread ∧
          send turn (degradeStream res.request) decision provider = .ok sent ∧
          ending = .fromProvider thread (degradeStream res.request).stream sent) := by
  rw [conclude] at h
  split at h
  · exact .inl ⟨_, (Except.ok.inj h).symm⟩
  · next decision hdecision =>
      split at h
      · exact .inl ⟨_, (Except.ok.inj h).symm⟩
      · next provider hprovider =>
          refine .inr ⟨decision, provider, hdecision, hprovider, ?_⟩
          simp only [answer] at h
          split at h
          · next hit hhit => exact .inl ⟨hit, hhit, (Except.ok.inj h).symm⟩
          · rw [checked_bind_eq_ok] at h
            obtain ⟨thread, hthread, h⟩ := h
            rw [checked_bind_eq_ok] at h
            obtain ⟨sent, hsent, h⟩ := h
            exact .inr ⟨thread, sent, hthread, hsent, (Except.ok.inj h).symm⟩

variable (gw auth turn) in
/-- Whether a request counts as synthetic: it is marked, and its organization, if it has one, has
opted in. -/
def synthetic (db : Database) : Bool :=
  let organizationId := auth.bind (·.organizationId)
  turn.synthetic &&
    (!organizationId.isSome ||
      (orgAutoRoutingOverride gw turn db organizationId).allowSynthetic == some true)

/-- The decision a request ends with is synthetic exactly if the request is marked and may be; no
gold pair is made of it then. -/
theorem synthetic_mark (h : createResponse gw auth turn stored request = .ok o) :
    Marked (synthetic gw auth turn stored.db) o.ending.decision ∧
      (synthetic gw auth turn stored.db = true → o.gold = none) := by
  cases hscope : scopeMissing auth with
  | true =>
      rw [createResponse, if_pos hscope] at h
      obtain rfl := Except.ok.inj h
      exact ⟨fun d hd => (by cases hd), fun _ => rfl⟩
  | false =>
      obtain ⟨p, hp, hending, hgold⟩ := conclude_of_createResponse hscope h
      have hmarked : p.resolution.MarkedBy (synthetic gw auth turn stored.db) := by
        rw [prepare, checked_bind_eq_ok] at hp
        obtain ⟨res, hres, hp⟩ := hp
        obtain rfl := Except.ok.inj hp
        exact resolveAutoModel_marked hres
      refine ⟨?_, fun hmark => hgold.trans (hmarked.gold hmark)⟩
      obtain ⟨e, he⟩ | ⟨decision, provider, hresult, -, hanswer⟩ := conclude_cases hending
      · rw [he]
        exact fun d hd => by cases hd
      · have hdecision : Marked (synthetic gw auth turn stored.db) decision := by
          rintro d hd
          rw [Option.mem_def.mp hd] at hresult
          exact hmarked.decision d hresult
        obtain ⟨hit, -, hcached⟩ | ⟨thread, sent, -, hsent, hprovider⟩ := hanswer
        · rw [hcached]
          exact hdecision
        · rw [hprovider]
          exact send_marked hdecision hsent

end Handler

/-! ## The routing lab -/

/-- `user` stamped on lab requests that don't set one. -/
def labUser : String := "aura-routing-lab"

/-- `POST /admin/routing/lab/run` body; its label is for the audit log. -/
structure LabRunRequest where
  request : CreateResponseRequest
  synthetic : Bool := true

namespace LabRunRequest

variable (body : LabRunRequest)

/-- The request that is run. -/
def rewritten : CreateResponseRequest :=
  { body.request with
    stream := false
    user := some (body.request.user.getD labUser) }

/-- The headers it is run with. -/
def headers : HeaderMap :=
  ("x-cache-control", "no-cache") :: if body.synthetic then [(syntheticHeader, "1")] else []

end LabRunRequest

/-- Run one request live on the admin path: without a key, so without an organization. -/
def runLabRequest (gw : Gateway) (turn : Turn) (stored : Stored) (body : LabRunRequest) :
    Checked Observation :=
  createResponse gw none (turn.withHeaders body.headers) stored body.rewritten

theorem bypassCache_lab (turn : Turn) (body : LabRunRequest) :
    (turn.withHeaders body.headers).bypassCache = true := by
  show shouldBypassCache body.headers = true
  rw [LabRunRequest.headers]
  cases body.synthetic <;> decide

theorem synthetic_lab (gw : Gateway) (turn : Turn) (db : Database) (body : LabRunRequest) :
    synthetic gw none (turn.withHeaders body.headers) db = body.synthetic := by
  have hmark : isSyntheticRequest body.headers = body.synthetic := by
    rw [LabRunRequest.headers]
    cases body.synthetic <;> decide
  rw [← hmark]
  exact Bool.and_true _

/-- A request that bypasses the cache finds nothing there. -/
theorem consultCache_of_bypass {gw : Gateway} {turn : Turn} (h : turn.bypassCache = true)
    (cache : List CacheEntry) (request : CreateResponseRequest) :
    consultCache gw turn cache request = none := by
  rw [consultCache, h]
  simp

/-- All calls ask for what the request asks for, but for the model and, of a fan-out, the
temperature; no call streams if the request does not. -/
theorem send_requests {turn : Turn} {request : CreateResponseRequest}
    {decision : Option AutoDecision} {provider : Provider} {sent : Sent}
    (h : send turn request decision provider = .ok sent) :
    ∀ c ∈ sent.calls, ∃ model temperature stream,
      c.request = { request with model, temperature, stream } ∧
        (stream = true → request.stream = true) := by
  rw [send] at h
  split at h
  · next hfanout =>
      obtain rfl := Except.ok.inj h
      intro c hc
      simp only [dispatchCalls, if_pos hfanout] at hc
      rw [List.eq_of_mem_replicate hc]
      show ∃ model temperature stream, fanoutRequest request
        = { request with model, temperature, stream } ∧ (stream = true → request.stream = true)
      rw [fanoutRequest]
      split <;> exact ⟨_, _, false, rfl, fun hstream => (by cases hstream)⟩
  · intro c hc
    obtain ⟨model, hmodel⟩ := Caching.sendRetrying_requests h c hc
    exact ⟨model, request.temperature, request.stream, hmodel, id⟩

namespace Lab

/-- The gateway of the sample router. -/
def gateway : Gateway := { TwoTenants.gateway with state := Sample.state }

/-- A plain message to `auto`, that asks for a stream. -/
def body : LabRunRequest :=
  { request := { CreateResponseRequest.text "auto" "hi" with stream := true } }

/-- Whether a request is answered by a provider, after a decision. -/
def routed (result : Checked Observation) : Bool :=
  match result with
  | .ok o =>
      match o.ending with
      | .fromProvider _ _ sent => sent.decision.isSome
      | _ => false
  | .error _ => false

end Lab

end AuraGateway.Proxy
