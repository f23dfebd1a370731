import AuraGateway.Foundations.ExpiringStore
import AuraGateway.Foundations.Resumptions
import AuraGateway.Proxy.StreamHandler
import AuraGateway.Proxy.TenantIsolation

/-!
# What comes out of the cache

Requests that run at the same time share one Redis: each looks its key up, asks a provider where
nothing is found, and stores what comes back. `respond` is such a request, one command after the
other; Redis may drop any key at any time, and the gateway may stop.

A log keeps what happened. In every interleaving each response served from the cache is the one
stored last under the key of the request, its time is not over, and it was made from the answer of a
provider to a request of the same key that could be cached (`cache_honest`): what is served from the
cache is never stored again, so nothing outlives the time it was stored for.
-/

set_option autoImplicit false

namespace AuraGateway.Proxy.Caching

open AuraGateway.Foundations.ExpiringStore AuraGateway.Foundations.Resumptions
open AuraGateway.RustStd AuraGateway.Types AuraGateway.Pricing AuraGateway.Router

/-! ## A request -/

/-- Whether a response is suitable for caching. -/
def shouldCacheResponse (response : Response) : Bool :=
  decide (response.status = .completed) && response.error.isNone && !response.output.isEmpty

/-- What the process holds, and how a response is written. -/
structure Setup where
  gw : Gateway
  calculator : CostCalculator
  serialize : Response → String

/-- An entry of the log. -/
inductive CacheEvent where
  | answered (request : CreateResponseRequest) (response : Response)
  | stored (request : CreateResponseRequest) (response : Response) (now ttl : Nat)
  | served (request : CreateResponseRequest) (response : CachedResponse) (now : Nat)
  | evicted (key : String)

/-- Redis, and the log. -/
structure CacheState where
  redis : List (Entry String String) := []
  log : List CacheEvent := []

def CacheState.note (s : CacheState) (e : CacheEvent) : CacheState := { s with log := s.log ++ [e] }

/-- What a step meets: the clock of Redis in milliseconds, the settings in force, whether a write
takes effect, and what the provider answers. -/
structure Answer where
  now : Nat
  cacheEnabled : Bool
  ttlSecs : Nat
  takesEffect : Bool
  response : Response
  annotate : Response → Json

/-- How a request ends. -/
inductive Outcome where
  | streamed
  | fromCache (response : CachedResponse)
  | answered (response : Response)
  | failed
  | evicted

abbrev Work := Task Answer CacheState Outcome

/-- The cache as a lookup at this time sees it. -/
def stillCached (now : Nat) (redis : List (Entry String String)) : List CacheEntry :=
  (alive now redis).map fun e => ⟨e.key, e.value, none⟩

/-- Whether the request reads and writes the cache. -/
def usesCache (gw : Gateway) (turn : Turn) (request : CreateResponseRequest) : Bool :=
  gw.hasCache && gw.cacheEnabled && !turn.bypassCache && !shouldSkipCache request

/-- The request that was answered: escalations have changed its model. -/
def finalRequest (request : CreateResponseRequest) (sent : Sent) : CreateResponseRequest :=
  if needsFanout request then request
  else (sent.calls.getLast?.map (·.request)).getD request

section Handler

variable (g : Setup) (turn : Turn)

/-- Look the request up, and tell whether it uses the cache. -/
def lookUp (request : CreateResponseRequest) (o : Answer) (s : CacheState) :
    (Option CachedResponse × Bool) × CacheState :=
  let gw := { g.gw with cacheEnabled := o.cacheEnabled }
  match consultCache gw turn (stillCached o.now s.redis) request with
  | some hit =>
      let response := enrichCachedResponse hit (generateCacheKey gw.codec request)
      ((some response, usesCache gw turn request), s.note (.served request response o.now))
  | none => ((none, usesCache gw turn request), s)

/-- Ask the provider, and those the request escalates to. -/
def dispatch (request : CreateResponseRequest) (decision : Option AutoDecision)
    (provider : Provider) (o : Answer) (s : CacheState) :
    Option (CreateResponseRequest × Response) × CacheState :=
  match send turn request decision provider with
  | .error _ => (none, s)
  | .ok sent =>
      match sent.error with
      | some _ => (none, s)
      | none =>
          let final := finalRequest request sent
          let response := enrichResponse g.calculator o.annotate o.response
          (some (final, applyConfidenceThresholdGate final response),
            s.note (.answered final o.response))

/-- Store a response; Redis refuses a time of zero. -/
def store (request : CreateResponseRequest) (response : Response) (o : Answer) (s : CacheState) :
    Unit × CacheState :=
  if o.takesEffect && o.ttlSecs ≠ 0 then
    ((), { redis := apply s.redis (.write (generateCacheKey g.gw.codec request)
              (g.serialize response) (o.now + o.ttlSecs * 1000))
           log := s.log ++ [.stored request response o.now o.ttlSecs] })
  else ((), s)

/-- Answer a resolved request. -/
def respond (request : CreateResponseRequest) (decision : Option AutoDecision)
    (provider : Provider) : Work :=
  let request := degradeStream request
  -- the streaming path leaves the cache alone
  if request.stream then .done .streamed
  else
    .act (lookUp g turn request) fun found =>
      match found.1 with
      | some hit => .done (.fromCache hit)
      | none =>
          .act (dispatch g turn request decision provider) fun sent =>
            match sent with
            | none => .done .failed
            | some (final, response) =>
                if found.2 && shouldCacheResponse response then
                  .act (store g final response) fun _ => .done (.answered response)
                else .done (.answered response)

end Handler

/-- Redis drops a key. -/
def evict (key : String) : Work :=
  .act (fun _ s => ((), { redis := apply s.redis (.delete key), log := s.log ++ [.evicted key] }))
    fun _ => .done .evicted

/-- What happens to the gateway. -/
inductive GatewayEvent where
  | call (turn : Turn) (request : CreateResponseRequest) (decision : Option AutoDecision)
      (provider : Provider)
  | evict (key : String)
  | resume (i : Nat) (answer : Answer)
  | crash

def GatewayEvent.event (g : Setup) : GatewayEvent → Foundations.Resumptions.Event Answer CacheState Outcome
  | .call turn request decision provider => .start (respond g turn request decision provider)
  | .evict key => .start (Caching.evict key)
  | .resume i o => .resume i o
  | .crash => .crash id

/-- The log of a history. -/
def logOf (g : Setup) (es : List GatewayEvent) : List CacheEvent :=
  (Pool.run ⟨[], {}⟩ (es.map (GatewayEvent.event g))).state.log

/-! ## What the log says -/

section Logs

variable (g : Setup)

/-- What an entry of the log did to Redis. -/
def CacheEvent.op : CacheEvent → Option (Op String String)
  | .stored request response now ttl =>
      some (.write (generateCacheKey g.gw.codec request) (g.serialize response) (now + ttl * 1000))
  | .evicted key => some (.delete key)
  | _ => none

/-- The response was made from the answer of a provider. -/
def Answered (before : List CacheEvent) (request : CreateResponseRequest) (response : Response) :
    Prop :=
  ∃ r annotate, .answered request r ∈ before
    ∧ response = applyConfidenceThresholdGate request (enrichResponse g.calculator annotate r)

/-- What is in front of an entry of the log accounts for it. -/
def Justified (before : List CacheEvent) : CacheEvent → Prop
  | .stored request response _ _ =>
      shouldSkipCache request = false ∧ shouldCacheResponse response = true
        ∧ Answered g before request response
  | .served request response now =>
      shouldSkipCache request = false ∧ ∃ early late source answer since ttl,
        before = early ++ .stored source answer since ttl :: late
          ∧ generateCacheKey g.gw.codec source = generateCacheKey g.gw.codec request
          ∧ now < since + ttl * 1000
          -- nothing was stored under the key or dropped since
          ∧ (∀ e ∈ late, ∀ op ∈ e.op g, op.key ≠ generateCacheKey g.gw.codec request)
          ∧ (g.gw.codec.parseResponse (g.serialize answer)).map
              (fun hit => enrichCachedResponse hit (generateCacheKey g.gw.codec request))
            = some response
  | _ => True

/-- Every entry of the log is accounted for. -/
def Honest (log : List CacheEvent) : Prop :=
  ∀ before e after, log = before ++ e :: after → Justified g before e

variable {g}

theorem Honest.concat {log : List CacheEvent} (h : Honest g log) {e : CacheEvent}
    (he : Justified g log e) : Honest g (log ++ [e]) := by
  intro before e' after heq
  rcases List.eq_nil_or_concat after with rfl | ⟨after, last, rfl⟩
  · obtain ⟨rfl, hlast⟩ := List.append_inj' heq rfl
    cases hlast
    exact he
  · rw [List.concat_eq_append, ← List.cons_append, ← List.append_assoc] at heq
    obtain ⟨rfl, -⟩ := List.append_inj' heq rfl
    exact h before e' after rfl

/-- Redis holds what the log says, and the log is accounted for. -/
structure Sound (g : Setup) (s : CacheState) : Prop where
  redis : s.redis = run (s.log.filterMap (CacheEvent.op g))
  honest : Honest g s.log

/-- An entry that does nothing to Redis. -/
theorem Sound.note {s : CacheState} (h : Sound g s) {e : CacheEvent} (hop : e.op g = none)
    (he : Justified g s.log e) : Sound g (s.note e) where
  redis := by
    rw [CacheState.note, List.filterMap_append, List.filterMap_cons_none hop, List.filterMap_nil,
      List.append_nil]
    exact h.redis
  honest := h.honest.concat he

theorem Sound.command {s : CacheState} (h : Sound g s) {e : CacheEvent} {op : Op String String}
    (hop : e.op g = some op) (he : Justified g s.log e) :
    Sound g { redis := apply s.redis op, log := s.log ++ [e] } where
  redis := by
    rw [List.filterMap_append, List.filterMap_cons_some hop, List.filterMap_nil, run_concat,
      h.redis]
  honest := h.honest.concat he

end Logs

/-! ## Lookups -/

/-- A hit is the text that the key has, read. -/
theorem consultCache_eq_some {gw : Gateway} {turn : Turn} {now : Nat}
    {redis : List (Entry String String)} {request : CreateResponseRequest} {hit : CachedResponse}
    (h : consultCache gw turn (stillCached now redis) request = some hit) :
    shouldSkipCache request = false ∧ ∃ json,
      Foundations.ExpiringStore.get now (generateCacheKey gw.codec request) redis = some json
        ∧ gw.codec.parseResponse json = some hit := by
  rw [consultCache] at h
  split at h
  · next hused =>
      have hskip : shouldSkipCache request = false := by
        simp only [Bool.and_eq_true, Bool.not_eq_true'] at hused
        exact hused.1.2
      rw [cacheGet, stillCached, List.find?_map, Option.bind_eq_some_iff] at h
      obtain ⟨e, he, hparse⟩ := h
      obtain ⟨entry, hfind, rfl⟩ := Option.map_eq_some_iff.mp he
      refine ⟨hskip, entry.value, ?_, hparse⟩
      have hkey : (fun e : Entry String String => decide (e.key = generateCacheKey gw.codec request))
          = (fun e : CacheEntry => e.key == generateCacheKey gw.codec request)
            ∘ fun e => ⟨e.key, e.value, none⟩ := by
        funext e
        rw [Function.comp_apply]
        exact (beq_eq_decide _ _).symm
      rw [Foundations.ExpiringStore.get, hkey, hfind]
      rfl
  · cases h

theorem lookUp_sound {g : Setup} {turn : Turn} {request : CreateResponseRequest} {o : Answer}
    {s : CacheState} (h : Sound g s) : Sound g (lookUp g turn request o s).2 := by
  rw [lookUp]
  dsimp only
  split
  · next hit hfound =>
      obtain ⟨hskip, json, hget, hparse⟩ := consultCache_eq_some hfound
      refine h.note rfl ⟨hskip, ?_⟩
      rw [h.redis] at hget
      obtain ⟨early, e, late, expires, hlog, hop, hlive, hlate⟩ := exists_write hget
      cases e with
      | stored source answer since ttl =>
          obtain ⟨hkey, hjson, rfl⟩ := Op.write.inj (Option.some.inj hop)
          refine ⟨early, late, source, answer, since, ttl, hlog, hkey, hlive, hlate, ?_⟩
          rw [hjson, hparse]
          rfl
      | evicted key => cases hop
      | answered request r => cases hop
      | served request r now => cases hop
  · exact h

/-! ## Calls -/

/-- Escalations change the model only. -/
theorem sendRetrying_requests {failures : List ProviderFailure} {request : CreateResponseRequest}
    {decision : Option AutoDecision} {provider : Provider} {attempt : Nat} {sent : Sent}
    (h : sendRetrying request decision provider attempt failures = .ok sent) :
    ∀ c ∈ sent.calls, ∃ model, c.request = { request with model } := by
  induction failures generalizing request decision provider attempt sent with
  | nil =>
      obtain rfl := Except.ok.inj h
      intro c hc
      rw [List.mem_singleton.mp hc]
      exact ⟨request.model, rfl⟩
  | cons f failures ih =>
      rw [sendRetrying, checked_bind_eq_ok] at h
      obtain ⟨res, hres, h⟩ := h
      split at h
      · obtain rfl := Except.ok.inj h
        intro c hc
        rw [List.mem_singleton.mp hc]
        exact ⟨request.model, rfl⟩
      · next next hnext =>
          rw [checked_bind_eq_ok] at h
          obtain ⟨rest, hrest, h⟩ := h
          obtain rfl := Except.ok.inj h
          intro c hc
          obtain rfl | hc := List.mem_cons.mp hc
          · exact ⟨request.model, rfl⟩
          obtain ⟨model, hmodel⟩ := ih hrest c hc
          obtain ⟨hnone, -⟩ | ⟨_, -, _, sel, _, -, -, -, hmoved, -⟩ := escalateThrough_cases hres
          · rw [hnone] at hnext
            cases hnext
          · rw [hmoved] at hmodel
            exact ⟨model, hmodel⟩

theorem shouldSkipCache_finalRequest {turn : Turn} {request : CreateResponseRequest}
    {decision : Option AutoDecision} {provider : Provider} {sent : Sent}
    (h : send turn request decision provider = .ok sent) :
    shouldSkipCache (finalRequest request sent) = shouldSkipCache request := by
  rw [finalRequest]
  split
  · rfl
  · next hsingle =>
      rw [send, if_neg hsingle] at h
      cases hlast : sent.calls.getLast? with
      | none => rfl
      | some c =>
          obtain ⟨model, hmodel⟩ := sendRetrying_requests h c (List.mem_of_getLast? hlast)
          rw [Option.map_some, Option.getD_some, hmodel]
          rfl

/-! ## Whole histories -/

/-- The log grows. -/
def Grows (s s' : CacheState) : Prop := s.log <+: s'.log

theorem Grows.refl (s : CacheState) : Grows s s := List.prefix_rfl

theorem Grows.trans (a b c : CacheState) (h : Grows a b) (h' : Grows b c) : Grows a c :=
  List.IsPrefix.trans h h'

theorem lookUp_grows (g : Setup) (turn : Turn) (request : CreateResponseRequest) (o : Answer)
    (s : CacheState) : Grows s (lookUp g turn request o s).2 := by
  rw [lookUp]
  dsimp only
  split
  · exact List.prefix_append _ _
  · exact Grows.refl s

theorem lookUp_uses {g : Setup} {turn : Turn} {request : CreateResponseRequest} {o : Answer}
    {s : CacheState} (h : (lookUp g turn request o s).1.2 = true) :
    shouldSkipCache request = false := by
  have huses : (lookUp g turn request o s).1.2
      = usesCache { g.gw with cacheEnabled := o.cacheEnabled } turn request := by
    rw [lookUp]
    dsimp only
    split <;> rfl
  rw [huses, usesCache] at h
  simp only [Bool.and_eq_true, Bool.not_eq_true'] at h
  exact h.2

theorem Answered.mono {g : Setup} {log log' : List CacheEvent} {request : CreateResponseRequest}
    {response : Response} (h : Answered g log request response) (hlog : log <+: log') :
    Answered g log' request response := by
  obtain ⟨r, annotate, hr, heq⟩ := h
  exact ⟨r, annotate, hlog.subset hr, heq⟩

theorem dispatch_sound {g : Setup} {turn : Turn} {request : CreateResponseRequest}
    {decision : Option AutoDecision} {provider : Provider} {o : Answer} {s : CacheState}
    (h : Sound g s) :
    let r := dispatch g turn request decision provider o s
    Sound g r.2 ∧ Grows s r.2 ∧ ∀ final response, r.1 = some (final, response) →
      Answered g r.2.log final response ∧ shouldSkipCache final = shouldSkipCache request := by
  dsimp only
  rw [dispatch]
  split
  · exact ⟨h, Grows.refl s, fun _ _ hr => by cases hr⟩
  · next sent hsent =>
      split
      · exact ⟨h, Grows.refl s, fun _ _ hr => by cases hr⟩
      · refine ⟨h.note rfl trivial, List.prefix_append _ _, fun final response hr => ?_⟩
        obtain ⟨rfl, rfl⟩ := Prod.mk.inj (Option.some.inj hr)
        exact ⟨⟨o.response, o.annotate, List.mem_append_right _ List.mem_cons_self, rfl⟩,
          shouldSkipCache_finalRequest hsent⟩

theorem store_sound {g : Setup} {request : CreateResponseRequest} {response : Response} {o : Answer}
    {s : CacheState} (h : Sound g s) (hskip : shouldSkipCache request = false)
    (hcache : shouldCacheResponse response = true) (hanswered : Answered g s.log request response) :
    Sound g (store g request response o s).2 ∧ Grows s (store g request response o s).2 := by
  rw [store]
  split
  · exact ⟨h.command rfl ⟨hskip, hcache, hanswered⟩, List.prefix_append _ _⟩
  · exact ⟨h, Grows.refl s⟩

theorem respond_guarantees (g : Setup) (turn : Turn) (request : CreateResponseRequest)
    (decision : Option AutoDecision) (provider : Provider) (s : CacheState) :
    (respond g turn request decision provider).Guarantees Grows (Sound g) s := by
  rw [respond]
  split
  · exact trivial
  refine Task.guarantees_act fun s₁ _ h₁ o₁ => ⟨lookUp_sound h₁, lookUp_grows g turn _ o₁ s₁, ?_⟩
  split
  · exact trivial
  refine Task.guarantees_act fun s₂ _ h₂ o₂ => ?_
  obtain ⟨hsound, hgrows, hsent⟩ := dispatch_sound (o := o₂) h₂
  refine ⟨hsound, hgrows, ?_⟩
  split
  · exact trivial
  · next final response hresult =>
      obtain ⟨hanswered, hskip⟩ := hsent final response hresult
      split
      · next hstore =>
          rw [Bool.and_eq_true] at hstore
          -- the answer is still in the log when it is stored
          refine Task.guarantees_act fun s₃ hlater h₃ o₃ => ?_
          obtain ⟨hsound, hgrows⟩ := store_sound h₃ (hskip.trans (lookUp_uses hstore.1)) hstore.2
            (hanswered.mono hlater) (o := o₃)
          exact ⟨hsound, hgrows, trivial⟩
      · exact trivial

theorem evict_guarantees (g : Setup) (key : String) (s : CacheState) :
    (evict key).Guarantees Grows (Sound g) s := by
  refine Task.guarantees_act fun s' _ h o => ⟨?_, List.prefix_append _ _, trivial⟩
  exact h.command (e := .evicted key) rfl trivial

/-- Whatever interleaves, every response that is served from the cache is the one stored last under
the key of the request, before its time is over, and was made from a provider's answer to a request
of this key. -/
theorem cache_honest (g : Setup) (es : List GatewayEvent) : Honest g (logOf g es) := by
  have hstart : Pool.Guarantees Grows (Sound g) (⟨[], {}⟩ : Pool Answer CacheState Outcome) := by
    refine ⟨⟨rfl, fun before e after h => ?_⟩, fun t ht => by cases ht⟩
    cases before <;> cases h
  refine (hstart.run Grows.refl Grows.trans fun e he => ?_).state.honest
  obtain ⟨event, -, rfl⟩ := List.mem_map.mp he
  cases event with
  | call turn request decision provider =>
      exact fun s _ => respond_guarantees g turn request decision provider s
  | evict key => exact fun s _ => evict_guarantees g key s
  | resume i o => exact trivial
  | crash => exact fun s h => h

namespace Twice

def setup : Setup := ⟨TwoTenants.gateway, .new, fun _ => TwoTenants.responseText⟩

/-- A message, to be kept for five minutes. -/
def answer (now : Nat) : Answer where
  now
  cacheEnabled := true
  ttlSecs := 300
  takesEffect := true
  response :=
    { Response.builder "resp_b" "gpt-4o" 0 with
      status := .completed
      output := [.message "msg_1" .assistant [] .completed] }
  annotate := fun _ => .object []

def call : GatewayEvent := .call TwoTenants.turn TwoTenants.hi none Sample.openai

/-- A request that is answered and stored, and the same request again. -/
def history (now : Nat) : List GatewayEvent :=
  [call, .resume 0 (answer 0), .resume 0 (answer 1), .resume 0 (answer 2), call,
    .resume 1 (answer now)]

end Twice

example :
    (∃ hit, (logOf Twice.setup (Twice.history 300001)).getLast?
        = some (.served TwoTenants.hi hit 300001))
      ∧ (logOf Twice.setup (Twice.history 300002)).length = 2 :=
  ⟨⟨_, rfl⟩, rfl⟩

end AuraGateway.Proxy.Caching
