import AuraGateway.Proxy.ResponseHandling
import AuraGateway.Proxy.EscalationRuns

/-!
# Isolation of response requests

A response request reads stored data by values that do not name an organization: the
client's `previous_response_id`, and a key computed from the request. Only its settings
are read under the organization of the key.

`tenant_isolation` is what that leaves: on two stores that differ only in what was stored
for others, a request of organization `a` observes the same and sends the same, provided
that in neither store its `previous_response_id` or its cache key finds something of
another organization. `tenant_isolation_broken` shows both lookups finding it.
-/

set_option autoImplicit false

namespace AuraGateway.Proxy

open AuraGateway.RustStd AuraGateway.Types AuraGateway.Router AuraGateway.Storage
open AuraGateway.Foundations.OwnedRows

/-! ## What the resolution reads -/

section Resolution

variable {state : AppState} {env : ResolveEnv} {request : CreateResponseRequest}
  {modelOfResponse : String → Option String}

/-- Of the stored models a resolution reads the one of the previous turn. -/
theorem resolveAutoModel_congr
    (h : previousTurnModel state env request =
      previousTurnModel state { env with modelOfResponse } request) :
    resolveAutoModel state env request =
      resolveAutoModel state { env with modelOfResponse } request := by
  have hcontext : ∀ (router : AutoRouter) (shadow : Bool) (aliasMode : Option RoutingMode)
      (merged : CreateResponseRequest),
      resolveContext state router env shadow aliasMode request merged =
        resolveContext state router { env with modelOfResponse } shadow aliasMode request
          merged := by
    intro router shadow aliasMode merged
    simp only [resolveContext]
    rw [h]
  have hroute : ∀ (router : AutoRouter) (shadow : Bool) (ctx : DecisionContext)
      (merged : CreateResponseRequest),
      routeMerged state router env shadow ctx merged =
        routeMerged state router { env with modelOfResponse } shadow ctx merged :=
    fun _ _ _ _ => rfl
  -- stored models enter only through the context
  simp only [resolveAutoModel]
  simp only [hcontext, hroute]

end Resolution

/-! ## Agreement -/

section Isolation

variable (own : Ownership) (a : Uuid)

/-- The stores differ only in what was stored for other organizations. -/
structure AgreeStored (s₁ s₂ : Stored) : Prop where
  db : Agree own a s₁.db s₂.db
  cache : view (ownsEntry a) s₁.cache = view (ownsEntry a) s₂.cache

/-- The response that `previous_response_id` names belongs to `a` or to nobody. -/
def PreviousOwn (db : Database) (request : CreateResponseRequest) : Prop :=
  ∀ prev ∈ request.previousResponseId,
    Selects (ownsResponse own a) (fun r => r.id == prev) db.responses

/-- The cache entry under the key of the resolved request belongs to `a` or to nobody. -/
def CachedOwn (gw : Gateway) (ctx : AuthContext) (turn : Turn) (stored : Stored)
    (request : CreateResponseRequest) : Prop :=
  ∀ p, prepare gw (some ctx) turn stored.db request = .ok p →
    Selects (ownsEntry a) (fun e => e.key == generateCacheKey gw.codec p.resolution.request)
      stored.cache

variable {own a} {gw : Gateway} {ctx : AuthContext} {turn : Turn}
  {request : CreateResponseRequest} {db₁ db₂ : Database}

section Lookups

variable (hagree : Agree own a db₁ db₂) (h₁ : PreviousOwn own a db₁ request)
  (h₂ : PreviousOwn own a db₂ request)

include hagree h₁ h₂

/-- The previous response is the same row in both databases. -/
theorem previousResponse_eq :
    ∀ prev ∈ request.previousResponseId,
      ResponseRepo.findById prev db₁ = ResponseRepo.findById prev db₂ :=
  fun prev hprev => find?_eq_of_view hagree.responses (h₁ prev hprev) (h₂ prev hprev)

theorem replayed_eq : replayed gw turn db₁ request = replayed gw turn db₂ request := by
  have hprev := previousResponse_eq hagree h₁ h₂
  simp only [replayed, replayPriorToolCalls, ResponseRepo.findOutputItemsById]
  cases hid : request.previousResponseId with
  | none => rfl
  | some prev =>
      dsimp only
      rw [hprev prev hid]

/-- The conversation a turn is appended to. -/
theorem getOrCreateConversation_eq :
    getOrCreateConversation gw turn db₁ request =
      getOrCreateConversation gw turn db₂ request := by
  have hprev := previousResponse_eq hagree h₁ h₂
  simp only [getOrCreateConversation, ResponseRepo.findConversationByResponseId]
  cases hid : request.previousResponseId with
  | none => rfl
  | some prev =>
      dsimp only
      rw [hprev prev hid]

variable (gw ctx turn) in
/-- The sticky model of the previous turn. -/
theorem previousTurnModel_eq (env : ResolveEnv) :
    previousTurnModel gw.state
        { env with modelOfResponse := (resolveEnv gw (some ctx) turn db₁).modelOfResponse } request =
      previousTurnModel gw.state
        { env with modelOfResponse := (resolveEnv gw (some ctx) turn db₂).modelOfResponse } request := by
  have hprev := previousResponse_eq hagree h₁ h₂
  simp only [previousTurnModel, resolveEnv, ResponseRepo.findModelById]
  cases hid : request.previousResponseId with
  | none => rfl
  | some prev =>
      dsimp only [Option.bind_some]
      rw [hprev prev hid]

end Lookups

variable (gw turn) in
/-- An organization's settings are its own row. -/
theorem orgAutoRoutingOverride_eq (ha : own.ofId a = some a) (hagree : Agree own a db₁ db₂) :
    orgAutoRoutingOverride gw turn db₁ (some a) = orgAutoRoutingOverride gw turn db₂ (some a) := by
  have hself : ∀ t : List Organization,
      Selects (owns own a Organization.id) (fun o => o.id == a) t := by
    intro t o _ ho
    simp only [owns]
    rw [eq_of_beq ho, ha]
    exact beq_self_eq_true a
  unfold orgAutoRoutingOverride orgSettings OrganizationRepo.getSettings OrganizationRepo.findById
  rw [Option.bind_some, Option.bind_some,
    find?_eq_of_view hagree.organizations (hself _) (hself _)]

section SameTurn

variable (ha : own.ofId a = some a) (hctx : ctx.organizationId = some a)
  (hagree : Agree own a db₁ db₂)

include ha hctx hagree

/-- Apart from the stored models, a resolution reads the same values. -/
theorem resolveEnv_eq :
    resolveEnv gw (some ctx) turn db₁ =
      { resolveEnv gw (some ctx) turn db₂ with
        modelOfResponse := (resolveEnv gw (some ctx) turn db₁).modelOfResponse } := by
  have horg := orgAutoRoutingOverride_eq gw turn ha hagree
  simp only [resolveEnv]
  dsimp only [Option.bind_some]
  rw [hctx, horg]

/-- A request is replayed, preprocessed and resolved alike. -/
theorem prepare_eq (h₁ : PreviousOwn own a db₁ request) (h₂ : PreviousOwn own a db₂ request) :
    prepare gw (some ctx) turn db₁ request = prepare gw (some ctx) turn db₂ request := by
  -- Preprocessing rewrites input and instructions, so the statement is about any request
  -- that names the same previous response.
  have hprevious : ∀ request' : CreateResponseRequest,
      request'.previousResponseId = request.previousResponseId →
      previousTurnModel gw.state (resolveEnv gw (some ctx) turn db₁) request' =
          previousTurnModel gw.state (resolveEnv gw (some ctx) turn db₂) request' ∧
        resolveAutoModel gw.state (resolveEnv gw (some ctx) turn db₁) request' =
          resolveAutoModel gw.state (resolveEnv gw (some ctx) turn db₂) request' := by
    intro request' hid
    have h₁' : PreviousOwn own a db₁ request' := fun prev hprev => h₁ prev (hid ▸ hprev)
    have h₂' : PreviousOwn own a db₂ request' := fun prev hprev => h₂ prev (hid ▸ hprev)
    have hmodel := previousTurnModel_eq gw ctx turn hagree h₁' h₂'
      (resolveEnv gw (some ctx) turn db₂)
    rw [resolveEnv_eq ha hctx hagree]
    exact ⟨hmodel, (resolveAutoModel_congr hmodel.symm).symm⟩
  unfold prepare
  rw [replayed_eq hagree h₁ h₂]
  obtain ⟨hmodel, hresolve⟩ := hprevious (preprocessRequest gw.preprocessor
    { request with input := replayed gw turn db₂ request ++ request.input }) rfl
  dsimp only
  rw [hmodel, hresolve]

end SameTurn

/-- A resolved request is answered alike: the cache holds the same entry for it, and its
turn is appended to the same conversation. -/
theorem conclude_eq {s₁ s₂ : Stored} (hagree : AgreeStored own a s₁ s₂) {res : Resolution}
    (hprev₁ : PreviousOwn own a s₁.db res.request) (hprev₂ : PreviousOwn own a s₂.db res.request)
    (hcache₁ : Selects (ownsEntry a)
      (fun e => e.key == generateCacheKey gw.codec res.request) s₁.cache)
    (hcache₂ : Selects (ownsEntry a)
      (fun e => e.key == generateCacheKey gw.codec res.request) s₂.cache) :
    conclude gw turn s₁ res = conclude gw turn s₂ res := by
  -- Switching streaming off changes neither the key nor the previous response.
  have hkey : generateCacheKey gw.codec (degradeStream res.request) =
      generateCacheKey gw.codec res.request := by
    simp only [degradeStream]
    split <;> rfl
  have hid : (degradeStream res.request).previousResponseId = res.request.previousResponseId := by
    simp only [degradeStream]
    split <;> rfl
  have h₁ : PreviousOwn own a s₁.db (degradeStream res.request) :=
    fun prev hprev => hprev₁ prev (hid ▸ hprev)
  have h₂ : PreviousOwn own a s₂.db (degradeStream res.request) :=
    fun prev hprev => hprev₂ prev (hid ▸ hprev)
  have hcached : consultCache gw turn s₁.cache (degradeStream res.request) =
      consultCache gw turn s₂.cache (degradeStream res.request) := by
    simp only [consultCache, cacheGet]
    rw [hkey, find?_eq_of_view hagree.cache hcache₁ hcache₂]
  have hthread : getOrCreateConversation gw turn s₁.db (degradeStream res.request) =
      getOrCreateConversation gw turn s₂.db (degradeStream res.request) :=
    getOrCreateConversation_eq hagree.db h₁ h₂
  simp only [conclude, answer]
  rw [hcached, hthread]

/-- A prepared request still names the same previous response. -/
theorem prepare_previous {auth : Option AuthContext} {db : Database} {p : Prepared}
    (h : prepare gw auth turn db request = .ok p) :
    p.resolution.request.previousResponseId = request.previousResponseId := by
  obtain ⟨model, input, instructions, routing, hreq⟩ := prepare_rewrites h
  rw [hreq]

/-- What keeps the requests of organizations apart. On two stores that differ only in
what was stored for others, a request of `a` has the same outcome (the replayed calls,
the sticky model, the cached response, the conversation and everything sent to
providers), provided that in neither store the response it names as its previous one or
the cache entry under its key belongs to another organization. -/
theorem tenant_isolation (own : Ownership) (a : Uuid) (ha : own.ofId a = some a) (gw : Gateway)
    (ctx : AuthContext) (hctx : ctx.organizationId = some a) (turn : Turn)
    (request : CreateResponseRequest) (s₁ s₂ : Stored) (hagree : AgreeStored own a s₁ s₂)
    (hprev₁ : PreviousOwn own a s₁.db request) (hprev₂ : PreviousOwn own a s₂.db request)
    (hcache₁ : CachedOwn a gw ctx turn s₁ request)
    (hcache₂ : CachedOwn a gw ctx turn s₂ request) :
    createResponse gw (some ctx) turn s₁ request =
      createResponse gw (some ctx) turn s₂ request := by
  have hprepare : prepare gw (some ctx) turn s₁.db request =
      prepare gw (some ctx) turn s₂.db request :=
    prepare_eq ha hctx hagree.db hprev₁ hprev₂
  simp only [createResponse]
  rw [hprepare]
  split
  · rfl
  · cases hp : prepare gw (some ctx) turn s₂.db request with
    | error e => rfl
    | ok p =>
        -- resolving rewrites the model, not the previous response
        have hid := prepare_previous hp
        rw [checked_ok_bind, checked_ok_bind,
          conclude_eq hagree (fun prev hprev => hprev₁ prev (hid ▸ hprev))
            (fun prev hprev => hprev₂ prev (hid ▸ hprev)) (hcache₁ p (hprepare.trans hp))
            (hcache₂ p hp)]

end Isolation

/-! ## Two organizations -/

namespace TwoTenants

/-- Organization 1 made `resp_a`, organization 2 everything else. -/
def own : Ownership :=
  { ofId := fun id => some (if id = 1 then 1 else 2)
    ofResponse := fun id => some (if id == "resp_a" then 1 else 2) }

/-- A key of organization 1. -/
def key : AuthContext := { organizationId := some 1, scopes := ["responses:create"] }

/-- A completed response without output, as the cache stores it. -/
def responseText : String :=
  "\x7b\"id\":\"resp_b\",\"object\":\"response\",\"created_at\":0,\"model\":\"gpt-4o\","
    ++ "\"status\":\"completed\",\"output\":[]\x7d"

/-- The same response, parsed. -/
def parsedResponse : CachedResponse :=
  { metadata := none
    body := .object [("id", .string "resp_b"), ("object", .string "response"),
      ("created_at", .number "0"), ("model", .string "gpt-4o"),
      ("status", .string "completed"), ("output", .array [])] }

/-- The libraries, on the request `hi` below. -/
def codec : Codec :=
  { inputJson := fun _ =>
      "[\x7b\"type\":\"message\",\"role\":\"user\",\"content\":\"hi\"\x7d]"
    toolsJson := fun _ => "[]"
    toolChoiceJson := fun _ => "\"auto\""
    sha256Hex := fun _ => "99b5eebdaa96fa4fdbd0e670993b8b0c181ef52431f4d4b5aa952b2e839388fa"
    parseResponse := fun json => if json == responseText then some parsedResponse else none }

/-- A gateway without a router, with one provider and a cache. -/
def gateway : Gateway :=
  { state := { registry := Sample.registry, hasDatabase := true }
    codec
    preprocessor :=
      { compressionEnabled := fun _ => false
        compress := fun _ _ => none
        augment := fun _ _ instructions => instructions }
    readOverride := fun _ => {}
    hasCache := true }

def turn : Turn :=
  { now := 0, decision := Router.Sample.env, newId := 30, timestamp := 0 }

/-- A stored response with one tool call, in a conversation of its own. -/
def response (id : String) (conversationId : Uuid) : ResponseRecord :=
  { id
    conversationId
    modelId := "gpt-4o"
    status := "completed"
    previousResponseId := none
    inputItems := .array []
    outputItems := .array
      [.object [("type", .string "function_call"), ("call_id", .string "call_1"),
        ("name", .string "lookup"), ("arguments", .string "\x7b\x7d")]]
    usageInputTokens := none
    usageOutputTokens := none
    usageCachedTokens := none
    usageReasoningTokens := none
    usageCostUsd := none
    errorCode := none
    errorMessage := none
    incompleteReason := none
    metadata := none
    createdAt := 0
    updatedAt := 0 }

/-- The key under which `hi` is looked up. -/
def hiKey : String :=
  "aura:cache:99b5eebdaa96fa4fdbd0e670993b8b0c181ef52431f4d4b5aa952b2e839388fa"

/-- A plain message to `gpt-4o`. -/
def hi : CreateResponseRequest := .text "gpt-4o" "hi"

/-- The output of a tool call of `resp_b`, sent in the clear past the cache. -/
def toolOutput : CreateResponseRequest :=
  { model := "gpt-4o"
    input := [.functionCallOutput "call_1" "42"]
    stream := true
    previousResponseId := some "resp_b" }

/-- What organization 2 has stored: `resp_b`, and an answer to `hi`. -/
def others : Stored :=
  { db := { responses := [response "resp_b" 21] }
    cache := [{ key := hiKey, json := responseText, storedFor := some 2 }] }

/-- Organization 1 has stored `resp_a` and an answer to `hi`. -/
def mine : Stored :=
  { db := { responses := [response "resp_a" 11] }
    cache := [{ key := hiKey, json := responseText, storedFor := some 1 }] }

/-- The same beside rows of organization 2. -/
def shared : Stored :=
  { db := { responses := [response "resp_b" 21, response "resp_a" 11] }
    cache :=
      [{ key := "aura:cache:00", json := responseText, storedFor := some 2 },
        { key := hiKey, json := responseText, storedFor := some 1 }] }

/-- The turn after `resp_a`. -/
def followUp : CreateResponseRequest := { hi with previousResponseId := some "resp_a" }

/-- Whether a request was answered from the cache. -/
def hit (o : Observation) : Bool :=
  match o.ending with
  | .fromCache _ _ => true
  | _ => false

end TwoTenants

open TwoTenants in
theorem tenant_isolation_sample :
    AgreeStored own 1 mine shared ∧
    createResponse gateway (some key) turn mine followUp =
      createResponse gateway (some key) turn shared followUp := by
  have hagree : AgreeStored own 1 mine shared := by
    constructor
    · constructor <;> rfl
    · rfl
  have hprev : ∀ s ∈ [mine, shared], PreviousOwn own 1 s.db followUp := by
    intro s hs prev hprev
    injection hprev with hprev
    subst hprev
    rcases List.mem_pair.mp hs with rfl | rfl <;> decide
  have hcache : ∀ s ∈ [mine, shared], CachedOwn 1 gateway key turn s followUp := by
    intro s hs p _
    show Selects (ownsEntry 1) (fun e => e.key == hiKey) s.cache
    rcases List.mem_pair.mp hs with rfl | rfl <;> decide
  have hmine := List.mem_cons_self (a := mine) (l := [shared])
  have hshared : shared ∈ [mine, shared] := List.mem_cons_of_mem _ List.mem_cons_self
  exact ⟨hagree, tenant_isolation own 1 rfl gateway key rfl turn followUp mine shared hagree
    (hprev _ hmine) (hprev _ hshared) (hcache _ hmine) (hcache _ hshared)⟩

open TwoTenants in
/-- On an empty store and on one that organization 2 has written to, a request of
organization 1 that names `resp_b` sends different input, and its `hi` is answered by a
provider or with what organization 2 was told. -/
theorem tenant_isolation_broken :
    AgreeStored own 1 others {} ∧
    (createResponse gateway (some key) turn others toolOutput).map Observation.replayed =
      .ok [.functionCall "call_1" "lookup" "\x7b\x7d"] ∧
    (createResponse gateway (some key) turn {} toolOutput).map Observation.replayed = .ok [] ∧
    (createResponse gateway (some key) turn others hi).map hit = .ok true ∧
    (createResponse gateway (some key) turn {} hi).map hit = .ok false := by
  have hagree : AgreeStored own 1 others {} := by
    constructor
    · constructor <;> rfl
    · rfl
  refine ⟨hagree, ?_⟩
  decide +kernel

end AuraGateway.Proxy
