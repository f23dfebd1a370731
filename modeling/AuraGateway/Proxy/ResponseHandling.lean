import AuraGateway.Proxy.AutoRouting
import AuraGateway.Proxy.ResponseCache
import AuraGateway.Storage.Repo

/-!
# Handling a response request

`POST /v1/responses` from the scope check to the last provider call: the tool calls of
the previous response are replayed into the input, the input is preprocessed, the model
is resolved, and the request is streamed, answered from the cache or sent to a provider,
with retries.

Stored data enters in five places, each a lookup by one value: the output items, the
model and the conversation of `previous_response_id`, the settings of the organization,
and the cache entry under the key of the resolved request.
-/

set_option autoImplicit false

namespace AuraGateway.Proxy

open AuraGateway.RustStd AuraGateway.Types AuraGateway.Router AuraGateway.Storage

/-! ## What the handler works with -/

/-- Compression and consistency augmentation, as far as the request's settings decide. -/
structure Preprocessor where
  compressionEnabled : Json → Bool
  compress : Json → String → Option String
  augment : Json → String → Option String → Option String

/-- What the process holds for this handler. -/
structure Gateway where
  state : AppState
  codec : Codec
  preprocessor : Preprocessor
  readOverride : Json → OrgAutoRoutingOverride
  replayToolContext : Bool := true
  hasCache : Bool := false
  cacheEnabled : Bool := true

/-- The authenticated key: its organization and its scopes. -/
structure AuthContext where
  organizationId : Option Uuid
  scopes : List String

/-- Lookups and inserts that may fail. -/
inductive Lookup where
  | outputItems
  | settings
  | previousModel
  | conversation
  | newConversation
  | cache
  deriving DecidableEq, Repr

/-- A failure of a provider call, and the state it is handled in. -/
structure ProviderFailure where
  now : Instant
  env : DecisionEnv
  state : AppState
  error : ProviderError

/-- What a request meets outside the gateway: its headers, the clock, the draws, the
answers of the classifier and of the providers, and the lookups that fail. -/
structure Turn where
  bypassCache : Bool := false
  synthetic : Bool := false
  now : Instant
  decision : DecisionEnv
  classifierAnswer : Option ClassifierAnswer := none
  sampleDraw : Float := 0.0
  goldPermit : Bool := true
  cachedSettings : Option Json := none
  fails : Lookup → Bool := fun _ => false
  newId : Uuid
  timestamp : Timestamp
  failures : List ProviderFailure := []
  fanoutError : Option ProviderError := none

/-- What is stored: the database and the cache. -/
structure Stored where
  db : Database := {}
  cache : List CacheEntry := []

/-! ## Tool-context replay -/

/-- The input item for a stored `function_call` item. -/
def replayedCall (item : Json) : Option InputItem :=
  if (item.get "type").bind Json.asStr = some "function_call" then do
    let callId ← (item.get "call_id").bind Json.asStr
    let name ← (item.get "name").bind Json.asStr
    some (.functionCall callId name (((item.get "arguments").bind Json.asStr).getD "\x7b\x7d"))
  else none

/-- Whether the input carries the output of a function call. -/
def hasToolOutput (request : CreateResponseRequest) : Bool :=
  request.input.any fun
    | .functionCallOutput _ _ => true
    | _ => false

/-- Reconstruct the tool calls of the previous response. -/
def replayPriorToolCalls (turn : Turn) (db : Database) (request : CreateResponseRequest) :
    List InputItem :=
  match request.previousResponseId with
  | none => []
  | some prevId =>
      if !hasToolOutput request || turn.fails .outputItems then []
      else
        (((ResponseRepo.findOutputItemsById prevId db).bind Json.asArray).getD []).filterMap
          replayedCall

/-- The tool calls the handler prepends, when it has a database and replay is on. -/
def replayed (gw : Gateway) (turn : Turn) (db : Database) (request : CreateResponseRequest) :
    List InputItem :=
  if gw.state.hasDatabase && gw.replayToolContext then replayPriorToolCalls turn db request
  else []

/-! ## Preprocessing -/

/-- The text of a message that is compressed; text parts are joined by line breaks. -/
def compressedText : InputContent → String
  | .text t => t
  | .parts parts => "\n".intercalate (contentTexts (.parts parts))

/-- Compress the text of a message; one that fails to compress stays. -/
def compressItem (p : Preprocessor) (config : Json) : InputItem → InputItem
  | .message role content =>
      match p.compress config (compressedText content) with
      | some output => .message role (.text output)
      | none => .message role content
  | other => other

/-- Preprocess request with compression and consistency augmentation. -/
def preprocessRequest (p : Preprocessor) (request : CreateResponseRequest) :
    CreateResponseRequest :=
  { request with
    input :=
      match request.compression with
      | some config =>
          if p.compressionEnabled config then request.input.map (compressItem p config)
          else request.input
      | none => request.input
    instructions :=
      match request.consistency with
      | some config => p.augment config request.model request.instructions
      | none => request.instructions }

/-! ## The organization's settings -/

/-- Settings of an organization: the fresh cached copy, or the stored column. -/
def orgSettings (gw : Gateway) (turn : Turn) (db : Database) (orgId : Uuid) : Option Json :=
  if !gw.state.hasDatabase then none
  else
    match turn.cachedSettings with
    | some value => some value
    | none =>
        if turn.fails .settings then none
        else
          match OrganizationRepo.getSettings orgId db with
          | some .null => none
          | settings => settings

/-- Auto-routing override for an organization, if it has one. -/
def orgAutoRoutingOverride (gw : Gateway) (turn : Turn) (db : Database)
    (orgId : Option Uuid) : OrgAutoRoutingOverride :=
  match orgId.bind (orgSettings gw turn db) with
  | some settings => gw.readOverride settings
  | none => {}

/-- The values a resolution reads, with this database. -/
def resolveEnv (gw : Gateway) (auth : Option AuthContext) (turn : Turn) (db : Database) :
    ResolveEnv :=
  let organizationId := auth.bind (·.organizationId)
  { now := turn.now
    decision := turn.decision
    modelOfResponse := fun prev =>
      if turn.fails .previousModel then none else ResponseRepo.findModelById prev db
    hasOrganization := organizationId.isSome
    org := orgAutoRoutingOverride gw turn db organizationId
    synthetic := turn.synthetic
    classifierAnswer := turn.classifierAnswer
    sampleDraw := turn.sampleDraw
    goldPermit := turn.goldPermit }

/-! ## The conversation -/

/-- The first characters that take exactly `n` bytes, if some do. -/
def takeBytes : Nat → List Char → Option (List Char)
  | 0, _ => some []
  | _ + 1, [] => none
  | n + 1, c :: cs =>
      if c.utf8Size ≤ n + 1 then (takeBytes (n + 1 - c.utf8Size) cs).map (c :: ·) else none

/-- Title of a conversation: the first message, cut after 97 bytes when it has more than
100. -/
def autoTitle (firstMessage : String) : Checked String :=
  if 100 < firstMessage.utf8ByteSize then
    match takeBytes 97 firstMessage.toList with
    | some cs => .ok (String.ofList cs ++ "...")
    | none => .error (.slice 0 97)
  else .ok firstMessage

/-- The first user message; its text parts are joined with blanks. -/
def extractFirstUserMessage (request : CreateResponseRequest) : Option String :=
  request.input.findSome? fun
    | .message .user (.text t) => some t
    | .message .user (.parts parts) => some (" ".intercalate (contentTexts (.parts parts)))
    | _ => none

/-- The conversation of a turn; `created` is the row of a new one. -/
structure Thread where
  id : Uuid
  created : Option Conversation

/-- A new conversation for a request. -/
def newConversation (turn : Turn) (request : CreateResponseRequest) : Checked Conversation := do
  let title ←
    match extractFirstUserMessage request with
    | some msg => autoTitle msg
    | none => .ok ("Conversation with " ++ request.model)
  .ok
    { id := turn.newId
      userId := request.user
      title := some title
      modelId := request.model
      metadata := none
      createdAt := turn.timestamp
      updatedAt := turn.timestamp }

/-- Create a conversation; a failed insert leaves the request without one. -/
def createConversation (turn : Turn) (request : CreateResponseRequest) :
    Checked (Option Thread) := do
  let row ← newConversation turn request
  .ok (if turn.fails .newConversation then none else some { id := row.id, created := some row })

/-- Get or create conversation for a request. A failed lookup leaves the request without
one. -/
def getOrCreateConversation (gw : Gateway) (turn : Turn) (db : Database)
    (request : CreateResponseRequest) : Checked (Option Thread) :=
  if !gw.state.hasDatabase then .ok none
  else
    match request.previousResponseId with
    | none => createConversation turn request
    | some prev =>
        if turn.fails .conversation then .ok none
        else
          match ResponseRepo.findConversationByResponseId prev db with
          | some convId => .ok (some { id := convId, created := none })
          | none => createConversation turn request

/-! ## Provider calls -/

/-- What was sent, the decision at the end, and the error the request ended with. -/
structure Sent where
  calls : List ProviderCall
  decision : Option AutoDecision
  error : Option ProviderError

/-- Send a request; a failure on an auto-routed request moves it to the next candidate
before giving up. `failures` are those the calls meet, in order. -/
def sendRetrying (request : CreateResponseRequest) (decision : Option AutoDecision)
    (provider : Provider) (attempt : Nat) : List ProviderFailure → Checked Sent
  | [] => .ok { calls := [forward provider request], decision, error := none }
  | f :: failures => do
      let res ← escalateAfterFailure f.now f.env f.state request decision f.error attempt
      match res.provider with
      | none =>
          .ok { calls := [forward provider request], decision := res.decision,
                error := some f.error }
      | some next => do
          let sent ← sendRetrying res.request res.decision next (attempt + 1) failures
          .ok { sent with calls := forward provider request :: sent.calls }

/-- Send a request: a fan-out is not retried. -/
def send (turn : Turn) (request : CreateResponseRequest) (decision : Option AutoDecision)
    (provider : Provider) : Checked Sent :=
  if needsFanout request then
    .ok { calls := dispatchCalls provider request, decision, error := turn.fanoutError }
  else sendRetrying request decision provider 0 turn.failures

/-! ## The handler -/

/-- How a request ends. -/
inductive Ending where
  | refused (error : ApiError)
  | fromCache (response : CachedResponse) (decision : Option AutoDecision)
  | fromProvider (thread : Option Thread) (streamed : Bool) (sent : Sent)

/-- What a request observes, and what is sent to providers for it. -/
structure Observation where
  replayed : List InputItem
  previousModel : Option String
  resolutionCalls : List ProviderCall
  gold : Option GoldTask
  ending : Ending

/-- Scope check of the handler; without authentication there is none. -/
def scopeMissing (auth : Option AuthContext) : Bool :=
  match auth with
  | some ctx => !(ctx.scopes.any fun s => s == "responses:create" || s == "*")
  | none => false

def insufficientScope : ApiError :=
  { status := 403
    code := "insufficient_scope"
    message := "API key does not have required scope: responses:create" }

/-- `ProviderError::model_not_found` as a reply. -/
def modelNotFound (model : String) : ApiError :=
  { status := 404, code := "model_not_found", message := "Model not found: " ++ model }

/-- A request on its way to the model: replayed, preprocessed and resolved. -/
structure Prepared where
  replayed : List InputItem
  previousModel : Option String
  resolution : Resolution

/-- Replay, preprocess, resolve. -/
def prepare (gw : Gateway) (auth : Option AuthContext) (turn : Turn) (db : Database)
    (request : CreateResponseRequest) : Checked Prepared := do
  let calls := replayed gw turn db request
  let request := preprocessRequest gw.preprocessor { request with input := calls ++ request.input }
  let env := resolveEnv gw auth turn db
  let resolution ← resolveAutoModel gw.state env request
  .ok
    { replayed := calls
      previousModel := previousTurnModel gw.state env request
      resolution }

/-- A prepared request differs from the client's in model, input, instructions and routing
options. -/
theorem prepare_rewrites {gw : Gateway} {auth : Option AuthContext} {turn : Turn} {db : Database}
    {request : CreateResponseRequest} {p : Prepared}
    (h : prepare gw auth turn db request = .ok p) :
    ∃ model input instructions routing,
      p.resolution.request = { request with model, input, instructions, routing } := by
  simp only [prepare] at h
  rw [checked_bind_eq_ok] at h
  obtain ⟨resolution, hresolve, h⟩ := h
  injection h with h
  obtain ⟨model, routing, hres⟩ := resolveAutoModel_rewrites hresolve
  rw [← h]
  exact ⟨model, _, _, routing, hres⟩

/-- The cached response for a request, when the cache is consulted at all. -/
def consultCache (gw : Gateway) (turn : Turn) (cache : List CacheEntry)
    (request : CreateResponseRequest) : Option CachedResponse :=
  if gw.hasCache && gw.cacheEnabled && !turn.bypassCache && !shouldSkipCache request
      && !turn.fails .cache then
    cacheGet gw.codec cache request
  else none

/-- A fan-out runs without streaming, whatever the client asked for. -/
def degradeStream (request : CreateResponseRequest) : CreateResponseRequest :=
  if needsFanout request then { request with stream := false } else request

/-- Answer a resolved request. -/
def answer (gw : Gateway) (turn : Turn) (stored : Stored) (request : CreateResponseRequest)
    (decision : Option AutoDecision) (provider : Provider) : Checked Ending :=
  let request := degradeStream request
  -- A request that still streams skips the cache.
  match consultCache gw turn stored.cache request with
  | some hit =>
      .ok (.fromCache (enrichCachedResponse hit (generateCacheKey gw.codec request)) decision)
  | none => do
      let thread ← getOrCreateConversation gw turn stored.db request
      let sent ← send turn request decision provider
      .ok (.fromProvider thread request.stream sent)

/-- How a prepared request ends. -/
def conclude (gw : Gateway) (turn : Turn) (stored : Stored) (resolution : Resolution) :
    Checked Ending :=
  match resolution.result with
  | .error e => .ok (.refused e)
  | .ok decision =>
      match gw.state.getProvider resolution.request.model with
      | none => .ok (.refused (modelNotFound resolution.request.model))
      | some provider => answer gw turn stored resolution.request decision provider

/-- Create a response. -/
def createResponse (gw : Gateway) (auth : Option AuthContext) (turn : Turn) (stored : Stored)
    (request : CreateResponseRequest) : Checked Observation :=
  if scopeMissing auth then
    .ok
      { replayed := []
        previousModel := none
        resolutionCalls := []
        gold := none
        ending := .refused insufficientScope }
  else do
    let p ← prepare gw auth turn stored.db request
    let ending ← conclude gw turn stored p.resolution
    .ok
      { replayed := p.replayed
        previousModel := p.previousModel
        resolutionCalls := p.resolution.calls
        gold := p.resolution.gold
        ending }

end AuraGateway.Proxy
