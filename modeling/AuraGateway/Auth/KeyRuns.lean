import AuraGateway.Auth.ApiKeys
import AuraGateway.Foundations.LabelledRuns

/-!
# Keys that create keys

A client starts with one tenant key. Every request it makes carries the token of that key
or of a key that an earlier request created; requests are authenticated and handled one
after the other.

`keys_as_requested` is what holds of every key the client can reach: it belongs to the
user of the first key, and its scopes, organization and limits are what the request that
created it asked for, whatever its creator has. So a key may have rights its creator lacks
(`keys_escalate`). Keys in force alone are served, and responses are created only under a
scope for it.
-/

set_option autoImplicit false

namespace AuraGateway.Auth

open AuraGateway.RustStd AuraGateway.Types AuraGateway.Storage
  AuraGateway.Foundations.LabelledRuns

/-! ## Requests of one client -/

/-- What a request asks for. -/
inductive KeyAction where
  | createKey (req : CreateApiKeyRequest) (draw : KeyDraw)
  | revokeKey (keyId : String) (lookupFailure revokeFailure : Option String)
  | createResponse
  | other (path : String)

def KeyAction.path : KeyAction → String
  | .createKey _ _ => "/v1/api-keys"
  | .revokeKey keyId _ _ => "/v1/api-keys/" ++ keyId
  | .createResponse => "/v1/responses"
  | .other path => path

/-- A request with a bearer token. -/
structure KeyCall where
  token : String
  now : Int
  action : KeyAction
  keyLookupFails : Bool := false
  tenantReadFails : TenantRead → Bool := fun _ => false

def KeyCall.arrival (call : KeyCall) : Arrival :=
  { path := call.action.path
    authorization := some ("Bearer " ++ call.token)
    now := call.now
    keyLookupFails := call.keyLookupFails
    tenantReadFails := call.tenantReadFails }

/-- A key whose token the client holds. `origin` is the key and the request that created
it, or nothing for the first key. -/
structure HeldKey where
  token : String
  key : ApiKey
  origin : Option (ApiKey × CreateApiKeyRequest) := none

/-- A request that was served, with the context it was authenticated with. -/
structure ServedCall where
  ctx : AuthContext
  now : Int
  action : KeyAction

/-- What is stored, what the client holds, and what was served to it. -/
structure KeyRun where
  store : KeyStore
  held : List HeldKey
  served : List ServedCall := []

/-- The scope check of `POST /v1/responses`. -/
def mayCreateResponses (ctx : AuthContext) : Bool :=
  ctx.hasScope "responses:create" || ctx.hasScope "*"

section Handling

variable (svc : KeyService) (errorText : DbError → String)

/-- Handle an authenticated request. The other handlers do not look at scopes and do not
touch the keys. -/
def act (σ : KeyRun) (ctx : AuthContext) (call : KeyCall) : KeyRun :=
  let served := σ.served ++ [{ ctx, now := call.now, action := call.action }]
  match call.action with
  | .createKey req draw =>
      match createApiKey svc errorText σ.store (some ctx) req draw with
      -- the client reads the new token from the response
      | .created c =>
          { store := { σ.store with keys := c.keys }
            held := σ.held ++
              [{ token := c.response.key, key := c.row, origin := some (ctx.apiKey, req) }]
            served }
      | _ => σ
  | .revokeKey keyId lookupFailure revokeFailure =>
      match revokeApiKey svc σ.store (some ctx) keyId lookupFailure revokeFailure with
      | .ok keys => { σ with store := { σ.store with keys }, served }
      | .error _ => σ
  | .createResponse => if mayCreateResponses ctx then { σ with served } else σ
  | .other _ => { σ with served }

/-- Authenticate a request and handle it. -/
def serveCall (σ : KeyRun) (call : KeyCall) : KeyRun :=
  match authenticate svc σ.store call.arrival with
  | .ok (some ctx) => act svc errorText σ ctx call
  | _ => σ

/-- The client uses a token it holds; the rest of the database may change. -/
structure Calls (σ : KeyRun) (call : KeyCall) (σ' : KeyRun) : Prop where
  holds : ∃ h ∈ σ.held, h.token = call.token
  handled : ∃ db, σ' = { serveCall svc errorText σ call with
    store := { (serveCall svc errorText σ call).store with db } }

end Handling

/-- The client at the start. -/
def KeyRun.start (store : KeyStore) (root : ApiKey) (token : String) : KeyRun :=
  { store, held := [{ token, key := root }] }

/-! ## What a created key is -/

/-- A key has the user of its creator, and the scopes, organization and limits of the
request that created it. -/
structure AsRequested (creator : ApiKey) (req : CreateApiKeyRequest) (k : ApiKey) : Prop where
  user : k.userId = creator.userId
  hasUser : k.userId.isSome = true
  scopes : k.getScopes = req.scopes
  organizationId : k.organizationId = req.organizationId
  rateLimitRpm : k.rateLimitRpm = req.rateLimitRpm
  monthlyTokenLimit : k.monthlyTokenLimit = req.monthlyTokenLimit
  dailyMessageLimit : k.dailyMessageLimit = none

section Create

variable {svc : KeyService} {errorText : DbError → String} {store : KeyStore}

theorem create_ok {id : Uuid} {now : Int} {new : NewApiKey} {keys keys' : ApiKeys} {row : ApiKey}
    (h : ApiKeyRepo.create id now new keys = .ok (row, keys')) :
    row = ApiKeyRepo.inserted id now new ∧ keys'.rows = keys.rows ++ [row] := by
  simp only [ApiKeyRepo.create] at h
  split at h
  · cases h
  · obtain ⟨rfl, rfl⟩ := Prod.mk.inj (Except.ok.inj h)
    exact ⟨rfl, rfl⟩

theorem authenticatedUserId_ok {ctx : AuthContext} {userId : String}
    (h : authenticatedUserId (some ctx) = .ok userId) : ctx.apiKey.userId = some userId := by
  simp only [authenticatedUserId, Option.bind_some] at h
  split at h
  · rename_i hu
    rw [hu, Except.ok.inj h]
  · cases h

theorem environmentPrefix_cases (environment : String) :
    environmentPrefix environment = apiKeyPrefixLive ∨
      environmentPrefix environment = apiKeyPrefixTest := by
  simp only [environmentPrefix]
  split
  · exact Or.inr rfl
  · exact Or.inl rfl

/-- The scopes of a key are read as they were requested. -/
theorem filterMap_asStr_map (scopes : List String) :
    (scopes.map Json.string).filterMap Json.asStr = scopes := by
  induction scopes with
  | nil => rfl
  | cons s scopes ih => simpa [Json.asStr] using ih

/-- The row of a created key is the record built from the request, is found by the key's
token, and is the only change to the table. -/
theorem createApiKey_row {auth : Option AuthContext} {req : CreateApiKeyRequest} {draw : KeyDraw}
    {c : Created} (h : createApiKey svc errorText store auth req draw = .created c) :
    (∃ userId expiresAt, authenticatedUserId auth = .ok userId ∧
      c.row = ApiKeyRepo.inserted draw.id draw.now
        (buildNewApiKey req c.generated userId expiresAt)) ∧
      extractKeyId c.response.key = some c.row.keyId ∧
      c.keys.rows = store.keys.rows ++ [c.row] := by
  simp only [createApiKey] at h
  split at h
  · split at h
    · cases h
    · rename_i userId huser
      split at h
      · cases h
      · rename_i expiresAt _
        split at h
        · cases h
        · split at h
          · cases h
          · rename_i row keys hcreate
            obtain rfl := CreateOutcome.created.inj h
            obtain ⟨rfl, hrows⟩ := create_ok hcreate
            refine ⟨⟨userId, expiresAt, huser, rfl⟩, ?_, hrows⟩
            exact extractKeyId_generateApiKey svc.sha256Hex draw.random (environmentPrefix_cases _)
  · cases h

/-- A created key is as requested, is found by its token, and is the only change to the
table. -/
theorem createApiKey_created {ctx : AuthContext} {req : CreateApiKeyRequest} {draw : KeyDraw}
    {c : Created}
    (h : createApiKey svc errorText store (some ctx) req draw = .created c) :
    AsRequested ctx.apiKey req c.row ∧ extractKeyId c.response.key = some c.row.keyId ∧
      c.keys.rows = store.keys.rows ++ [c.row] := by
  obtain ⟨⟨userId, expiresAt, huser, hrow⟩, hid, hrows⟩ := createApiKey_row h
  have hown := authenticatedUserId_ok huser
  refine ⟨?_, hid, hrows⟩
  rw [hrow]
  exact
    { user := hown.symm
      hasUser := rfl
      scopes := filterMap_asStr_map req.scopes
      organizationId := rfl
      rateLimitRpm := rfl
      monthlyTokenLimit := rfl
      dailyMessageLimit := rfl }

/-- A revocation changes the status of rows at most. -/
theorem revokeApiKey_rows {auth : Option AuthContext} {keyId : String}
    {lookupFailure revokeFailure : Option String} {keys : ApiKeys}
    (h : revokeApiKey svc store auth keyId lookupFailure revokeFailure = .ok keys) :
    ∃ id, keys.rows = store.keys.rows.map (ApiKeyRepo.revokedRow id) := by
  simp only [revokeApiKey] at h
  split at h
  · rw [except_bind_eq_ok] at h
    obtain ⟨userId, -, h⟩ := h
    rw [except_bind_eq_ok] at h
    obtain ⟨k, -, h⟩ := h
    rw [except_bind_eq_ok] at h
    obtain ⟨-, -, h⟩ := h
    split at h
    · cases h
    · obtain rfl := Except.ok.inj h
      exact ⟨k.id, rfl⟩
  · cases h

end Create

/-! ## What a run keeps -/

/-- The key that served a request: a held one, whose status may have changed since. -/
def IsHeld (held : List HeldKey) (k : ApiKey) : Prop :=
  ∃ h ∈ held, ∃ status, k = h.key.withStatus status

/-- A held key is the first one, or was created on request by a key that was served. -/
def Grounded (root : ApiKey) (served : List ServedCall) (h : HeldKey) : Prop :=
  match h.origin with
  | none => h.key = root
  | some (creator, req) => AsRequested creator req h.key ∧
      ∃ s ∈ served, ∃ draw, s.ctx.apiKey = creator ∧ s.action = .createKey req draw

/-- A served request was authenticated with a held key in force, and a response was created
under a scope for it. -/
structure ServedInForce (held : List HeldKey) (s : ServedCall) : Prop where
  isHeld : IsHeld held s.ctx.apiKey
  inForce : s.ctx.apiKey.isValid s.now = true
  scope : s.action = .createResponse → mayCreateResponses s.ctx = true

/-- What a run keeps: the table has the row of every held key, under the id in its token;
all belong to the user of the first key; each is grounded; and what was served was served
in force. -/
structure KeysKept (root : ApiKey) (σ : KeyRun) : Prop where
  stored : ∀ h ∈ σ.held, extractKeyId h.token = some h.key.keyId ∧
    ∃ status, h.key.withStatus status ∈ σ.store.keys.rows
  user : ∀ h ∈ σ.held, h.key.userId = root.userId
  grounded : ∀ h ∈ σ.held, Grounded root σ.served h
  served : ∀ s ∈ σ.served, ServedInForce σ.held s

section Kept

variable {svc : KeyService} {errorText : DbError → String} {root : ApiKey} {σ σ' : KeyRun}
  {call : KeyCall} {ctx : AuthContext}

theorem KeysKept.start {store : KeyStore} {token : String} (hroot : root ∈ store.keys.rows)
    (htoken : extractKeyId token = some root.keyId) :
    KeysKept root (KeyRun.start store root token) where
  stored := by
    intro h hh
    obtain rfl := List.mem_singleton.mp hh
    exact ⟨htoken, root.status, hroot⟩
  user := by
    intro h hh
    obtain rfl := List.mem_singleton.mp hh
    rfl
  grounded := by
    intro h hh
    obtain rfl := List.mem_singleton.mp hh
    exact rfl
  served := fun s hs => absurd hs List.not_mem_nil

/-- A token of the client is authenticated with the key that it is held for. -/
theorem KeysKept.isHeld (h : KeysKept root σ) (hholds : ∃ h ∈ σ.held, h.token = call.token)
    (hauth : authenticate svc σ.store call.arrival = .ok (some ctx)) :
    IsHeld σ.held ctx.apiKey ∧ ctx.apiKey.isValid call.now = true := by
  obtain ⟨held, hmem, htoken⟩ := hholds
  obtain ⟨token, keyId, hbearer, hid, hfind, hvalid, -⟩ := authenticate_ok hauth
  obtain ⟨hheld, status, hrow⟩ := h.stored held hmem
  have hsame : token = call.token := by
    rw [KeyCall.arrival, Option.bind_some, bearerToken_bearer] at hbearer
    exact (Option.some.inj hbearer).symm
  -- the token's public id is the one the held key is stored under
  rw [hsame, ← htoken, hheld] at hid
  obtain rfl := Option.some.inj hid
  have hfound : ApiKeyRepo.findByKeyId held.key.keyId σ.store.keys
      = some (held.key.withStatus status) := ApiKeyRepo.findByKeyId_of_mem hrow
  rw [hfound] at hfind
  exact ⟨⟨held, hmem, status, (Option.some.inj hfind).symm⟩, hvalid⟩

theorem Grounded.mono {served served' : List ServedCall} (hsub : ∀ s ∈ served, s ∈ served')
    {h : HeldKey} (hg : Grounded root served h) : Grounded root served' h := by
  simp only [Grounded] at hg ⊢
  split
  · rename_i hnone
    simpa [hnone] using hg
  · rename_i creator req hsome
    simp only [hsome] at hg
    obtain ⟨hreq, s, hs, hcreate⟩ := hg
    exact ⟨hreq, s, hsub s hs, hcreate⟩

/-- One more request is served, and the table still has every row up to its status. -/
theorem KeysKept.serve (h : KeysKept root σ) (keys : ApiKeys) (s : ServedCall)
    (hs : ServedInForce σ.held s)
    (hrows : ∀ k ∈ σ.store.keys.rows, ∃ status, k.withStatus status ∈ keys.rows) :
    KeysKept root
      { σ with store := { σ.store with keys }, served := σ.served ++ [s] } where
  stored := by
    intro held hmem
    obtain ⟨hid, status, hrow⟩ := h.stored held hmem
    obtain ⟨status', hrow'⟩ := hrows _ hrow
    exact ⟨hid, status', hrow'⟩
  user := h.user
  grounded := fun held hmem =>
    (h.grounded held hmem).mono fun _ hs' => List.mem_append_left _ hs'
  served := by
    intro s' hs'
    rcases List.mem_append.mp hs' with hs' | hs'
    · exact h.served s' hs'
    · obtain rfl := List.mem_singleton.mp hs'
      exact hs

/-- One more key is held. -/
theorem KeysKept.hold {new : HeldKey} (h : KeysKept root σ)
    (hid : extractKeyId new.token = some new.key.keyId) (hrow : new.key ∈ σ.store.keys.rows)
    (huser : new.key.userId = root.userId) (hg : Grounded root σ.served new) :
    KeysKept root { σ with held := σ.held ++ [new] } where
  stored := by
    intro held hmem
    rcases List.mem_append.mp hmem with hmem | hmem
    · exact h.stored held hmem
    · obtain rfl := List.mem_singleton.mp hmem
      exact ⟨hid, held.key.status, hrow⟩
  user := by
    intro held hmem
    rcases List.mem_append.mp hmem with hmem | hmem
    · exact h.user held hmem
    · obtain rfl := List.mem_singleton.mp hmem
      exact huser
  grounded := by
    intro held hmem
    rcases List.mem_append.mp hmem with hmem | hmem
    · exact h.grounded held hmem
    · obtain rfl := List.mem_singleton.mp hmem
      exact hg
  served := by
    intro s hs
    obtain ⟨⟨held, hmem, hk⟩, hvalid, hscope⟩ := h.served s hs
    exact ⟨⟨held, List.mem_append_left _ hmem, hk⟩, hvalid, hscope⟩

/-- The user of a held key is the user of the first key, whatever its status. -/
theorem KeysKept.user_of_isHeld (h : KeysKept root σ) {k : ApiKey} (hk : IsHeld σ.held k) :
    k.userId = root.userId := by
  obtain ⟨held, hmem, status, rfl⟩ := hk
  exact h.user held hmem

/-- Handling an authenticated request keeps the run. -/
theorem KeysKept.act (h : KeysKept root σ) (hheld : IsHeld σ.held ctx.apiKey)
    (hvalid : ctx.apiKey.isValid call.now = true) :
    KeysKept root (act svc errorText σ ctx call) := by
  have hsame : ∀ k ∈ σ.store.keys.rows, ∃ status, k.withStatus status ∈ σ.store.keys.rows :=
    fun k hk => ⟨k.status, hk⟩
  cases haction : call.action with
  | createKey req draw =>
      simp only [Auth.act, haction]
      split
      · rename_i c hcreate
        obtain ⟨hreq, hid, hrows⟩ := createApiKey_created hcreate
        have hkept : ∀ k ∈ σ.store.keys.rows, ∃ status, k.withStatus status ∈ c.keys.rows := by
          intro k hk
          refine ⟨k.status, ?_⟩
          rw [hrows]
          exact List.mem_append_left _ hk
        -- first the request is served, then its key is held
        have hserved := h.serve c.keys { ctx, now := call.now, action := .createKey req draw }
          ⟨hheld, hvalid, fun he => by cases he⟩ hkept
        refine hserved.hold hid ?_ ?_ ?_
        · rw [hrows]
          exact List.mem_append_right _ (List.mem_singleton_self _)
        · exact hreq.user.trans (h.user_of_isHeld hheld)
        · exact ⟨hreq, _, List.mem_append_right _ (List.mem_singleton_self _), draw, rfl, rfl⟩
      · exact h
  | revokeKey keyId lookupFailure revokeFailure =>
      simp only [Auth.act, haction]
      split
      · rename_i keys hrevoke
        obtain ⟨id, hrows⟩ := revokeApiKey_rows hrevoke
        refine h.serve keys _ ⟨hheld, hvalid, fun he => by cases he⟩ ?_
        intro k hk
        refine ⟨(ApiKeyRepo.revokedRow id k).status, ?_⟩
        rw [hrows, ← ApiKeyRepo.revokedRow_eq]
        exact List.mem_map_of_mem hk
      · exact h
  | createResponse =>
      simp only [Auth.act, haction]
      split
      · rename_i hscope
        exact h.serve σ.store.keys _ ⟨hheld, hvalid, fun _ => hscope⟩ hsame
      · exact h
  | other path =>
      simp only [Auth.act, haction]
      exact h.serve σ.store.keys _ ⟨hheld, hvalid, fun he => by cases he⟩ hsame

theorem calls_serveCall (hholds : ∃ h ∈ σ.held, h.token = call.token) :
    Calls svc errorText σ call (serveCall svc errorText σ call) :=
  ⟨hholds, (serveCall svc errorText σ call).store.db, rfl⟩

theorem KeysKept.step (h : KeysKept root σ) (hcall : Calls svc errorText σ call σ') :
    KeysKept root σ' := by
  obtain ⟨hholds, db, rfl⟩ := hcall
  have hserve : KeysKept root (serveCall svc errorText σ call) := by
    simp only [serveCall]
    split
    · rename_i ctx hauth
      obtain ⟨hheld, hvalid⟩ := h.isHeld hholds hauth
      exact h.act hheld hvalid
    · exact h
  exact { hserve with }

end Kept

/-- A client starts with the token of one key and makes any requests with the tokens it
holds. Every key it comes to hold belongs to the user of the first one; it is the first
one, or it was created by a request that was served to some key, and then its scopes,
organization and limits are what that request asked for, without a daily limit. Every
request that is served is served to one of these keys, and while it is in force; a response
is created only under `responses:create` or `*`. -/
theorem keys_as_requested (svc : KeyService) (errorText : DbError → String) (store : KeyStore)
    (root : ApiKey) (token : String) (hroot : root ∈ store.keys.rows)
    (htoken : extractKeyId token = some root.keyId) (calls : List KeyCall) (σ : KeyRun)
    (hrun : Run (Calls svc errorText) (KeyRun.start store root token) calls σ) :
    (∀ h ∈ σ.held, h.key.userId = root.userId ∧ (h.origin = none → h.key = root) ∧
      ∀ creator req, h.origin = some (creator, req) → AsRequested creator req h.key ∧
        ∃ s ∈ σ.served, ∃ draw, s.ctx.apiKey = creator ∧ s.action = .createKey req draw) ∧
    ∀ s ∈ σ.served, IsHeld σ.held s.ctx.apiKey ∧ s.ctx.apiKey.isValid s.now = true ∧
      (s.action = .createResponse → mayCreateResponses s.ctx = true) := by
  have hkept : KeysKept root σ :=
    hrun.stateInvariant _ (KeysKept.start hroot htoken) fun _ _ _ hk hc => hk.step hc
  constructor
  · intro h hh
    have hg := hkept.grounded h hh
    refine ⟨hkept.user h hh, ?_, ?_⟩
    · intro hnone
      simpa [Grounded, hnone] using hg
    · intro creator req hsome
      simpa only [Grounded, hsome] using hg
  · intro s hs
    obtain ⟨hheld, hvalid, hscope⟩ := hkept.served s hs
    exact ⟨hheld, hvalid, hscope⟩

namespace Sample

/-- The token of the first key. -/
def token : String := "aura_live_111111111111111111111111222222222222222222222222"

/-- The token of the key that the sample draw creates. -/
def createdToken : String := "aura_live_000000000000000000000000ffffffffffffffffffffffff"

/-- A service that knows the hashes of the two tokens. -/
def service : KeyService where
  sha256Hex s :=
    if s = token then "70acc7ae3ee21ba9021a52b2b57f29dcb93a69b0eb29d9c09df794d48c65c912"
    else if s = createdToken then "3994bc78cd1a2da46bb66ed9fb1f72b8993fc4239eeefe87a3cc07f978712ad5"
    else ""
  addDays now days := some (now + days * 86400000000)
  admin := { key := "", noAuth := false }

/-- The first key: it may read usage, for organization 1 and within limits. -/
def root (scopes : List String) : ApiKey where
  id := 7
  keyId := "aura_live_111111111111111111111111"
  keyHash := "70acc7ae3ee21ba9021a52b2b57f29dcb93a69b0eb29d9c09df794d48c65c912"
  name := "first"
  description := none
  userId := some "u"
  organizationId := some 1
  scopes := .array (scopes.map .string)
  rateLimitRpm := some 10
  monthlyTokenLimit := some 100
  dailyMessageLimit := some 5
  status := "active"
  expiresAt := none
  scopeType := none
  scopeId := none
  createdAt := 0

def store (scopes : List String) : KeyStore := { keys := ⟨[root scopes], by simp⟩ }

def draw : KeyDraw where
  now := 1
  random := ⟨List.replicate 12 0, List.replicate 12 255, by simp, by simp⟩
  id := 8

/-- A key with every scope, for another organization and without limits. -/
def wide : CreateApiKeyRequest :=
  { name := "wide", scopes := ["*"], organizationId := some 2, rateLimitRpm := some 1000 }

/-- Create a key with the first one, and a response with the created one. -/
def calls (req : CreateApiKeyRequest) : List KeyCall :=
  [{ token, now := 1, action := .createKey req draw },
    { token := createdToken, now := 2, action := .createResponse }]

/-- Where the calls lead. -/
def reached (scopes : List String) (req : CreateApiKeyRequest) : KeyRun :=
  (calls req).foldl (serveCall service fun _ => "") (KeyRun.start (store scopes) (root scopes) token)

/-- A key created by the first one, with every scope, for organization 2 and without its
limits. -/
def Widened (h : HeldKey) : Prop :=
  (h.origin.map fun o => o.1.keyId) = some "aura_live_111111111111111111111111" ∧
    h.key.getScopes = ["*"] ∧ h.key.organizationId = some 2 ∧ h.key.rateLimitRpm = some 1000 ∧
    h.key.monthlyTokenLimit = none ∧ h.key.dailyMessageLimit = none

instance (h : HeldKey) : Decidable (Widened h) := inferInstanceAs (Decidable (_ ∧ _))

/-- The sample calls are a run when the first one hands out the token of the second. -/
theorem run (scopes : List String) (req : CreateApiKeyRequest)
    (h : (serveCall service (fun _ => "") (KeyRun.start (store scopes) (root scopes) token)
      { token, now := 1, action := .createKey req draw }).held.any
        (fun h => h.token == createdToken) = true) :
    Run (Calls service fun _ => "") (KeyRun.start (store scopes) (root scopes) token) (calls req)
      (reached scopes req) := by
  obtain ⟨held, hmem, htoken⟩ := List.any_eq_true.mp h
  exact (Run.nil.snoc (calls_serveCall ⟨_, List.mem_singleton_self _, rfl⟩)).snoc
    (calls_serveCall ⟨held, hmem, eq_of_beq htoken⟩)

end Sample

/-- A key that may create responses creates a key for the same, and both belong to its
user. -/
theorem keys_as_requested_sample :
    (Sample.reached ["responses:create"] { name := "second" }).held.length = 2 ∧
      (Sample.reached ["responses:create"] { name := "second" }).served.length = 2 ∧
      (∀ h ∈ (Sample.reached ["responses:create"] { name := "second" }).held,
        h.key.userId = some "u") ∧
      ∀ s ∈ (Sample.reached ["responses:create"] { name := "second" }).served,
        s.ctx.apiKey.isValid s.now = true := by
  obtain ⟨hheld, hserved⟩ := keys_as_requested Sample.service (fun _ => "")
    (Sample.store ["responses:create"]) (Sample.root ["responses:create"]) Sample.token
    (List.mem_singleton_self _) (by decide) _ _
    (Sample.run ["responses:create"] { name := "second" } (by decide +kernel))
  have hlengths : (Sample.reached ["responses:create"] { name := "second" }).held.length = 2 ∧
      (Sample.reached ["responses:create"] { name := "second" }).served.length = 2 := by
    decide +kernel
  exact ⟨hlengths.1, hlengths.2, fun h hh => (hheld h hh).1, fun s hs => (hserved s hs).2.1⟩

/-- A key that may only read usage, for organization 1 and within limits, creates a key
with every scope, for organization 2 and without its limits, and that key creates a
response. -/
theorem keys_escalate :
    Run (Calls Sample.service fun _ => "")
        (KeyRun.start (Sample.store ["usage:read"]) (Sample.root ["usage:read"]) Sample.token)
        (Sample.calls Sample.wide) (Sample.reached ["usage:read"] Sample.wide) ∧
      (∃ h ∈ (Sample.reached ["usage:read"] Sample.wide).held, Sample.Widened h) ∧
      (Sample.root ["usage:read"]).getScopes = ["usage:read"] ∧
      (Sample.reached ["usage:read"] Sample.wide).served.length = 2 := by
  have hreached : (Sample.reached ["usage:read"] Sample.wide).held.any
        (fun h => decide (Sample.Widened h)) = true ∧
      (Sample.reached ["usage:read"] Sample.wide).served.length = 2 := by
    decide +kernel
  obtain ⟨h, hmem, hw⟩ := List.any_eq_true.mp hreached.1
  exact ⟨Sample.run ["usage:read"] Sample.wide (by decide +kernel), ⟨h, hmem, of_decide_eq_true hw⟩, by decide,
    hreached.2⟩

end AuraGateway.Auth
