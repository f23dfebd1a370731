import AuraGateway.Storage.Repo

/-!
# API keys

The table of API keys, how a key is generated, recognised and verified, the
authentication of a request, and the endpoints that create and revoke keys.

A key is `prefix ++ identifier ++ secret`; the prefix and the identifier are its public id,
and only the hash of the whole is stored. `authenticate_ok` is what an authenticated
request shows: its token names a row that is active, not expired and stores the token's
hash.
-/

set_option autoImplicit false

namespace AuraGateway.Auth

open AuraGateway.RustStd AuraGateway.Types AuraGateway.Storage

/-! ## Key records -/

/-- API key record. Instants are in microseconds. -/
structure ApiKey where
  id : Uuid
  keyId : String
  keyHash : String
  name : String
  description : Option String
  userId : Option String
  organizationId : Option Uuid
  scopes : Json
  rateLimitRpm : Option Int
  monthlyTokenLimit : Option Int
  dailyMessageLimit : Option Int
  status : String
  expiresAt : Option Int
  scopeType : Option String
  scopeId : Option Uuid
  createdAt : Int

namespace ApiKey

variable (k : ApiKey)

/-- Check if the key is currently valid. -/
def isValid (now : Int) : Bool :=
  k.status == "active" && (k.expiresAt.map fun exp => decide (now < exp)).getD true

/-- Check if a scope is allowed. -/
def hasScope (scope : String) : Bool :=
  match k.scopes.asArray with
  | some scopes => scopes.any fun s => s.asStr == some scope || s.asStr == some "*"
  | none => false

/-- Get scopes as a list of strings. -/
def getScopes : List String := (k.scopes.asArray.getD []).filterMap Json.asStr

/-- The same key with another status. -/
def withStatus (status : String) : ApiKey := { k with status }

end ApiKey

/-- The table of keys; their public ids are distinct. -/
structure ApiKeys where
  rows : List ApiKey
  distinct : (rows.map (·.keyId)).Nodup

/-- New API key for creation. -/
structure NewApiKey where
  keyId : String
  keyHash : String
  name : String
  description : Option String
  userId : Option String
  organizationId : Option Uuid
  scopes : Json
  rateLimitRpm : Option Int
  monthlyTokenLimit : Option Int
  dailyMessageLimit : Option Int
  expiresAt : Option Int
  scopeType : Option String
  scopeId : Option Uuid

namespace ApiKeyRepo

/-- Find API key by its public id. -/
def findByKeyId (keyId : String) (keys : ApiKeys) : Option ApiKey :=
  keys.rows.find? fun k => k.keyId == keyId

/-- `api_keys.scope_type` of a row that was inserted without one. -/
def defaultScopeType : String := "organization"

/-- The row an insert stores. The scope type and the scope id are not among its columns and
take their defaults. -/
def inserted (id : Uuid) (now : Int) (new : NewApiKey) : ApiKey :=
  { id
    keyId := new.keyId
    keyHash := new.keyHash
    name := new.name
    description := new.description
    userId := new.userId
    organizationId := new.organizationId
    scopes := new.scopes
    rateLimitRpm := new.rateLimitRpm
    monthlyTokenLimit := new.monthlyTokenLimit
    dailyMessageLimit := new.dailyMessageLimit
    status := "active"
    expiresAt := new.expiresAt
    scopeType := some defaultScopeType
    scopeId := none
    createdAt := now }

/-- Create a new API key; its public id must not be taken. -/
def create (id : Uuid) (now : Int) (new : NewApiKey) (keys : ApiKeys) :
    Except DbError (ApiKey × ApiKeys) :=
  if h : (keys.rows.map (·.keyId)).contains new.keyId then
    -- the unique index on the public id
    .error (.uniqueViolation "api_keys_key_id_key")
  else
    .ok
      (inserted id now new,
        { rows := keys.rows ++ [inserted id now new]
          distinct := by
            have hfresh : new.keyId ∉ keys.rows.map (·.keyId) := by simpa using h
            rw [List.map_append, List.nodup_append]
            refine ⟨keys.distinct, List.nodup_singleton _, ?_⟩
            rintro a ha b hb rfl
            obtain rfl := List.mem_singleton.mp hb
            exact hfresh ha })

/-- The row after a revocation. -/
def revokedRow (id : Uuid) (k : ApiKey) : ApiKey :=
  if k.id == id then k.withStatus "revoked" else k

theorem keyId_revokedRow (id : Uuid) (k : ApiKey) : (revokedRow id k).keyId = k.keyId := by
  simp only [revokedRow]
  split <;> rfl

theorem revokedRow_eq (id : Uuid) (k : ApiKey) :
    revokedRow id k = k.withStatus (revokedRow id k).status := by
  simp only [revokedRow]
  split <;> rfl

/-- Revoke an API key. -/
def revoke (id : Uuid) (keys : ApiKeys) : ApiKeys where
  rows := keys.rows.map (revokedRow id)
  distinct := by
    have hids : (fun k => (revokedRow id k).keyId) = fun k : ApiKey => k.keyId :=
      funext (keyId_revokedRow id)
    rw [List.map_map]
    show (keys.rows.map fun k => (revokedRow id k).keyId).Nodup
    rw [hids]
    exact keys.distinct

/-- Delete an API key. -/
def delete (id : Uuid) (keys : ApiKeys) : ApiKeys where
  rows := keys.rows.filter fun k => !(k.id == id)
  distinct := keys.distinct.sublist (List.filter_sublist.map _)

/-- A row is the one its public id names. -/
theorem findByKeyId_of_mem {keys : ApiKeys} {k : ApiKey} (h : k ∈ keys.rows) :
    findByKeyId k.keyId keys = some k := by
  have hsome : (findByKeyId k.keyId keys).isSome = true :=
    List.find?_isSome.mpr ⟨k, h, BEq.rfl⟩
  obtain ⟨r, hr⟩ := Option.isSome_iff_exists.mp hsome
  -- the search may stop at another row only if that has the same public id
  have hid : r.keyId = k.keyId := by simpa using List.find?_some hr
  rw [hr, List.inj_on_of_nodup_map keys.distinct (List.mem_of_find?_eq_some hr) h hid]

end ApiKeyRepo

/-! ## Key material -/

def apiKeyPrefixLive : String := "aura_live_"

def apiKeyPrefixTest : String := "aura_test_"

/-- Random bytes of one key: twelve for the identifier, twelve for the secret. -/
structure RandomBytes where
  identifier : List UInt8
  secret : List UInt8
  identifier_length : identifier.length = 12
  secret_length : secret.length = 12

def hexDigit (n : Nat) : Char :=
  if n < 10 then Char.ofNat ('0'.toNat + n) else Char.ofNat ('a'.toNat + (n - 10))

/-- `hex::encode`. -/
def hexEncode (bytes : List UInt8) : List Char :=
  bytes.flatMap fun b => [hexDigit (b.toNat / 16), hexDigit (b.toNat % 16)]

/-- Result of generating a new API key. -/
structure GeneratedApiKey where
  key : String
  keyId : String
  keyHash : String

/-- Generate a new API key with the specified prefix. -/
def generateApiKey (sha256Hex : String → String) (pre : String) (random : RandomBytes) :
    GeneratedApiKey :=
  let keyId := pre ++ String.ofList (hexEncode random.identifier)
  let key := keyId ++ String.ofList (hexEncode random.secret)
  { key, keyId, keyHash := sha256Hex key }

/-- The first `n` characters of a text that has them. Tokens are ASCII, so these are bytes. -/
def firstChars (n : Nat) (s : String) : Option String :=
  if n ≤ s.toList.length then some (String.ofList (s.toList.take n)) else none

/-- Extract the public id from a full API key. -/
def extractKeyId (fullKey : String) : Option String :=
  if apiKeyPrefixLive.toList.isPrefixOf fullKey.toList then
    firstChars (apiKeyPrefixLive.toList.length + 24) fullKey
  else if apiKeyPrefixTest.toList.isPrefixOf fullKey.toList then
    firstChars (apiKeyPrefixTest.toList.length + 24) fullKey
  else none

/-- Verify an API key against a stored hash. -/
def verifyApiKey (sha256Hex : String → String) (key storedHash : String) : Bool :=
  sha256Hex key == storedHash

theorem length_hexEncode (bytes : List UInt8) : (hexEncode bytes).length = 2 * bytes.length := by
  induction bytes with
  | nil => rfl
  | cons b bytes ih =>
      simp only [hexEncode, List.flatMap_cons, List.length_append, List.length_cons,
        List.length_nil] at ih ⊢
      omega

theorem firstChars_of_append {n : Nat} {s : String} {t rest : List Char}
    (hs : s.toList = t ++ rest) (hn : t.length = n) : firstChars n s = some (String.ofList t) := by
  subst hn
  simp [firstChars, hs]

theorem extractKeyId_of_starts {fullKey : String} {pre id rest : List Char}
    (hpre : pre = apiKeyPrefixLive.toList ∨ pre = apiKeyPrefixTest.toList)
    (hkey : fullKey.toList = pre ++ id ++ rest) (hid : id.length = 24) :
    extractKeyId fullKey = some (String.ofList (pre ++ id)) := by
  have hlen : (pre ++ id).length = pre.length + 24 := by
    rw [List.length_append, hid]
  have hstarts : pre.isPrefixOf fullKey.toList = true := by
    rw [List.isPrefixOf_iff_prefix, hkey, List.append_assoc]
    exact List.prefix_append _ _
  rcases hpre with rfl | rfl
  · rw [extractKeyId, if_pos hstarts]
    exact firstChars_of_append hkey hlen
  · -- a test key does not start like a live one
    have hlive : ¬ apiKeyPrefixLive.toList.isPrefixOf fullKey.toList = true := by
      rw [hkey, List.append_assoc]
      simp [apiKeyPrefixLive, apiKeyPrefixTest]
    rw [extractKeyId, if_neg hlive, if_pos hstarts]
    exact firstChars_of_append hkey hlen

/-- The public id of a generated key is found in the key. -/
theorem extractKeyId_generateApiKey (sha256Hex : String → String) (random : RandomBytes)
    {pre : String} (hpre : pre = apiKeyPrefixLive ∨ pre = apiKeyPrefixTest) :
    extractKeyId (generateApiKey sha256Hex pre random).key
      = some (generateApiKey sha256Hex pre random).keyId := by
  have hid : (hexEncode random.identifier).length = 24 := by
    rw [length_hexEncode, random.identifier_length]
  have hkey : (generateApiKey sha256Hex pre random).key.toList
      = pre.toList ++ hexEncode random.identifier ++ hexEncode random.secret := by
    simp [generateApiKey]
  rw [extractKeyId_of_starts (hpre.imp (congrArg String.toList) (congrArg String.toList)) hkey hid]
  simp [generateApiKey, String.ofList_append]

/-! ## Authentication -/

/-- Authentication error response. -/
structure AuthError where
  code : String
  message : String
  deriving DecidableEq, Repr

namespace AuthError

def missingAuth : AuthError :=
  { code := "missing_authentication"
    message := "Missing or invalid Authorization header. Use Bearer token authentication." }

def invalidKey : AuthError :=
  { code := "invalid_api_key"
    message := "Invalid API key. Please check your key and try again." }

def expiredKey : AuthError :=
  { code := "expired_api_key"
    message := "API key has expired. Please generate a new key." }

def revokedKey : AuthError :=
  { code := "revoked_api_key", message := "API key has been revoked." }

def status (e : AuthError) : Nat :=
  match e.code with
  | "revoked_api_key" | "insufficient_scope" => 403
  | _ => 401

end AuthError

/-- Tenant hierarchy information from the authenticated API key. -/
structure TenantContext where
  organizationId : Option Uuid := none
  organizationName : Option String := none
  teamId : Option Uuid := none
  teamName : Option String := none
  projectId : Option Uuid := none
  projectName : Option String := none
  apiKeyId : String

/-- Authenticated request context. -/
structure AuthContext where
  apiKey : ApiKey
  userId : Option String
  tenant : TenantContext

def AuthContext.hasScope (ctx : AuthContext) (scope : String) : Bool := ctx.apiKey.hasScope scope

/-- Lookups of the tenant hierarchy. -/
inductive TenantRead where
  | organization
  | team
  | project
  | organizationOfTeam
  deriving DecidableEq, Repr

/-- What a request brings to the middleware: its path and header, the clock, and the
lookups that fail. -/
structure Arrival where
  path : String
  authorization : Option String
  now : Int
  keyLookupFails : Bool := false
  tenantReadFails : TenantRead → Bool := fun _ => false

namespace TenantContext

/-- Enter an organization that was found. -/
def withOrganization (t : TenantContext) : Option Organization → TenantContext
  | some org => { t with organizationId := some org.id, organizationName := some org.name }
  | none => t

/-- Enter a team that was found, and its organization when there is none yet. -/
def withTeam (t : TenantContext) (organizationOf : Team → Option Organization) :
    Option Team → TenantContext
  | some team =>
      let t := { t with teamId := some team.id, teamName := some team.name }
      -- an organization of the key itself wins over the team's
      if t.organizationId.isNone then t.withOrganization (organizationOf team) else t
  | none => t

end TenantContext

/-- Load full tenant hierarchy context for the API key. -/
def loadTenantContext (a : Arrival) (db : Database) (k : ApiKey) : TenantContext :=
  let read {α : Type} (r : TenantRead) (row : Option α) : Option α :=
    if a.tenantReadFails r then none else row
  let organizationOf := fun team : Team =>
    read .organizationOfTeam (OrganizationRepo.findById team.organizationId db)
  let tenant : TenantContext :=
    ({ apiKeyId := k.keyId } : TenantContext).withOrganization
      (read .organization (k.organizationId.bind fun id => OrganizationRepo.findById id db))
  match k.scopeType, k.scopeId with
  | some "team", some id => tenant.withTeam organizationOf (read .team (TeamRepo.findById id db))
  | some "project", some id =>
      match read .project (ProjectRepo.findById id db) with
      | some project =>
          { tenant with projectId := some project.id, projectName := some project.name }.withTeam
            organizationOf (read .team (TeamRepo.findById project.teamId db))
      | none => tenant
  | _, _ => tenant

/-- How the admin routes are authenticated. An empty key is not configured. -/
structure AdminAuthConfig where
  key : String
  noAuth : Bool

/-- The token of a bearer header. -/
def bearerToken (header : String) : Option String :=
  if "Bearer ".toList.isPrefixOf header.toList then
    some (String.ofList (header.toList.drop "Bearer ".toList.length))
  else none

theorem bearerToken_bearer (token : String) : bearerToken ("Bearer " ++ token) = some token := by
  simp [bearerToken]

/-- Check a header against the admin key. -/
def AdminAuthConfig.check (admin : AdminAuthConfig) (authorization : Option String) :
    Except AuthError Unit :=
  if admin.key.isEmpty then
    if admin.noAuth then .ok () else .error .missingAuth
  else
    match authorization.bind bearerToken with
    | some token => if token == admin.key then .ok () else .error .invalidKey
    | none => .error .missingAuth

/-- What authentication works with: the hash, the calendar (which refuses instants out of
its range), the admin credentials, and whether there is a database. -/
structure KeyService where
  sha256Hex : String → String
  addDays : Int → Int → Option Int
  admin : AdminAuthConfig
  hasDatabase : Bool := true

/-- What is stored. -/
structure KeyStore where
  keys : ApiKeys
  db : Database := {}

def startsWith (s pre : String) : Bool := pre.toList.isPrefixOf s.toList

/-- Endpoints without authentication. -/
def isPublicPath (path : String) : Bool :=
  ["/health", "/metrics", "/openapi", "/swagger-ui", "/swagger"].any (startsWith path)

/-- The key of a token: the row its public id names, if that is in force and stores the
token's hash. -/
def keyOfToken (svc : KeyService) (store : KeyStore) (a : Arrival) (token keyId : String) :
    Except AuthError ApiKey :=
  if a.keyLookupFails then .error .invalidKey
  else
    match ApiKeyRepo.findByKeyId keyId store.keys with
    | none => .error .invalidKey
    | some apiKey =>
        if apiKey.status == "revoked" then .error .revokedKey
        -- a key in another status than these two is not valid, and is reported as expired
        else if apiKey.status == "expired" || !apiKey.isValid a.now then .error .expiredKey
        else if !verifyApiKey svc.sha256Hex token apiKey.keyHash then .error .invalidKey
        else .ok apiKey

/-- Authenticate a request; without a context it goes on unauthenticated. -/
def authenticate (svc : KeyService) (store : KeyStore) (a : Arrival) :
    Except AuthError (Option AuthContext) :=
  if isPublicPath a.path then .ok none
  else if startsWith a.path "/admin" then (svc.admin.check a.authorization).map fun _ => none
  else
    match a.authorization.bind bearerToken with
    -- without a database requests go on unauthenticated
    | none => if svc.hasDatabase then .error .missingAuth else .ok none
    | some token =>
        match extractKeyId token with
        | none => .error .invalidKey
        | some keyId =>
            if svc.hasDatabase then
              (keyOfToken svc store a token keyId).map fun apiKey =>
                some { apiKey, userId := apiKey.userId, tenant := loadTenantContext a store.db apiKey }
            else .ok none

section Authenticated

variable {svc : KeyService} {store : KeyStore} {a : Arrival} {token keyId : String}

theorem keyOfToken_ok {k : ApiKey} (h : keyOfToken svc store a token keyId = .ok k) :
    ApiKeyRepo.findByKeyId keyId store.keys = some k ∧ k.isValid a.now = true ∧
      svc.sha256Hex token = k.keyHash := by
  simp only [keyOfToken] at h
  obtain ⟨-, h⟩ := except_guard_eq_ok.mp h
  cases hfind : ApiKeyRepo.findByKeyId keyId store.keys with
  | none =>
      rw [hfind] at h
      cases h
  | some k' =>
      rw [hfind] at h
      obtain ⟨-, h⟩ := except_guard_eq_ok.mp h
      obtain ⟨hvalid, h⟩ := except_guard_eq_ok.mp h
      obtain ⟨hhash, h⟩ := except_guard_eq_ok.mp h
      obtain rfl := Except.ok.inj h
      refine ⟨rfl, ?_, ?_⟩
      · simpa using (not_or.mp (mt Bool.or_eq_true_iff.mpr hvalid)).2
      · simpa [verifyApiKey] using hhash

/-- An authenticated request shows the token of a key that is in force. -/
theorem authenticate_ok {ctx : AuthContext} (h : authenticate svc store a = .ok (some ctx)) :
    ∃ token keyId, a.authorization.bind bearerToken = some token ∧
      extractKeyId token = some keyId ∧
      ApiKeyRepo.findByKeyId keyId store.keys = some ctx.apiKey ∧
      ctx.apiKey.isValid a.now = true ∧ svc.sha256Hex token = ctx.apiKey.keyHash ∧
      ctx.userId = ctx.apiKey.userId ∧ ctx.tenant = loadTenantContext a store.db ctx.apiKey := by
  simp only [authenticate] at h
  split at h
  · cases h
  · split at h
    · cases hc : svc.admin.check a.authorization <;> simp [hc, Except.map] at h
    · split at h
      · split at h <;> cases h
      · rename_i token htoken
        split at h
        · cases h
        · rename_i keyId hid
          split at h
          · cases hk : keyOfToken svc store a token keyId with
            | error e => simp [hk, Except.map] at h
            | ok k =>
                simp only [hk, Except.map, Except.ok.injEq, Option.some.injEq] at h
                obtain ⟨hfind, hvalid, hhash⟩ := keyOfToken_ok hk
                subst h
                exact ⟨token, keyId, htoken, hid, hfind, hvalid, hhash, rfl, rfl⟩
          · cases h

end Authenticated

/-! ## Creating and revoking keys -/

/-- Request to create a new API key. -/
structure CreateApiKeyRequest where
  name : String
  description : Option String := none
  environment : String := "live"
  scopes : List String := ["responses:create"]
  rateLimitRpm : Option Int := none
  monthlyTokenLimit : Option Int := none
  expiresInDays : Option Int := none
  organizationId : Option Uuid := none
  scopeType : Option String := none
  scopeId : Option Uuid := none

/-- What the creation of a key draws from outside: the clock, the random bytes, the row's
id, and the failure of the insert, if it fails. -/
structure KeyDraw where
  now : Int
  random : RandomBytes
  id : Uuid
  failure : Option String := none

/-- Why a key request was refused, and the status of the reply. -/
structure KeyRefusal where
  status : Nat
  error : AuthError

/-- Response after creating an API key. -/
structure CreateApiKeyResponse where
  key : String
  keyId : String
  name : String
  scopes : List String
  createdAt : Int
  expiresAt : Option Int

/-- A created key: its row, its material, and the table that has it. -/
structure Created where
  row : ApiKey
  generated : GeneratedApiKey
  keys : ApiKeys

def Created.response (c : Created) : CreateApiKeyResponse :=
  { key := c.generated.key
    keyId := c.row.keyId
    name := c.row.name
    scopes := c.row.getScopes
    createdAt := c.row.createdAt
    expiresAt := c.row.expiresAt }

/-- The user a request acts for. -/
def authenticatedUserId (auth : Option AuthContext) : Except KeyRefusal String :=
  match auth.bind fun ctx => ctx.apiKey.userId with
  | some userId => .ok userId
  | none =>
      .error
        { status := 401
          error :=
            { code := "missing_user_context"
              message := "Authenticated API key is not associated with a user." } }

def ensureApiKeyOwner (k : ApiKey) (userId : String) : Except KeyRefusal Unit :=
  if k.userId == some userId then .ok ()
  else
    .error
      { status := 403
        error :=
          { code := "forbidden"
            message := "API key does not belong to the authenticated user." } }

/-- The record of a requested key. Everything but the material, the owner and the expiry is
taken from the request; the daily cap is not set here. -/
def buildNewApiKey (req : CreateApiKeyRequest) (generated : GeneratedApiKey) (userId : String)
    (expiresAt : Option Int) : NewApiKey :=
  { keyId := generated.keyId
    keyHash := generated.keyHash
    name := req.name
    description := req.description
    userId := some userId
    organizationId := req.organizationId
    scopes := .array (req.scopes.map .string)
    rateLimitRpm := req.rateLimitRpm
    monthlyTokenLimit := req.monthlyTokenLimit
    dailyMessageLimit := none
    expiresAt
    scopeType := req.scopeType
    scopeId := req.scopeId }

def databaseUnavailable : KeyRefusal :=
  { status := 503
    error := { code := "database_unavailable", message := "Database not configured" } }

/-- How the creation of a key ends: an expiry outside the calendar panics. -/
inductive CreateOutcome where
  | created (c : Created)
  | refused (r : KeyRefusal)
  | panicked

/-- The prefix of an environment. -/
def environmentPrefix (environment : String) : String :=
  if environment == "test" then apiKeyPrefixTest else apiKeyPrefixLive

/-- The expiry of a key, or `none` when the calendar has no such instant. -/
def expiryOf (svc : KeyService) (now : Int) : Option Int → Option (Option Int)
  | some days => (svc.addDays now days).map some
  | none => some none

/-- Create a new API key. -/
def createApiKey (svc : KeyService) (errorText : DbError → String) (store : KeyStore)
    (auth : Option AuthContext) (req : CreateApiKeyRequest) (draw : KeyDraw) : CreateOutcome :=
  let failed := fun text => CreateOutcome.refused
    { status := 500
      error := { code := "creation_failed", message := "Failed to create API key: " ++ text } }
  if svc.hasDatabase then
    match authenticatedUserId auth with
    | .error r => .refused r
    | .ok userId =>
        let generated :=
          generateApiKey svc.sha256Hex (environmentPrefix req.environment) draw.random
        -- adding the days leaves the calendar
        match expiryOf svc draw.now req.expiresInDays with
        | none => .panicked
        | some expiresAt =>
            match draw.failure with
            | some text => failed text
            | none =>
                match ApiKeyRepo.create draw.id draw.now
                    (buildNewApiKey req generated userId expiresAt) store.keys with
                | .error e => failed (errorText e)
                | .ok (row, keys) => .created { row, generated, keys }
  else .refused databaseUnavailable

/-- The key a path names. -/
def lookUpApiKey (store : KeyStore) (keyId : String) (failure : Option String) :
    Except KeyRefusal ApiKey :=
  match failure, ApiKeyRepo.findByKeyId keyId store.keys with
  | some text, _ =>
      .error
        { status := 500
          error := { code := "lookup_failed", message := "Failed to look up API key: " ++ text } }
  | none, none =>
      .error { status := 404, error := { code := "not_found", message := "API key not found" } }
  | none, some k => .ok k

/-- Revoke an API key of the authenticated user. -/
def revokeApiKey (svc : KeyService) (store : KeyStore) (auth : Option AuthContext)
    (keyId : String) (lookupFailure revokeFailure : Option String) : Except KeyRefusal ApiKeys :=
  if svc.hasDatabase then do
    let userId ← authenticatedUserId auth
    let k ← lookUpApiKey store keyId lookupFailure
    ensureApiKeyOwner k userId
    match revokeFailure with
    | some text =>
        .error
          { status := 500
            error := { code := "revoke_failed", message := "Failed to revoke API key: " ++ text } }
    | none => .ok (ApiKeyRepo.revoke k.id store.keys)
  else .error databaseUnavailable

end AuraGateway.Auth
