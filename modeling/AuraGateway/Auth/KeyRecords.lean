import AuraGateway.Auth.KeyRuns

/-!
# What a created key reads back as

The record of a key is built from the request, stored through the column list of the
insert, and read again by every authentication that shows the key. Between the two the
table may be written in any way that leaves the row in place.

`key_reads_back_iff` says which requests are read back as they were made. The scope of a
key is not inserted, so every key has the column defaults, and the traffic of a key that
was requested for a team or a project is attributed to neither (`team_key_loses_scope`).
-/

set_option autoImplicit false

namespace AuraGateway.Auth

open AuraGateway.RustStd AuraGateway.Types AuraGateway.Storage

/-! ## Later writes -/

/-- A write to the table of keys. -/
inductive KeyWrite where
  | create (id : Uuid) (now : Int) (new : NewApiKey)
  | revoke (id : Uuid)
  | delete (id : Uuid)

namespace KeyWrite

/-- The table after a write; a refused insert leaves it as it is. -/
def apply (keys : ApiKeys) : KeyWrite → ApiKeys
  | .create id now new =>
      match ApiKeyRepo.create id now new keys with
      | .ok (_, keys') => keys'
      | .error _ => keys
  | .revoke id => ApiKeyRepo.revoke id keys
  | .delete id => ApiKeyRepo.delete id keys

/-- The write does not delete the row. -/
def Spares (id : Uuid) : KeyWrite → Prop
  | .delete id' => id ≠ id'
  | _ => True

end KeyWrite

/-- The table after a list of writes. -/
def writeAll (keys : ApiKeys) (writes : List KeyWrite) : ApiKeys := writes.foldl KeyWrite.apply keys

/-- The table has the row, whatever its status. -/
def HasRow (keys : ApiKeys) (k : ApiKey) : Prop := ∃ status, k.withStatus status ∈ keys.rows

section Writes

variable {keys : ApiKeys} {k : ApiKey}

theorem HasRow.apply (h : HasRow keys k) {w : KeyWrite} (hw : w.Spares k.id) :
    HasRow (w.apply keys) k := by
  obtain ⟨status, hmem⟩ := h
  cases w with
  | create id now new =>
      simp only [KeyWrite.apply]
      split
      · rename_i row keys' hcreate
        obtain ⟨-, hrows⟩ := create_ok hcreate
        refine ⟨status, ?_⟩
        rw [hrows]
        exact List.mem_append_left _ hmem
      · exact ⟨status, hmem⟩
  | revoke id =>
      refine ⟨(ApiKeyRepo.revokedRow id (k.withStatus status)).status, ?_⟩
      have hsame : k.withStatus (ApiKeyRepo.revokedRow id (k.withStatus status)).status
          = ApiKeyRepo.revokedRow id (k.withStatus status) :=
        (ApiKeyRepo.revokedRow_eq id (k.withStatus status)).symm
      rw [hsame]
      exact List.mem_map_of_mem hmem
  | delete id =>
      refine ⟨status, List.mem_filter.mpr ⟨hmem, ?_⟩⟩
      have hne : (k.withStatus status).id ≠ id := hw
      simpa using hne

theorem HasRow.writeAll {writes : List KeyWrite} (h : HasRow keys k)
    (hw : ∀ w ∈ writes, w.Spares k.id) : HasRow (writeAll keys writes) k := by
  induction writes generalizing keys with
  | nil => exact h
  | cons w writes ih =>
      apply ih
      · exact h.apply (hw w List.mem_cons_self)
      · intro w' hw'
        exact hw w' (List.mem_cons_of_mem w hw')

end Writes

/-! ## Reading a key back -/

/-- The record an authentication looks up for a token. -/
def readBack (keys : ApiKeys) (token : String) : Option ApiKey :=
  (extractKeyId token).bind fun keyId => ApiKeyRepo.findByKeyId keyId keys

/-- A record has every field of the request, as the request gave it. -/
structure CarriesRequest (req : CreateApiKeyRequest) (k : ApiKey) : Prop where
  name : k.name = req.name
  description : k.description = req.description
  scopes : k.getScopes = req.scopes
  rateLimitRpm : k.rateLimitRpm = req.rateLimitRpm
  monthlyTokenLimit : k.monthlyTokenLimit = req.monthlyTokenLimit
  organizationId : k.organizationId = req.organizationId
  scopeType : k.scopeType = req.scopeType
  scopeId : k.scopeId = req.scopeId

/-- The tenant a request names for its key: what the hierarchy says of the organization,
the team or the project in it. -/
def requestedTenant (a : Arrival) (db : Database) (req : CreateApiKeyRequest) (k : ApiKey) :
    TenantContext :=
  loadTenantContext a db
    { k with
      organizationId := req.organizationId
      scopeType := req.scopeType
      scopeId := req.scopeId }

/-- After any writes that spare the row, the key reads back as requested, and what it
authenticates is attributed to the tenant that was requested. -/
structure ReadsBack (svc : KeyService) (req : CreateApiKeyRequest) (c : Created) : Prop where
  record : ∀ writes : List KeyWrite, (∀ w ∈ writes, w.Spares c.row.id) →
    ∀ k, readBack (writeAll c.keys writes) c.response.key = some k → CarriesRequest req k
  tenant : ∀ writes : List KeyWrite, (∀ w ∈ writes, w.Spares c.row.id) →
    ∀ (db : Database) (a : Arrival) (ctx : AuthContext),
      a.authorization = some ("Bearer " ++ c.response.key) →
      authenticate svc { keys := writeAll c.keys writes, db } a = .ok (some ctx) →
      ctx.tenant = requestedTenant a db req ctx.apiKey

section ReadBack

variable {svc : KeyService} {errorText : DbError → String} {store : KeyStore}
  {auth : Option AuthContext} {req : CreateApiKeyRequest} {draw : KeyDraw} {c : Created}

/-- The row that a token's public id names is the one read back. -/
theorem readBack_of_hasRow {keys : ApiKeys} {k : ApiKey} {token : String}
    (hid : extractKeyId token = some k.keyId) (h : HasRow keys k) :
    ∃ status, readBack keys token = some (k.withStatus status) := by
  obtain ⟨status, hmem⟩ := h
  refine ⟨status, ?_⟩
  rw [readBack, hid]
  exact ApiKeyRepo.findByKeyId_of_mem hmem

/-- An authentication with the token goes on with the record read back. -/
theorem authenticate_readBack {a : Arrival} {ctx : AuthContext} {token : String}
    (hbearer : a.authorization = some ("Bearer " ++ token))
    (h : authenticate svc store a = .ok (some ctx)) :
    readBack store.keys token = some ctx.apiKey ∧
      ctx.tenant = loadTenantContext a store.db ctx.apiKey := by
  obtain ⟨token', keyId, htoken, hid, hfind, -, -, -, htenant⟩ := authenticate_ok h
  rw [hbearer, Option.bind_some, bearerToken_bearer] at htoken
  obtain rfl := Option.some.inj htoken
  refine ⟨?_, htenant⟩
  rw [readBack, hid]
  exact hfind

/-- What a key reads back as, whatever was written since: its row, up to the status. -/
theorem readBack_created (h : createApiKey svc errorText store auth req draw = .created c)
    {writes : List KeyWrite} (hw : ∀ w ∈ writes, w.Spares c.row.id) :
    ∃ status, readBack (writeAll c.keys writes) c.response.key = some (c.row.withStatus status) := by
  obtain ⟨-, hid, hrows⟩ := createApiKey_row h
  apply readBack_of_hasRow hid
  apply HasRow.writeAll _ hw
  refine ⟨c.row.status, ?_⟩
  rw [hrows]
  exact List.mem_append_right _ (List.mem_singleton_self _)

/-- The row of a created key has every field of the request but the scope, which takes the
defaults of its columns. -/
theorem carriesRequest_row_iff (h : createApiKey svc errorText store auth req draw = .created c)
    (status : String) :
    CarriesRequest req (c.row.withStatus status) ↔
      req.scopeType = some ApiKeyRepo.defaultScopeType ∧ req.scopeId = none := by
  obtain ⟨⟨userId, expiresAt, -, hrow⟩, -, -⟩ := createApiKey_row h
  rw [hrow]
  constructor
  · intro hcarries
    exact ⟨hcarries.scopeType.symm, hcarries.scopeId.symm⟩
  · rintro ⟨htype, hid⟩
    exact
      { name := rfl
        description := rfl
        scopes := filterMap_asStr_map req.scopes
        rateLimitRpm := rfl
        monthlyTokenLimit := rfl
        organizationId := rfl
        scopeType := htype.symm
        scopeId := hid.symm }

/-- A record that carries the request is attributed as requested. -/
theorem CarriesRequest.tenant {k : ApiKey} (h : CarriesRequest req k) (a : Arrival)
    (db : Database) : loadTenantContext a db k = requestedTenant a db req k := by
  simp only [requestedTenant]
  rw [← h.organizationId, ← h.scopeType, ← h.scopeId]

end ReadBack

/-- For every request that creates a key: every later authentication reads the request
back unchanged and attributes the traffic to the tenant it names, if and only if the
request asks for the scope that the columns default to. -/
theorem key_reads_back_iff (svc : KeyService) (errorText : DbError → String) (store : KeyStore)
    (auth : Option AuthContext) (req : CreateApiKeyRequest) (draw : KeyDraw) (c : Created)
    (h : createApiKey svc errorText store auth req draw = .created c) :
    ReadsBack svc req c ↔ req.scopeType = some "organization" ∧ req.scopeId = none := by
  constructor
  · intro hreads
    have hnone : ∀ w ∈ ([] : List KeyWrite), w.Spares c.row.id := by simp
    obtain ⟨status, hread⟩ := readBack_created h hnone
    exact (carriesRequest_row_iff h status).mp (hreads.record [] hnone _ hread)
  · intro hscope
    -- what is read back is the row up to its status, and that carries the request
    have hcarries : ∀ writes : List KeyWrite, (∀ w ∈ writes, w.Spares c.row.id) →
        ∀ k, readBack (writeAll c.keys writes) c.response.key = some k → CarriesRequest req k := by
      intro writes hw k hk
      obtain ⟨status, hread⟩ := readBack_created h hw
      rw [hread] at hk
      obtain rfl := Option.some.inj hk
      exact (carriesRequest_row_iff h status).mpr hscope
    refine ⟨hcarries, ?_⟩
    intro writes hw db a ctx hbearer hauth
    obtain ⟨hread, htenant⟩ := authenticate_readBack hbearer hauth
    rw [htenant]
    exact (hcarries writes hw _ hread).tenant a db

namespace Sample

/-- A database with team 5 of organization 1. -/
def teams : Database where
  organizations :=
    [{ id := 1, name := "Acme", slug := "acme", ownerId := "u", settings := none,
       createdAt := 0, updatedAt := 0 }]
  teams :=
    [{ id := 5, organizationId := 1, name := "Search", slug := "search", description := none,
       monthlyTokenLimit := none, currentMonthTokens := 0, usageResetMonth := none,
       settings := none, createdAt := 0, updatedAt := 0 }]

/-- The owner of the first key. -/
def owner : AuthContext :=
  { apiKey := root [], userId := some "u", tenant := { apiKeyId := (root []).keyId } }

/-- A key asked for team 5. -/
def forTeam : CreateApiKeyRequest :=
  { name := "search", organizationId := some 1, scopeType := some "team", scopeId := some 5 }

/-- A key asked for the whole organization. -/
def forOrganization : CreateApiKeyRequest :=
  { name := "search", organizationId := some 1, scopeType := some "organization" }

/-- Create a key for the owner. -/
def create (req : CreateApiKeyRequest) : CreateOutcome :=
  createApiKey service (fun _ => "") (store []) (some owner) req draw

def createdOf : CreateOutcome → Option Created
  | .created c => some c
  | _ => none

/-- A request with the created key. -/
def arrival : Arrival :=
  { path := "/v1/responses", authorization := some ("Bearer " ++ createdToken), now := 2 }

/-- The tenants a created key is attributed to and was requested for. -/
def attribution (req : CreateApiKeyRequest) : Option (TenantContext × TenantContext) := do
  let c ← createdOf (create req)
  match authenticate service { keys := c.keys, db := teams } arrival with
  | .ok (some ctx) => some (ctx.tenant, requestedTenant arrival teams req ctx.apiKey)
  | _ => none

theorem exists_created (req : CreateApiKeyRequest)
    (h : (createdOf (create req)).isSome = true) :
    ∃ c, create req = .created c := by
  cases hc : create req with
  | created c => exact ⟨c, rfl⟩
  | refused r =>
      rw [hc] at h
      cases h
  | panicked =>
      rw [hc] at h
      cases h

end Sample

/-- A key requested for the organization reads back as requested. -/
theorem key_reads_back_sample :
    ∃ c, Sample.create Sample.forOrganization = .created c ∧
      ReadsBack Sample.service Sample.forOrganization c := by
  obtain ⟨c, hc⟩ := Sample.exists_created Sample.forOrganization (by decide +kernel)
  exact ⟨c, hc, (key_reads_back_iff _ _ _ _ _ _ c hc).mpr ⟨rfl, rfl⟩⟩

/-- A key requested for team 5 is created, its traffic is attributed to no team where the
request named team 5, and it does not read back as requested. -/
theorem team_key_loses_scope :
    (∃ c, Sample.create Sample.forTeam = .created c ∧
      ¬ ReadsBack Sample.service Sample.forTeam c) ∧
      (Sample.attribution Sample.forTeam).map (fun t => (t.1.teamId, t.2.teamId))
        = some (none, some 5) := by
  constructor
  · obtain ⟨c, hc⟩ := Sample.exists_created Sample.forTeam (by decide +kernel)
    refine ⟨c, hc, ?_⟩
    intro hreads
    have hnone : ∀ w ∈ ([] : List KeyWrite), w.Spares c.row.id := by simp
    obtain ⟨status, hread⟩ := readBack_created hc hnone
    obtain ⟨htype, -⟩ :=
      (carriesRequest_row_iff hc status).mp (hreads.record [] (by simp) _ hread)
    exact absurd htype (by decide)
  · decide +kernel

end AuraGateway.Auth
