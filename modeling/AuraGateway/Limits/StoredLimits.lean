import AuraGateway.Auth.KeyRuns
import AuraGateway.Limits.RateLimit
import AuraGateway.Usage.EndUserCounters

/-!
# Stored limits

A key may carry a monthly token limit, and an end user may carry one and may be blocked.
A run is any interleaving of requests that create responses and of the recordings of their
usage; `LimitsEnforced` says that in every run requests get through to the handler within
these limits only.

No layer in front of the handler reads them: the authentication looks at the status of the
key and the middleware at its two message limits. So they are enforced exactly where there
is nothing to enforce (`stored_limits_iff`).
-/

set_option autoImplicit false

namespace AuraGateway.Limits

open AuraGateway.RustStd AuraGateway.Types AuraGateway.Storage AuraGateway.Auth AuraGateway.Usage

/-! ## Runs -/

/-- What a gateway works with. -/
structure Gateway where
  svc : KeyService
  limits : LimitSettings
  month : Timestamp → String
  modelMap : List (String × String)

/-- A request `POST /v1/responses`, with the end user it names. -/
structure CreateCall where
  authorization : Option String
  now : Timestamp
  user : Option String
  keyLookupFails : Bool := false
  tenantReadFails : TenantRead → Bool := fun _ => false

def CreateCall.arrival (call : CreateCall) : Arrival :=
  { path := "/v1/responses"
    authorization := call.authorization
    now := call.now
    keyLookupFails := call.keyLookupFails
    tenantReadFails := call.tenantReadFails }

/-- The keys, the database, the counters of the limiter, and the requests that the handler
works on, with the users they name. -/
structure GatewayState where
  keys : ApiKeys
  store : UsageStore
  redis : Redis
  inFlight : List (AuthContext × Option String) := []

/-- What happens in a run: a request arrives, or the usage of a response is recorded. -/
inductive Event where
  | request (call : CreateCall)
  | record (s : Session) (rowId : Uuid) (i : Nat) (response : RecordedResponse)

section Run

variable (g : Gateway)

/-- The two layers in front of the handler: the context of the request if it gets through,
and the counters of the limiter then. Redis is working. -/
def admission (σ : GatewayState) (call : CreateCall) : Option (Option AuthContext) × Redis :=
  match authenticate g.svc { keys := σ.keys, db := σ.store.db } call.arrival with
  | .error _ => (none, σ.redis)
  | .ok auth =>
      match rateLimitMiddleware g.limits {} σ.redis "POST" "/v1/responses" auth call.now with
      | (.pass _, redis) => (some auth, redis)
      | (.limited _, redis) => (none, redis)

def step (σ : GatewayState) : Event → GatewayState
  | .request call =>
      match admission g σ call with
      | (some (some ctx), redis) =>
          { σ with redis, inFlight := σ.inFlight ++ [(ctx, call.user)] }
      | (_, redis) => { σ with redis }
  | .record s rowId i response =>
      match σ.inFlight[i]? with
      | some (ctx, user) =>
          { σ with
            store := recordApiKeyUsage s rowId g.modelMap ctx response user σ.store
            inFlight := σ.inFlight.eraseIdx i }
      | none => σ

def run (σ : GatewayState) (events : List Event) : GatewayState := events.foldl (step g) σ

end Run

/-! ## The limits -/

/-- The tokens recorded for a key in a month. -/
def keyTokens (month : Timestamp → String) (m : String) (keyId : Uuid) (usage : List ApiKeyUsage) :
    Int :=
  tokenSum (inMonth month m (usage.filter fun r => r.apiKeyId == keyId))

/-- The tokens recorded for an end user in a month. -/
def userTokens (month : Timestamp → String) (m : String) (userId : Uuid)
    (usage : List ApiKeyUsage) : Int :=
  tokenSum (inMonth month m (usage.filter fun r => r.endUserId == some userId))

/-- The end user a request names in the organization of its key. -/
def namedEndUser (db : Database) (ctx : AuthContext) (user : Option String) : Option EndUser :=
  match user, ctx.tenant.organizationId with
  | some externalId, some orgId => findByExternalId orgId externalId db
  | _, _ => none

/-- A request is within the limits that are stored for its key and its end user. -/
structure WithinLimits (g : Gateway) (store : UsageStore) (ctx : AuthContext) (call : CreateCall) :
    Prop where
  keyLimit : ∀ limit, ctx.apiKey.monthlyTokenLimit = some limit →
    keyTokens g.month (g.month call.now) ctx.apiKey.id store.usage < limit
  notBlocked : ∀ u, namedEndUser store.db ctx call.user = some u → u.isBlocked = false
  userLimit : ∀ u limit, namedEndUser store.db ctx call.user = some u →
    u.monthlyTokenLimit = some limit →
    userTokens g.month (g.month call.now) u.id store.usage < limit

/-- Whatever usage has been recorded before, and in every run: a request of a key gets
through within the stored limits only. -/
def LimitsEnforced (g : Gateway) (keys : ApiKeys) (db : Database) : Prop :=
  ∀ (usage : List ApiKeyUsage) (redis : Redis) (events : List Event) (call : CreateCall)
    (ctx : AuthContext),
    (admission g (run g { keys, store := { db, usage }, redis } events) call).1 = some (some ctx) →
    WithinLimits g (run g { keys, store := { db, usage }, redis } events).store ctx call

/-- No key that the two layers let through has a monthly token limit, and no end user that
a request with such a key can name is blocked or has one. -/
def NoLimitInReach (g : Gateway) (keys : ApiKeys) (db : Database) : Prop :=
  ∀ (call : CreateCall) (ctx : AuthContext),
    authenticate g.svc { keys, db } call.arrival = .ok (some ctx) → g.limits.Admits ctx.apiKey →
    ctx.apiKey.monthlyTokenLimit = none ∧
      ∀ u, namedEndUser db ctx call.user = some u →
        u.isBlocked = false ∧ u.monthlyTokenLimit = none

/-! ## What a run does to the database -/

/-- A database later in a run: the tenant tree is the same, and an end user that is found is
a new one without limits, or was there with the same limits. -/
structure Later (db db' : Database) : Prop where
  organizations : db'.organizations = db.organizations
  teams : db'.teams = db.teams
  projects : db'.projects = db.projects
  users : ∀ orgId externalId u', findByExternalId orgId externalId db' = some u' →
    (u'.isBlocked = false ∧ u'.monthlyTokenLimit = none) ∨
      ∃ u, findByExternalId orgId externalId db = some u ∧ u'.isBlocked = u.isBlocked ∧
        u'.monthlyTokenLimit = u.monthlyTokenLimit

section Later

variable {db db' db'' : Database}

theorem Later.refl (db : Database) : Later db db where
  organizations := rfl
  teams := rfl
  projects := rfl
  users := fun _ _ u hu => Or.inr ⟨u, hu, rfl, rfl⟩

theorem Later.trans (h : Later db db') (h' : Later db' db'') : Later db db'' where
  organizations := h'.organizations.trans h.organizations
  teams := h'.teams.trans h.teams
  projects := h'.projects.trans h.projects
  users := by
    intro orgId externalId u'' hu''
    rcases h'.users orgId externalId u'' hu'' with hnew | ⟨u', hu', hblocked', hlimit'⟩
    · exact Or.inl hnew
    · rcases h.users orgId externalId u' hu' with ⟨hb, hl⟩ | ⟨u, hu, hblocked, hlimit⟩
      · exact Or.inl ⟨hblocked'.trans hb, hlimit'.trans hl⟩
      · exact Or.inr ⟨u, hu, hblocked'.trans hblocked, hlimit'.trans hlimit⟩

/-- Authentication reads the tenant tree only. -/
theorem Later.authenticate_eq (h : Later db db') (svc : KeyService) (keys : ApiKeys) (a : Arrival) :
    authenticate svc { keys, db := db' } a = authenticate svc { keys, db } a := by
  have hload : ∀ k, loadTenantContext a db' k = loadTenantContext a db k := by
    intro k
    simp only [loadTenantContext, OrganizationRepo.findById, TeamRepo.findById,
      ProjectRepo.findById, h.organizations, h.teams, h.projects]
  simp only [authenticate, keyOfToken, hload]

/-- Creating an end user whom nobody had. -/
theorem Later.upsert {s : Session} {new : NewEndUser} {u : EndUser}
    (hnone : findByExternalId new.organizationId new.externalId db = none)
    (h : EndUserRepo.upsert s new db = .ok (u, db')) : Later db db' := by
  have hfree : db.endUsers.find? (EndUserRepo.sameKey new) = none := hnone
  simp only [EndUserRepo.upsert, hfree] at h
  split at h
  · obtain ⟨rfl, rfl⟩ := Prod.mk.inj (Except.ok.inj h)
    refine ⟨rfl, rfl, rfl, ?_⟩
    intro orgId externalId u' hu'
    rw [findByExternalId, List.find?_append] at hu'
    cases hold : db.endUsers.find? (fun u =>
        u.organizationId == orgId && u.externalId == externalId) with
    | some v =>
        rw [hold] at hu'
        obtain rfl := Option.some.inj hu'
        exact Or.inr ⟨v, hold, rfl, rfl⟩
    | none =>
        rw [hold, Option.none_or] at hu'
        obtain rfl := List.mem_singleton.mp (List.mem_of_find?_eq_some hu')
        exact Or.inl ⟨rfl, rfl⟩
  · cases h

/-- The trigger advances the counters of an end user. -/
theorem Later.create {now : Timestamp} {rowId : Uuid} {new : NewApiKeyUsage}
    {store store' : UsageStore} {row : ApiKeyUsage}
    (h : ApiKeyUsageRepo.create now rowId new store = .ok (row, store')) :
    Later store.db store'.db := by
  obtain ⟨-, -, ⟨-, hdb⟩ | ⟨target, endUsers, -, hupdate, hdb⟩⟩ := create_ok h
  · rw [hdb]
    exact Later.refl _
  · rw [hdb]
    refine ⟨rfl, rfl, rfl, ?_⟩
    intro orgId externalId u' hu'
    have hkeep : ∀ v v', updateEndUserAggregatedUsage now row v = .ok v' →
        (v'.organizationId == orgId && v'.externalId == externalId)
          = (v.organizationId == orgId && v.externalId == externalId) := by
      intro v v' hv
      obtain ⟨-, horg, hext, -, -⟩ := updateEndUserAggregatedUsage_ok hv
      rw [horg, hext]
    rcases find?_updateUser hkeep hupdate with ⟨-, hno⟩ | ⟨u, v, hu, hv, hother, hsame⟩
    · rw [findByExternalId, hno] at hu'
      cases hu'
    · obtain rfl := Option.some.inj (hv.symm.trans hu')
      refine Or.inr ⟨u, hu, ?_⟩
      by_cases hid : u.id = target
      · obtain ⟨-, -, -, hblocked, hlimit⟩ := updateEndUserAggregatedUsage_ok (hsame hid)
        exact ⟨hblocked, hlimit⟩
      · rw [hother hid]
        exact ⟨rfl, rfl⟩

theorem session_call_ok {α : Type} {s : Session} {n : Nat} {x : Except DbError α} {a : α}
    (h : s.call n x = .ok a) : x = .ok a := by
  simp only [Session.call] at h
  split at h
  · cases h
  · exact h

theorem Later.resolveEndUser (s : Session) (ctx : AuthContext) (user : Option String)
    (db : Database) : Later db (resolveEndUser s ctx user db).2 := by
  simp only [Usage.resolveEndUser]
  split
  · split
    · exact Later.refl db
    · rename_i hnone
      split
      · rename_i hupsert
        have hfree := Except.ok.inj (session_call_ok hnone)
        exact Later.upsert hfree (session_call_ok hupsert)
      · exact Later.refl db
    · exact Later.refl db
  · exact Later.refl db

theorem Later.recordApiKeyUsage (s : Session) (rowId : Uuid) (modelMap : List (String × String))
    (ctx : AuthContext) (response : RecordedResponse) (user : Option String) (store : UsageStore) :
    Later store.db (recordApiKeyUsage s rowId modelMap ctx response user store).db := by
  simp only [Usage.recordApiKeyUsage]
  split
  · have hresolve := Later.resolveEndUser s ctx user store.db
    split
    · rename_i hcreate
      exact hresolve.trans (Later.create (session_call_ok hcreate))
    · exact hresolve
  · exact Later.refl _

/-- What a run keeps: the keys, and the database but for counters and new end users. -/
theorem run_later (g : Gateway) (σ : GatewayState) (events : List Event) :
    (run g σ events).keys = σ.keys ∧ Later σ.store.db (run g σ events).store.db := by
  induction events using List.reverseRecOn with
  | nil => exact ⟨rfl, Later.refl _⟩
  | append_singleton events e ih =>
      obtain ⟨hkeys, hlater⟩ := ih
      rw [run, List.foldl_append]
      show (step g (run g σ events) e).keys = σ.keys ∧ Later σ.store.db (step g (run g σ events) e).store.db
      cases e with
      | request call =>
          simp only [step]
          split
          · exact ⟨hkeys, hlater⟩
          · exact ⟨hkeys, hlater⟩
      | record s rowId i response =>
          simp only [step]
          split
          · exact ⟨hkeys, hlater.trans (Later.recordApiKeyUsage _ _ _ _ _ _ _)⟩
          · exact ⟨hkeys, hlater⟩

end Later

/-! ## Where the limits are enforced -/

/-- A row of one token, of a key and an end user. -/
def oneToken (keyId userId : Uuid) (now : Timestamp) : ApiKeyUsage :=
  { id := 0, createdAt := now, apiKeyId := keyId, requestId := "", modelId := "", providerName := ""
    inputTokens := 1, outputTokens := 0, cachedTokens := none, reasoningTokens := none
    costUsd := none, endUserId := some userId, endUserExternalId := none }

section Enforcement

variable {g : Gateway} {σ : GatewayState} {call : CreateCall} {ctx : AuthContext}

/-- A request gets through when it is authenticated and the middleware passes it. -/
theorem admission_eq_some : (admission g σ call).1 = some (some ctx) ↔
    authenticate g.svc { keys := σ.keys, db := σ.store.db } call.arrival = .ok (some ctx) ∧
      ∃ headers, (rateLimitMiddleware g.limits {} σ.redis "POST" "/v1/responses" (some ctx)
        call.now).1 = .pass headers := by
  simp only [admission]
  split
  · rename_i hauth
    simp [hauth]
  · rename_i auth hauth
    rw [hauth]
    split
    · rename_i headers redis hpass
      constructor
      · intro h
        obtain rfl := Option.some.inj h
        exact ⟨rfl, headers, by rw [hpass]⟩
      · rintro ⟨h, -⟩
        rw [Except.ok.inj h]
    · rename_i reply redis hlimited
      constructor
      · intro h
        cases h
      · rintro ⟨h, headers, hpass⟩
        rw [Except.ok.inj h] at hlimited
        rw [hlimited] at hpass
        cases hpass

/-- Rows of one token can reach any limit in a month. -/
theorem le_tokenSum_replicate (month : Timestamp → String) {p : ApiKeyUsage → Bool} {keyId userId : Uuid}
    {now : Timestamp} (hp : p (oneToken keyId userId now) = true) (limit : Int) :
    limit ≤ tokenSum (inMonth month (month now)
      ((List.replicate limit.toNat (oneToken keyId userId now)).filter p)) := by
  have hsum : ∀ n : Nat, tokenSum (inMonth month (month now)
      ((List.replicate n (oneToken keyId userId now)).filter p)) = n := by
    intro n
    have hall : inMonth month (month now) (List.replicate n (oneToken keyId userId now))
        = List.replicate n (oneToken keyId userId now) :=
      List.filter_replicate_of_pos (p := fun r : ApiKeyUsage => month r.createdAt == month now) BEq.rfl
    rw [List.filter_replicate_of_pos hp, hall, tokenSum, List.map_replicate, List.sum_replicate]
    simp [ApiKeyUsage.tokens, oneToken]
  rw [hsum]
  omega

/-- With nothing in flight and nothing counted, a request of an admitted key gets through. -/
theorem admission_start {keys : ApiKeys} {db : Database} {usage : List ApiKeyUsage}
    (hon : (g.limits.hasLimiter && g.limits.enabled) = true)
    (hauth : authenticate g.svc { keys, db } call.arrival = .ok (some ctx))
    (hadmits : g.limits.Admits ctx.apiKey) :
    (admission g { keys, store := { db, usage }, redis := fun _ => none } call).1
      = some (some ctx) :=
  admission_eq_some.mpr ⟨hauth, pass_of_admits hon hadmits⟩

/-- The limits are within reach when a key has one: a month's recorded usage may be at it. -/
theorem noLimitInReach_of_enforced {keys : ApiKeys} {db : Database}
    (hon : (g.limits.hasLimiter && g.limits.enabled) = true) (h : LimitsEnforced g keys db) :
    NoLimitInReach g keys db := by
  intro call ctx hauth hadmits
  have hwithin : ∀ usage, WithinLimits g { db, usage } ctx call := fun usage =>
    h usage (fun _ => none) [] call ctx (admission_start hon hauth hadmits)
  constructor
  · cases hlimit : ctx.apiKey.monthlyTokenLimit with
    | none => rfl
    | some limit =>
        have hlt := (hwithin (List.replicate limit.toNat (oneToken ctx.apiKey.id 0 call.now))).keyLimit
          limit hlimit
        have hle : limit ≤ keyTokens g.month (g.month call.now) ctx.apiKey.id
            (List.replicate limit.toNat (oneToken ctx.apiKey.id 0 call.now)) :=
          le_tokenSum_replicate g.month (by simp [oneToken]) limit
        exact absurd hlt (not_lt.mpr hle)
  · intro u hu
    refine ⟨(hwithin []).notBlocked u hu, ?_⟩
    cases hlimit : u.monthlyTokenLimit with
    | none => rfl
    | some limit =>
        have hlt := (hwithin (List.replicate limit.toNat (oneToken ctx.apiKey.id u.id call.now))).userLimit
          u limit hu hlimit
        have hle : limit ≤ userTokens g.month (g.month call.now) u.id
            (List.replicate limit.toNat (oneToken ctx.apiKey.id u.id call.now)) :=
          le_tokenSum_replicate g.month (by simp [oneToken]) limit
        exact absurd hlt (not_lt.mpr hle)

/-- Where no limit is in reach, no run comes to one. -/
theorem enforced_of_noLimitInReach {keys : ApiKeys} {db : Database}
    (hon : (g.limits.hasLimiter && g.limits.enabled) = true) (h : NoLimitInReach g keys db) :
    LimitsEnforced g keys db := by
  intro usage redis events call ctx hadmission
  obtain ⟨hauth, headers, hpass⟩ := admission_eq_some.mp hadmission
  obtain ⟨hkeys, hlater⟩ := run_later g { keys, store := { db, usage }, redis } events
  rw [hkeys, hlater.authenticate_eq] at hauth
  obtain ⟨hkey, husers⟩ := h call ctx hauth (admits_of_pass hon hpass)
  -- an end user that is named later is a new one, or the same as before
  have hnamed : ∀ u', namedEndUser (run g { keys, store := { db, usage }, redis } events).store.db
      ctx call.user = some u' → u'.isBlocked = false ∧ u'.monthlyTokenLimit = none := by
    intro u' hu'
    simp only [namedEndUser] at hu' husers
    split at hu'
    · rename_i externalId orgId huser horg
      rcases hlater.users orgId externalId u' hu' with hnew | ⟨u, hu, hblocked, hlimit⟩
      · exact hnew
      · simp only [huser, horg] at husers
        obtain ⟨hb, hl⟩ := husers u hu
        exact ⟨hblocked.trans hb, hlimit.trans hl⟩
    · cases hu'
  exact
    { keyLimit := by
        intro limit hlimit
        rw [hkey] at hlimit
        cases hlimit
      notBlocked := fun u hu => (hnamed u hu).1
      userLimit := by
        intro u limit hu hlimit
        rw [(hnamed u hu).2] at hlimit
        cases hlimit }

end Enforcement

/-- With the limiter on and Redis working: the stored limits are enforced in every run if
and only if there is none that a request could come to. -/
theorem stored_limits_iff (g : Gateway) (hon : (g.limits.hasLimiter && g.limits.enabled) = true)
    (keys : ApiKeys) (db : Database) : LimitsEnforced g keys db ↔ NoLimitInReach g keys db :=
  ⟨noLimitInReach_of_enforced hon, enforced_of_noLimitInReach hon⟩

namespace Sample

/-- A gateway with the limiter on, in one month. -/
def gateway : Gateway where
  svc := Auth.Sample.service
  limits := { hasLimiter := true, enabled := true, defaultRpm := 60 }
  month := fun _ => "1970-01"
  modelMap := []

/-- The key of a tenant with a request limit of 10 and, if any, a monthly limit. -/
def key (monthlyTokenLimit : Option Int) : ApiKey :=
  { Auth.Sample.root [] with monthlyTokenLimit, dailyMessageLimit := some 5 }

def keys (monthlyTokenLimit : Option Int) : ApiKeys := ⟨[key monthlyTokenLimit], by simp⟩

/-- Organization 1 with an end user. -/
def db (isBlocked : Bool) : Database where
  organizations :=
    [{ id := 1, name := "Acme", slug := "acme", ownerId := "u", settings := none,
       createdAt := 0, updatedAt := 0 }]
  endUsers :=
    [{ id := 4, organizationId := 1, externalId := "customer", name := none, email := none,
       totalInputTokens := 0, totalOutputTokens := 0, totalCostUsd := 0.0, requestCount := 0,
       rateLimitRpm := none, monthlyTokenLimit := none, currentMonthTokens := 0,
       usageResetMonth := none, isBlocked, metadata := none, firstSeenAt := 0, lastSeenAt := 0,
       createdAt := 0, updatedAt := 0 }]

/-- A request with the key, for the end user. -/
def call : CreateCall where
  authorization := some ("Bearer " ++ Auth.Sample.token)
  now := 1000000
  user := some "customer"

def session : Session where
  engine :=
    { errorText := fun _ => "", collate := fun _ _ => true, textMatches := fun _ _ => false
      textRank := fun _ _ => 0.0 }
  now := 2000000
  newId := 50

/-- A request gets through, and its response of 150 tokens is recorded. -/
def events : List Event :=
  [.request call,
    .record session 51 0
      { id := "resp", model := "m", usage := some { inputTokens := 120, outputTokens := 30 } }]

/-- The state after the two events, for a key with a limit of 100 tokens. -/
def used : GatewayState :=
  run gateway
    { keys := keys (some 100), store := { db := db false }, redis := fun _ => none } events

/-- A state in which the end user is blocked. -/
def withBlocked : GatewayState :=
  { keys := keys none, store := { db := db true }, redis := fun _ => none }

end Sample

/-- A tenant without stored limits is within them. -/
theorem stored_limits_sample :
    LimitsEnforced Sample.gateway (Sample.keys none) (Sample.db false) := by
  refine (stored_limits_iff Sample.gateway rfl (Sample.keys none) (Sample.db false)).mpr ?_
  intro call ctx hauth _
  obtain ⟨token, keyId, -, -, hfind, -⟩ := authenticate_ok hauth
  have hkey : ctx.apiKey = Sample.key none := List.mem_singleton.mp (List.mem_of_find?_eq_some hfind)
  refine ⟨by rw [hkey]; rfl, ?_⟩
  intro u hu
  simp only [namedEndUser] at hu
  split at hu
  · obtain rfl := List.mem_singleton.mp (List.mem_of_find?_eq_some hu)
    exact ⟨rfl, rfl⟩
  · cases hu

/-- A key with a limit of 100 tokens is let through after 150 tokens in the month, and a
request for a blocked end user is let through. -/
theorem stored_limits_ignored :
    (∃ ctx, (admission Sample.gateway Sample.used Sample.call).1 = some (some ctx) ∧
      ctx.apiKey.monthlyTokenLimit = some 100 ∧
      keyTokens Sample.gateway.month "1970-01" ctx.apiKey.id Sample.used.store.usage = 150) ∧
    (∃ ctx u, (admission Sample.gateway Sample.withBlocked Sample.call).1 = some (some ctx) ∧
      namedEndUser Sample.withBlocked.store.db ctx Sample.call.user = some u ∧
      u.isBlocked = true) ∧
    ¬ LimitsEnforced Sample.gateway (Sample.keys (some 100)) (Sample.db false) := by
  have hused : ((admission Sample.gateway Sample.used Sample.call).1.bind id).map (fun ctx =>
      (ctx.apiKey.monthlyTokenLimit,
        keyTokens Sample.gateway.month "1970-01" ctx.apiKey.id Sample.used.store.usage))
        = some (some 100, 150) := by
    decide +kernel
  have hblocked : ((admission Sample.gateway Sample.withBlocked Sample.call).1.bind id).bind
      (fun ctx => (namedEndUser Sample.withBlocked.store.db ctx Sample.call.user).map
        (·.isBlocked)) = some true := by
    decide +kernel
  obtain ⟨ctx, hctx, hpair⟩ := Option.map_eq_some_iff.mp hused
  obtain ⟨auth, hpass, rfl⟩ := Option.bind_eq_some_iff.mp hctx
  obtain ⟨hlimit, htokens⟩ := Prod.mk.inj hpair
  refine ⟨⟨ctx, hpass, hlimit, htokens⟩, ?_, ?_⟩
  · obtain ⟨ctx', hctx', hu⟩ := Option.bind_eq_some_iff.mp hblocked
    obtain ⟨auth', hpass', rfl⟩ := Option.bind_eq_some_iff.mp hctx'
    obtain ⟨u, hu, hb⟩ := Option.map_eq_some_iff.mp hu
    exact ⟨ctx', u, hpass', hu, hb⟩
  · intro henforced
    have hwithin := henforced [] (fun _ => none) Sample.events Sample.call ctx hpass
    have hlt : keyTokens Sample.gateway.month "1970-01" ctx.apiKey.id Sample.used.store.usage < 100 :=
      hwithin.keyLimit 100 hlimit
    omega

end AuraGateway.Limits
