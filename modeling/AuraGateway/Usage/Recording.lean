import AuraGateway.Auth.ApiKeys
import AuraGateway.Standard.RustStd

/-!
# Recording usage

Every response with token counts leaves a row in the usage log of its key. A trigger on
that table adds the row to the counters of its end user, who is looked up by the name the
request gives, or created.

`create_ok` is what an insert does: the log grows by the row, and the end user's counters
are advanced by the trigger.
-/

set_option autoImplicit false

namespace AuraGateway.Usage

open AuraGateway.RustStd AuraGateway.Types AuraGateway.Storage AuraGateway.Auth
  AuraGateway.Foundations.OwnedRows

/-! ## Usage rows -/

/-- New API key usage record. -/
structure NewApiKeyUsage where
  apiKeyId : Uuid
  requestId : String
  modelId : String
  providerName : String
  inputTokens : Int
  outputTokens : Int
  cachedTokens : Option Int
  reasoningTokens : Option Int
  costUsd : Option Float
  endUserId : Option Uuid
  endUserExternalId : Option String

/-- API key usage record. -/
structure ApiKeyUsage extends NewApiKeyUsage where
  id : Uuid
  createdAt : Timestamp

/-- Input and output tokens of a row. -/
def ApiKeyUsage.tokens (r : ApiKeyUsage) : Int := r.inputTokens + r.outputTokens

/-- The database with the full rows of its usage log. -/
structure UsageStore where
  db : Database := {}
  usage : List ApiKeyUsage := []

/-! ## Counters of an end user -/

/-- `BIGINT + BIGINT`. -/
def bigintAdd (a b : Int) : Except DbError Int :=
  if a + b < -2 ^ 63 ∨ 2 ^ 63 ≤ a + b then .error (.failed "bigint out of range") else .ok (a + b)

/-- `INT + INT`. -/
def intAdd (a b : Int) : Except DbError Int :=
  if a + b < -2 ^ 31 ∨ 2 ^ 31 ≤ a + b then .error (.failed "integer out of range") else .ok (a + b)

/-- `DOUBLE PRECISION + DOUBLE PRECISION`. -/
def float8Add (a b : Float) : Except DbError Float :=
  if (a + b).isInf ∧ ¬ a.isInf ∧ ¬ b.isInf then .error (.failed "value out of range: overflow")
  else .ok (a + b)

/-- The end user after one more usage row. The monthly counter is advanced whatever the
month. -/
def updateEndUserAggregatedUsage (now : Timestamp) (new : ApiKeyUsage) (u : EndUser) :
    Except DbError EndUser := do
  let totalInputTokens ← bigintAdd u.totalInputTokens new.inputTokens
  let totalOutputTokens ← bigintAdd u.totalOutputTokens new.outputTokens
  let totalCostUsd ← float8Add u.totalCostUsd (new.costUsd.getD 0.0)
  let requestCount ← bigintAdd u.requestCount 1
  let withInput ← bigintAdd u.currentMonthTokens new.inputTokens
  let currentMonthTokens ← bigintAdd withInput new.outputTokens
  .ok { u with
    totalInputTokens
    totalOutputTokens
    totalCostUsd
    requestCount
    currentMonthTokens
    lastSeenAt := now
    updatedAt := now }

/-- The recording function that the trigger replaced: it starts the monthly counter again
when the month has changed since the last row. -/
def recordEndUserUsage (month : Timestamp → String) (now : Timestamp)
    (inputTokens outputTokens : Int) (costUsd : Option Float) (u : EndUser) :
    Except DbError EndUser := do
  let currentMonth := month now
  let totalInputTokens ← bigintAdd u.totalInputTokens inputTokens
  let totalOutputTokens ← bigintAdd u.totalOutputTokens outputTokens
  let totalCostUsd ← float8Add u.totalCostUsd (costUsd.getD 0.0)
  let requestCount ← bigintAdd u.requestCount 1
  let currentMonthTokens ←
    (if u.usageResetMonth = some currentMonth then
      bigintAdd u.currentMonthTokens inputTokens >>= fun withInput => bigintAdd withInput outputTokens
    else intAdd inputTokens outputTokens)
  .ok { u with
    totalInputTokens
    totalOutputTokens
    totalCostUsd
    requestCount
    currentMonthTokens
    usageResetMonth := some currentMonth
    lastSeenAt := now
    updatedAt := now }

/-! ## Inserting a row -/

/-- `UPDATE … WHERE id = target`, with an expression that may fail. -/
def updateUser (target : Uuid) (f : EndUser → Except DbError EndUser) :
    List EndUser → Except DbError (List EndUser)
  | [] => .ok []
  | u :: users => do
      let u' ← (if u.id = target then f u else .ok u)
      let users' ← updateUser target f users
      .ok (u' :: users')

namespace ApiKeyUsageRepo

/-- Record API key usage. The trigger runs with the insert: when it fails there is no row. -/
def create (now : Timestamp) (id : Uuid) (new : NewApiKeyUsage) (store : UsageStore) :
    Except DbError (ApiKeyUsage × UsageStore) :=
  let row : ApiKeyUsage := { new with id, createdAt := now }
  match new.endUserId with
  | none => .ok (row, { store with usage := store.usage ++ [row] })
  | some userId =>
      if present EndUser.id store.db.endUsers userId then do
        let endUsers ←
          updateUser userId (updateEndUserAggregatedUsage now row) store.db.endUsers
        .ok (row, { db := { store.db with endUsers }, usage := store.usage ++ [row] })
      else .error (.foreignKeyViolation "api_key_usage_end_user_id_fkey")

end ApiKeyUsageRepo

section Insert

variable {target : Uuid} {f : EndUser → Except DbError EndUser} {p : EndUser → Bool}

/-- A search for what the update keeps finds the same user as before, updated if it is the
target. -/
theorem find?_updateUser (hp : ∀ u u', f u = .ok u' → p u' = p u) {users users' : List EndUser}
    (h : updateUser target f users = .ok users') :
    (users.find? p = none ∧ users'.find? p = none) ∨
      ∃ u u', users.find? p = some u ∧ users'.find? p = some u' ∧
        (u.id ≠ target → u' = u) ∧ (u.id = target → f u = .ok u') := by
  induction users generalizing users' with
  | nil =>
      obtain rfl := Except.ok.inj h
      exact Or.inl ⟨rfl, rfl⟩
  | cons u users ih =>
      rw [updateUser, except_bind_eq_ok] at h
      obtain ⟨u', hu', h⟩ := h
      rw [except_bind_eq_ok] at h
      obtain ⟨rest, hrest, h⟩ := h
      obtain rfl := Except.ok.inj h
      have hstep : (u.id ≠ target → u' = u) ∧ (u.id = target → f u = .ok u') := by
        constructor
        · intro hid
          rw [if_neg hid] at hu'
          exact (Except.ok.inj hu').symm
        · intro hid
          rw [if_pos hid] at hu'
          exact hu'
      have hsame : p u' = p u := by
        by_cases hid : u.id = target
        · exact hp u u' (hstep.2 hid)
        · rw [hstep.1 hid]
      by_cases hpu : p u = true
      · refine Or.inr ⟨u, u', List.find?_cons_of_pos hpu, ?_, hstep⟩
        exact List.find?_cons_of_pos (hsame.trans hpu)
      · rw [List.find?_cons_of_neg hpu, List.find?_cons_of_neg (by rw [hsame]; exact hpu)]
        exact ih hrest

/-- The trigger advances counters only. -/
theorem updateEndUserAggregatedUsage_ok {now : Timestamp} {row : ApiKeyUsage} {u u' : EndUser}
    (h : updateEndUserAggregatedUsage now row u = .ok u') :
    u'.id = u.id ∧ u'.organizationId = u.organizationId ∧ u'.externalId = u.externalId ∧
      u'.isBlocked = u.isBlocked ∧ u'.monthlyTokenLimit = u.monthlyTokenLimit := by
  simp only [updateEndUserAggregatedUsage, except_bind_eq_ok] at h
  obtain ⟨_, -, _, -, _, -, _, -, _, -, _, -, h⟩ := h
  rw [← Except.ok.inj h]
  exact ⟨rfl, rfl, rfl, rfl, rfl⟩

/-- What an insert does: the log grows by the row, and the trigger updates the end user the
row names. -/
theorem create_ok {now : Timestamp} {rowId : Uuid} {new : NewApiKeyUsage} {store store' : UsageStore}
    {row : ApiKeyUsage} (h : ApiKeyUsageRepo.create now rowId new store = .ok (row, store')) :
    row = { new with id := rowId, createdAt := now } ∧ store'.usage = store.usage ++ [row] ∧
      (new.endUserId = none ∧ store'.db = store.db ∨
        ∃ target endUsers, new.endUserId = some target ∧
          updateUser target (updateEndUserAggregatedUsage now row) store.db.endUsers = .ok endUsers ∧
          store'.db = { store.db with endUsers }) := by
  simp only [ApiKeyUsageRepo.create] at h
  cases huser : new.endUserId with
  | none =>
      rw [huser] at h
      obtain ⟨rfl, rfl⟩ := Prod.mk.inj (Except.ok.inj h)
      exact ⟨rfl, rfl, Or.inl ⟨rfl, rfl⟩⟩
  | some target =>
      simp only [huser] at h
      split at h
      · rw [except_bind_eq_ok] at h
        obtain ⟨endUsers, hupdate, h⟩ := h
        obtain ⟨rfl, rfl⟩ := Prod.mk.inj (Except.ok.inj h)
        exact ⟨rfl, rfl, Or.inr ⟨target, endUsers, rfl, hupdate, rfl⟩⟩
      · cases h

/-- An end user found before an insert is found after it, advanced by the trigger if the
row names it. -/
theorem findById_create {now : Timestamp} {rowId : Uuid} {new : NewApiKeyUsage}
    {store store' : UsageStore} {row : ApiKeyUsage} {id : Uuid} {u : EndUser}
    (h : ApiKeyUsageRepo.create now rowId new store = .ok (row, store'))
    (hu : EndUserRepo.findById id store.db = some u) :
    ∃ u', EndUserRepo.findById id store'.db = some u' ∧
      (new.endUserId ≠ some id → u' = u) ∧
      (new.endUserId = some id → updateEndUserAggregatedUsage now row u = .ok u') := by
  have hid : u.id = id := by simpa using List.find?_some hu
  obtain ⟨-, -, ⟨hnone, hdb⟩ | ⟨target, endUsers, hsome, hupdate, hdb⟩⟩ := create_ok h
  · refine ⟨u, by rw [hdb]; exact hu, fun _ => rfl, ?_⟩
    intro heq
    rw [hnone] at heq
    cases heq
  · have hkeep : ∀ v v', updateEndUserAggregatedUsage now row v = .ok v' →
        (v'.id == id) = (v.id == id) := by
      intro v v' hv
      rw [(updateEndUserAggregatedUsage_ok hv).1]
    rcases find?_updateUser hkeep hupdate with ⟨hno, -⟩ | ⟨v, u', hv, hu', hother, hsame⟩
    · rw [EndUserRepo.findById, hno] at hu
      cases hu
    · obtain rfl := Option.some.inj (hv.symm.trans hu)
      refine ⟨u', by rw [hdb]; exact hu', ?_, ?_⟩
      · intro hne
        apply hother
        intro heq
        apply hne
        rw [hsome, ← heq, hid]
      · intro heq
        apply hsame
        rw [hid]
        exact (Option.some.inj (hsome.symm.trans heq)).symm

end Insert

/-! ## Recording a response -/

/-- Token counts of a response, as `u32`. -/
structure ResponseUsage where
  inputTokens : Nat
  outputTokens : Nat
  cachedTokens : Option Nat := none
  reasoningTokens : Option Nat := none
  costUsd : Option Float := none

/-- What is recorded of a response. -/
structure RecordedResponse where
  id : String
  model : String
  usage : Option ResponseUsage

/-- `n as i32` for a `u32`. -/
def asI32 (n : Nat) : Int := (n + 2 ^ 31 : Int) % 2 ^ 32 - 2 ^ 31

/-- Find end user by organization and external id. -/
def findByExternalId (organizationId : Uuid) (externalId : String) (db : Database) :
    Option EndUser :=
  db.endUsers.find? fun u => u.organizationId == organizationId && u.externalId == externalId

/-- The end user a request names, found or created, and the database then. The first call
of the session looks the user up, the second creates it. -/
def resolveEndUser (s : Session) (auth : AuthContext) (user : Option String) (db : Database) :
    Option Uuid × Database :=
  match user, auth.tenant.organizationId with
  | some externalId, some orgId =>
      match s.call 0 (.ok (findByExternalId orgId externalId db)) with
      | .ok (some u) => (some u.id, db)
      | .ok none =>
          let new : NewEndUser :=
            { organizationId := orgId, externalId, name := none, email := none, metadata := none }
          match s.call 1 (EndUserRepo.upsert s new db) with
          | .ok (u, db') => (some u.id, db')
          | .error _ => (none, db)
      | .error _ => (none, db)
  | _, _ => (none, db)

/-- Record API key usage to the database. Failures are logged only. -/
def recordApiKeyUsage (s : Session) (rowId : Uuid) (modelMap : List (String × String))
    (auth : AuthContext) (response : RecordedResponse) (user : Option String)
    (store : UsageStore) : UsageStore :=
  match s.hasPool, response.usage with
  | true, some usage =>
      let (endUserId, db) := resolveEndUser s auth user store.db
      let new : NewApiKeyUsage :=
        { apiKeyId := auth.apiKey.id
          requestId := response.id
          modelId := response.model
          providerName := (modelMap.lookup response.model).getD "unknown"
          inputTokens := asI32 usage.inputTokens
          outputTokens := asI32 usage.outputTokens
          cachedTokens := usage.cachedTokens.map asI32
          reasoningTokens := usage.reasoningTokens.map asI32
          costUsd := usage.costUsd
          endUserId
          endUserExternalId := user }
      match s.call 2 (ApiKeyUsageRepo.create s.now rowId new { store with db }) with
      | .ok (_, store') => store'
      -- an end user created for the row stays
      | .error _ => { store with db }
  | _, _ => store

/-- A response leaves at most one row, with the cost that it carries. -/
theorem recordApiKeyUsage_rows (s : Session) (rowId : Uuid) (modelMap : List (String × String))
    (auth : AuthContext) (response : RecordedResponse) (user : Option String)
    (store : UsageStore) :
    ∃ rows, (recordApiKeyUsage s rowId modelMap auth response user store).usage
        = store.usage ++ rows
      ∧ rows.length ≤ 1
      ∧ ∀ row ∈ rows, row.costUsd = response.usage.bind (·.costUsd) := by
  simp only [recordApiKeyUsage]
  split
  · rename_i usage hpool husage
    split
    · rename_i row store' hcall
      simp only [Session.call] at hcall
      split at hcall
      · cases hcall
      · obtain ⟨hrow, hgrow, -⟩ := create_ok hcall
        refine ⟨[row], hgrow, le_rfl, ?_⟩
        intro row' hrow'
        rw [List.mem_singleton.mp hrow', hrow, husage]
        rfl
    · exact ⟨[], (List.append_nil _).symm, Nat.zero_le 1, fun row hrow => absurd hrow List.not_mem_nil⟩
  · exact ⟨[], (List.append_nil _).symm, Nat.zero_le 1, fun row hrow => absurd hrow List.not_mem_nil⟩

end AuraGateway.Usage
