import AuraGateway.Auth.ApiKeys
import AuraGateway.Foundations.LabelledRuns
import AuraGateway.Foundations.UniqueInserts

/-!
# Minting a playground key

A signed-in user of the playground gets a gateway key with the first request. A call looks
for the user's row in `user_api_key`; where there is none it inserts a key into `api_keys`
and the row that names it into `user_api_key`, in one transaction. Calls run at the same
time, and any statement of any call may fail.

A call is a program over stages: `Stage.statement` is the statement it sends next and
`Stage.after` where it goes with the answer. `Step` runs the calls against one store.
-/

set_option autoImplicit false

namespace AuraGateway.Playground

open AuraGateway.Types AuraGateway.Storage AuraGateway.Auth
open AuraGateway.Foundations.LabelledRuns AuraGateway.Foundations.UniqueInserts

universe v

/-! ## The key and the rows -/

/-- Generate a key in the gateway's format. -/
def generateApiKey (sha256Hex : String → String) (random : List UInt8) : GeneratedApiKey :=
  let key := "aura_live_" ++ String.ofList (hexEncode random)
  { key, keyId := String.ofList (key.toList.take 34), keyHash := sha256Hex key }

/-- The gateway finds the public id of a minted key in the key and accepts it against the
stored hash. -/
theorem gateway_accepts_generateApiKey (sha256Hex : String → String) {random : List UInt8}
    (h : random.length = 32) :
    extractKeyId (generateApiKey sha256Hex random).key
        = some (generateApiKey sha256Hex random).keyId ∧
      verifyApiKey sha256Hex (generateApiKey sha256Hex random).key
        (generateApiKey sha256Hex random).keyHash = true := by
  refine ⟨?_, BEq.rfl⟩
  -- the identifier is the first 24 of the 64 digits
  have hkey : (generateApiKey sha256Hex random).key.toList
      = apiKeyPrefixLive.toList ++ (hexEncode random).take 24 ++ (hexEncode random).drop 24 := by
    rw [List.append_assoc, List.take_append_drop]
    simp [generateApiKey, apiKeyPrefixLive]
  have hid : ((hexEncode random).take 24).length = 24 := by
    rw [List.length_take, length_hexEncode, h]
    rfl
  rw [extractKeyId_of_starts (Or.inl rfl) hkey hid]
  simp [generateApiKey, apiKeyPrefixLive]

def freeTierRateLimitRpm : Int := 5

def freeTierDailyMessageLimit : Int := 20

def freeTierMonthlyTokenLimit : Int := 50000

/-- The user of a session. -/
structure SessionUser where
  id : String
  email : String
  name : String

/-- `a || b` on strings. -/
def orElse (a b : String) : String := if a = "" then b else a

/-- `playground_auth.user_api_key`. -/
structure UserApiKey where
  userId : String
  apiKeyId : String
  apiKeySecret : String
  tier : String

/-- A row of one of the two tables. -/
inductive Row where
  | apiKey (k : ApiKey)
  | userApiKey (k : UserApiKey)

/-- What is unique in the tables: the public id of a key, the user of a `user_api_key` row. -/
inductive RowKey where
  | keyId (keyId : String)
  | userId (userId : String)
  deriving DecidableEq

namespace Row

def key : Row → RowKey
  | .apiKey k => .keyId k.keyId
  | .userApiKey k => .userId k.userId

def asApiKey : Row → Option ApiKey
  | .apiKey k => some k
  | .userApiKey _ => none

def asUserApiKey : Row → Option UserApiKey
  | .apiKey _ => none
  | .userApiKey k => some k

end Row

/-- The rows of `api_keys`. -/
def apiKeys (rows : List Row) : List ApiKey := rows.filterMap Row.asApiKey

/-- The rows of `user_api_key` for a user. -/
def userApiKeys (userId : String) (rows : List Row) : List UserApiKey :=
  (rows.filterMap Row.asUserApiKey).filter fun k => k.userId == userId

/-- Look up the API key secret for a given user. -/
def getUserApiKey (userId : String) (rows : List Row) : Option String :=
  (userApiKeys userId rows).head?.map (·.apiKeySecret)

/-! ## A call -/

/-- What a call has gathered when it connects. -/
structure Mint where
  user : SessionUser
  generated : GeneratedApiKey
  organizationId : Uuid

namespace Mint

variable (m : Mint)

/-- The columns of the first insert. -/
def newApiKey : NewApiKey where
  keyId := m.generated.keyId
  keyHash := m.generated.keyHash
  name := "playground:" ++ orElse m.user.name (orElse m.user.email m.user.id)
  description :=
    some ("Auto-minted for playground user " ++ m.user.email ++ " on first sign-in.")
  userId := some m.user.id
  organizationId := some m.organizationId
  scopes :=
    .array [.string "responses:create", .string "conversations:read", .string "usage:read"]
  rateLimitRpm := some freeTierRateLimitRpm
  monthlyTokenLimit := some freeTierMonthlyTokenLimit
  dailyMessageLimit := some freeTierDailyMessageLimit
  expiresAt := none
  scopeType := none
  scopeId := none

/-- The columns of the second insert. -/
def userApiKey : UserApiKey where
  userId := m.user.id
  apiKeyId := m.generated.keyId
  apiKeySecret := m.generated.key
  tier := "free"

/-- The row the first insert stores; its id and its time are the database's. -/
def apiKeyRow (id : Uuid) (now : Int) : ApiKey := ApiKeyRepo.inserted id now m.newApiKey

end Mint

/-- How far a call of `mintPlaygroundApiKey` has come. -/
inductive Stage where
  | getSession
  | preCheck (user : SessionUser)
  | getPlaygroundOrgId (user : SessionUser) (generated : GeneratedApiKey)
  | connect (m : Mint)
  | begin (m : Mint)
  | insertApiKey (m : Mint)
  | insertUserApiKey (m : Mint)
  | commit (m : Mint)
  /-- The second insert did nothing. -/
  | rollbackLostRace
  /-- A statement failed. -/
  | rollbackFailed
  | returned
  | threw
  | killed

namespace Stage

def ended : Stage → Bool
  | .returned | .threw | .killed => true
  | _ => false

/-- The statement a call sends in its transaction. -/
def statement (id : Uuid) (now : Int) : Stage → Option (Statement Row)
  | .begin _ => some .begin
  | .insertApiKey m => some (.insert (.apiKey (m.apiKeyRow id now)))
  | .insertUserApiKey m => some (.insertOrSkip (.userApiKey m.userApiKey))
  | .commit _ => some .commit
  | .rollbackLostRace | .rollbackFailed => some .rollback
  | _ => none

/-- Where a call goes with the answer to its statement. A failure in the `try` block goes
to the `catch` block, which rolls back and throws; so does a failing rollback of the
lost race. -/
def after : Stage → Effect → Stage
  | .begin m, .done => .insertApiKey m
  | .insertApiKey m, .done => .insertUserApiKey m
  | .insertUserApiKey m, .done => .commit m
  | .insertUserApiKey _, .skipped => .rollbackLostRace
  | .commit _, .done => .returned
  | .rollbackLostRace, .done => .returned
  | .rollbackFailed, _ => .threw
  | _, _ => .rollbackFailed

/-- The session a call was given: none or one without a user id skips the mint. -/
def afterSession : Option SessionUser → Stage
  | some user => if user.id = "" then .returned else .preCheck user
  | none => .returned

/-- The pre-check, outside any transaction. -/
def afterPreCheck (user : SessionUser) (generated : GeneratedApiKey) (rows : List Row) : Stage :=
  if userApiKeys user.id rows = [] then .getPlaygroundOrgId user generated else .returned

end Stage

/-! ## Calls side by side -/

/-- The store, and every call with its stage. A call has one connection, so the call names
the session as well. -/
structure State (ι : Type v) where
  store : Store ι Row
  stage : ι → Stage

variable {ι : Type v} [DecidableEq ι]

namespace State

def setStage (s : State ι) (i : ι) (x : Stage) : State ι :=
  { s with stage := Function.update s.stage i x }

@[simp] theorem store_setStage (s : State ι) (i : ι) (x : Stage) :
    (s.setStage i x).store = s.store := rfl

@[simp] theorem stage_setStage_self (s : State ι) (i : ι) (x : Stage) :
    (s.setStage i x).stage i = x := by
  simp [setStage]

@[simp] theorem stage_setStage_of_ne (s : State ι) (i j : ι) (x : Stage) (h : j ≠ i) :
    (s.setStage i x).stage j = s.stage j := by
  simp [setStage, h]

end State

/-- What happens next, and to which call. -/
inductive Event (ι : Type v) where
  /-- A step of the call before its transaction. -/
  | prepared (i : ι)
  /-- A statement was executed with this effect, and the call heard of it or not. -/
  | ran (i : ι) (st : Statement Row) (e : Effect) (heard : Bool)
  | killed (i : ι)
  /-- The server ended the transaction of a lost connection. -/
  | reaped (i : ι)

/-- One step of one call. Everything a call waits for may fail. -/
inductive Step (sha256Hex : String → String) (s : State ι) : Event ι → State ι → Prop where
  | getSession {i : ι} (h : s.stage i = .getSession) (session : Option SessionUser) :
      Step sha256Hex s (.prepared i) (s.setStage i (.afterSession session))
  | preCheck {i : ι} {user : SessionUser} (h : s.stage i = .preCheck user) (random : List UInt8) :
      Step sha256Hex s (.prepared i)
        (s.setStage i (.afterPreCheck user (generateApiKey sha256Hex random) s.store.committed))
  | getPlaygroundOrgId {i : ι} {user : SessionUser} {generated : GeneratedApiKey}
      (h : s.stage i = .getPlaygroundOrgId user generated) (organizationId : Uuid) :
      Step sha256Hex s (.prepared i)
        (s.setStage i (.connect { user, generated, organizationId }))
  | connect {i : ι} {m : Mint} (h : s.stage i = .connect m) :
      Step sha256Hex s (.prepared i) (s.setStage i (.begin m))
  | prepareFailed {i : ι} (h : ∀ id now, (s.stage i).statement id now = none)
      (hrunning : (s.stage i).ended = false) :
      Step sha256Hex s (.prepared i) (s.setStage i .threw)
  | ran {i : ι} {id : Uuid} {now : Int} {st : Statement Row} {e : Effect} {store : Store ι Row}
      (h : (s.stage i).statement id now = some st) (hexec : Exec Row.key s.store i st e store) :
      Step sha256Hex s (.ran i st e true)
        ({ s with store }.setStage i ((s.stage i).after e))
  | unheard {i : ι} {id : Uuid} {now : Int} {st : Statement Row} {e : Effect}
      {store : Store ι Row} (h : (s.stage i).statement id now = some st)
      (hexec : Exec Row.key s.store i st e store) :
      Step sha256Hex s (.ran i st e false)
        ({ s with store := store.lose i }.setStage i ((s.stage i).after .refused))
  | killed {i : ι} (hrunning : (s.stage i).ended = false) :
      Step sha256Hex s (.killed i) ({ s with store := s.store.lose i }.setStage i .killed)
  | reaped {i : ι} {rows : List Row} (h : s.store.session i = .lost rows) :
      Step sha256Hex s (.reaped i) { s with store := s.store.reap i }

/-- No call has begun, the unique columns of the tables are unique, and the user has no key. -/
structure Fresh (userId : String) (s : State ι) : Prop where
  stages : ∀ i, s.stage i = .getSession
  sessions : ∀ i, s.store.session i = .idle
  unique : (s.store.committed.map Row.key).Nodup
  none : userApiKeys userId s.store.committed = []

end AuraGateway.Playground
