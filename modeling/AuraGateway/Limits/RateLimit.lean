import AuraGateway.Auth.ApiKeys

/-!
# Rate limiting

The limiter counts the requests of a key per minute and its messages per day, in counters
that Redis keeps and expires. The middleware refuses a request when one of the two counters
has reached its limit; it consults no other limit of the key.

`countBelow_allowed_iff` says when a counter lets a request through; a key gets through at
some time if and only if none of its two limits is zero (`admits_of_pass`,
`pass_of_admits`).
-/

set_option autoImplicit false

namespace AuraGateway.Limits

open AuraGateway.Types AuraGateway.Storage AuraGateway.Auth

/-! ## Counters in Redis -/

/-- A counter, and the instant at which it expires, if it does. -/
structure Counter where
  value : Nat
  expiresAt : Option Timestamp

/-- The counters of a key: its requests, and its messages of one day. -/
inductive LimitKey where
  | requests (apiKey : Uuid)
  | dailyMessages (apiKey : Uuid) (day : Nat)
  deriving DecidableEq

/-- The counters Redis has. -/
abbrev Redis := LimitKey → Option Counter

/-- `GET`: a counter that has not expired. -/
def Redis.get (redis : Redis) (key : LimitKey) (now : Timestamp) : Option Counter :=
  (redis key).filter fun c => c.expiresAt.all fun t => decide (now < t)

/-- `TTL`, to the nearest second, or the window for a counter that does not expire. -/
def Counter.life (c : Counter) (window : Nat) (now : Timestamp) : Nat :=
  match c.expiresAt with
  | some t => (t - now + 500000) / 1000000
  | none => window

/-- What the script of a limit returns. -/
structure Counted where
  allowed : Bool
  count : Nat
  ttl : Nat

/-- The script of both limits: count one more unless the limit is reached; a counter lives
for the window, in seconds, after its first count. -/
def countBelow (redis : Redis) (key : LimitKey) (limit window : Nat) (now : Timestamp) :
    Counted × Redis :=
  let current := redis.get key now
  let value := (current.map (·.value)).getD 0
  if limit ≤ value then
    ({ allowed := false
       count := value
       ttl := (current.map (·.life window now)).getD window }, redis)
  else
    let counter : Counter :=
      if value = 0 then { value := 1, expiresAt := some (now + window * 1000000) }
      else { value := value + 1, expiresAt := current.bind (·.expiresAt) }
    ({ allowed := true, count := counter.value, ttl := counter.life window now },
      fun k => if k = key then some counter else redis k)

theorem countBelow_allowed_iff (redis : Redis) (key : LimitKey) (limit window : Nat)
    (now : Timestamp) : (countBelow redis key limit window now).1.allowed = true ↔
      ((redis.get key now).map (·.value)).getD 0 < limit := by
  simp only [countBelow]
  split
  · simp only [Bool.false_eq_true, false_iff]
    omega
  · simp only [true_iff]
    omega

/-! ## The limiter -/

/-- Result of a rate limit check. -/
structure RateLimitResult where
  allowed : Bool
  limit : Nat
  remaining : Nat
  resetAfterSecs : Nat
  resetAt : Nat

def RateLimitResult.headers (r : RateLimitResult) : List (String × String) :=
  [("X-RateLimit-Limit", Nat.repr r.limit), ("X-RateLimit-Remaining", Nat.repr r.remaining),
    ("X-RateLimit-Reset", Nat.repr r.resetAt)]

/-- Outcome of a daily-message limit check. -/
structure DailyMessageResult where
  allowed : Bool
  limit : Nat
  used : Nat
  resetAfterSecs : Nat

def DailyMessageResult.headers (r : DailyMessageResult) : List (String × String) :=
  [("X-Daily-Limit", Nat.repr r.limit), ("X-Daily-Remaining", Nat.repr (r.limit - r.used)),
    ("X-Daily-Reset", Nat.repr r.resetAfterSecs)]

/-- Microseconds of a day. -/
def microsPerDay : Nat := 86400 * 1000000

/-- Check and consume a rate limit token for the given key. -/
def check (redis : Redis) (key : Uuid) (limitRpm : Nat) (now : Timestamp) :
    RateLimitResult × Redis :=
  let (counted, redis) := countBelow redis (.requests key) limitRpm 60 now
  ({ allowed := counted.allowed
     limit := limitRpm
     remaining := limitRpm - counted.count
     resetAfterSecs := counted.ttl
     resetAt := now / 1000000 + counted.ttl }, redis)

/-- Check and increment the per-day message counter. The counter lives until midnight, a
minute at least. -/
def checkDailyMessages (redis : Redis) (key : Uuid) (limit : Nat) (now : Timestamp) :
    DailyMessageResult × Redis :=
  let window := max ((microsPerDay - now % microsPerDay) / 1000000) 60
  let (counted, redis) :=
    countBelow redis (.dailyMessages key (now / microsPerDay)) limit window now
  ({ allowed := counted.allowed
     limit
     used := counted.count
     resetAfterSecs := counted.ttl }, redis)

/-! ## The middleware -/

/-- The reply to a request over a limit; its status is 429. -/
structure LimitReply where
  headers : List (String × String)
  code : String
  message : String
  retryAfterSeconds : Nat

def rateLimitReply (r : RateLimitResult) : LimitReply :=
  { headers := r.headers ++ [("Retry-After", Nat.repr r.resetAfterSecs)]
    code := "rate_limit_exceeded"
    message := "Rate limit exceeded. Please retry after " ++ Nat.repr r.resetAfterSecs ++ " seconds."
    retryAfterSeconds := r.resetAfterSecs }

def dailyLimitReply (r : DailyMessageResult) : LimitReply :=
  { headers := r.headers ++ [("Retry-After", Nat.repr r.resetAfterSecs)]
    code := "daily_message_limit_exceeded"
    message := "You've used your " ++ Nat.repr r.limit
      ++ " free messages for today. The limit resets in about "
      ++ Nat.repr (max ((r.resetAfterSecs + 3599) / 3600) 1) ++ "h."
    retryAfterSeconds := r.resetAfterSecs }

/-- What becomes of a request: it goes to the handler, whose response gets the headers, or
it is refused. -/
inductive Verdict where
  | pass (headers : List (String × String))
  | limited (reply : LimitReply)

/-- The switches of the limiter: whether there is one, whether it is on, and the limit of
keys without their own. -/
structure LimitSettings where
  hasLimiter : Bool
  enabled : Bool
  defaultRpm : Nat

/-- The checks that Redis fails. -/
structure RedisFaults where
  check : Bool := false
  daily : Bool := false

/-- `n as u32` for an `i32`. -/
def asU32 (n : Int) : Nat := (n % 2 ^ 32).toNat

/-- The request limit of a key, the gateway's when it has none of its own. -/
def LimitSettings.rpmOf (s : LimitSettings) (k : ApiKey) : Nat :=
  ((k.rateLimitRpm.filter fun v => decide (0 < v)).map asU32).getD s.defaultRpm

/-- The endpoint whose requests are messages. -/
def isResponseCreation (method path : String) : Bool :=
  method == "POST" && path == "/v1/responses"

/-- Rate limiting middleware. Requests without a key, and requests whose check fails, are
let through. -/
def rateLimitMiddleware (s : LimitSettings) (faults : RedisFaults) (redis : Redis)
    (method path : String) (auth : Option AuthContext) (now : Timestamp) : Verdict × Redis :=
  match s.hasLimiter && s.enabled, auth with
  | true, some ctx =>
      if faults.check then (.pass [], redis)
      else
        let (result, redis) := check redis ctx.apiKey.id (s.rpmOf ctx.apiKey) now
        if !result.allowed then (.limited (rateLimitReply result), redis)
        else
          match isResponseCreation method path && !faults.daily, ctx.apiKey.dailyMessageLimit with
          | true, some dailyLimit =>
              let (daily, redis) := checkDailyMessages redis ctx.apiKey.id (asU32 dailyLimit) now
              if !daily.allowed then (.limited (dailyLimitReply daily), redis)
              else (.pass (result.headers ++ daily.headers), redis)
          | _, _ => (.pass result.headers, redis)
  | _, _ => (.pass [], redis)

/-- The limiter lets some request of the key create a response: none of its two limits is
zero. -/
def LimitSettings.Admits (s : LimitSettings) (k : ApiKey) : Prop :=
  0 < s.rpmOf k ∧ ∀ d, k.dailyMessageLimit = some d → 0 < asU32 d

section Middleware

variable {s : LimitSettings} {redis : Redis} {ctx : AuthContext} {now : Timestamp}
  {headers : List (String × String)} {key : Uuid} {limit : Nat}

theorem check_allowed_iff : (check redis key limit now).1.allowed = true ↔
    ((redis.get (.requests key) now).map (·.value)).getD 0 < limit :=
  countBelow_allowed_iff redis (.requests key) limit 60 now

theorem checkDailyMessages_allowed_iff : (checkDailyMessages redis key limit now).1.allowed = true ↔
    ((redis.get (.dailyMessages key (now / microsPerDay)) now).map (·.value)).getD 0 < limit :=
  countBelow_allowed_iff redis (.dailyMessages key (now / microsPerDay)) limit _ now

/-- The requests of a minute are counted beside the messages of a day. -/
theorem check_dailyMessages (day : Nat) :
    (check redis key limit now).2 (.dailyMessages key day) = redis (.dailyMessages key day) := by
  simp only [check, countBelow]
  split
  · rfl
  · have hne : LimitKey.dailyMessages key day ≠ LimitKey.requests key := nofun
    simp only [hne, if_false]

/-- With the limiter on and Redis working, a key whose request creates a response has
limits above zero. -/
theorem admits_of_pass (hon : (s.hasLimiter && s.enabled) = true)
    (h : (rateLimitMiddleware s {} redis "POST" "/v1/responses" (some ctx) now).1 = .pass headers) :
    s.Admits ctx.apiKey := by
  simp only [rateLimitMiddleware, hon, Bool.false_eq_true, if_false] at h
  split at h
  · cases h
  · rename_i hallowed
    have hrpm := check_allowed_iff.mp (by simpa using hallowed)
    refine ⟨Nat.zero_lt_of_lt hrpm, ?_⟩
    intro d hd
    split at h
    · rename_i d' _ hd'
      rw [hd] at hd'
      obtain rfl := Option.some.inj hd'
      split at h
      · cases h
      · rename_i hdaily
        exact Nat.zero_lt_of_lt (checkDailyMessages_allowed_iff.mp (by simpa using hdaily))
    · rename_i hne
      exact absurd hd (hne d (by decide))

/-- A key with limits above zero passes when nothing has been counted. -/
theorem pass_of_admits (hon : (s.hasLimiter && s.enabled) = true) (h : s.Admits ctx.apiKey) :
    ∃ headers,
      (rateLimitMiddleware s {} (fun _ => none) "POST" "/v1/responses" (some ctx) now).1
        = .pass headers := by
  have hrequests : (check (fun _ => none) ctx.apiKey.id (s.rpmOf ctx.apiKey) now).1.allowed = true :=
    check_allowed_iff.mpr h.1
  simp only [rateLimitMiddleware, hon, Bool.false_eq_true, if_false, hrequests, Bool.not_true]
  split
  · rename_i d _ hd
    have hnone : (check (fun _ => none) ctx.apiKey.id (s.rpmOf ctx.apiKey) now).2.get
        (.dailyMessages ctx.apiKey.id (now / microsPerDay)) now = none := by
      rw [Redis.get, check_dailyMessages]
      rfl
    have hdaily : (checkDailyMessages (check (fun _ => none) ctx.apiKey.id (s.rpmOf ctx.apiKey) now).2
        ctx.apiKey.id (asU32 d) now).1.allowed = true := by
      rw [checkDailyMessages_allowed_iff, hnone]
      exact h.2 d hd
    rw [hdaily]
    exact ⟨_, rfl⟩
  · exact ⟨_, rfl⟩

end Middleware

end AuraGateway.Limits
