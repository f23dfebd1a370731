import AuraGateway.Decisions.Tables
import AuraGateway.Foundations.KeysetPages

/-!
# Listing routing decisions

`GET /admin/routing/decisions`: the query is parsed into a filter and a page size, the rows
that match are listed newest first with one row more than the page, and the key of the last
row of a full page is the next cursor.

Following the cursors gives every decision that matches exactly once, in descending order
(`decision_listing_complete`).
-/

set_option autoImplicit false

namespace AuraGateway.Decisions

open AuraGateway.Foundations AuraGateway.RustStd

/-! ## Filters -/

inductive SyntheticFilter where
  | exclude
  | included
  | only
  deriving DecidableEq, Repr

/-- Filters of a listing; `none` means any. Time bounds are in microseconds. -/
structure RoutingDecisionFilter where
  fromTime : Option Int
  toTime : Option Int
  mode : Option String
  tier : Option String
  classifiedTier : Option String
  tierChanged : Option Bool
  selectedModel : Option String
  shadow : Option Bool
  synthetic : SyntheticFilter
  escalated : Option Bool
  sticky : Option Bool
  status : Option String
  outcome : Option String
  feedback : Option String
  minReward : Option Float
  maxReward : Option Float
  organizationId : Option Uuid
  apiKeyId : Option Uuid
  minCostUsd : Option Float
  maxCostUsd : Option Float
  /-- Keyset cursor: only rows strictly older than `(created_at, id)`. -/
  before : Option (DateTime × Uuid)

/-- A decision joined with its log, its outcome and its feedback. -/
structure JoinedDecision where
  decision : RoutingDecision
  log : Option RequestLog
  outcome : Option RoutingOutcome
  feedback : Option String

/-- `(created_at, id)`. -/
def RoutingDecision.key (d : RoutingDecision) : DateTime ×ₗ Uuid := toLex (d.createdAt, d.id)

def RoutingDecision.escalated (d : RoutingDecision) : Bool :=
  match d.escalations with
  | .array items => !items.isEmpty
  | _ => false

def RoutingDecision.sticky (d : RoutingDecision) : Bool := d.hardFilters.contains "sticky tool loop"

namespace RoutingDecisionFilter

variable (f : RoutingDecisionFilter)

/-- The conditions on the decision itself. -/
def matchesDecision (d : RoutingDecision) : Bool :=
  (match f.synthetic with
    | .exclude => !d.synthetic
    | .only => d.synthetic
    | .included => true)
    && f.fromTime.all (fun t => t ≤ d.createdAt.val)
    && f.toTime.all (fun t => d.createdAt.val < t)
    && f.mode.all (d.mode == ·)
    && f.tier.all (d.tier == ·)
    && f.classifiedTier.all (d.classifiedTier == ·)
    && f.tierChanged.all (fun b => (d.classifiedTier != d.tier) == b)
    && f.selectedModel.all (d.selectedModel == ·)
    && f.shadow.all (d.shadow == ·)
    && f.escalated.all (d.escalated == ·)
    && f.sticky.all (d.sticky == ·)
    && f.organizationId.all (d.organizationId == some ·)
    && f.apiKeyId.all (d.apiKeyId == some ·)

/-- The conditions on what is joined to a decision; a null meets no comparison. -/
def matchesJoined (j : JoinedDecision) : Bool :=
  f.status.all (fun s =>
      if s = "pending" then j.log.isNone else j.log.any fun rl => rl.status == s)
    && f.outcome.all (fun s =>
      if s = "unscored" then j.outcome.isNone else j.outcome.any fun o => o.nextTurn == s)
    && f.feedback.all (fun s => j.feedback == some s)
    && f.minReward.all (fun v => j.outcome.any fun o => v ≤ o.reward)
    && f.maxReward.all (fun v => j.outcome.any fun o => o.reward ≤ v)
    && f.minCostUsd.all (fun v => (j.log.bind (·.costUsd)).any fun c => v ≤ c)
    && f.maxCostUsd.all (fun v => (j.log.bind (·.costUsd)).any fun c => c ≤ v)

/-- All conditions but the cursor. -/
def matchesRow (j : JoinedDecision) : Bool :=
  f.matchesDecision j.decision && f.matchesJoined j

/-- The row is below the cursor. -/
def isBefore (d : RoutingDecision) : Bool := f.before.all fun k => d.key < toLex k

end RoutingDecisionFilter

/-! ## `RoutingDecisionRepo::list` -/

/-- A row of the explorer, with the columns that are modelled. -/
structure RoutingDecisionListItem where
  id : Uuid
  responseId : String
  providerResponseId : Option String
  organizationId : Option Uuid
  apiKeyId : Option Uuid
  createdAt : DateTime
  mode : String
  classifiedTier : String
  tier : String
  selectedModel : String
  shadow : Bool
  synthetic : Bool
  escalated : Bool
  sticky : Bool
  status : Option String
  costUsd : Option Float
  feedback : Option String
  nextTurn : Option String
  reward : Option Float

def JoinedDecision.item (j : JoinedDecision) : RoutingDecisionListItem where
  id := j.decision.id
  responseId := j.decision.responseId
  providerResponseId := j.decision.providerResponseId
  organizationId := j.decision.organizationId
  apiKeyId := j.decision.apiKeyId
  createdAt := j.decision.createdAt
  mode := j.decision.mode
  classifiedTier := j.decision.classifiedTier
  tier := j.decision.tier
  selectedModel := j.decision.selectedModel
  shadow := j.decision.shadow
  synthetic := j.decision.synthetic
  escalated := j.decision.escalated
  sticky := j.decision.sticky
  status := j.log.map (·.status)
  costUsd := j.log.bind (·.costUsd)
  feedback := j.feedback
  nextTurn := j.outcome.map (·.nextTurn)
  reward := j.outcome.map (·.reward)

/-- `(created_at, id)`. -/
def RoutingDecisionListItem.key (i : RoutingDecisionListItem) : DateTime ×ₗ Uuid :=
  toLex (i.createdAt, i.id)

/-- The joined rows: a decision comes once for each log and outcome that joins it. -/
def Tables.joined (t : Tables) : List JoinedDecision :=
  t.decisions.flatMap fun d =>
    (leftJoin (t.logsOf d)).flatMap fun rl =>
      (leftJoin (t.outcomesOf d)).map fun o => ⟨d, rl, o, t.feedbackOf d⟩

/-- One page of decisions, newest first. -/
def RoutingDecisionRepo.list (t : Tables) (f : RoutingDecisionFilter) (limit : Nat) :
    List RoutingDecisionListItem :=
  ((KeysetPages.newestFirst (fun j : JoinedDecision => j.decision.key)
    (t.joined.filter fun j => f.matchesRow j && f.isBefore j.decision)).take limit).map
      JoinedDecision.item

/-! ## The query -/

/-- The raw query string. -/
structure DecisionListQuery where
  period : Option String := none
  fromTime : Option String := none
  toTime : Option String := none
  mode : Option String := none
  tier : Option String := none
  classifiedTier : Option String := none
  tierChanged : Option String := none
  model : Option String := none
  shadow : Option String := none
  synthetic : Option String := none
  escalated : Option String := none
  sticky : Option String := none
  status : Option String := none
  outcome : Option String := none
  feedback : Option String := none
  minReward : Option String := none
  maxReward : Option String := none
  organizationId : Option String := none
  apiKeyId : Option String := none
  minCost : Option String := none
  maxCost : Option String := none
  cursor : Option String := none
  limit : Option String := none

structure ApiError where
  statusCode : Nat
  error : String
  deriving DecidableEq, Repr

def badRequest {α : Type} (msg : String) : Except ApiError α := .error ⟨400, msg⟩

def dbUnavailable : ApiError := ⟨503, "Database not configured"⟩

/-- `DateTime::parse_from_rfc3339`, `Uuid::parse_str` and `str::parse::<f64>`. -/
structure QueryParsers where
  rfc3339 : String → Option DateTime
  uuid : String → Option Uuid
  f64 : String → Option Float

/-- An optional query value: trimmed, empty means unset. -/
def opt (v : Option String) : Option String := (v.map trim).filter fun s => !s.isEmpty

def parseBool (name : String) (v : Option String) : Except ApiError (Option Bool) :=
  match opt v with
  | none => .ok none
  | some s =>
      if s = "any" then .ok none
      else if s = "true" ∨ s = "1" ∨ s = "yes" then .ok (some true)
      else if s = "false" ∨ s = "0" ∨ s = "no" then .ok (some false)
      else badRequest ("`" ++ name ++ "` must be true or false, got `" ++ s ++ "`")

def parseF64 (p : QueryParsers) (name : String) (v : Option String) :
    Except ApiError (Option Float) :=
  match opt v with
  | none => .ok none
  | some s =>
      match (p.f64 s).filter Float.isFinite with
      | some x => .ok (some x)
      | none => badRequest ("`" ++ name ++ "` must be a number, got `" ++ s ++ "`")

def parseUuid (p : QueryParsers) (name : String) (v : Option String) :
    Except ApiError (Option Uuid) :=
  match opt v with
  | none => .ok none
  | some s =>
      match p.uuid s with
      | some id => .ok (some id)
      | none => badRequest ("`" ++ name ++ "` must be a UUID, got `" ++ s ++ "`")

def parseTime (p : QueryParsers) (name : String) (v : Option String) :
    Except ApiError (Option Int) :=
  match opt v with
  | none => .ok none
  | some s =>
      match p.rfc3339 s with
      | some t => .ok (some t.val)
      | none => badRequest ("`" ++ name ++ "` must be an RFC 3339 timestamp")

def parseEnum (name : String) (v : Option String) (allowed : List String) :
    Except ApiError (Option String) :=
  match opt v with
  | none => .ok none
  | some s =>
      if s = "any" then .ok none
      else if allowed.contains s then .ok (some s)
      else badRequest ("`" ++ name ++ "` must be one of " ++ String.intercalate ", " allowed
        ++ ", got `" ++ s ++ "`")

def parseText (name : String) (v : Option String) (max : Nat) :
    Except ApiError (Option String) :=
  match opt v with
  | none => .ok none
  | some s =>
      if s.utf8ByteSize ≤ max then .ok (some s)
      else badRequest ("`" ++ name ++ "` is longer than " ++ toString max ++ " characters")

def hours (n : Int) : Int := n * 3600 * 1000000

/-- Lower time bound for a `period` shorthand. -/
def periodStart (period : Option String) (now : DateTime) : Except ApiError (Option Int) :=
  match period with
  | none => .ok none
  | some s =>
      if s = "all" then .ok none
      else if s = "1h" then .ok (some (now.val - hours 1))
      else if s = "24h" ∨ s = "1d" then .ok (some (now.val - hours 24))
      else if s = "7d" then .ok (some (now.val - hours (7 * 24)))
      else if s = "30d" then .ok (some (now.val - hours (30 * 24)))
      else if s = "90d" then .ok (some (now.val - hours (90 * 24)))
      else badRequest ("`period` must be one of 1h, 24h, 7d, 30d, 90d, all, got `" ++ s ++ "`")

/-- The lower time bound: `from` if it is set, else the start of the period. -/
def parseFrom (p : QueryParsers) (q : DecisionListQuery) (now : DateTime) :
    Except ApiError (Option Int) := do
  match ← parseTime p "from" q.fromTime with
  | some t => return some t
  | none => periodStart (opt q.period) now

def tiers : List String := ["simple", "medium", "complex", "reasoning"]
def modes : List String := ["cost", "balanced", "quality"]
def outcomes : List String := ["none", "move_on", "retry", "correction", "escalation", "unscored"]
def feedbacks : List String := ["approved", "rejected"]

/-- Ordered bounds. -/
def checkBounds {α : Type} (inOrder : α → α → Bool) (msg : String) (a b : Option α) :
    Except ApiError Unit :=
  match a, b with
  | some a, some b => if inOrder a b then .ok () else badRequest msg
  | _, _ => .ok ()

def parseSynthetic (v : Option String) : Except ApiError SyntheticFilter :=
  match opt v with
  | none => .ok .exclude
  | some s =>
      if s = "exclude" ∨ s = "false" then .ok .exclude
      else if s = "include" ∨ s = "any" then .ok .included
      else if s = "only" ∨ s = "true" then .ok .only
      else badRequest ("`synthetic` must be exclude, include or only, got `" ++ s ++ "`")

def parseCursor (p : QueryParsers) (v : Option String) :
    Except ApiError (Option (DateTime × Uuid)) :=
  match opt v with
  | none => .ok none
  | some s =>
      match decodeCursor p.uuid s with
      | some k => .ok (some k)
      | none => badRequest "`cursor` is malformed"

def defaultLimit : Nat := 50
def maxLimit : Int := 200

def parseLimit (v : Option String) : Except ApiError Nat :=
  match opt v with
  | none => .ok defaultLimit
  | some s =>
      match parseI64 s.toList with
      | some n => .ok (max 1 (min n maxLimit)).toNat
      | none => badRequest ("`limit` must be an integer, got `" ++ s ++ "`")

/-- Validate the query into a filter and a page size. -/
def parseListQuery (p : QueryParsers) (q : DecisionListQuery) (now : DateTime) :
    Except ApiError (RoutingDecisionFilter × Nat) := do
  let fromTime ← parseFrom p q now
  let toTime ← parseTime p "to" q.toTime
  checkBounds (fun a b => a < b) "`from` must be before `to`" fromTime toTime
  let synthetic ← parseSynthetic q.synthetic
  let minReward ← parseF64 p "min_reward" q.minReward
  let maxReward ← parseF64 p "max_reward" q.maxReward
  checkBounds (fun a b => !(b < a)) "`min_reward` must not exceed `max_reward`" minReward maxReward
  let minCostUsd ← parseF64 p "min_cost" q.minCost
  let maxCostUsd ← parseF64 p "max_cost" q.maxCost
  checkBounds (fun a b => !(b < a)) "`min_cost` must not exceed `max_cost`" minCostUsd maxCostUsd
  let before ← parseCursor p q.cursor
  let limit ← parseLimit q.limit
  let mode ← parseEnum "mode" q.mode modes
  let tier ← parseEnum "tier" q.tier tiers
  let classifiedTier ← parseEnum "classified_tier" q.classifiedTier tiers
  let tierChanged ← parseBool "tier_changed" q.tierChanged
  let selectedModel ← parseText "model" q.model 100
  let shadow ← parseBool "shadow" q.shadow
  let escalated ← parseBool "escalated" q.escalated
  let sticky ← parseBool "sticky" q.sticky
  let status ← parseText "status" q.status 20
  let outcome ← parseEnum "outcome" q.outcome outcomes
  let feedback ← parseEnum "feedback" q.feedback feedbacks
  let organizationId ← parseUuid p "organization_id" q.organizationId
  let apiKeyId ← parseUuid p "api_key_id" q.apiKeyId
  return (
    { fromTime := fromTime
      toTime := toTime
      mode := mode
      tier := tier
      classifiedTier := classifiedTier
      tierChanged := tierChanged
      selectedModel := selectedModel
      shadow := shadow
      synthetic := synthetic
      escalated := escalated
      sticky := sticky
      status := status
      outcome := outcome
      feedback := feedback
      minReward := minReward
      maxReward := maxReward
      organizationId := organizationId
      apiKeyId := apiKeyId
      minCostUsd := minCostUsd
      maxCostUsd := maxCostUsd
      before := before }, limit)

/-! ## The endpoint -/

structure DecisionListResponse where
  decisions : List RoutingDecisionListItem
  nextCursor : Option String
  limit : Nat

/-- `GET /admin/routing/decisions`; there may be no database. -/
def listRoutingDecisions (p : QueryParsers) (db : Option Tables) (q : DecisionListQuery)
    (now : DateTime) : Except ApiError DecisionListResponse := do
  let (filter, limit) ← parseListQuery p q now
  match db with
  | none => .error dbUnavailable
  | some t =>
      -- one extra row tells whether another page exists
      let decisions := RoutingDecisionRepo.list t filter (limit + 1)
      if limit < decisions.length then
        let decisions := decisions.take limit
        return ⟨decisions, decisions.getLast?.map fun d => encodeCursor d.createdAt d.id, limit⟩
      else return ⟨decisions, none, limit⟩

end AuraGateway.Decisions
