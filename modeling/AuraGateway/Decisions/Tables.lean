import AuraGateway.Decisions.Cursor
import AuraGateway.Types.Request

/-!
# Tables of routing decisions

The rows that the decisions explorer and the outcome rollup read, and their joins: a
decision with its request log and its outcome (outer joins), the latest feedback on its
response and the first turn that follows it (laterals with a limit of one).
-/

set_option autoImplicit false

namespace AuraGateway.Decisions

open AuraGateway.Types (Json)

universe u v

/-! ## Rows -/

/-- A row of `routing_decisions`, with the columns that are read here. -/
structure RoutingDecision where
  id : Uuid
  responseId : String
  providerResponseId : Option String
  organizationId : Option Uuid
  apiKeyId : Option Uuid
  mode : String
  classifiedTier : String
  tier : String
  selectedModel : String
  shadow : Bool
  synthetic : Bool
  hardFilters : List String
  escalations : Json
  createdAt : DateTime

/-- A row of `request_logs`; the tool calls are those of its metadata. -/
structure RequestLog where
  responseId : String
  status : String
  toolCallsCount : Int
  costUsd : Option Float

/-- A row of `routing_outcomes`. -/
structure RoutingOutcome where
  responseId : String
  tier : String
  selectedModel : String
  shadow : Bool
  status : Option String
  feedback : Option String
  nextTurn : String
  nextModel : Option String
  reward : Float
  decidedAt : DateTime

/-- A row of `feedback_samples`. -/
structure FeedbackSample where
  id : Uuid
  responseId : Option String
  feedback : String
  createdAt : DateTime

/-- A row of `responses`. -/
structure StoredResponse where
  id : String
  previousResponseId : Option String
  modelId : String
  inputItems : Option Json
  createdAt : DateTime

structure Tables where
  decisions : List RoutingDecision := []
  requestLogs : List RequestLog := []
  outcomes : List RoutingOutcome := []
  feedbackSamples : List FeedbackSample := []
  responses : List StoredResponse := []

/-! ## Joins -/

/-- The right sides of an outer join: each match, or one null row. -/
def leftJoin {α : Type u} (rows : List α) : List (Option α) :=
  if rows.isEmpty then [none] else rows.map some

theorem leftJoin_of_length_le_one {α : Type u} {rows : List α} (h : rows.length ≤ 1) :
    leftJoin rows = [rows.head?] := by
  cases rows with
  | nil => rfl
  | cons a rows =>
      cases rows with
      | nil => rfl
      | cons b rows => exact absurd h (by simp)

theorem mem_leftJoin {α : Type u} {rows : List α} {r : Option α} (h : r ∈ leftJoin rows) :
    ∀ a ∈ r, a ∈ rows := by
  rw [leftJoin] at h
  split at h
  · rw [List.mem_singleton.mp h]
    exact fun a ha => absurd ha (by simp)
  · obtain ⟨b, hb, rfl⟩ := List.mem_map.mp h
    rintro a ⟨⟩
    exact hb

/-- `ORDER BY f DESC LIMIT 1`. -/
def latestBy {α : Type u} {κ : Type v} [LinearOrder κ] (f : α → κ) (rows : List α) : Option α :=
  (rows.mergeSort fun a b => decide (f b ≤ f a)).head?

/-- `ORDER BY f ASC LIMIT 1`. -/
def firstBy {α : Type u} {κ : Type v} [LinearOrder κ] (f : α → κ) (rows : List α) : Option α :=
  (rows.mergeSort fun a b => decide (f a ≤ f b)).head?

section Ordered

variable {α : Type u} {κ : Type v} [LinearOrder κ] (f : α → κ)

@[simp] theorem latestBy_nil : latestBy f [] = none := by
  rw [latestBy, List.mergeSort_nil, List.head?_nil]

@[simp] theorem latestBy_singleton (a : α) : latestBy f [a] = some a := by
  rw [latestBy, List.mergeSort_singleton, List.head?_cons]

@[simp] theorem firstBy_nil : firstBy f [] = none := by
  rw [firstBy, List.mergeSort_nil, List.head?_nil]

@[simp] theorem firstBy_singleton (a : α) : firstBy f [a] = some a := by
  rw [firstBy, List.mergeSort_singleton, List.head?_cons]

end Ordered

namespace Tables

variable (t : Tables) (d : RoutingDecision)

def logsOf : List RequestLog := t.requestLogs.filter fun rl => rl.responseId = d.responseId

def outcomesOf : List RoutingOutcome := t.outcomes.filter fun o => o.responseId = d.responseId

/-- The samples on the response of a decision. -/
def samplesOf : List FeedbackSample :=
  t.feedbackSamples.filter fun f => d.providerResponseId.isSome ∧ f.responseId = d.providerResponseId

/-- The latest feedback. -/
def feedbackOf : Option String := (latestBy (·.createdAt) (t.samplesOf d)).map (·.feedback)

/-- The turns that follow the response of a decision. -/
def turnsAfter : List StoredResponse :=
  t.responses.filter fun r =>
    d.providerResponseId.isSome ∧ r.previousResponseId = d.providerResponseId

/-- The turn that follows. -/
def nextTurnOf : Option StoredResponse := firstBy (·.createdAt) (t.turnsAfter d)

/-- The stored response of a decision. -/
def currentOf : List StoredResponse :=
  t.responses.filter fun r => some r.id = d.providerResponseId

end Tables

end AuraGateway.Decisions
