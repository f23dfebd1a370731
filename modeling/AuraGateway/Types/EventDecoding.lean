import AuraGateway.Types.SseMessage
import AuraGateway.Types.StreamEvent

/-!
# Reading stream events back

A stream event is written as a frame, the frame is parsed as a message, and the data of the message
is read as an event. Fields are read by their names and variants by their tags. A field that may be
missing is read as missing where null is written in it, and null is no number, so what is present
and written as null does not come back: metadata that is null, and floats that are no finite
numbers.

Each type comes back exactly when no such value is in it (`Response.ofJson_json_iff`), and so does
a whole event (`StreamEvent.ofJson_json_iff`). Its frame holds the name and the JSON of the event
(`StreamEvent.parse_toSse`), and together they give the round trip of an event
(`StreamEvent.comes_back_iff`).
-/

set_option autoImplicit false

namespace AuraGateway.Types

/-! ## Reading values -/

namespace Json

variable {α : Type}

/-- The values given for a name; what is no object has none. -/
def values (key : String) : Json → List Json
  | .object fields => fields.filterMap fun f => if f.1 = key then some f.2 else none
  | _ => []

/-- Of the values given for a name, the one there must be. -/
def one (read : Json → Option α) : List Json → Option α
  | [value] => read value
  | _ => none

/-- A value, or null for none. -/
def nullable (read : Json → Option α) : Json → Option (Option α)
  | .null => some none
  | j => (read j).map some

/-- The one there may be. A name that is given twice is an error. -/
def atMostOne (read : Json → Option α) : List Json → Option (Option α)
  | [] => some none
  | [value] => nullable read value
  | _ => none

/-- A field that must be there. -/
def required (key : String) (read : Json → Option α) (j : Json) : Option α :=
  one read (j.values key)

/-- A field that may be missing. -/
def missable (key : String) (read : Json → Option α) (j : Json) : Option (Option α) :=
  atMostOne read (j.values key)

/-- A field that has a default. -/
def defaulted (key : String) (default : α) (read : Json → Option α) (j : Json) : Option α :=
  if j.values key = [] then some default else j.required key read

def asBool : Json → Option Bool
  | .bool b => some b
  | _ => none

/-- An unsigned integer; the widths of the integers are left out, as they are in the types. -/
def asNat : Json → Option Nat
  | .number text => text.toNat?
  | _ => none

def asInt : Json → Option Int
  | .number text => text.toInt?
  | _ => none

def asList (read : Json → Option α) (j : Json) : Option (List α) := do
  (← j.asArray).mapM read

/-- A variant by its name. -/
def asVariant (variants : List α) (name : α → String) (j : Json) : Option α := do
  let text ← j.asStr
  variants.find? fun v => name v = text

/-! ### Reading what was written -/

@[simp] theorem asStr_string (s : String) : asStr (.string s) = some s := rfl

@[simp] theorem asBool_bool (b : Bool) : asBool (.bool b) = some b := rfl

@[simp] theorem asNat_nat (n : Nat) : asNat (.nat n) = some n := Nat.toNat?_repr n

@[simp] theorem asInt_int (n : Int) : asInt (.int n) = some n := Int.toInt?_repr n

theorem mapM_map_eq_some_iff {read : Json → Option α} {write : α → Json} {l : List α} :
    (l.map write).mapM read = some l ↔ ∀ a ∈ l, read (write a) = some a := by
  induction l with
  | nil => simp
  | cons a l ih =>
      rw [List.map_cons, List.mapM_cons, List.forall_mem_cons, ← ih]
      constructor
      · intro h
        obtain ⟨a', ha, h⟩ := Option.bind_eq_some_iff.mp h
        obtain ⟨l', hl, h⟩ := Option.bind_eq_some_iff.mp h
        obtain ⟨rfl, rfl⟩ := List.cons.inj (Option.some.inj h)
        exact ⟨ha, hl⟩
      · rintro ⟨ha, hl⟩
        rw [ha, hl]
        rfl

@[simp] theorem asList_array_nil (read : Json → Option α) : asList read (.array []) = some [] := rfl

/-- A list comes back exactly when all its elements do. -/
theorem asList_array_iff {read : Json → Option α} {write : α → Json} {l : List α} :
    asList read (.array (l.map write)) = some l ↔ ∀ a ∈ l, read (write a) = some a :=
  mapM_map_eq_some_iff

theorem asList_array {read : Json → Option α} {write : α → Json}
    (h : ∀ a, read (write a) = some a) (l : List α) :
    asList read (.array (l.map write)) = some l :=
  asList_array_iff.mpr fun a _ => h a

section Fields

variable {key name : String} {value : Json} {fields fields' : List (String × Json)}

@[simp] theorem values_nil : values key (.object []) = [] := rfl

@[simp] theorem values_cons :
    values key (.object ((name, value) :: fields))
      = (if name = key then [value] else []) ++ values key (.object fields) := by
  by_cases h : name = key <;> simp [values, h]

@[simp] theorem values_append :
    values key (.object (fields ++ fields'))
      = values key (.object fields) ++ values key (.object fields') :=
  List.filterMap_append

@[simp] theorem values_optional (o : Option Json) :
    values key (.object (optional name o)) = if name = key then o.toList else [] := by
  cases o <;> simp [optional]

end Fields

theorem object_ne_null (fields : List (String × Json)) : Json.object fields ≠ .null := by
  intro h
  cases h

theorem array_ne_null (items : List Json) : Json.array items ≠ .null := by
  intro h
  cases h

theorem string_ne_null (s : String) : Json.string s ≠ .null := by
  intro h
  cases h

theorem nat_ne_null (n : Nat) : nat n ≠ .null := by
  intro h
  cases h

@[simp] theorem one_singleton {read : Json → Option α} {value : Json} :
    one read [value] = read value := rfl

/-- A value comes back from a field that may be missing exactly when it is not written as null
and is read back. -/
theorem atMostOne_iff {read : Json → Option α} {write : α → Json} {o : Option α} :
    atMostOne read (o.map write).toList = some o
      ↔ ∀ a ∈ o, write a ≠ .null ∧ read (write a) = some a := by
  cases o with
  | none => simp [atMostOne]
  | some a =>
      have hread : atMostOne read (Option.map write (some a)).toList = nullable read (write a) := rfl
      rw [hread]
      by_cases hnull : write a = .null
      · simp [hnull, nullable]
      · have hnullable : nullable read (write a) = (read (write a)).map some := by
          unfold nullable
          split
          · contradiction
          · rfl
        simp [hnull, hnullable]

/-- Of a type whose values are never written as null, those come back that are read back. -/
theorem atMostOne_iff_of_ne_null {read : Json → Option α} {write : α → Json} {Kept : α → Prop}
    (hne : ∀ a, write a ≠ .null) (hread : ∀ a, read (write a) = some a ↔ Kept a) (o : Option α) :
    atMostOne read (o.map write).toList = some o ↔ ∀ a ∈ o, Kept a := by
  rw [atMostOne_iff]
  simp only [hne, hread, ne_eq, not_false_eq_true, true_and]

@[simp] theorem atMostOne_string (o : Option String) :
    atMostOne asStr (o.map Json.string).toList = some o :=
  atMostOne_iff.mpr fun _ _ => ⟨string_ne_null _, rfl⟩

@[simp] theorem atMostOne_nat (o : Option Nat) : atMostOne asNat (o.map nat).toList = some o :=
  atMostOne_iff.mpr fun _ _ => ⟨nat_ne_null _, asNat_nat _⟩

theorem atMostOne_list {read : Json → Option α} {write : α → Json}
    (h : ∀ a, read (write a) = some a) (o : Option (List α)) :
    atMostOne (asList read) (o.map fun l => .array (l.map write)).toList = some o :=
  atMostOne_iff.mpr fun l _ => ⟨array_ne_null _, asList_array h l⟩

end Json

/-! ## The JSON library -/

/-- The JSON library: how values are written and read, and how floats are. The text of a number is
read as the float it was written for. -/
structure SerdeJson where
  floats : FloatJson
  toString : Json → String
  fromStr : String → Option Json
  parseF64 : String → Option Float
  parseF32 : String → Option Float32
  parseF64_text : ∀ x text, floats.f64 x = .number text → parseF64 text = some x
  parseF32_text : ∀ x text, floats.f32 x = .number text → parseF32 text = some x

namespace SerdeJson

variable (s : SerdeJson)

/-- What is relied on for one value: its text is one line in braces, and is read back. -/
structure Faithful (j : Json) : Prop where
  braces : ∃ inner, (s.toString j).toList = '{' :: inner ++ ['}']
  oneLine : '\n' ∉ (s.toString j).toList
  fromStr : s.fromStr (s.toString j) = some j

def asF64 : Json → Option Float
  | .number text => s.parseF64 text
  | _ => none

def asF32 : Json → Option Float32
  | .number text => s.parseF32 text
  | _ => none

/-- A float comes back exactly when it is written as a number. -/
theorem asF64_iff {x : Float} : s.asF64 (s.floats.f64 x) = some x ↔ s.floats.f64 x ≠ .null := by
  rcases s.floats.f64_number x with hnull | ⟨text, htext⟩
  · simp [hnull, asF64]
  · simp [htext, asF64, s.parseF64_text x text htext]

theorem asF32_iff {x : Float32} : s.asF32 (s.floats.f32 x) = some x ↔ s.floats.f32 x ≠ .null := by
  rcases s.floats.f32_number x with hnull | ⟨text, htext⟩
  · simp [hnull, asF32]
  · simp [htext, asF32, s.parseF32_text x text htext]

end SerdeJson

open Json RustStd

/-! ## Items -/

def Role.ofJson : Json → Option Role := asVariant [.user, .assistant, .system, .tool] Role.name

def ItemStatus.ofJson : Json → Option ItemStatus :=
  asVariant [.inProgress, .completed, .failed, .incomplete] ItemStatus.name

def ContentPart.ofJson (j : Json) : Option ContentPart := do
  match ← j.required "type" asStr with
  | "text" => return .text (← j.required "text" asStr)
  | "image" =>
      return .image (← j.missable "url" asStr) (← j.missable "data" asStr)
        (← j.missable "media_type" asStr)
  | "audio" => return .audio (← j.required "data" asStr) (← j.missable "media_type" asStr)
  | _ => none

def ReasoningContent.ofJson (j : Json) : Option ReasoningContent := do
  match ← j.required "type" asStr with
  | "text" => return .text (← j.required "text" asStr)
  | "redacted" => return .redacted (← j.required "data" asStr)
  | _ => none

def Item.ofJson (j : Json) : Option Item := do
  match ← j.required "type" asStr with
  | "message" =>
      return .message (← j.required "id" asStr) (← j.required "role" Role.ofJson)
        (← j.required "content" (asList ContentPart.ofJson))
        (← j.defaulted "status" .inProgress ItemStatus.ofJson)
  | "function_call" =>
      return .functionCall (← j.required "id" asStr) (← j.required "call_id" asStr)
        (← j.required "name" asStr) (← j.required "arguments" asStr)
        (← j.defaulted "status" .inProgress ItemStatus.ofJson)
  | "function_call_output" =>
      return .functionCallOutput (← j.required "id" asStr) (← j.required "call_id" asStr)
        (← j.required "output" asStr) (← j.defaulted "status" .inProgress ItemStatus.ofJson)
  | "reasoning" =>
      return .reasoning (← j.required "id" asStr)
        (← j.required "content" (asList ReasoningContent.ofJson)) (← j.missable "summary" asStr)
        (← j.defaulted "status" .inProgress ItemStatus.ofJson)
  | _ => none

@[simp] theorem Role.ofJson_name (role : Role) : Role.ofJson (.string role.name) = some role := by
  cases role <;> rfl

@[simp] theorem ItemStatus.ofJson_name (status : ItemStatus) :
    ItemStatus.ofJson (.string status.name) = some status := by
  cases status <;> rfl

theorem ContentPart.ofJson_json (c : ContentPart) : ContentPart.ofJson c.json = some c := by
  cases c <;> simp [ContentPart.ofJson, ContentPart.json, required, missable]

theorem ReasoningContent.ofJson_json (c : ReasoningContent) :
    ReasoningContent.ofJson c.json = some c := by
  cases c <;> simp [ReasoningContent.ofJson, ReasoningContent.json, required]

/-- Items come back. -/
theorem Item.ofJson_json (item : Item) : Item.ofJson item.json = some item := by
  have hcontent := asList_array ContentPart.ofJson_json
  have hreasoning := asList_array ReasoningContent.ofJson_json
  cases item <;>
    simp [Item.ofJson, Item.json, required, missable, defaulted, hcontent, hreasoning]

/-! ## Responses -/

def ResponseStatus.ofJson : Json → Option ResponseStatus :=
  asVariant [.inProgress, .completed, .failed, .incomplete, .cancelled] ResponseStatus.name

def IncompleteReason.ofJson : Json → Option IncompleteReason :=
  asVariant [.maxTokens, .contentFilter, .cancelled, .lowConfidence, .unknown]
    IncompleteReason.name

def ValidationStrategy.ofJson : Json → Option ValidationStrategy :=
  asVariant [.none, .logprobs, .bestOfN, .selfConsistency, .confidenceThreshold, .ensemble]
    ValidationStrategy.name

def ConsistencyStrategy.ofJson : Json → Option ConsistencyStrategy :=
  asVariant
    [.none, .constitutional, .referenceAnchoring, .modelCalibration, .formatSchema, .fewShotPriming,
      .styleProfile, .semanticNormalization, .ensembleVoting, .adaptiveFewShot]
    ConsistencyStrategy.name

@[simp] theorem ResponseStatus.ofJson_name (status : ResponseStatus) :
    ResponseStatus.ofJson (.string status.name) = some status := by
  cases status <;> rfl

@[simp] theorem IncompleteReason.ofJson_name (reason : IncompleteReason) :
    IncompleteReason.ofJson (.string reason.name) = some reason := by
  cases reason <;> rfl

@[simp] theorem ValidationStrategy.ofJson_name (strategy : ValidationStrategy) :
    ValidationStrategy.ofJson (.string strategy.name) = some strategy := by
  cases strategy <;> rfl

@[simp] theorem ConsistencyStrategy.ofJson_name (strategy : ConsistencyStrategy) :
    ConsistencyStrategy.ofJson (.string strategy.name) = some strategy := by
  cases strategy <;> rfl

def ResponseError.ofJson (j : Json) : Option ResponseError := do
  let code ← j.required "code" asStr
  let message ← j.required "message" asStr
  let param ← j.missable "param" asStr
  return { code, message, param }

@[simp] theorem ResponseError.ofJson_json (e : ResponseError) :
    ResponseError.ofJson e.json = some e := by
  simp [ResponseError.ofJson, ResponseError.json, required, missable]

section Floats

variable (s : SerdeJson)

def Usage.ofJson (j : Json) : Option Usage := do
  let inputTokens ← j.required "input_tokens" asNat
  let outputTokens ← j.required "output_tokens" asNat
  let totalTokens ← j.required "total_tokens" asNat
  let reasoningTokens ← j.missable "reasoning_tokens" asNat
  let cachedTokens ← j.missable "cached_tokens" asNat
  let costUsd ← j.missable "cost_usd" s.asF64
  return { inputTokens, outputTokens, totalTokens, reasoningTokens, cachedTokens, costUsd }

def TopLogprob.ofJson (j : Json) : Option TopLogprob := do
  let token ← j.required "token" asStr
  let logprob ← j.required "logprob" s.asF32
  let bytes ← j.missable "bytes" (asList asNat)
  return { token, logprob, bytes }

def TokenLogprob.ofJson (j : Json) : Option TokenLogprob := do
  let token ← j.required "token" asStr
  let logprob ← j.required "logprob" s.asF32
  let bytes ← j.missable "bytes" (asList asNat)
  let topLogprobs ← j.missable "top_logprobs" (asList (TopLogprob.ofJson s))
  return { token, logprob, bytes, topLogprobs }

def LogprobsData.ofJson (j : Json) : Option LogprobsData := do
  let tokens ← j.required "tokens" (asList (TokenLogprob.ofJson s))
  return { tokens }

def ValidationMetadata.ofJson (j : Json) : Option ValidationMetadata := do
  let strategy ← j.required "strategy" ValidationStrategy.ofJson
  let confidence ← j.missable "confidence" s.asF32
  let perplexity ← j.missable "perplexity" s.asF32
  let candidatesGenerated ← j.missable "candidates_generated" asNat
  let selectedIndex ← j.missable "selected_index" asNat
  let selectionReason ← j.missable "selection_reason" asStr
  let passed ← j.required "passed" asBool
  let warning ← j.missable "warning" asStr
  let logprobs ← j.missable "logprobs" (LogprobsData.ofJson s)
  return ⟨strategy, confidence, perplexity, candidatesGenerated, selectedIndex, selectionReason,
    passed, warning, logprobs⟩

def EnsembleVotes.ofJson (j : Json) : Option EnsembleVotes := do
  let models ← j.required "models" (asList asStr)
  let selectedModel ← j.required "selected_model" asStr
  let agreementScore ← j.required "agreement_score" s.asF32
  let selectionReason ← j.required "selection_reason" asStr
  return { models, selectedModel, agreementScore, selectionReason }

def ConsistencyMetadata.ofJson (j : Json) : Option ConsistencyMetadata := do
  let strategy ← j.required "strategy" ConsistencyStrategy.ofJson
  let calibrationApplied ← j.required "calibration_applied" asBool
  let adjustments ← j.missable "adjustments" (asList asStr)
  let styleApplied ← j.missable "style_applied" asStr
  let principlesInjected ← j.missable "principles_injected" asNat
  let examplesInjected ← j.missable "examples_injected" asNat
  let ensembleVotes ← j.missable "ensemble_votes" (EnsembleVotes.ofJson s)
  return ⟨strategy, calibrationApplied, adjustments, styleApplied, principlesInjected,
    examplesInjected, ensembleVotes⟩

def Response.ofJson (j : Json) : Option Response := do
  let id ← j.required "id" asStr
  let object ← j.defaulted "object" "response" asStr
  let createdAt ← j.required "created_at" asInt
  let model ← j.required "model" asStr
  let status ← j.required "status" ResponseStatus.ofJson
  let output ← j.required "output" (asList Item.ofJson)
  let usage ← j.missable "usage" (Usage.ofJson s)
  let error ← j.missable "error" ResponseError.ofJson
  let incompleteReason ← j.missable "incomplete_reason" IncompleteReason.ofJson
  let previousResponseId ← j.missable "previous_response_id" asStr
  let metadata ← j.missable "metadata" some
  let validation ← j.missable "validation" (ValidationMetadata.ofJson s)
  let consistency ← j.missable "consistency" (ConsistencyMetadata.ofJson s)
  return ⟨id, object, createdAt, model, status, output, usage, error, incompleteReason,
    previousResponseId, metadata, validation, consistency⟩

/-! ### What comes back -/

/-- The cost is written as a number. -/
def Usage.NoNulls (floats : FloatJson) (u : Usage) : Prop :=
  ∀ c ∈ u.costUsd, floats.f64 c ≠ .null

theorem Usage.ofJson_json_iff {u : Usage} :
    Usage.ofJson s (u.json s.floats) = some u ↔ u.NoNulls s.floats := by
  have hcost : atMostOne s.asF64 (u.costUsd.map s.floats.f64).toList = some u.costUsd
      ↔ u.NoNulls s.floats := by
    rw [atMostOne_iff]
    simp [s.asF64_iff, Usage.NoNulls]
  rw [← hcost]
  obtain ⟨inputTokens, outputTokens, totalTokens, reasoningTokens, cachedTokens, costUsd⟩ := u
  simp [Usage.ofJson, Usage.json, required, missable, Option.bind_eq_some_iff]

/-- The log probability is written as a number. -/
def TopLogprob.NoNulls (floats : FloatJson) (t : TopLogprob) : Prop :=
  floats.f32 t.logprob ≠ .null

/-- The log probabilities of a token and of its alternatives are written as numbers. -/
def TokenLogprob.NoNulls (floats : FloatJson) (t : TokenLogprob) : Prop :=
  floats.f32 t.logprob ≠ .null ∧ ∀ tops ∈ t.topLogprobs, ∀ top ∈ tops, top.NoNulls floats

def LogprobsData.NoNulls (floats : FloatJson) (l : LogprobsData) : Prop :=
  ∀ t ∈ l.tokens, t.NoNulls floats

/-- All the floats of the validation are written as numbers. -/
@[mk_iff validationNoNulls_iff] structure ValidationMetadata.NoNulls (floats : FloatJson) (v : ValidationMetadata) : Prop where
  confidence : ∀ c ∈ v.confidence, floats.f32 c ≠ .null
  perplexity : ∀ p ∈ v.perplexity, floats.f32 p ≠ .null
  logprobs : ∀ l ∈ v.logprobs, l.NoNulls floats

/-- The agreement is written as a number. -/
def EnsembleVotes.NoNulls (floats : FloatJson) (v : EnsembleVotes) : Prop :=
  floats.f32 v.agreementScore ≠ .null

def ConsistencyMetadata.NoNulls (floats : FloatJson) (c : ConsistencyMetadata) : Prop :=
  ∀ v ∈ c.ensembleVotes, v.NoNulls floats

/-- Nothing in the response is present and written as null: the metadata is not null, and all floats
are written as numbers. -/
@[mk_iff responseNoNulls_iff] structure Response.NoNulls (floats : FloatJson) (r : Response) : Prop where
  usage : ∀ u ∈ r.usage, u.NoNulls floats
  metadata : ∀ m ∈ r.metadata, m ≠ .null
  validation : ∀ v ∈ r.validation, v.NoNulls floats
  consistency : ∀ c ∈ r.consistency, c.NoNulls floats

theorem TopLogprob.ofJson_json_iff {t : TopLogprob} :
    TopLogprob.ofJson s (t.json s.floats) = some t ↔ t.NoNulls s.floats := by
  rw [TopLogprob.NoNulls, ← s.asF32_iff]
  obtain ⟨token, logprob, bytes⟩ := t
  simp [TopLogprob.ofJson, TopLogprob.json, required, missable, Option.bind_eq_some_iff,
    atMostOne_list asNat_nat]

theorem TokenLogprob.ofJson_json_iff {t : TokenLogprob} :
    TokenLogprob.ofJson s (t.json s.floats) = some t ↔ t.NoNulls s.floats := by
  have htops : atMostOne (asList (TopLogprob.ofJson s))
        (t.topLogprobs.map fun tops => .array (tops.map (TopLogprob.json s.floats))).toList
        = some t.topLogprobs
      ↔ ∀ tops ∈ t.topLogprobs, ∀ top ∈ tops, top.NoNulls s.floats := by
    refine atMostOne_iff_of_ne_null (fun _ => array_ne_null _) ?_ _
    intro tops
    simp only [asList_array_iff, TopLogprob.ofJson_json_iff]
  rw [TokenLogprob.NoNulls, ← s.asF32_iff, ← htops]
  obtain ⟨token, logprob, bytes, topLogprobs⟩ := t
  simp [TokenLogprob.ofJson, TokenLogprob.json, required, missable, Option.bind_eq_some_iff,
    atMostOne_list asNat_nat]

theorem LogprobsData.ofJson_json_iff {l : LogprobsData} :
    LogprobsData.ofJson s (l.json s.floats) = some l ↔ l.NoNulls s.floats := by
  have htokens : asList (TokenLogprob.ofJson s) (.array (l.tokens.map (TokenLogprob.json s.floats)))
      = some l.tokens ↔ l.NoNulls s.floats := by
    rw [asList_array_iff]
    simp only [TokenLogprob.ofJson_json_iff, LogprobsData.NoNulls]
  rw [← htokens]
  obtain ⟨tokens⟩ := l
  simp [LogprobsData.ofJson, LogprobsData.json, required, Option.bind_eq_some_iff]

/-- A float that may be missing comes back exactly when it is missing or written as a number. -/
theorem atMostOne_f32_iff {o : Option Float32} :
    atMostOne s.asF32 (o.map s.floats.f32).toList = some o ↔ ∀ x ∈ o, s.floats.f32 x ≠ .null := by
  rw [atMostOne_iff]
  simp [s.asF32_iff]

theorem ValidationMetadata.ofJson_json_iff {v : ValidationMetadata} :
    ValidationMetadata.ofJson s (v.json s.floats) = some v ↔ v.NoNulls s.floats := by
  have hlogprobs : atMostOne (LogprobsData.ofJson s)
        (v.logprobs.map (LogprobsData.json s.floats)).toList = some v.logprobs
      ↔ ∀ l ∈ v.logprobs, l.NoNulls s.floats  :=
    atMostOne_iff_of_ne_null (fun _ => object_ne_null _) (fun _ => LogprobsData.ofJson_json_iff s) _
  rw [validationNoNulls_iff, ← atMostOne_f32_iff, ← atMostOne_f32_iff, ← hlogprobs]
  obtain ⟨strategy, confidence, perplexity, candidatesGenerated, selectedIndex, selectionReason,
    passed, warning, logprobs⟩ := v
  simp [ValidationMetadata.ofJson, ValidationMetadata.json, required, missable,
    Option.bind_eq_some_iff]

theorem EnsembleVotes.ofJson_json_iff {v : EnsembleVotes} :
    EnsembleVotes.ofJson s (v.json s.floats) = some v ↔ v.NoNulls s.floats := by
  have hmodels := asList_array asStr_string v.models
  rw [EnsembleVotes.NoNulls, ← s.asF32_iff]
  obtain ⟨models, selectedModel, agreementScore, selectionReason⟩ := v
  simp [EnsembleVotes.ofJson, EnsembleVotes.json, required, Option.bind_eq_some_iff, hmodels]

theorem ConsistencyMetadata.ofJson_json_iff {c : ConsistencyMetadata} :
    ConsistencyMetadata.ofJson s (c.json s.floats) = some c ↔ c.NoNulls s.floats := by
  have hvotes : atMostOne (EnsembleVotes.ofJson s)
        (c.ensembleVotes.map (EnsembleVotes.json s.floats)).toList = some c.ensembleVotes
      ↔ c.NoNulls s.floats  :=
    atMostOne_iff_of_ne_null (fun _ => object_ne_null _) (fun _ => EnsembleVotes.ofJson_json_iff s) _
  have hadjustments := atMostOne_list asStr_string c.adjustments
  rw [← hvotes]
  obtain ⟨strategy, calibrationApplied, adjustments, styleApplied, principlesInjected,
    examplesInjected, ensembleVotes⟩ := c
  simp [ConsistencyMetadata.ofJson, ConsistencyMetadata.json, required, missable,
    Option.bind_eq_some_iff, hadjustments]

/-- A response comes back exactly when nothing in it is written as null. -/
theorem Response.ofJson_json_iff {r : Response} :
    Response.ofJson s (r.json s.floats) = some r ↔ r.NoNulls s.floats := by
  have houtput := asList_array Item.ofJson_json r.output
  have husage : atMostOne (Usage.ofJson s) (r.usage.map (Usage.json s.floats)).toList
        = some r.usage
      ↔ ∀ u ∈ r.usage, u.NoNulls s.floats  :=
    atMostOne_iff_of_ne_null (fun _ => object_ne_null _) (fun _ => Usage.ofJson_json_iff s) _
  have herror : atMostOne ResponseError.ofJson (r.error.map ResponseError.json).toList
      = some r.error :=
    atMostOne_iff.mpr fun e _ => ⟨object_ne_null _, e.ofJson_json⟩
  have hreason : atMostOne IncompleteReason.ofJson
      (r.incompleteReason.map fun i => Json.string i.name).toList = some r.incompleteReason :=
    atMostOne_iff.mpr fun i _ => ⟨string_ne_null _, i.ofJson_name⟩
  have hmetadata : atMostOne some r.metadata.toList = some r.metadata
      ↔ ∀ m ∈ r.metadata, m ≠ .null := by
    have h : atMostOne some (r.metadata.map fun m => m).toList = some r.metadata
        ↔ ∀ m ∈ r.metadata, m ≠ .null ∧ some m = some m := atMostOne_iff
    simpa using h
  have hvalidation : atMostOne (ValidationMetadata.ofJson s)
        (r.validation.map (ValidationMetadata.json s.floats)).toList = some r.validation
      ↔ ∀ v ∈ r.validation, v.NoNulls s.floats  :=
    atMostOne_iff_of_ne_null (fun _ => object_ne_null _) (fun _ => ValidationMetadata.ofJson_json_iff s) _
  have hconsistency : atMostOne (ConsistencyMetadata.ofJson s)
        (r.consistency.map (ConsistencyMetadata.json s.floats)).toList = some r.consistency
      ↔ ∀ c ∈ r.consistency, c.NoNulls s.floats  :=
    atMostOne_iff_of_ne_null (fun _ => object_ne_null _) (fun _ => ConsistencyMetadata.ofJson_json_iff s) _
  rw [responseNoNulls_iff, ← husage, ← hmetadata, ← hvalidation, ← hconsistency]
  obtain ⟨id, object, createdAt, model, status, output, usage, error, incompleteReason,
    previousResponseId, metadata, validation, consistency⟩ := r
  simp [Response.ofJson, Response.json, required, missable, defaulted, Option.bind_eq_some_iff,
    houtput, herror, hreason]

end Floats

/-! ## Events -/

def StreamError.ofJson (j : Json) : Option StreamError := do
  let type ← j.required "type" asStr
  let code ← j.required "code" asStr
  let message ← j.required "message" asStr
  let param ← j.missable "param" asStr
  return { type, code, message, param }

def RateLimitInfo.ofJson (j : Json) : Option RateLimitInfo := do
  let limit ← j.required "limit" asNat
  let remaining ← j.required "remaining" asNat
  let reset ← j.required "reset" asInt
  return { limit, remaining, reset }

@[simp] theorem StreamError.ofJson_json (e : StreamError) : StreamError.ofJson e.json = some e := by
  simp [StreamError.ofJson, StreamError.json, required, missable]

@[simp] theorem RateLimitInfo.ofJson_json (i : RateLimitInfo) :
    RateLimitInfo.ofJson i.json = some i := by
  simp [RateLimitInfo.ofJson, RateLimitInfo.json, required]

namespace StreamEvent

variable (s : SerdeJson)

/-- The variant is the one that is named in the tag. -/
def ofJson (j : Json) : Option StreamEvent := do
  match ← j.required "type" asStr with
  | "response.created" => return .responseCreated (← j.required "response" (Response.ofJson s))
  | "response.in_progress" =>
      return .responseInProgress (← j.required "response" (Response.ofJson s))
  | "response.completed" => return .responseCompleted (← j.required "response" (Response.ofJson s))
  | "response.failed" => return .responseFailed (← j.required "response" (Response.ofJson s))
  | "response.incomplete" =>
      return .responseIncomplete (← j.required "response" (Response.ofJson s))
  | "response.cancelled" => return .responseCancelled (← j.required "response" (Response.ofJson s))
  | "response.output_item.added" =>
      return .outputItemAdded (← j.required "output_index" asNat) (← j.required "item" Item.ofJson)
  | "response.output_item.done" =>
      return .outputItemDone (← j.required "output_index" asNat) (← j.required "item" Item.ofJson)
  | "response.content_part.added" =>
      return .contentPartAdded (← j.required "output_index" asNat)
        (← j.required "content_index" asNat) (← j.required "part_type" asStr)
  | "response.output_text.delta" =>
      return .outputTextDelta (← j.required "output_index" asNat)
        (← j.required "content_index" asNat) (← j.required "delta" asStr)
  | "response.output_text.done" =>
      return .outputTextDone (← j.required "output_index" asNat)
        (← j.required "content_index" asNat) (← j.required "text" asStr)
  | "response.content_part.done" =>
      return .contentPartDone (← j.required "output_index" asNat)
        (← j.required "content_index" asNat) (← j.required "part_type" asStr)
  | "response.function_call_arguments.delta" =>
      return .functionCallArgumentsDelta (← j.required "output_index" asNat)
        (← j.required "delta" asStr)
  | "response.function_call_arguments.done" =>
      return .functionCallArgumentsDone (← j.required "output_index" asNat)
        (← j.required "arguments" asStr)
  | "response.reasoning.delta" =>
      return .reasoningDelta (← j.required "output_index" asNat) (← j.required "delta" asStr)
  | "response.reasoning.done" =>
      return .reasoningDone (← j.required "output_index" asNat) (← j.required "text" asStr)
  | "error" => return .error (← j.required "error" StreamError.ofJson)
  | "rate_limit" => return .rateLimit (← j.required "rate_limit" RateLimitInfo.ofJson)
  | _ => none

/-- Nothing in the event is present and written as null. -/
def NoNulls (floats : FloatJson) : StreamEvent → Prop
  | .responseCreated r | .responseInProgress r | .responseCompleted r | .responseFailed r
  | .responseIncomplete r | .responseCancelled r => r.NoNulls floats
  | _ => True

/-- An event comes back exactly when nothing in it is written as null. -/
theorem ofJson_json_iff {e : StreamEvent} :
    ofJson s (e.json s.floats) = some e ↔ e.NoNulls s.floats := by
  cases e <;>
    simp [ofJson, json, serdeTag, fields, NoNulls, required, Option.bind_eq_some_iff,
      Response.ofJson_json_iff, Item.ofJson_json]

end StreamEvent

/-! ## Frames -/

/-- Parse the data as an event. -/
def SseMessage.parseEvent (s : SerdeJson) (m : SseMessage) : Option StreamEvent :=
  (s.fromStr m.data).bind (StreamEvent.ofJson s)

/-- Nothing is trimmed from a text that neither starts nor ends with a space. -/
theorem trimChars_eq_self {t : List Char} (hne : t ≠ [])
    (hhead : isWhitespace (t.head hne) = false) (hlast : isWhitespace (t.getLast hne) = false) :
    trimChars t = t := by
  have hdrop : t.dropWhile isWhitespace = t := by
    obtain ⟨c, rest, rfl⟩ := List.exists_cons_of_ne_nil hne
    exact List.dropWhile_cons_of_neg (by simpa using hhead)
  have hdrop' : t.reverse.dropWhile isWhitespace = t.reverse := by
    rw [← List.head_reverse (by simpa using hne)] at hlast
    obtain ⟨c, rest, hrest⟩ := List.exists_cons_of_ne_nil (List.reverse_ne_nil_iff.mpr hne)
    simp only [hrest, List.head_cons] at hlast ⊢
    exact List.dropWhile_cons_of_neg (by simpa using hlast)
  rw [trimChars, hdrop, hdrop', List.reverse_reverse]

theorem isWhitespace_of_name {c : Char} (h : c.isAlpha = true ∨ c = '.' ∨ c = '_') :
    isWhitespace c = false := by
  obtain ⟨hlo, hhi⟩ := toNat_of_name h
  simp [isWhitespace]
  omega

theorem StreamEvent.trimChars_eventType (e : StreamEvent) :
    trimChars e.eventType.toList = e.eventType.toList := by
  obtain ⟨hne, hchars⟩ := e.eventType_chars
  have hne : e.eventType.toList ≠ [] := by simpa using hne
  exact trimChars_eq_self hne (isWhitespace_of_name (hchars _ (List.head_mem hne)))
    (isWhitespace_of_name (hchars _ (List.getLast_mem hne)))

theorem StreamEvent.newline_not_mem_eventType (e : StreamEvent) : '\n' ∉ e.eventType.toList := by
  intro h
  rcases e.eventType_chars.2 _ h with h | h | h <;> exact absurd h (by decide)

/-- The frame of an event is read as a message with its name and its JSON. -/
theorem StreamEvent.parse_toSse {s : SerdeJson} {e : StreamEvent}
    (h : s.Faithful (e.json s.floats)) :
    ∃ m, SseMessage.parse (e.toSse s.floats s.toString) = some m
      ∧ m.event = some e.eventType ∧ m.data = s.toString (e.json s.floats) := by
  let m : SseMessage := { event := some e.eventType, data := s.toString (e.json s.floats) }
  obtain ⟨inner, hbraces⟩ := h.braces
  have htrim : trimChars (s.toString (e.json s.floats)).toList
      = (s.toString (e.json s.floats)).toList := by
    have hne : (s.toString (e.json s.floats)).toList ≠ [] := by simp [hbraces]
    apply trimChars_eq_self hne
    · simp [hbraces, isWhitespace]
    · simp [hbraces, isWhitespace]
  have hevent : ∀ event ∈ m.event, '\n' ∉ event.toList := by
    intro event hevent
    obtain rfl := Option.some.inj hevent
    exact e.newline_not_mem_eventType
  have hid : m.idLines = [] := rfl
  have hdata : m.dataLines = [] := continuation_of_not_mem h.oneLine
  have htext : e.toSse s.floats s.toString = m.toSse := by
    apply String.toList_injective
    simp [StreamEvent.toSse, SseMessage.toSse, m]
  rw [htext]
  apply (roundTrips_iff m).mpr
  rw [written_event hevent, written_data hevent, hid, hdata, firstLine_of_not_mem h.oneLine]
  refine ⟨?_, ?_, ?_⟩
  · simp [m, hbraces]
  · rw [List.filterMap_nil, List.append_nil, List.append_nil]
    show [trimChars e.eventType.toList].getLast? = some e.eventType.toList
    rw [e.trimChars_eventType, List.getLast?_singleton]
  · simp [m, joinData, appendData, htrim]

/-- An event comes back from its frame exactly when nothing in it is present and written as null,
which are metadata that is null and floats that are no finite numbers. -/
theorem StreamEvent.comes_back_iff (s : SerdeJson) (e : StreamEvent)
    (h : s.Faithful (e.json s.floats)) :
    (SseMessage.parse (e.toSse s.floats s.toString)).bind (SseMessage.parseEvent s) = some e
      ↔ e.NoNulls s.floats := by
  obtain ⟨m, hm, -, hdata⟩ := StreamEvent.parse_toSse h
  rw [hm, Option.bind_some, SseMessage.parseEvent, hdata, h.fromStr, Option.bind_some,
    StreamEvent.ofJson_json_iff]

namespace Sample

theorem null_or_number {α : Type} (_ : α) : Json.null = .null ∨ ∃ text, Json.null = .number text :=
  Or.inl rfl

/-- No float is in the events below. -/
def noFloats : FloatJson where
  f64 _ := .null
  f32 _ := .null
  f64_number := null_or_number
  f32_number := null_or_number

/-- The JSON library on one object, by the text between its braces. -/
def serdeJson (inner : String) (j : Json) : SerdeJson where
  floats := noFloats
  toString _ := "\x7b" ++ inner ++ "\x7d"
  fromStr text := if text = "\x7b" ++ inner ++ "\x7d" then some j else none
  parseF64 _ := none
  parseF32 _ := none
  parseF64_text _ _ h := by cases h
  parseF32_text _ _ h := by cases h

theorem faithful (inner : String) (j : Json) (hline : '\n' ∉ inner.toList) :
    (serdeJson inner j).Faithful j where
  braces := ⟨inner.toList, by simp [serdeJson]⟩
  oneLine := by simp [serdeJson, hline]
  fromStr := by simp [serdeJson]

/-- A text of two lines. -/
def delta : StreamEvent := .outputTextDelta 0 0 "a\nb"

def deltaJson : SerdeJson :=
  serdeJson
    "\"type\":\"response.output_text.delta\",\"output_index\":0,\"content_index\":0,\"delta\":\"a\\nb\""
    (delta.json noFloats)

theorem deltaJson_faithful : deltaJson.Faithful (delta.json noFloats) := by
  apply faithful
  exact not_mem_toList rfl (by decide)

/-- A response whose metadata is `metadata`. -/
def responseWith (metadata : Option Json) : Response :=
  { id := "r", object := "response", createdAt := 0, model := "m", status := .inProgress,
    output := [], usage := none, error := none, incompleteReason := none,
    previousResponseId := none, metadata := metadata, validation := none, consistency := none }

def nullMetadata : StreamEvent := .responseCreated (responseWith (some .null))

def nullMetadataJson : SerdeJson :=
  serdeJson
    "\"type\":\"response.created\",\"response\":\x7b\"id\":\"r\",\"object\":\"response\",\"created_at\":0,\"model\":\"m\",\"status\":\"in_progress\",\"output\":[],\"metadata\":null\x7d"
    (nullMetadata.json noFloats)

set_option maxRecDepth 1500 in
theorem nullMetadataJson_faithful : nullMetadataJson.Faithful (nullMetadata.json noFloats) := by
  apply faithful
  exact not_mem_toList rfl (by decide)

end Sample

/-- A text of two lines comes back. -/
theorem two_lines_come_back :
    (SseMessage.parse (Sample.delta.toSse Sample.noFloats Sample.deltaJson.toString)).bind
        (SseMessage.parseEvent Sample.deltaJson) = some Sample.delta :=
  (StreamEvent.comes_back_iff Sample.deltaJson Sample.delta Sample.deltaJson_faithful).mpr trivial

/-- Metadata that is null comes back as none. -/
theorem null_metadata_lost :
    (SseMessage.parse (Sample.nullMetadata.toSse Sample.noFloats Sample.nullMetadataJson.toString)).bind
        (SseMessage.parseEvent Sample.nullMetadataJson)
      = some (.responseCreated (Sample.responseWith none)) ∧
    (SseMessage.parse (Sample.nullMetadata.toSse Sample.noFloats Sample.nullMetadataJson.toString)).bind
        (SseMessage.parseEvent Sample.nullMetadataJson) ≠ some Sample.nullMetadata := by
  have h := Sample.nullMetadataJson_faithful
  obtain ⟨m, hm, -, hdata⟩ := StreamEvent.parse_toSse h
  have hread : (SseMessage.parse
      (Sample.nullMetadata.toSse Sample.noFloats Sample.nullMetadataJson.toString)).bind
        (SseMessage.parseEvent Sample.nullMetadataJson)
      = some (.responseCreated (Sample.responseWith none)) := by
    change SseMessage.parse
      (Sample.nullMetadata.toSse Sample.noFloats Sample.nullMetadataJson.toString) = some m at hm
    change m.data = Sample.nullMetadataJson.toString (Sample.nullMetadata.json Sample.noFloats)
      at hdata
    rw [hm, Option.bind_some, SseMessage.parseEvent, hdata, h.fromStr, Option.bind_some]
    simp [Sample.nullMetadata, Sample.responseWith, StreamEvent.json, StreamEvent.serdeTag,
      StreamEvent.fields, Response.json, StreamEvent.ofJson, Response.ofJson, required, missable,
      defaulted, atMostOne, nullable]
  refine ⟨hread, ?_⟩
  rw [hread]
  intro heq
  have hresponse := StreamEvent.responseCreated.inj (Option.some.inj heq)
  have hmetadata := congrArg Response.metadata hresponse
  cases hmetadata

end AuraGateway.Types
