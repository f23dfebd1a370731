import AuraGateway.Types.Request

/-!
# Stream events

The events a streamed response is sent as, and how each is serialised: as JSON with its
name under `type`, in a frame of an event line and a data line (`StreamEvent.toSse`). The
name in the event line is the one in the JSON (`StreamEvent.get_type_json`).
-/

set_option autoImplicit false

namespace AuraGateway.Types

/-! ## Serialisation -/

/-- How floats are written: as a number, or as null where there is none. -/
structure FloatJson where
  f64 : Float → Json
  f32 : Float32 → Json
  f64_number : ∀ x, f64 x = .null ∨ ∃ text, f64 x = .number text
  f32_number : ∀ x, f32 x = .null ∨ ∃ text, f32 x = .number text

namespace Json

def nat (n : Nat) : Json := .number (toString n)

def int (n : Int) : Json := .number (toString n)

/-- A field that is skipped where there is no value. -/
def optional (name : String) : Option Json → List (String × Json)
  | some value => [(name, value)]
  | none => []

end Json

/-! ## Items -/

/-- Status of an item in the response. -/
inductive ItemStatus where
  | inProgress
  | completed
  | failed
  | incomplete
  deriving DecidableEq, Repr

def ItemStatus.name : ItemStatus → String
  | .inProgress => "in_progress"
  | .completed => "completed"
  | .failed => "failed"
  | .incomplete => "incomplete"

def Role.name : Role → String
  | .user => "user"
  | .assistant => "assistant"
  | .system => "system"
  | .tool => "tool"

def ContentPart.json : ContentPart → Json
  | .text t => .object [("type", .string "text"), ("text", .string t)]
  | .image url data mediaType =>
      .object (("type", .string "image") :: Json.optional "url" (url.map .string)
        ++ Json.optional "data" (data.map .string)
        ++ Json.optional "media_type" (mediaType.map .string))
  | .audio data mediaType =>
      .object (("type", .string "audio") :: ("data", .string data)
        :: Json.optional "media_type" (mediaType.map .string))

/-- Content within a reasoning item. -/
inductive ReasoningContent where
  | text (text : String)
  | redacted (data : String)
  deriving DecidableEq, Repr

def ReasoningContent.json : ReasoningContent → Json
  | .text t => .object [("type", .string "text"), ("text", .string t)]
  | .redacted data => .object [("type", .string "redacted"), ("data", .string data)]

/-- An item in the conversation. -/
inductive Item where
  | message (id : String) (role : Role) (content : List ContentPart) (status : ItemStatus)
  | functionCall (id callId name arguments : String) (status : ItemStatus)
  | functionCallOutput (id callId output : String) (status : ItemStatus)
  | reasoning (id : String) (content : List ReasoningContent) (summary : Option String)
      (status : ItemStatus)
  deriving DecidableEq, Repr

def Item.json : Item → Json
  | .message id role content status =>
      .object
        [("type", .string "message"), ("id", .string id), ("role", .string role.name),
          ("content", .array (content.map ContentPart.json)), ("status", .string status.name)]
  | .functionCall id callId name arguments status =>
      .object
        [("type", .string "function_call"), ("id", .string id), ("call_id", .string callId),
          ("name", .string name), ("arguments", .string arguments),
          ("status", .string status.name)]
  | .functionCallOutput id callId output status =>
      .object
        [("type", .string "function_call_output"), ("id", .string id),
          ("call_id", .string callId), ("output", .string output),
          ("status", .string status.name)]
  | .reasoning id content summary status =>
      .object
        ([("type", .string "reasoning"), ("id", .string id),
            ("content", .array (content.map ReasoningContent.json))]
          ++ Json.optional "summary" (summary.map .string)
          ++ [("status", .string status.name)])

/-! ## Responses -/

/-- Status of a response. -/
inductive ResponseStatus where
  | inProgress
  | completed
  | failed
  | incomplete
  | cancelled
  deriving DecidableEq, Repr

def ResponseStatus.name : ResponseStatus → String
  | .inProgress => "in_progress"
  | .completed => "completed"
  | .failed => "failed"
  | .incomplete => "incomplete"
  | .cancelled => "cancelled"

/-- Reason why a response was marked incomplete. -/
inductive IncompleteReason where
  | maxTokens
  | contentFilter
  | cancelled
  | lowConfidence
  | unknown
  deriving DecidableEq, Repr

def IncompleteReason.name : IncompleteReason → String
  | .maxTokens => "max_tokens"
  | .contentFilter => "content_filter"
  | .cancelled => "cancelled"
  | .lowConfidence => "low_confidence"
  | .unknown => "unknown"

/-- Error information when a response fails. -/
structure ResponseError where
  code : String
  message : String
  param : Option String

def ResponseError.json (e : ResponseError) : Json :=
  .object ([("code", .string e.code), ("message", .string e.message)]
    ++ Json.optional "param" (e.param.map .string))

/-- Token usage information for a response. -/
structure Usage where
  inputTokens : Nat
  outputTokens : Nat
  totalTokens : Nat
  reasoningTokens : Option Nat
  cachedTokens : Option Nat
  costUsd : Option Float

def Usage.json (floats : FloatJson) (u : Usage) : Json :=
  .object ([("input_tokens", .nat u.inputTokens), ("output_tokens", .nat u.outputTokens),
      ("total_tokens", .nat u.totalTokens)]
    ++ Json.optional "reasoning_tokens" (u.reasoningTokens.map .nat)
    ++ Json.optional "cached_tokens" (u.cachedTokens.map .nat)
    ++ Json.optional "cost_usd" (u.costUsd.map floats.f64))

def ValidationStrategy.name : ValidationStrategy → String
  | .none => "none"
  | .logprobs => "logprobs"
  | .bestOfN => "best_of_n"
  | .selfConsistency => "self_consistency"
  | .confidenceThreshold => "confidence_threshold"
  | .ensemble => "ensemble"

/-- Alternative token with its log probability. -/
structure TopLogprob where
  token : String
  logprob : Float32
  bytes : Option (List Nat)

def TopLogprob.json (floats : FloatJson) (t : TopLogprob) : Json :=
  .object ([("token", .string t.token), ("logprob", floats.f32 t.logprob)]
    ++ Json.optional "bytes" (t.bytes.map fun bytes => .array (bytes.map .nat)))

/-- Log probability for a single token. -/
structure TokenLogprob where
  token : String
  logprob : Float32
  bytes : Option (List Nat)
  topLogprobs : Option (List TopLogprob)

def TokenLogprob.json (floats : FloatJson) (t : TokenLogprob) : Json :=
  .object ([("token", .string t.token), ("logprob", floats.f32 t.logprob)]
    ++ Json.optional "bytes" (t.bytes.map fun bytes => .array (bytes.map .nat))
    ++ Json.optional "top_logprobs"
      (t.topLogprobs.map fun tops => .array (tops.map (TopLogprob.json floats))))

/-- Token-level log probability data. -/
structure LogprobsData where
  tokens : List TokenLogprob

def LogprobsData.json (floats : FloatJson) (l : LogprobsData) : Json :=
  .object [("tokens", .array (l.tokens.map (TokenLogprob.json floats)))]

/-- Validation metadata included in a response. -/
structure ValidationMetadata where
  strategy : ValidationStrategy
  confidence : Option Float32
  perplexity : Option Float32
  candidatesGenerated : Option Nat
  selectedIndex : Option Nat
  selectionReason : Option String
  passed : Bool
  warning : Option String
  logprobs : Option LogprobsData

def ValidationMetadata.json (floats : FloatJson) (v : ValidationMetadata) : Json :=
  .object (("strategy", .string v.strategy.name)
    :: Json.optional "confidence" (v.confidence.map floats.f32)
    ++ Json.optional "perplexity" (v.perplexity.map floats.f32)
    ++ Json.optional "candidates_generated" (v.candidatesGenerated.map .nat)
    ++ Json.optional "selected_index" (v.selectedIndex.map .nat)
    ++ Json.optional "selection_reason" (v.selectionReason.map .string)
    ++ ("passed", .bool v.passed)
    :: Json.optional "warning" (v.warning.map .string)
    ++ Json.optional "logprobs" (v.logprobs.map (LogprobsData.json floats)))

/-- Consistency strategy that was applied. -/
inductive ConsistencyStrategy where
  | none
  | constitutional
  | referenceAnchoring
  | modelCalibration
  | formatSchema
  | fewShotPriming
  | styleProfile
  | semanticNormalization
  | ensembleVoting
  | adaptiveFewShot
  deriving DecidableEq, Repr

def ConsistencyStrategy.name : ConsistencyStrategy → String
  | .none => "none"
  | .constitutional => "constitutional"
  | .referenceAnchoring => "reference_anchoring"
  | .modelCalibration => "model_calibration"
  | .formatSchema => "format_schema"
  | .fewShotPriming => "few_shot_priming"
  | .styleProfile => "style_profile"
  | .semanticNormalization => "semantic_normalization"
  | .ensembleVoting => "ensemble_voting"
  | .adaptiveFewShot => "adaptive_few_shot"

/-- Ensemble voting results. -/
structure EnsembleVotes where
  models : List String
  selectedModel : String
  agreementScore : Float32
  selectionReason : String

def EnsembleVotes.json (floats : FloatJson) (v : EnsembleVotes) : Json :=
  .object [("models", .array (v.models.map .string)), ("selected_model", .string v.selectedModel),
    ("agreement_score", floats.f32 v.agreementScore),
    ("selection_reason", .string v.selectionReason)]

/-- Consistency metadata included in a response. -/
structure ConsistencyMetadata where
  strategy : ConsistencyStrategy
  calibrationApplied : Bool
  adjustments : Option (List String)
  styleApplied : Option String
  principlesInjected : Option Nat
  examplesInjected : Option Nat
  ensembleVotes : Option EnsembleVotes

def ConsistencyMetadata.json (floats : FloatJson) (c : ConsistencyMetadata) : Json :=
  .object ([("strategy", .string c.strategy.name),
      ("calibration_applied", .bool c.calibrationApplied)]
    ++ Json.optional "adjustments" (c.adjustments.map fun a => .array (a.map .string))
    ++ Json.optional "style_applied" (c.styleApplied.map .string)
    ++ Json.optional "principles_injected" (c.principlesInjected.map .nat)
    ++ Json.optional "examples_injected" (c.examplesInjected.map .nat)
    ++ Json.optional "ensemble_votes" (c.ensembleVotes.map (EnsembleVotes.json floats)))

/-- A response. -/
structure Response where
  id : String
  object : String
  createdAt : Int
  model : String
  status : ResponseStatus
  output : List Item
  usage : Option Usage
  error : Option ResponseError
  incompleteReason : Option IncompleteReason
  previousResponseId : Option String
  metadata : Option Json
  validation : Option ValidationMetadata
  consistency : Option ConsistencyMetadata

def Response.json (floats : FloatJson) (r : Response) : Json :=
  .object ([("id", .string r.id), ("object", .string r.object), ("created_at", .int r.createdAt),
      ("model", .string r.model), ("status", .string r.status.name),
      ("output", .array (r.output.map Item.json))]
    ++ Json.optional "usage" (r.usage.map (Usage.json floats))
    ++ Json.optional "error" (r.error.map ResponseError.json)
    ++ Json.optional "incomplete_reason" (r.incompleteReason.map fun i => .string i.name)
    ++ Json.optional "previous_response_id" (r.previousResponseId.map .string)
    ++ Json.optional "metadata" r.metadata
    ++ Json.optional "validation" (r.validation.map (ValidationMetadata.json floats))
    ++ Json.optional "consistency" (r.consistency.map (ConsistencyMetadata.json floats)))

/-! ## Events -/

/-- Error details for streaming errors. -/
structure StreamError where
  type : String
  code : String
  message : String
  param : Option String

def StreamError.json (e : StreamError) : Json :=
  .object ([("type", .string e.type), ("code", .string e.code), ("message", .string e.message)]
    ++ Json.optional "param" (e.param.map .string))

/-- Rate limit information. -/
structure RateLimitInfo where
  limit : Nat
  remaining : Nat
  reset : Int

def RateLimitInfo.json (i : RateLimitInfo) : Json :=
  .object [("limit", .nat i.limit), ("remaining", .nat i.remaining), ("reset", .int i.reset)]

/-- A streaming event. -/
inductive StreamEvent where
  | responseCreated (response : Response)
  | responseInProgress (response : Response)
  | responseCompleted (response : Response)
  | responseFailed (response : Response)
  | responseIncomplete (response : Response)
  | responseCancelled (response : Response)
  | outputItemAdded (outputIndex : Nat) (item : Item)
  | outputItemDone (outputIndex : Nat) (item : Item)
  | contentPartAdded (outputIndex contentIndex : Nat) (partType : String)
  | outputTextDelta (outputIndex contentIndex : Nat) (delta : String)
  | outputTextDone (outputIndex contentIndex : Nat) (text : String)
  | contentPartDone (outputIndex contentIndex : Nat) (partType : String)
  | functionCallArgumentsDelta (outputIndex : Nat) (delta : String)
  | functionCallArgumentsDone (outputIndex : Nat) (arguments : String)
  | reasoningDelta (outputIndex : Nat) (delta : String)
  | reasoningDone (outputIndex : Nat) (text : String)
  | error (error : StreamError)
  | rateLimit (rateLimit : RateLimitInfo)

namespace StreamEvent

/-- The event type as a string. -/
def eventType : StreamEvent → String
  | .responseCreated _ => "response.created"
  | .responseInProgress _ => "response.in_progress"
  | .responseCompleted _ => "response.completed"
  | .responseFailed _ => "response.failed"
  | .responseIncomplete _ => "response.incomplete"
  | .responseCancelled _ => "response.cancelled"
  | .outputItemAdded .. => "response.output_item.added"
  | .outputItemDone .. => "response.output_item.done"
  | .contentPartAdded .. => "response.content_part.added"
  | .outputTextDelta .. => "response.output_text.delta"
  | .outputTextDone .. => "response.output_text.done"
  | .contentPartDone .. => "response.content_part.done"
  | .functionCallArgumentsDelta .. => "response.function_call_arguments.delta"
  | .functionCallArgumentsDone .. => "response.function_call_arguments.done"
  | .reasoningDelta .. => "response.reasoning.delta"
  | .reasoningDone .. => "response.reasoning.done"
  | .error _ => "error"
  | .rateLimit _ => "rate_limit"

/-- A terminal event: the response completed, failed, was incomplete or was cancelled. -/
def isTerminal : StreamEvent → Bool
  | .responseCompleted _ | .responseFailed _ | .responseIncomplete _ | .responseCancelled _ => true
  | _ => false

/-- The name each variant is serialised under. -/
def serdeTag : StreamEvent → String
  | .responseCreated _ => "response.created"
  | .responseInProgress _ => "response.in_progress"
  | .responseCompleted _ => "response.completed"
  | .responseFailed _ => "response.failed"
  | .responseIncomplete _ => "response.incomplete"
  | .responseCancelled _ => "response.cancelled"
  | .outputItemAdded .. => "response.output_item.added"
  | .outputItemDone .. => "response.output_item.done"
  | .contentPartAdded .. => "response.content_part.added"
  | .outputTextDelta .. => "response.output_text.delta"
  | .outputTextDone .. => "response.output_text.done"
  | .contentPartDone .. => "response.content_part.done"
  | .functionCallArgumentsDelta .. => "response.function_call_arguments.delta"
  | .functionCallArgumentsDone .. => "response.function_call_arguments.done"
  | .reasoningDelta .. => "response.reasoning.delta"
  | .reasoningDone .. => "response.reasoning.done"
  | .error _ => "error"
  | .rateLimit _ => "rate_limit"

/-- The fields of each variant. -/
def fields (floats : FloatJson) : StreamEvent → List (String × Json)
  | .responseCreated response | .responseInProgress response | .responseCompleted response
  | .responseFailed response | .responseIncomplete response | .responseCancelled response =>
      [("response", response.json floats)]
  | .outputItemAdded outputIndex item | .outputItemDone outputIndex item =>
      [("output_index", .nat outputIndex), ("item", item.json)]
  | .contentPartAdded outputIndex contentIndex partType
  | .contentPartDone outputIndex contentIndex partType =>
      [("output_index", .nat outputIndex), ("content_index", .nat contentIndex),
        ("part_type", .string partType)]
  | .outputTextDelta outputIndex contentIndex delta =>
      [("output_index", .nat outputIndex), ("content_index", .nat contentIndex),
        ("delta", .string delta)]
  | .outputTextDone outputIndex contentIndex text =>
      [("output_index", .nat outputIndex), ("content_index", .nat contentIndex),
        ("text", .string text)]
  | .functionCallArgumentsDelta outputIndex delta | .reasoningDelta outputIndex delta =>
      [("output_index", .nat outputIndex), ("delta", .string delta)]
  | .functionCallArgumentsDone outputIndex arguments =>
      [("output_index", .nat outputIndex), ("arguments", .string arguments)]
  | .reasoningDone outputIndex text =>
      [("output_index", .nat outputIndex), ("text", .string text)]
  | .error e => [("error", e.json)]
  | .rateLimit i => [("rate_limit", i.json)]

/-- The event as JSON. -/
def json (floats : FloatJson) (e : StreamEvent) : Json :=
  .object (("type", .string e.serdeTag) :: e.fields floats)

/-- Convert to a frame: an event line, a data line, an empty line. -/
def toSse (floats : FloatJson) (toString : Json → String) (e : StreamEvent) : String :=
  "event: " ++ e.eventType ++ "\ndata: " ++ toString (e.json floats) ++ "\n\n"

/-- The two lists of names agree. -/
theorem serdeTag_eq_eventType (e : StreamEvent) : e.serdeTag = e.eventType := by
  cases e <;> rfl

/-- The name in the JSON is the one in the event line. -/
theorem get_type_json (floats : FloatJson) (e : StreamEvent) :
    (e.json floats).get "type" = some (.string e.eventType) := by
  rw [← serdeTag_eq_eventType]
  rfl

/-- A character of an event name. -/
def isNameChar (c : Char) : Bool := c.isAlpha || c == '.' || c == '_'

/-- Event names have no line end and no space in them, and are not empty. -/
theorem eventType_chars (e : StreamEvent) :
    e.eventType ≠ "" ∧ ∀ c ∈ e.eventType.toList, c.isAlpha = true ∨ c = '.' ∨ c = '_' := by
  -- each name is a fixed text
  have hname : e.eventType ≠ "" ∧ e.eventType.toList.all isNameChar = true := by
    cases e <;> rw [eventType] <;> decide +kernel
  refine ⟨hname.1, fun c hc => ?_⟩
  have hchar := List.all_eq_true.mp hname.2 c hc
  simpa [isNameChar, or_assoc] using hchar

end StreamEvent

theorem toNat_of_name {c : Char} (h : c.isAlpha = true ∨ c = '.' ∨ c = '_') :
    46 ≤ c.toNat ∧ c.toNat ≤ 122 := by
  rcases h with h | rfl | rfl
  · simp only [Char.isAlpha, Char.isUpper, Char.isLower, Bool.or_eq_true, Bool.and_eq_true,
      decide_eq_true_eq, ge_iff_le, UInt32.le_iff_toNat_le] at h
    simp only [Char.toNat]
    rcases h with ⟨hlo, hhi⟩ | ⟨hlo, hhi⟩
    · exact ⟨le_trans (by decide) hlo, le_trans hhi (by decide)⟩
    · exact ⟨le_trans (by decide) hlo, le_trans hhi (by decide)⟩
  · decide
  · decide

/-- A text is searched by its characters. -/
theorem not_mem_toList {text : String} {cs : List Char} {c : Char} (htext : text = String.ofList cs)
    (hcs : c ∉ cs) : c ∉ text.toList := by
  rw [htext, String.toList_ofList]
  exact hcs

end AuraGateway.Types
