import AuraGateway.Sdk.DataModel

/-!
# The models of the Python SDK

The models that the Python SDK reads stream events into, and which events of the gateway
they keep. The gateway writes fields that the models do not declare: a model then ignores
them, so the event arrives with less than was sent, and a value of a kind that the models
do not know makes the event fail as a whole.

`declares_event_iff` says for each event of the gateway whether its model declares all of it.
-/

set_option autoImplicit false

namespace AuraGateway.Sdk

open AuraGateway.Types

/-! ## The models -/

namespace Python

open FieldType

variable (p : Pydantic)

def optStr (name : String) : Field := .opt name (optional str)

def typeTag (name : String) : Field := .opt "type" (oneOf [name])

def textContent : FieldType := model [typeTag "text", .req "text" str]

def imageContent : FieldType :=
  model [typeTag "image", optStr "url", optStr "base64", optStr "media_type"]

def content : FieldType := tagged p "type" [("text", textContent), ("image", imageContent)]

def role : FieldType := oneOf ["user", "assistant", "system"]

def messageItem : FieldType :=
  model [typeTag "message", optStr "id", .req "role" role, .req "content" (list (content p)),
    optStr "status"]

def functionCallItem : FieldType :=
  model [typeTag "function_call", optStr "id", .req "call_id" str, .req "name" str,
    .req "arguments" str, optStr "status"]

def functionCallOutputItem : FieldType :=
  model [typeTag "function_call_output", optStr "id", .req "call_id" str, .req "output" str]

def reasoningItem : FieldType :=
  model [typeTag "reasoning", optStr "id", .req "content" (list textContent), optStr "status"]

def item : FieldType :=
  tagged p "type"
    [("message", messageItem p), ("function_call", functionCallItem),
      ("function_call_output", functionCallOutputItem), ("reasoning", reasoningItem)]

def usage : FieldType :=
  model [.opt "input_tokens" (int p), .opt "output_tokens" (int p), .opt "total_tokens" (int p),
    .opt "input_tokens_details" (optional (dict (int p))),
    .opt "output_tokens_details" (optional (dict (int p))),
    .opt "cost_usd" (optional (float p))]

def responseError : FieldType := model [.req "code" str, .req "message" str, optStr "param"]

def auraMetadata : FieldType :=
  model [optStr "request_id", optStr "model", optStr "provider", optStr "gateway_version",
    .opt "latency_ms" (optional (int p)), .opt "agentic" (optional (dict anything))]

def responseMetadata : FieldType := model [.opt "aura" (optional (auraMetadata p))]

def validationStrategy : FieldType :=
  oneOf ["none", "logprobs", "best_of_n", "self_consistency", "confidence_threshold"]

def validationMetadata : FieldType :=
  model [.opt "strategy" (optional validationStrategy), .opt "confidence" (optional (float p)),
    .opt "perplexity" (optional (float p)), .opt "candidates_generated" (optional (int p)),
    .opt "selected_index" (optional (int p)), .opt "min_confidence" (optional (float p))]

def responseStatus : FieldType :=
  oneOf ["in_progress", "completed", "failed", "incomplete", "cancelled"]

def response : FieldType :=
  model [.req "id" str, .opt "object" (oneOf ["response"]), .req "created_at" (int p),
    .req "status" responseStatus, .req "model" str, .opt "output" (list (item p)),
    .opt "usage" (optional (usage p)), .opt "error" (optional responseError),
    .opt "metadata" (optional (responseMetadata p)), optStr "previous_response_id",
    optStr "conversation_id", .opt "validation" (optional (validationMetadata p))]

/-- `StreamEventBase` with the fields of one event. -/
def event (name : String) (fields : List Field) : String × FieldType :=
  (name, model ([typeTag name, .opt "sequence" (optional (int p))] ++ fields))

/-- `event_map` of `_parse_event_data`. -/
def eventMap : List (String × FieldType) :=
  [event p "response.created" [.req "response" (response p)],
    event p "response.in_progress" [.req "response" (response p)],
    event p "response.completed" [.req "response" (response p)],
    event p "response.failed" [.req "response" (response p)],
    event p "response.output_item.added" [.req "item" (item p), .req "output_index" (int p)],
    event p "response.output_item.done" [.req "item" (item p), .req "output_index" (int p)],
    event p "response.output_text.delta"
      [.req "delta" str, .req "output_index" (int p), .req "content_index" (int p)],
    event p "response.output_text.done"
      [.req "text" str, .req "output_index" (int p), .req "content_index" (int p)],
    event p "response.function_call.delta"
      [.req "delta" str, .req "output_index" (int p), .req "call_id" str],
    event p "response.function_call.done"
      [.req "item" functionCallItem, .req "output_index" (int p)],
    event p "error" [.req "error" responseError]]

end Python

/-! ## What they keep of the gateway's events -/

/-- The content the models declare. -/
def ContentDeclared : ContentPart → Prop
  | .text _ => True
  | .image _ data _ => data = none
  | .audio .. => False

/-- The items the models declare, with all their fields. -/
def ItemDeclared : Item → Prop
  | .message _ role content _ => role ≠ .tool ∧ ∀ c ∈ content, ContentDeclared c
  | .functionCall .. => True
  | .functionCallOutput .. => False
  | .reasoning _ content summary _ => summary = none ∧ ∀ c ∈ content, ∃ t, c = .text t

/-- The responses the models declare, with all their fields. -/
@[mk_iff] structure ResponseDeclared (p : Pydantic) (r : Response) : Prop where
  object : r.object = "response"
  output : ∀ i ∈ r.output, ItemDeclared i
  usage : ∀ u ∈ r.usage, u.reasoningTokens = none ∧ u.cachedTokens = none
  incompleteReason : r.incompleteReason = none
  metadata : ∀ m ∈ r.metadata, m = .null ∨ (Python.responseMetadata p).Declares m
  validation : r.validation = none
  consistency : r.consistency = none

/-- The events the models declare, with all their fields. -/
def EventDeclared (p : Pydantic) : StreamEvent → Prop
  | .responseCreated r | .responseInProgress r | .responseCompleted r | .responseFailed r =>
      ResponseDeclared p r
  | .outputItemAdded _ i | .outputItemDone _ i => ItemDeclared i
  | .outputTextDelta .. | .outputTextDone .. => True
  | _ => False

variable (p : Pydantic) (floats : FloatJson)

/-- The name a content part is tagged with. -/
def contentTag : ContentPart → String
  | .text _ => "text"
  | .image .. => "image"
  | .audio .. => "audio"

theorem get_type_content (c : ContentPart) : c.json.get "type" = some (.string (contentTag c)) := by
  cases c <;> rfl

/-- The name an item is tagged with. -/
def itemTag : Item → String
  | .message .. => "message"
  | .functionCall .. => "function_call"
  | .functionCallOutput .. => "function_call_output"
  | .reasoning .. => "reasoning"

theorem get_type_item (i : Item) : i.json.get "type" = some (.string (itemTag i)) := by
  cases i <;> rfl

@[simp] theorem declares_textContent (t : String) :
    Python.textContent.Declares (.object [("type", .string "text"), ("text", .string t)]) := by
  simp [Python.textContent, Python.typeTag, Field.opt, Field.req, hasRequired, List.lookup]

theorem declares_content_iff (c : ContentPart) :
    (Python.content p).Declares c.json ↔ ContentDeclared c := by
  rw [Python.content, declares_tagged (get_type_content c)]
  cases c with
  | text t => simp [ContentPart.json, ContentDeclared, List.lookup, contentTag]
  | image url data mediaType =>
      cases data <;>
        simp [ContentPart.json, ContentDeclared, List.lookup, contentTag, Python.imageContent,
          Python.typeTag, Python.optStr, Field.opt, hasRequired]
  | audio data mediaType => simp [ContentDeclared, List.lookup, contentTag]

theorem declares_reasoningContent_iff (c : ReasoningContent) :
    Python.textContent.Declares c.json ↔ ∃ t, c = .text t := by
  cases c <;>
    simp [ReasoningContent.json, Python.textContent, Python.typeTag, Field.opt, Field.req,
      hasRequired, List.lookup]

theorem role_declared_iff (role : Role) : Python.role.Declares (.string role.name) ↔ role ≠ .tool := by
  cases role <;> simp [Python.role, Role.name]

theorem declares_functionCallItem (id callId name arguments : String) (status : ItemStatus) :
    Python.functionCallItem.Declares (Item.functionCall id callId name arguments status).json := by
  simp [Item.json, List.lookup, Python.functionCallItem, Python.typeTag, Python.optStr, Field.opt,
    Field.req, hasRequired]

theorem declares_item_iff (i : Item) : (Python.item p).Declares i.json ↔ ItemDeclared i := by
  rw [Python.item, declares_tagged (get_type_item i)]
  cases i with
  | message id role content status =>
      simp [Item.json, ItemDeclared, List.lookup, itemTag, Python.messageItem, Python.typeTag,
        Python.optStr, Field.opt, Field.req, hasRequired, role_declared_iff, declares_content_iff]
  | functionCall id callId name arguments status =>
      simp [ItemDeclared, List.lookup, itemTag, declares_functionCallItem]
  | functionCallOutput id callId output status =>
      -- the status of an output is not declared
      simp [Item.json, ItemDeclared, List.lookup, itemTag, Python.functionCallOutputItem,
        Python.typeTag, Python.optStr, Field.opt, Field.req, hasRequired]
  | reasoning id content summary status =>
      cases summary <;>
        simp [Item.json, ItemDeclared, List.lookup, itemTag, Python.reasoningItem, Python.typeTag,
          Python.optStr, Field.opt, Field.req, hasRequired, declares_reasoningContent_iff]

theorem declares_usage_iff (u : Usage) :
    (Python.usage p).Declares (u.json floats) ↔ u.reasoningTokens = none ∧ u.cachedTokens = none := by
  have hcost : ∀ x, (floats.f64 x = .null ∨ (FieldType.float p).Declares (floats.f64 x)) := by
    intro x
    exact (floats.f64_number x).imp id fun h => h
  cases hr : u.reasoningTokens <;> cases hc : u.cachedTokens <;>
    simp [Usage.json, Python.usage, Field.opt, hasRequired, hr, hc, hcost]

theorem declares_responseError (e : ResponseError) : Python.responseError.Declares e.json := by
  simp [ResponseError.json, Python.responseError, Python.optStr, Field.opt, Field.req, hasRequired,
    List.lookup]

/-- Every validation record says whether the response passed, which no model declares. -/
theorem not_declares_validation (v : ValidationMetadata) :
    ¬ (Python.validationMetadata p).Declares (v.json floats) := by
  simp [ValidationMetadata.json, Python.validationMetadata, Field.opt, hasRequired]

theorem responseStatus_declared (s : ResponseStatus) :
    Python.responseStatus.Declares (.string s.name) := by
  cases s <;> simp [Python.responseStatus, ResponseStatus.name]

theorem declares_response_iff (r : Response) :
    (Python.response p).Declares (r.json floats) ↔ ResponseDeclared p r := by
  have husage : ∀ u : Usage, u.json floats ≠ .null := by
    intro u
    simp [Usage.json]
  have hvalidation : ∀ v : ValidationMetadata, v.json floats ≠ .null := by
    intro v
    simp [ValidationMetadata.json]
  rw [responseDeclared_iff]
  cases hi : r.incompleteReason <;> cases hv : r.validation <;> cases hc : r.consistency <;>
    simp [Response.json, Python.response, Python.optStr, Field.opt, Field.req, hasRequired,
      List.lookup, hi, hv, hc, husage, hvalidation, responseStatus_declared, declares_item_iff,
      declares_responseError, declares_usage_iff, not_declares_validation]

/-- Every error of a stream says of which type it is, which no model declares. -/
theorem not_declares_streamError (e : StreamError) :
    ¬ Python.responseError.Declares e.json := by
  simp [StreamError.json, Python.responseError, Python.optStr, Field.opt, Field.req, hasRequired]

/-- The model of an event declares all of it if and only if its parts are ones the models
declare. -/
theorem declares_event_iff (e : StreamEvent) :
    (∃ t, (Python.eventMap p).lookup e.eventType = some t ∧ t.Declares (e.json floats)) ↔
      EventDeclared p e := by
  cases e <;>
    simp [StreamEvent.eventType, StreamEvent.json, StreamEvent.serdeTag, StreamEvent.fields, Python.eventMap, Python.event, Python.typeTag,
      Field.opt, Field.req, hasRequired, List.lookup, EventDeclared, declares_response_iff, declares_item_iff, not_declares_streamError]

end AuraGateway.Sdk
