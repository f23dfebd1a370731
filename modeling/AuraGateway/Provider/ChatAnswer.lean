import AuraGateway.Provider.ChatChunks

/-!
# Answers of the chat-completions APIs

What OpenAI and the providers compatible with it make of a whole answer. The providers differ
in the finish reasons that leave a response incomplete, in how a tool call is read, and in the
usage they report.
-/

set_option autoImplicit false

namespace AuraGateway.Provider

open AuraGateway.Types

/-! ## Wire types -/

/-- A tool call of an answer. -/
structure AnswerCall where
  id : String
  name : String
  arguments : String
  deriving DecidableEq, Repr

/-- Arguments that come as a string or as JSON. -/
inductive LooseArguments where
  | string (value : String)
  | json (value : Json)

/-- A tool call of Together and Fireworks. -/
structure LooseCall where
  id : Option String
  name : String
  arguments : LooseArguments

structure AnswerMessage (κ : Type) where
  content : Option String
  toolCalls : Option (List κ)

structure AnswerChoice (κ : Type) where
  message : AnswerMessage κ
  finishReason : String

/-- An answer, without its model. -/
structure ChatAnswer (κ : Type) where
  id : String
  created : Int
  choices : List (AnswerChoice κ)
  usage : Option ChunkUsage

/-! ## Reading an answer -/

def noResponse : ResponseError where
  code := "no_response"
  message := "No response from model"
  param := none

/-- What a provider reads differently. -/
structure AnswerFormat (κ : Type) where
  /-- The finish reasons that leave a response incomplete; all others complete it. -/
  incompleteReason : String → Option IncompleteReason
  /-- A tool call and its position. -/
  callOf : Nat → κ → AnswerCall
  toUsage : ChunkUsage → Usage

namespace AnswerFormat

variable {κ : Type} (fmt : AnswerFormat κ)

/-- The items of a message: its content, and its tool calls numbered behind it. -/
def items (message : AnswerMessage κ) : List Item :=
  let texts := (message.content.map (Item.assistant "msg_0")).toList
  texts ++ (message.toolCalls.getD []).zipIdx.map fun p =>
    let call := fmt.callOf p.2 p.1
    Item.newFunctionCall ("fc_" ++ toString (texts.length + p.2)) call.id call.name call.arguments

/-- The response, with the status that the finish reason of the first choice gives. -/
def response (id model : String) (createdAt : Int) (choices : List (AnswerChoice κ))
    (usage : Option ChunkUsage) : Response :=
  let base := Response.builder id model createdAt
  match choices.head? with
  | none =>
      { base with status := .failed, error := some noResponse, usage := usage.map fmt.toUsage }
  | some choice =>
      let reason := fmt.incompleteReason choice.finishReason
      { base with
        output := fmt.items choice.message
        status := if reason.isSome then .incomplete else .completed
        incompleteReason := reason
        usage := usage.map fmt.toUsage }

end AnswerFormat

/-! ## The providers -/

/-- A call with its own id and its arguments as text. -/
def plainCall (_ : Nat) (call : AnswerCall) : AnswerCall := call

/-- `normalized`; `toJson` is `serde_json::to_string`. -/
def LooseArguments.normalized (toJson : Json → String) : LooseArguments → String
  | .string value => value
  | .json value => toJson value

/-- A call without an id is named after its position. -/
def looseCall (toJson : Json → String) (i : Nat) (call : LooseCall) : AnswerCall where
  id := call.id.getD ("call_" ++ toString i)
  name := call.name
  arguments := call.arguments.normalized toJson

/-- Usage without cached tokens. -/
def ChunkUsage.plain (u : ChunkUsage) : Usage := Usage.new u.promptTokens u.completionTokens

def OpenAIProvider.answerFormat : AnswerFormat AnswerCall where
  incompleteReason
    | "length" => some .maxTokens
    | "content_filter" => some .contentFilter
    | _ => none
  callOf := plainCall
  toUsage := ChunkUsage.toUsage

def MistralProvider.answerFormat : AnswerFormat AnswerCall where
  incompleteReason
    | "length" => some .maxTokens
    | "model_length" => some .maxTokens
    | _ => none
  callOf := plainCall
  toUsage := ChunkUsage.toUsage

def OllamaProvider.answerFormat : AnswerFormat AnswerCall where
  incompleteReason
    | "length" => some .maxTokens
    | _ => none
  callOf := plainCall
  toUsage := ChunkUsage.plain

/-- HuggingFace reads an answer as Ollama does; `eos_token` is one more reason that
completes. -/
def HuggingFaceProvider.answerFormat : AnswerFormat AnswerCall := OllamaProvider.answerFormat

def TogetherProvider.answerFormat (toJson : Json → String) : AnswerFormat LooseCall where
  incompleteReason
    | "length" => some .maxTokens
    | _ => none
  callOf := looseCall toJson
  toUsage := ChunkUsage.toUsage

def FireworksProvider.answerFormat (toJson : Json → String) : AnswerFormat LooseCall :=
  TogetherProvider.answerFormat toJson

/-- `OpenAIProvider::transform_response`. The log probabilities of the first choice come as
the metadata that the library makes of them. -/
def OpenAIProvider.transformResponse (answer : ChatAnswer AnswerCall)
    (validation : Option ValidationMetadata) (model : String) : Response :=
  { OpenAIProvider.answerFormat.response ("resp_oai_" ++ answer.id) model answer.created
      answer.choices answer.usage with validation := validation }

/-- `MistralProvider::transform_response`. -/
def MistralProvider.transformResponse (answer : ChatAnswer AnswerCall) (model : String) :
    Response :=
  MistralProvider.answerFormat.response ("resp_mis_" ++ answer.id) model answer.created
    answer.choices answer.usage

/-- `OllamaProvider::transform_response`: the id is fresh, the time that of the answer's
arrival. -/
def OllamaProvider.transformResponse (uuid : String) (now : Int) (answer : ChatAnswer AnswerCall)
    (model : String) : Response :=
  OllamaProvider.answerFormat.response ("resp_oll_" ++ uuid) model now answer.choices answer.usage

/-- `HuggingFaceProvider::transform_response`: likewise. -/
def HuggingFaceProvider.transformResponse (uuid : String) (now : Int)
    (answer : ChatAnswer AnswerCall) (model : String) : Response :=
  HuggingFaceProvider.answerFormat.response ("resp_hf_" ++ uuid) model now answer.choices
    answer.usage

/-- `TogetherProvider::transform_response`. -/
def TogetherProvider.transformResponse (toJson : Json → String) (answer : ChatAnswer LooseCall)
    (model : String) : Response :=
  (TogetherProvider.answerFormat toJson).response ("resp_tog_" ++ answer.id) model answer.created
    answer.choices answer.usage

/-- `FireworksProvider::transform_response`. -/
def FireworksProvider.transformResponse (toJson : Json → String) (answer : ChatAnswer LooseCall)
    (model : String) : Response :=
  (FireworksProvider.answerFormat toJson).response ("resp_fw_" ++ answer.id) model answer.created
    answer.choices answer.usage

/-! ## What an answer says -/

/-- What a function call says: its call id, its name and its arguments. -/
def callFields : Item → Option (String × String × String)
  | .functionCall _ callId name arguments _ => some (callId, name, arguments)
  | _ => none

def AnswerCall.fields (call : AnswerCall) : String × String × String :=
  (call.id, call.name, call.arguments)

namespace AnswerFormat

variable {κ : Type} (fmt : AnswerFormat κ)

/-- The text of the items is the content. -/
theorem text_items (message : AnswerMessage κ) :
    String.join ((fmt.items message).map Item.text) = message.content.getD "" := by
  have hcalls : ∀ (n : Nat) (calls : List (κ × Nat)), String.join ((calls.map fun p =>
      Item.newFunctionCall ("fc_" ++ toString (n + p.2)) (fmt.callOf p.2 p.1).id
        (fmt.callOf p.2 p.1).name (fmt.callOf p.2 p.1).arguments).map Item.text) = "" := by
    intro n calls
    induction calls with
    | nil => rfl
    | cons p calls ih =>
        rw [List.map_cons, List.map_cons, String.join_cons, ih]
        rfl
  rw [items, List.map_append, String.join_append, hcalls, String.append_empty]
  cases message.content with
  | none => rfl
  | some content => simp [String.join]

/-- The function calls of the items are the tool calls, in their order. -/
theorem callFields_items (message : AnswerMessage κ) :
    (fmt.items message).filterMap callFields
      = (message.toolCalls.getD []).zipIdx.map fun p => (fmt.callOf p.2 p.1).fields := by
  have htext : (message.content.map (Item.assistant "msg_0")).toList.filterMap callFields = [] := by
    cases message.content with
    | none => rfl
    | some content => rfl
  rw [items, List.filterMap_append, htext, List.nil_append, List.filterMap_map,
    ← List.filterMap_eq_map]
  rfl

end AnswerFormat

end AuraGateway.Provider
