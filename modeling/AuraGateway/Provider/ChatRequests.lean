import AuraGateway.Provider.GeminiRequest
import AuraGateway.Proxy.Calls
import AuraGateway.Types.StreamEvent

/-!
# Requests to the chat-completions APIs

What OpenAI and the providers copied from it make of a request. The copies leave system messages
out, as handled by the instructions, which they are not: their text survives exactly where it
is also said elsewhere. On an input without system messages the copies send what OpenAI is
sent (`chat_requests_agree_iff`).
-/

set_option autoImplicit false

namespace AuraGateway.Provider

open AuraGateway.Types AuraGateway.Proxy

/-! ## Wire types -/

/-- A part of a message. -/
inductive ChatPart where
  | text (text : String)
  | imageUrl (url : String)
  deriving DecidableEq, Repr

inductive ChatContent where
  | text (text : String)
  | parts (parts : List ChatPart)
  deriving DecidableEq, Repr

/-- A tool call; its type is `function`. -/
structure ChatToolCall where
  id : String
  name : String
  arguments : String
  deriving DecidableEq, Repr

/-- A message; no provider is sent a name. -/
structure ChatRequestMessage where
  role : String
  content : Option ChatContent := none
  toolCalls : Option (List ChatToolCall) := none
  toolCallId : Option String := none
  deriving DecidableEq, Repr

structure ChatTool where
  name : String
  description : Option String
  parameters : Option Json
  strict : Option Bool

inductive ChatToolChoice where
  | string (value : String)
  | function (name : String)

/-- The fields that the requests of all providers have. -/
structure ChatRequest where
  model : String
  messages : List ChatRequestMessage
  maxTokens : Option Nat
  temperature : Option Float32
  topP : Option Float32
  stream : Option Bool
  tools : Option (List ChatTool)
  toolChoice : Option ChatToolChoice

/-! ## Encoding a request -/

/-- What a provider does differently. -/
structure ChatEncoder where
  skipsSystem : Bool
  /-- What an audio part becomes, if anything. -/
  audio : String → Option String → Option ChatPart
  /-- The content of a message whose parts have been encoded. -/
  gather : List ChatPart → ChatContent
  /-- The tool choice that requires a call. -/
  required : String
  /-- Whether functions are marked as strict. -/
  sendsStrict : Bool

/-- The text that stands for an audio part. -/
def audioPlaceholder (data : String) (mediaType : Option String) : ChatPart :=
  .text ("[Audio: " ++ toString data.utf8ByteSize ++ " bytes, type: "
    ++ mediaType.getD "audio/mp3" ++ "]")

/-- Consecutive function calls become one message of the assistant. -/
def flushToolCalls (pending : List ChatToolCall) : List ChatRequestMessage :=
  if pending.isEmpty then [] else [{ role := "assistant", toolCalls := some pending }]

namespace ChatEncoder

variable (enc : ChatEncoder)

/-- What a part of a message becomes. -/
def part : ContentPart → Option ChatPart
  | .text t => some (.text t)
  | .image url data mediaType =>
      match url, data with
      | some url, _ => some (.imageUrl url)
      | none, some data =>
          some (.imageUrl ("data:" ++ mediaType.getD "image/png" ++ ";base64," ++ data))
      | none, none => some (.text "[Invalid image]")
  | .audio data mediaType => enc.audio data mediaType

def content : InputContent → ChatContent
  | .text t => .text t
  | .parts parts => enc.gather (parts.filterMap enc.part)

/-- The messages for items, behind function calls that wait for the end of their batch. -/
def encodeItems : List ChatToolCall → List InputItem → List ChatRequestMessage
  | pending, [] => flushToolCalls pending
  | pending, .functionCall callId name arguments :: rest =>
      encodeItems (pending ++ [{ id := callId, name, arguments }]) rest
  | pending, .message role content :: rest =>
      flushToolCalls pending
        ++ (if enc.skipsSystem && role == .system then []
          else [{ role := role.name, content := some (enc.content content) }])
        ++ encodeItems [] rest
  | pending, .functionCallOutput callId output :: rest =>
      flushToolCalls pending
        ++ [{ role := "tool", content := some (.text output), toolCallId := some callId }]
        ++ encodeItems [] rest

/-- The messages of a request: the instructions, and the input. -/
def messages (request : CreateResponseRequest) : List ChatRequestMessage :=
  (request.instructions.map fun instructions =>
      ({ role := "system", content := some (.text instructions) } : ChatRequestMessage)).toList
    ++ enc.encodeItems [] request.input

def toolChoice : ToolChoice → ChatToolChoice
  | .auto .auto => .string "auto"
  | .auto .required => .string enc.required
  | .auto .none => .string "none"
  | .function _ name => .function name

def tool (t : Tool) : ChatTool where
  name := t.function.name
  description := t.function.description
  parameters := t.function.parameters
  strict := if enc.sendsStrict then t.function.strict else none

def request (request : CreateResponseRequest) : ChatRequest where
  model := request.model
  messages := enc.messages request
  maxTokens := request.maxOutputTokens
  temperature := request.temperature
  topP := request.topP
  stream := some request.stream
  tools := request.tools.map (·.map enc.tool)
  toolChoice := request.toolChoice.map enc.toolChoice

end ChatEncoder

/-! ## The providers -/

def OpenAIProvider.encoder : ChatEncoder where
  skipsSystem := false
  audio data mediaType := some (audioPlaceholder data mediaType)
  gather := .parts
  required := "required"
  sendsStrict := true

def MistralProvider.encoder : ChatEncoder where
  skipsSystem := true
  audio data mediaType := some (audioPlaceholder data mediaType)
  gather := .parts
  required := "any"
  sendsStrict := false

def OllamaProvider.encoder : ChatEncoder where
  skipsSystem := true
  audio data mediaType := some (audioPlaceholder data mediaType)
  gather := .parts
  required := "required"
  sendsStrict := false

def HuggingFaceProvider.encoder : ChatEncoder where
  skipsSystem := true
  audio data mediaType := some (audioPlaceholder data mediaType)
  gather := .parts
  required := "required"
  sendsStrict := false

/-- Audio parts are dropped, and a message that has no other parts gets an empty text. -/
def FireworksProvider.encoder : ChatEncoder where
  skipsSystem := true
  audio _ _ := none
  gather parts := if parts.isEmpty then .text "" else .parts parts
  required := "required"
  sendsStrict := false

/-- `OpenAIProvider::transform_request`, but for the fields only OpenAI is sent. -/
def OpenAIProvider.transformRequest (request : CreateResponseRequest) : ChatRequest :=
  OpenAIProvider.encoder.request request

/-- `MistralProvider::transform_request`. -/
def MistralProvider.transformRequest (request : CreateResponseRequest) : ChatRequest :=
  MistralProvider.encoder.request request

/-- `OllamaProvider::transform_request`. -/
def OllamaProvider.transformRequest (request : CreateResponseRequest) : ChatRequest :=
  OllamaProvider.encoder.request request

/-- `HuggingFaceProvider::transform_request`. -/
def HuggingFaceProvider.transformRequest (request : CreateResponseRequest) : ChatRequest :=
  HuggingFaceProvider.encoder.request request

/-- `FireworksProvider::transform_request`. -/
def FireworksProvider.transformRequest (request : CreateResponseRequest) : ChatRequest :=
  FireworksProvider.encoder.request request

/-! ## What a request says -/

/-- The parts of a content; a text is one part. -/
def ChatContent.toParts : ChatContent → List ChatPart
  | .text t => [.text t]
  | .parts ps => ps

/-- The parts that say something: all but empty texts. -/
def ChatContent.said (content : ChatContent) : List ChatPart :=
  content.toParts.filter fun part => part ≠ .text ""

def ChatPart.text? : ChatPart → Option String
  | .text t => some t
  | .imageUrl _ => none

/-- The texts of messages. -/
def messageTexts (messages : List ChatRequestMessage) : List String :=
  messages.flatMap fun m => (m.content.toList.flatMap ChatContent.toParts).filterMap ChatPart.text?

/-- Role, texts and images, tool calls and the call that is answered. -/
def ChatRequestMessage.view (m : ChatRequestMessage) :
    String × Option (List ChatPart) × Option (List ChatToolCall) × Option String :=
  (m.role, m.content.map ChatContent.said, m.toolCalls, m.toolCallId)

/-- A system message. -/
def isSystemMessage : InputItem → Bool
  | .message .system _ => true
  | _ => false

def isAudio : ContentPart → Bool
  | .audio _ _ => true
  | _ => false

/-- The content of a message without its audio parts. -/
def contentWithoutAudio : InputContent → InputContent
  | .text t => .text t
  | .parts parts => .parts (parts.filter fun p => !isAudio p)

/-- An item whose content is changed. -/
def mapContent (f : InputContent → InputContent) : InputItem → InputItem
  | .message role content => .message role (f content)
  | .functionCall callId name arguments => .functionCall callId name arguments
  | .functionCallOutput callId output => .functionCallOutput callId output

/-- A request without audio parts. -/
def withoutAudio (request : CreateResponseRequest) : CreateResponseRequest :=
  { request with input := request.input.map (mapContent contentWithoutAudio) }

/-- The views of the messages that are sent. -/
def ChatRequest.views (sent : ChatRequest) :
    List (String × Option (List ChatPart) × Option (List ChatToolCall) × Option String) :=
  sent.messages.map ChatRequestMessage.view

/-- The text of every system message occurs in a message that is sent. -/
def SystemTextSurvives (request : CreateResponseRequest) (sent : ChatRequest) : Prop :=
  ∀ t ∈ request.input.flatMap systemTexts, ∃ s ∈ messageTexts sent.messages, Occurs t s

/-- Without system messages, the messages are those OpenAI is sent for the request, with its audio
parts or without them. -/
def AgreesWithOpenAI (transform : CreateResponseRequest → ChatRequest)
    (request : CreateResponseRequest) : Prop :=
  (∀ item ∈ request.input, isSystemMessage item = false) →
    (transform request).views = (OpenAIProvider.transformRequest request).views
      ∨ (transform request).views = (OpenAIProvider.transformRequest (withoutAudio request)).views

/-- The text of every system message is also said in the instructions, in an output or in a
message of another role. -/
def SystemTextRepeated (enc : ChatEncoder) (request : CreateResponseRequest) : Prop :=
  ∀ t ∈ request.input.flatMap systemTexts,
    (∃ s ∈ request.instructions, Occurs t s)
      ∨ (∃ callId output, .functionCallOutput callId output ∈ request.input ∧ Occurs t output)
      ∨ ∃ role content, .message role content ∈ request.input ∧ role ≠ .system
          ∧ ∃ s ∈ (enc.content content).toParts.filterMap ChatPart.text?, Occurs t s

/-! ## Texts -/

theorem messageTexts_append (ms ms' : List ChatRequestMessage) :
    messageTexts (ms ++ ms') = messageTexts ms ++ messageTexts ms' :=
  List.flatMap_append ..

/-- Tool calls have no text. -/
theorem messageTexts_flushToolCalls (pending : List ChatToolCall) :
    messageTexts (flushToolCalls pending) = [] := by
  rw [flushToolCalls]
  split <;> rfl

namespace ChatEncoder

variable (enc : ChatEncoder)

/-- The texts that an item is sent as. -/
def itemTexts : InputItem → List String
  | .functionCall _ _ _ => []
  | .message role content =>
      if enc.skipsSystem && role == .system then []
      else (enc.content content).toParts.filterMap ChatPart.text?
  | .functionCallOutput _ output => [output]

theorem messageTexts_encodeItems (input : List InputItem) (pending : List ChatToolCall) :
    messageTexts (enc.encodeItems pending input) = input.flatMap enc.itemTexts := by
  induction input generalizing pending with
  | nil => exact messageTexts_flushToolCalls pending
  | cons item input ih =>
      cases item with
      | functionCall callId name arguments => exact ih _
      | functionCallOutput callId output =>
          rw [encodeItems, messageTexts_append, messageTexts_append, messageTexts_flushToolCalls, ih]
          rfl
      | message role content =>
          rw [encodeItems, messageTexts_append, messageTexts_append, messageTexts_flushToolCalls, ih,
            List.nil_append, List.flatMap_cons, itemTexts]
          split
          · rfl
          · simp [messageTexts]

/-- The texts of a request are the instructions and those of its items. -/
theorem messageTexts_messages (request : CreateResponseRequest) :
    messageTexts (enc.messages request)
      = request.instructions.toList ++ request.input.flatMap enc.itemTexts := by
  rw [messages, messageTexts_append, messageTexts_encodeItems]
  cases request.instructions <;> rfl

/-- With system messages left out, their text survives exactly where it is repeated. -/
theorem systemTextSurvives_iff (hskips : enc.skipsSystem = true) (request : CreateResponseRequest) :
    SystemTextSurvives request (enc.request request) ↔ SystemTextRepeated enc request := by
  have htexts : messageTexts (enc.request request).messages
      = request.instructions.toList ++ request.input.flatMap enc.itemTexts :=
    enc.messageTexts_messages request
  rw [SystemTextSurvives, SystemTextRepeated, htexts]
  refine forall₂_congr fun t _ => ?_
  constructor
  · rintro ⟨s, hs, hoccurs⟩
    rcases List.mem_append.mp hs with hs | hs
    · exact .inl ⟨s, Option.mem_toList.mp hs, hoccurs⟩
    · obtain ⟨item, hitem, hs⟩ := List.mem_flatMap.mp hs
      cases item with
      | functionCall callId name arguments => exact absurd hs List.not_mem_nil
      | functionCallOutput callId output =>
          rw [List.mem_singleton.mp hs] at hoccurs
          exact .inr (.inl ⟨callId, output, hitem, hoccurs⟩)
      | message role content =>
          rw [itemTexts, hskips, Bool.true_and] at hs
          split at hs
          · exact absurd hs List.not_mem_nil
          · rename_i hrole
            refine .inr (.inr ⟨role, content, hitem, ?_, s, hs, hoccurs⟩)
            rintro rfl
            exact hrole rfl
  · rintro (⟨s, hs, hoccurs⟩ | ⟨callId, output, hitem, hoccurs⟩ | ⟨role, content, hitem, hrole, s,
      hs, hoccurs⟩)
    · exact ⟨s, List.mem_append_left _ (Option.mem_toList.mpr hs), hoccurs⟩
    · refine ⟨output, List.mem_append_right _ (List.mem_flatMap.mpr ⟨_, hitem, ?_⟩), hoccurs⟩
      exact List.mem_singleton_self output
    · refine ⟨s, List.mem_append_right _ (List.mem_flatMap.mpr ⟨_, hitem, ?_⟩), hoccurs⟩
      rw [itemTexts, hskips, Bool.true_and, if_neg (by simpa using hrole)]
      exact hs

/-! ## Agreement -/

variable {enc} in
/-- Without system messages, items are encoded alike by encoders that encode contents alike. -/
theorem view_encodeItems {enc' : ChatEncoder} {f : InputContent → InputContent}
    (hcontent : ∀ content, (enc.content content).said = (enc'.content (f content)).said)
    (input : List InputItem) (hsystem : ∀ item ∈ input, isSystemMessage item = false)
    (pending : List ChatToolCall) :
    (enc.encodeItems pending input).map ChatRequestMessage.view
      = (enc'.encodeItems pending (input.map (mapContent f))).map ChatRequestMessage.view := by
  induction input generalizing pending with
  | nil => rfl
  | cons item input ih =>
      have htail := ih fun i hi => hsystem i (List.mem_cons_of_mem item hi)
      have hhead := hsystem item List.mem_cons_self
      cases item with
      | functionCall callId name arguments => exact htail _
      | functionCallOutput callId output =>
          simp only [List.map_cons, mapContent, encodeItems, List.map_append]
          rw [htail]
      | message role content =>
          have hrole : (role == .system) = false := by
            cases role with
            | system => cases hhead
            | user => rfl
            | assistant => rfl
            | tool => rfl
          simp only [List.map_cons, mapContent, encodeItems, List.map_append, hrole,
            Bool.and_false, if_neg Bool.false_ne_true, ChatRequestMessage.view, Option.map_some]
          rw [htail, hcontent]

variable {enc} in
theorem views_request {enc' : ChatEncoder} {f : InputContent → InputContent}
    (hcontent : ∀ content, (enc.content content).said = (enc'.content (f content)).said)
    (request : CreateResponseRequest)
    (hsystem : ∀ item ∈ request.input, isSystemMessage item = false) :
    (enc.request request).views
      = (enc'.request { request with input := request.input.map (mapContent f) }).views := by
  show (enc.messages request).map _ = (enc'.messages { request with input := _ }).map _
  rw [messages, messages, List.map_append, List.map_append,
    view_encodeItems hcontent request.input hsystem []]

end ChatEncoder

theorem mapContent_id (item : InputItem) : mapContent id item = item := by
  cases item <;> rfl

/-- A copy that encodes contents as OpenAI's adapter does. -/
theorem agreesWithOpenAI_of_content (enc : ChatEncoder)
    (hcontent : ∀ content, (enc.content content).said = (OpenAIProvider.encoder.content content).said)
    (request : CreateResponseRequest) : AgreesWithOpenAI enc.request request := by
  intro hsystem
  have hviews := ChatEncoder.views_request (f := id) hcontent request hsystem
  have hinput : request.input.map (mapContent id) = request.input := by
    rw [List.map_congr_left fun item _ => mapContent_id item]
    exact List.map_id' _
  rw [hinput] at hviews
  exact .inl hviews

/-- A content loses its audio parts, and at most an empty text is put in their place. -/
theorem FireworksProvider.said_content (content : InputContent) :
    (FireworksProvider.encoder.content content).said
      = (OpenAIProvider.encoder.content (contentWithoutAudio content)).said := by
  cases content with
  | text t => rfl
  | parts ps =>
      have hparts : ps.filterMap FireworksProvider.encoder.part
          = (ps.filter fun p => !isAudio p).filterMap OpenAIProvider.encoder.part := by
        rw [List.filterMap_filter]
        apply List.filterMap_congr
        intro p _
        cases p with
        | text t => rfl
        | image url data mediaType => rfl
        | audio data mediaType => rfl
      rw [contentWithoutAudio, ChatEncoder.content, ChatEncoder.content, hparts]
      cases (ps.filter fun p => !isAudio p).filterMap OpenAIProvider.encoder.part <;> rfl

theorem FireworksProvider.agreesWithOpenAI (request : CreateResponseRequest) :
    AgreesWithOpenAI FireworksProvider.transformRequest request := by
  intro hsystem
  exact .inr (ChatEncoder.views_request FireworksProvider.said_content request hsystem)

/-! ## The copies -/

/-- What an adapter that was copied from the one of OpenAI owes a request. -/
def KeepsConversation (transform : CreateResponseRequest → ChatRequest)
    (request : CreateResponseRequest) : Prop :=
  SystemTextSurvives request (transform request) ∧ AgreesWithOpenAI transform request

theorem keepsConversation_iff {enc : ChatEncoder} (hskips : enc.skipsSystem = true)
    {request : CreateResponseRequest} (hagrees : AgreesWithOpenAI enc.request request) :
    KeepsConversation enc.request request ↔ SystemTextRepeated enc request := by
  rw [KeepsConversation, enc.systemTextSurvives_iff hskips, and_iff_left hagrees]

/-- Each of the copies keeps the text of every system message and, on an input without system
messages, sends what OpenAI is sent, exactly when the text of every system message is also said
elsewhere in the request. -/
theorem chat_requests_agree_iff (request : CreateResponseRequest) :
    (KeepsConversation MistralProvider.transformRequest request
        ↔ SystemTextRepeated MistralProvider.encoder request)
      ∧ (KeepsConversation OllamaProvider.transformRequest request
        ↔ SystemTextRepeated OllamaProvider.encoder request)
      ∧ (KeepsConversation HuggingFaceProvider.transformRequest request
        ↔ SystemTextRepeated HuggingFaceProvider.encoder request)
      ∧ (KeepsConversation FireworksProvider.transformRequest request
        ↔ SystemTextRepeated FireworksProvider.encoder request) := by
  refine ⟨?_, ?_, ?_, ?_⟩
  · exact keepsConversation_iff rfl
      (agreesWithOpenAI_of_content MistralProvider.encoder (fun _ => rfl) request)
  · exact keepsConversation_iff rfl
      (agreesWithOpenAI_of_content OllamaProvider.encoder (fun _ => rfl) request)
  · exact keepsConversation_iff rfl
      (agreesWithOpenAI_of_content HuggingFaceProvider.encoder (fun _ => rfl) request)
  · exact keepsConversation_iff rfl (FireworksProvider.agreesWithOpenAI request)

/-! ### A system message -/

/-- A system message and a user message, without instructions. -/
def briefRequest : CreateResponseRequest where
  model := "mistral-small"
  input := [.message .system (.text "Be brief."), .user "hi"]

/-- The system message is not sent. -/
theorem system_message_dropped :
    (MistralProvider.transformRequest briefRequest).messages
        = [{ role := "user", content := some (.text "hi") }]
      ∧ ¬ SystemTextSurvives briefRequest (MistralProvider.transformRequest briefRequest) := by
  refine ⟨rfl, fun h => ?_⟩
  obtain ⟨s, hs, before, after, heq⟩ := h "Be brief." (List.mem_singleton_self _)
  have hhi : s = "hi" := List.mem_singleton.mp hs
  have hlength := congrArg String.length heq
  rw [hhi, String.length_append, String.length_append,
    show "hi".length = 2 by decide, show "Be brief.".length = 9 by decide] at hlength
  omega

end AuraGateway.Provider
