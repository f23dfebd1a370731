import AuraGateway.Types.Request

/-!
# Gemini requests

What Gemini's `transform_request` makes of a request. Consecutive function calls become one
content of the model. Gemini has no call ids: a function response is sent under the call id of
its item, as the name of the function.
-/

set_option autoImplicit false

namespace AuraGateway.Provider

open AuraGateway.Types

/-! ## Wire types -/

/-- A part as it is sent. -/
inductive GeminiRequestPart where
  | text (text : String)
  | inlineData (mimeType data : String)
  | fileData (mimeType fileUri : String)
  | functionCall (name : String) (args : Json)
  | functionResponse (name : String) (response : Json)

structure GeminiRequestContent where
  role : String
  parts : List GeminiRequestPart

structure GeminiGenerationConfig where
  maxOutputTokens : Option Nat
  temperature : Option Float32
  topP : Option Float32
  candidateCount : Option Nat

structure GeminiFunctionDeclaration where
  name : String
  description : Option String
  parameters : Option Json

structure GeminiFunctionCallingConfig where
  mode : String
  allowedFunctionNames : Option (List String)

/-- A request; the tools are the declarations of its one `GeminiTool`. -/
structure GeminiRequest where
  contents : List GeminiRequestContent
  systemInstruction : Option GeminiRequestContent
  generationConfig : GeminiGenerationConfig
  tools : Option (List GeminiFunctionDeclaration)
  toolConfig : Option GeminiFunctionCallingConfig

/-! ## Contents -/

/-- `transform_content_part`. -/
def transformContentPart : ContentPart → GeminiRequestPart
  | .text t => .text t
  | .image url data mediaType =>
      match data, url with
      | some data, _ => .inlineData (mediaType.getD "image/png") data
      | none, some url => .fileData (mediaType.getD "image/png") url
      | none, none => .text "[Invalid image]"
  | .audio data mediaType => .inlineData (mediaType.getD "audio/mp3") data

/-- The parts of a message. -/
def messageParts : InputContent → List GeminiRequestPart
  | .text t => [.text t]
  | .parts parts => parts.map transformContentPart

def geminiRole : Role → String
  | .assistant => "model"
  | .user | .system | .tool => "user"

/-- Function calls that wait for the end of their batch become one content. -/
def flushPending (contents : List GeminiRequestContent) (pending : List GeminiRequestPart) :
    List GeminiRequestContent :=
  if pending.isEmpty then contents else contents ++ [{ role := "model", parts := pending }]

/-- Add an item to the contents and the function calls that wait; `parse` is
`serde_json::from_str`. -/
def addItem (parse : String → Option Json)
    (s : List GeminiRequestContent × List GeminiRequestPart) :
    InputItem → List GeminiRequestContent × List GeminiRequestPart
  | .functionCall _ name arguments =>
      let args := (parse arguments).getD (.object [("raw_arguments", .string arguments)])
      (s.1, s.2 ++ [.functionCall name args])
  | .message role content =>
      let contents := flushPending s.1 s.2
      -- system messages go into the system instruction
      if role = .system then (contents, [])
      else (contents ++ [{ role := geminiRole role, parts := messageParts content }], [])
  | .functionCallOutput callId output =>
      let response := (parse output).getD (.object [("result", .string output)])
      (flushPending s.1 s.2 ++ [{ role := "user", parts := [.functionResponse callId response] }],
        [])

/-- The contents of a request. -/
def geminiContents (parse : String → Option Json) (input : List InputItem) :
    List GeminiRequestContent :=
  let s := input.foldl (addItem parse) ([], [])
  flushPending s.1 s.2

/-! ## The request -/

/-- The texts of a system message. -/
def systemTexts : InputItem → List String
  | .message .system (.text t) => [t]
  | .message .system (.parts parts) =>
      parts.filterMap fun
        | .text t => some t
        | _ => none
  | _ => []

/-- `extract_system_instruction`. -/
def extractSystemInstruction (request : CreateResponseRequest) : Option GeminiRequestContent :=
  let systemParts := request.instructions.toList ++ request.input.flatMap systemTexts
  if systemParts.isEmpty then none
  else some { role := "user", parts := [.text ("\n\n".intercalate systemParts)] }

/-- Candidates are asked for only where several are. -/
def candidateCount (request : CreateResponseRequest) : Option Nat :=
  match request.validation.map ValidationConfig.strategy with
  | some .bestOfN | some .selfConsistency =>
      some (min ((request.validation.bind (·.n)).getD 3) 8)
  | _ => none

def geminiToolConfig : ToolChoice → GeminiFunctionCallingConfig
  | .auto .auto => { mode := "AUTO", allowedFunctionNames := none }
  | .auto .required => { mode := "ANY", allowedFunctionNames := none }
  | .auto .none => { mode := "NONE", allowedFunctionNames := none }
  | .function _ name => { mode := "ANY", allowedFunctionNames := some [name] }

def geminiDeclaration (tool : Tool) : GeminiFunctionDeclaration where
  name := tool.function.name
  description := tool.function.description
  parameters := tool.function.parameters

/-- `GeminiProvider::transform_request`. -/
def GeminiProvider.transformRequest (parse : String → Option Json)
    (request : CreateResponseRequest) : GeminiRequest where
  contents := geminiContents parse request.input
  systemInstruction := extractSystemInstruction request
  generationConfig :=
    { maxOutputTokens := request.maxOutputTokens
      temperature := request.temperature
      topP := request.topP
      candidateCount := candidateCount request }
  tools := request.tools.map (·.map geminiDeclaration)
  toolConfig := request.toolChoice.map geminiToolConfig

/-! ## Function responses -/

/-- The name that a function response is sent under. -/
def GeminiRequestPart.responseName : GeminiRequestPart → Option String
  | .functionResponse name _ => some name
  | _ => none

/-- The names of the function responses in contents, in their order. -/
def responseNames (contents : List GeminiRequestContent) : List String :=
  (contents.flatMap (·.parts)).filterMap GeminiRequestPart.responseName

/-- The call ids of the outputs in an input, in their order. -/
def outputCallIds (input : List InputItem) : List String :=
  input.filterMap fun
    | .functionCallOutput callId _ => some callId
    | _ => none

theorem responseNames_append (contents contents' : List GeminiRequestContent) :
    responseNames (contents ++ contents') = responseNames contents ++ responseNames contents' := by
  rw [responseNames, List.flatMap_append, List.filterMap_append]
  rfl

/-- No part of a message is a function response. -/
theorem responseName_messageParts (content : InputContent) :
    (messageParts content).filterMap GeminiRequestPart.responseName = [] := by
  cases content with
  | text t => rfl
  | parts parts =>
      rw [messageParts, List.filterMap_map, List.filterMap_eq_nil_iff]
      intro part _
      cases part with
      | text t => rfl
      | audio data mediaType => rfl
      | image url data mediaType =>
          cases data with
          | some data => rfl
          | none => cases url <;> rfl

section Contents

variable {parse : String → Option Json} {contents : List GeminiRequestContent}
  {pending : List GeminiRequestPart}

/-- Function calls that are flushed are no function responses. -/
theorem responseNames_flushPending (h : pending.filterMap GeminiRequestPart.responseName = []) :
    responseNames (flushPending contents pending) = responseNames contents := by
  rw [flushPending]
  split
  · rfl
  · rw [responseNames_append, responseNames, responseNames, List.flatMap_singleton, h,
      List.append_nil]

/-- Items add the function responses of their outputs, under their call ids. -/
theorem responseNames_foldl (input : List InputItem)
    (h : pending.filterMap GeminiRequestPart.responseName = []) :
    let s := input.foldl (addItem parse) (contents, pending)
    responseNames (flushPending s.1 s.2) = responseNames contents ++ outputCallIds input := by
  induction input generalizing contents pending with
  | nil =>
      show responseNames (flushPending contents pending) = _
      rw [responseNames_flushPending h]
      exact (List.append_nil _).symm
  | cons item input ih =>
      cases item with
      | functionCall callId name arguments =>
          have hpending : (pending ++ [GeminiRequestPart.functionCall name
              ((parse arguments).getD (.object [("raw_arguments", .string arguments)]))]).filterMap
              GeminiRequestPart.responseName = [] := by
            rw [List.filterMap_append, h]
            rfl
          exact ih hpending
      | message role content =>
          rw [List.foldl_cons, addItem]
          dsimp only
          split
          · rw [ih rfl, responseNames_flushPending h]
            rfl
          · have hmessage : responseNames [{ role := geminiRole role, parts := messageParts content }]
                = [] := by
              rw [responseNames, List.flatMap_singleton, responseName_messageParts]
            rw [ih rfl, responseNames_append, hmessage, List.append_nil,
              responseNames_flushPending h]
            rfl
      | functionCallOutput callId output =>
          rw [List.foldl_cons, addItem]
          dsimp only
          rw [ih rfl, responseNames_append, responseNames_flushPending h, List.append_assoc]
          rfl

end Contents

/-- Each output is sent as a function response under its call id. -/
theorem responseNames_transformRequest (parse : String → Option Json)
    (request : CreateResponseRequest) :
    responseNames (GeminiProvider.transformRequest parse request).contents
      = outputCallIds request.input :=
  responseNames_foldl request.input rfl

end AuraGateway.Provider
