import AuraGateway.Foundations.Batches
import AuraGateway.Provider.ChatRequests

/-!
# The order of a request

OpenAI and Anthropic take the function calls of one turn in one message. Both encoders hold
function calls back and hand them on together in front of the next other item and at the end of
the input, so that an input becomes one message for each of its runs, in order.

OpenAI is sent system messages in their place (`OpenAIProvider.messages_runs`). For Anthropic they
move to the system field, but they still close the batch of calls that waits: the messages are those
of the input without system messages exactly when none stands between two function calls
(`AnthropicProvider.keepsOrder_iff`).
-/

set_option autoImplicit false

namespace AuraGateway.Provider

open AuraGateway.Types AuraGateway.Proxy AuraGateway.Foundations.Batches

/-- A function call, which waits for the end of its batch. -/
def isCall : InputItem → Bool
  | .functionCall _ _ _ => true
  | _ => false

/-- The output of a function call. -/
def isCallOutput : InputItem → Bool
  | .functionCallOutput _ _ => true
  | _ => false

/-- A batch of calls begins with a call. -/
theorem exists_call_of_isBatch {run : List InputItem} (h : IsBatch isCall run) :
    ∃ callId name arguments rest, run = .functionCall callId name arguments :: rest := by
  obtain ⟨i, rest, rfl⟩ := List.exists_cons_of_ne_nil h.1
  have hi := h.2 i List.mem_cons_self
  cases i with
  | functionCall callId name arguments => exact ⟨callId, name, arguments, rest, rfl⟩
  | message role content => cases hi
  | functionCallOutput callId output => cases hi

/-! ## OpenAI -/

/-- A call of a request to a chat-completions API. -/
def chatToolCall : InputItem → Option ChatToolCall
  | .functionCall callId name arguments => some { id := callId, name, arguments }
  | _ => none

namespace ChatEncoder

variable (enc : ChatEncoder)

/-- The message for a run: for a message or an output that stands alone, or for function calls. -/
def runMessage : List InputItem → ChatRequestMessage
  | [.message role content] => { role := role.name, content := some (enc.content content) }
  | [.functionCallOutput callId output] =>
      { role := "tool", content := some (.text output), toolCallId := some callId }
  | calls => { role := "assistant", toolCalls := some (calls.filterMap chatToolCall) }

/-- The calls that wait become the message of their batch. -/
theorem flushToolCalls_eq {pending : List InputItem} (hp : ∀ i ∈ pending, isCall i = true) :
    flushToolCalls (pending.filterMap chatToolCall) = (flush pending).map enc.runMessage := by
  by_cases hnil : pending = []
  · subst hnil
    rfl
  · obtain ⟨callId, name, arguments, rest, rfl⟩ := exists_call_of_isBatch ⟨hnil, hp⟩
    rfl

/-- An encoder that keeps system messages sends one message for each run. -/
theorem encodeItems_eq (hkeeps : enc.skipsSystem = false) {pending : List InputItem}
    (hp : ∀ i ∈ pending, isCall i = true) (input : List InputItem) :
    enc.encodeItems (pending.filterMap chatToolCall) input
      = (batchFrom isCall pending input).map enc.runMessage := by
  induction input generalizing pending with
  | nil => exact enc.flushToolCalls_eq hp
  | cons i input ih =>
      have hfresh : enc.encodeItems [] input = (batchFrom isCall [] input).map enc.runMessage :=
        ih fun i hi => absurd hi List.not_mem_nil
      cases i with
      | functionCall callId name arguments =>
          rw [batchFrom_held rfl, ← ih (isBatch_concat hp rfl).2, List.filterMap_append]
          rfl
      | functionCallOutput callId output =>
          rw [batchFrom_other rfl, List.map_append, List.map_cons, ← hfresh,
            ← enc.flushToolCalls_eq hp, encodeItems, List.append_assoc]
          rfl
      | message role content =>
          rw [batchFrom_other rfl, List.map_append, List.map_cons, ← hfresh,
            ← enc.flushToolCalls_eq hp, encodeItems, hkeeps, List.append_assoc]
          rfl

end ChatEncoder

/-- OpenAI is sent the instructions and one message for each run of the input, in order; the runs
are the only ones there are. -/
theorem OpenAIProvider.messages_runs (request : CreateResponseRequest) :
    ∃ runs, Runs isCall runs request.input
      ∧ (∀ runs', Runs isCall runs' request.input → runs' = runs)
      ∧ (OpenAIProvider.transformRequest request).messages
        = (request.instructions.map fun instructions =>
            ({ role := "system", content := some (.text instructions) } : ChatRequestMessage)).toList
          ++ runs.map OpenAIProvider.encoder.runMessage := by
  refine ⟨batchFrom isCall [] request.input, runs_iff.mpr rfl, fun runs' h => runs_iff.mp h, ?_⟩
  show OpenAIProvider.encoder.messages request = _
  rw [ChatEncoder.messages]
  apply congrArg
  exact OpenAIProvider.encoder.encodeItems_eq rfl (fun i hi => absurd hi List.not_mem_nil) _

/-! ## Anthropic -/

structure AnthropicImageSource where
  sourceType : String
  mediaType : String
  data : String

/-- A content block of a request. -/
inductive AnthropicRequestBlock where
  | text (text : String)
  | image (source : AnthropicImageSource)
  | toolUse (id name : String) (input : Json)
  | toolResult (toolUseId content : String) (isError : Option Bool)

structure AnthropicMessage where
  role : String
  content : List AnthropicRequestBlock

/-- A prompt-cache breakpoint. -/
structure AnthropicCacheControl where
  cacheType : String

def AnthropicCacheControl.ephemeral : AnthropicCacheControl := ⟨"ephemeral"⟩

structure AnthropicSystemBlock where
  blockType : String
  text : String
  cacheControl : Option AnthropicCacheControl

structure AnthropicTool where
  name : String
  description : Option String
  inputSchema : Json
  cacheControl : Option AnthropicCacheControl

inductive AnthropicToolChoice where
  | auto
  | any
  | tool (name : String)

structure AnthropicRequest where
  model : String
  messages : List AnthropicMessage
  system : Option (List AnthropicSystemBlock)
  maxTokens : Nat
  temperature : Option Float32
  topP : Option Float32
  stream : Option Bool
  tools : Option (List AnthropicTool)
  toolChoice : Option AnthropicToolChoice
  /-- The user id of the metadata. -/
  metadata : Option String
  cacheControl : Option AnthropicCacheControl

namespace AnthropicProvider

def transformContentPart : ContentPart → AnthropicRequestBlock
  | .text t => .text t
  | .image url data mediaType =>
      match data, url with
      | some data, _ => .image ⟨"base64", mediaType.getD "image/png", data⟩
      | none, some url => .image ⟨"url", mediaType.getD "image/png", url⟩
      | none, none => .text "[Invalid image]"
  | .audio data mediaType =>
      .text ("[Audio: " ++ toString data.utf8ByteSize ++ " bytes, type: "
        ++ mediaType.getD "audio/mp3" ++ "]")

def content : InputContent → List AnthropicRequestBlock
  | .text t => [.text t]
  | .parts parts => parts.map transformContentPart

def role : Role → String
  | .assistant => "assistant"
  | .user | .system | .tool => "user"

/-- Tool uses that wait for the end of their batch become one message of the assistant. -/
def flushPending (pending : List AnthropicRequestBlock) : List AnthropicMessage :=
  if pending.isEmpty then [] else [{ role := "assistant", content := pending }]

section Encode

variable (parse : String → Option Json)

/-- A call whose arguments are no JSON is sent with the text of its arguments; `parse` is
`serde_json::from_str`. -/
def toolUse (callId name arguments : String) : AnthropicRequestBlock :=
  .toolUse callId name
    ((parse arguments).getD (.object [("raw_arguments", .string arguments)]))

/-- The messages for items, behind tool uses that wait for the end of their batch. -/
def encodeItems : List AnthropicRequestBlock → List InputItem → List AnthropicMessage
  | pending, [] => flushPending pending
  | pending, .functionCall callId name arguments :: rest =>
      encodeItems (pending ++ [toolUse parse callId name arguments]) rest
  | pending, .message messageRole messageContent :: rest =>
      flushPending pending
        -- system messages go in the system field, but the batch has been flushed
        ++ (if messageRole = .system then []
          else [{ role := role messageRole, content := content messageContent }])
        ++ encodeItems [] rest
  | pending, .functionCallOutput callId output :: rest =>
      flushPending pending
        ++ [{ role := "user", content := [.toolResult callId output none] }]
        ++ encodeItems [] rest

end Encode

/-- The instructions and the texts of the system messages. -/
def extractSystemPrompt (request : CreateResponseRequest) : Option String :=
  let systemParts := request.instructions.toList ++ request.input.flatMap systemTexts
  if systemParts.isEmpty then none else some ("\n\n".intercalate systemParts)

def tool (t : Tool) : AnthropicTool where
  name := t.function.name
  description := t.function.description
  inputSchema :=
    t.function.parameters.getD (.object [("type", .string "object"), ("properties", .object [])])
  cacheControl := none

/-- Mark the last of some tools. -/
def markLast : List AnthropicTool → List AnthropicTool
  | [] => []
  | [t] => [{ t with cacheControl := some .ephemeral }]
  | t :: ts => t :: markLast ts

/-- The breakpoint goes on the system prompt, and without one on the last tool. -/
def placeCacheBreakpoints (system : Option String) (tools : Option (List AnthropicTool)) :
    Option (List AnthropicSystemBlock) × Option (List AnthropicTool) :=
  (system.map fun text => [{ blockType := "text", text, cacheControl := some .ephemeral }],
    if system.isNone then tools.map markLast else tools)

def toolChoice : ToolChoice → AnthropicToolChoice
  | .auto .auto | .auto .none => .auto
  | .auto .required => .any
  | .function _ name => .tool name

/-- `AnthropicProvider::transform_request`. -/
def transformRequest (parse : String → Option Json) (request : CreateResponseRequest) :
    AnthropicRequest :=
  let (system, tools) :=
    placeCacheBreakpoints (extractSystemPrompt request) (request.tools.map (·.map tool))
  { model := request.model
    messages := encodeItems parse [] request.input
    system
    maxTokens := request.maxOutputTokens.getD 4096
    temperature := request.temperature
    topP := request.topP
    stream := some request.stream
    tools
    toolChoice := request.toolChoice.map toolChoice
    metadata := request.user
    cacheControl := some .ephemeral }

/-! ### What the encoding owes an input -/

/-- The input without its system messages. -/
def conversation (request : CreateResponseRequest) : List InputItem :=
  request.input.filter fun i => !isSystemMessage i

section Runs

variable (parse : String → Option Json)

/-- The block of a call. -/
def callBlock : InputItem → Option AnthropicRequestBlock
  | .functionCall callId name arguments => some (toolUse parse callId name arguments)
  | _ => none

/-- The message for a run: for a message or an output that stands alone, or for function calls. -/
def runMessage : List InputItem → AnthropicMessage
  | [.message messageRole messageContent] =>
      { role := role messageRole, content := content messageContent }
  | [.functionCallOutput callId output] =>
      { role := "user", content := [.toolResult callId output none] }
  | calls => { role := "assistant", content := calls.filterMap (callBlock parse) }

/-- The conversation is encoded in order: one message for each run, so that a message of tool uses is
followed by the results that stand behind its calls; and the texts of system messages are in the
system field. -/
structure KeepsOrder (request : CreateResponseRequest) : Prop where
  runs : ∃ runs, Runs isCall runs (conversation request)
    ∧ (transformRequest parse request).messages = runs.map (runMessage parse)
  results : ∀ before calls outputs after,
    conversation request = before ++ (calls ++ (outputs ++ after)) → IsBatch isCall calls →
      (∀ i ∈ before.getLast?, isCall i = false) → outputs ≠ [] →
      (∀ i ∈ outputs, isCallOutput i = true) →
      ∃ earlier later, (transformRequest parse request).messages
        = earlier ++ runMessage parse calls :: outputs.map (fun i => runMessage parse [i]) ++ later
  system : ∀ t ∈ request.input.flatMap systemTexts, ∃ block,
    (transformRequest parse request).system = some [block] ∧ Occurs t block.text

variable {parse}

theorem runMessage_of_isBatch {run : List InputItem} (h : IsBatch isCall run) :
    runMessage parse run
      = { role := "assistant", content := run.filterMap (callBlock parse) } := by
  obtain ⟨callId, name, arguments, rest, rfl⟩ := exists_call_of_isBatch h
  rfl

/-- Every call of a batch has its block. -/
theorem length_callBlocks {run : List InputItem} (h : ∀ i ∈ run, isCall i = true) :
    (run.filterMap (callBlock parse)).length = run.length := by
  induction run with
  | nil => rfl
  | cons i run ih =>
      obtain ⟨hi, hrun⟩ := List.forall_mem_cons.mp h
      cases i with
      | functionCall callId name arguments => exact congrArg (· + 1) (ih hrun)
      | message messageRole messageContent => cases hi
      | functionCallOutput callId output => cases hi

variable (parse) in
/-- A longer batch has a longer message. -/
theorem runMessage_grows (p q : List InputItem) (hp : IsBatch isCall p) (hq : IsBatch isCall q) :
    runMessage parse p ≠ runMessage parse (p ++ q) := by
  have hall : ∀ i ∈ p ++ q, isCall i = true := fun i hi =>
    (List.mem_append.mp hi).elim (hp.2 i) (hq.2 i)
  rw [runMessage_of_isBatch hp,
    runMessage_of_isBatch ⟨List.append_ne_nil_of_left_ne_nil hp.1 q, hall⟩]
  intro heq
  have hlength := congrArg (fun m => m.content.length) heq
  simp only [length_callBlocks hp.2, length_callBlocks hall, List.length_append] at hlength
  have hpos := List.length_pos_iff.mpr hq.1
  omega

theorem flushPending_eq {pending : List InputItem} (hp : ∀ i ∈ pending, isCall i = true) :
    flushPending (pending.filterMap (callBlock parse))
      = (flush pending).map (runMessage parse) := by
  by_cases hnil : pending = []
  · subst hnil
    rfl
  · rw [flush_of_ne_nil hnil, List.map_singleton, runMessage_of_isBatch ⟨hnil, hp⟩]
    obtain ⟨callId, name, arguments, rest, rfl⟩ := exists_call_of_isBatch ⟨hnil, hp⟩
    rfl

/-- The loop sends one message for each piece of the input, system messages left out. -/
theorem encodeItems_eq {pending : List InputItem} (hp : ∀ i ∈ pending, isCall i = true)
    (input : List InputItem) :
    encodeItems parse (pending.filterMap (callBlock parse)) input
      = (batchSkipping isCall isSystemMessage pending input).map (runMessage parse) := by
  induction input generalizing pending with
  | nil => exact flushPending_eq hp
  | cons i input ih =>
      have hfresh : encodeItems parse [] input
          = (batchSkipping isCall isSystemMessage [] input).map (runMessage parse) :=
        ih fun i hi => absurd hi List.not_mem_nil
      cases i with
      | functionCall callId name arguments =>
          rw [batchSkipping_held rfl, ← ih (isBatch_concat hp rfl).2, List.filterMap_append]
          rfl
      | functionCallOutput callId output =>
          rw [batchSkipping_other rfl, List.map_append, List.map_append, ← hfresh,
            ← flushPending_eq hp, encodeItems]
          rfl
      | message messageRole messageContent =>
          rw [batchSkipping_other rfl, List.map_append, List.map_append, ← hfresh,
            ← flushPending_eq hp, encodeItems]
          cases messageRole <;> rfl

/-- No function call is a system message. -/
theorem isSystemMessage_of_isCall (i : InputItem) (h : isCall i = true) :
    isSystemMessage i = false := by
  cases i with
  | functionCall callId name arguments => rfl
  | message messageRole messageContent => cases h
  | functionCallOutput callId output => cases h

theorem isCall_of_isCallOutput {i : InputItem} (h : isCallOutput i = true) : isCall i = false := by
  cases i with
  | functionCallOutput callId output => rfl
  | message messageRole messageContent => cases h
  | functionCall callId name arguments => cases h

/-- The results that stand behind the calls of a run follow its message. -/
theorem results_of_runs {kept : List InputItem} {messages : List AnthropicMessage}
    (hmessages : messages = (batchFrom isCall [] kept).map (runMessage parse))
    {before calls outputs after : List InputItem}
    (hkept : kept = before ++ (calls ++ (outputs ++ after))) (hcalls : IsBatch isCall calls)
    (hbefore : ∀ i ∈ before.getLast?, isCall i = false) (hne : outputs ≠ [])
    (houtputs : ∀ i ∈ outputs, isCallOutput i = true) :
    ∃ earlier later, messages
      = earlier ++ runMessage parse calls :: outputs.map (fun i => runMessage parse [i]) ++ later := by
  have hafter : ∀ i ∈ (outputs ++ after).head?, isCall i = false := by
    obtain ⟨o, outputs, rfl⟩ := List.exists_cons_of_ne_nil hne
    rintro i hi
    obtain rfl := Option.some.inj hi
    exact isCall_of_isCallOutput (houtputs o List.mem_cons_self)
  refine ⟨(batchFrom isCall [] before).map (runMessage parse),
    (batchFrom isCall [] after).map (runMessage parse), ?_⟩
  rw [hmessages, hkept, batchFrom_run hbefore hcalls hafter,
    batchFrom_others fun i hi => isCall_of_isCallOutput (houtputs i hi)]
  simp [Function.comp_def]

end Runs

/-- A part of a joined text occurs in it. -/
theorem occurs_intercalate {sep t : String} {parts : List String} (h : t ∈ parts) :
    Occurs t (sep.intercalate parts) := by
  obtain ⟨before, after, rfl⟩ := List.append_of_mem h
  have hback : Occurs t (sep.intercalate (t :: after)) := by
    cases after with
    | nil => exact ⟨"", "", by simp⟩
    | cons u after => exact ⟨"", sep ++ sep.intercalate (u :: after), by simp [String.append_assoc]⟩
  by_cases hnil : before = []
  · rw [hnil]
    exact hback
  · obtain ⟨a, b, heq⟩ := hback
    rw [String.intercalate_append_of_ne_nil hnil (List.cons_ne_nil t after), heq]
    exact ⟨sep.intercalate before ++ sep ++ a, b, by simp [String.append_assoc]⟩

/-- The texts of system messages are in the system field. -/
theorem system_texts (parse : String → Option Json) {request : CreateResponseRequest} {t : String}
    (ht : t ∈ request.input.flatMap systemTexts) :
    ∃ block, (transformRequest parse request).system = some [block] ∧ Occurs t block.text := by
  have hmem : t ∈ request.instructions.toList ++ request.input.flatMap systemTexts :=
    List.mem_append_right _ ht
  have hprompt : extractSystemPrompt request = some
      ("\n\n".intercalate (request.instructions.toList ++ request.input.flatMap systemTexts)) := by
    rw [extractSystemPrompt]
    exact if_neg fun h => List.ne_nil_of_mem hmem (List.isEmpty_iff.mp h)
  refine ⟨⟨"text", "\n\n".intercalate (request.instructions.toList
    ++ request.input.flatMap systemTexts), some .ephemeral⟩, ?_, occurs_intercalate hmem⟩
  show (extractSystemPrompt request).map _ = _
  rw [hprompt]
  rfl

/-- Requests to Anthropic keep the order of the conversation exactly when no system message stands
between two function calls that follow each other without it. -/
theorem keepsOrder_iff (parse : String → Option Json) (request : CreateResponseRequest) :
    KeepsOrder parse request ↔ ¬ Interrupted isCall isSystemMessage request.input := by
  have hmessages : (transformRequest parse request).messages
      = (batchSkipping isCall isSystemMessage [] request.input).map (runMessage parse) :=
    encodeItems_eq (fun i hi => absurd hi List.not_mem_nil) request.input
  rw [← map_batchSkipping_eq_iff isSystemMessage_of_isCall (runMessage_grows parse),
    ← hmessages]
  constructor
  · intro h
    obtain ⟨runs, hruns, heq⟩ := h.runs
    rw [heq, runs_iff.mp hruns]
    rfl
  · intro h
    exact
      { runs := ⟨_, runs_iff.mpr rfl, h⟩
        results := fun before calls outputs after => results_of_runs h
        system := fun t => system_texts parse }

/-- Two parallel calls, with a system message between them. -/
def interruptedCalls : CreateResponseRequest where
  model := "claude-sonnet-4-5"
  input :=
    [.functionCall "call_1" "get_time" "{}", .message .system (.text "Be brief."),
      .functionCall "call_2" "get_time" "{}"]

/-- The two calls are sent in two messages, where one was due. -/
theorem interruptedCalls_split :
    (∃ use₁ use₂, (transformRequest (fun _ => some (.object [])) interruptedCalls).messages
        = [{ role := "assistant", content := [use₁] }, { role := "assistant", content := [use₂] }])
      ∧ ¬ KeepsOrder (fun _ => some (.object [])) interruptedCalls := by
  refine ⟨⟨.toolUse "call_1" "get_time" (.object []), .toolUse "call_2" "get_time" (.object []), rfl⟩,
    fun h => ?_⟩
  obtain ⟨runs, hruns, heq⟩ := h.runs
  rw [runs_iff.mp hruns] at heq
  have hlength := congrArg List.length heq
  exact absurd hlength (by decide)

end AnthropicProvider

end AuraGateway.Provider
