import AuraGateway.Provider.AnthropicAnswer
import AuraGateway.Provider.ChatAdapters

/-!
# Claude on Bedrock

The answers and the streams of Claude models on Amazon Bedrock. The SDK decodes the framing of
a stream; each event that it gives is answered by exactly one event, which says nothing but
that the response is in progress where there is nothing else to say. The item is announced at
the start of a text block, the content part by the first text delta, whose text is neither
passed on nor kept.
-/

set_option autoImplicit false

namespace AuraGateway.Provider

open AuraGateway.Foundations AuraGateway.Foundations.KeyedFolds AuraGateway.Types

/-! ## Wire types -/

/-- A content block; `ν` is `serde_json::Value`. -/
inductive BedrockContentBlock (ν : Type) where
  | text (text : String)
  | image
  | toolUse (id name : String) (input : ν)
  | toolResult
  deriving DecidableEq

structure BedrockUsage where
  inputTokens : Nat
  outputTokens : Nat
  cacheCreationInputTokens : Option Nat
  cacheReadInputTokens : Option Nat
  deriving DecidableEq

namespace BedrockUsage

/-- The whole prompt: the uncached tokens, and those written to and read from the cache. -/
def totalInputTokens (u : BedrockUsage) : Nat :=
  saturatingAdd (saturatingAdd u.inputTokens (u.cacheCreationInputTokens.getD 0))
    (u.cacheReadInputTokens.getD 0)

def cacheReadTokens (u : BedrockUsage) : Nat := u.cacheReadInputTokens.getD 0

end BedrockUsage

structure BedrockClaudeResponse (ν : Type) where
  content : List (BedrockContentBlock ν)
  stopReason : Option String
  usage : BedrockUsage

inductive BedrockDelta where
  | textDelta (text : String)
  | inputJsonDelta (partialJson : String)
  deriving DecidableEq

structure BedrockDeltaUsage where
  outputTokens : Option Nat
  deriving DecidableEq

inductive BedrockStreamEvent (ν : Type) where
  | messageStart (usage : BedrockUsage)
  | contentBlockStart (index : Nat) (contentBlock : BedrockContentBlock ν)
  | contentBlockDelta (index : Nat) (delta : BedrockDelta)
  | contentBlockStop (index : Nat)
  | messageDelta (stopReason : Option String) (usage : Option BedrockDeltaUsage)
  | messageStop
  deriving DecidableEq

def BedrockStreamEvent.isMessageDelta {ν : Type} : BedrockStreamEvent ν → Bool
  | .messageDelta .. => true
  | _ => false

/-- What the SDK gives: the bytes of a chunk, or something else. -/
inductive ResponseStream where
  | chunk (bytes : Option (List UInt8))
  | other

variable {ν : Type}

/-! ## Whole answers -/

/-- The item of a content block; images and tool results have none. -/
def BedrockContentBlock.item (toJson : ν → String) (itemIndex : Nat) :
    BedrockContentBlock ν → Option Item
  | .text s => some (Item.assistant ("msg_" ++ toString itemIndex) s)
  | .toolUse id name input =>
      some (Item.newFunctionCall ("fc_" ++ toString itemIndex) id name (toJson input))
  | .image | .toolResult => none

/-- The items of an answer, numbered from `itemIndex` on. -/
def bedrockItems (toJson : ν → String) (itemIndex : Nat) :
    List (BedrockContentBlock ν) → List Item
  | [] => []
  | block :: blocks =>
      match block.item toJson itemIndex with
      | some item => item :: bedrockItems toJson (itemIndex + 1) blocks
      | none => bedrockItems toJson itemIndex blocks

/-- `transform_claude_response`; a stop reason is read as Anthropic's is. -/
def BedrockProvider.transformClaudeResponse (toJson : ν → String) (uuid : String) (now : Int)
    (response : BedrockClaudeResponse ν) (model : String) : Response :=
  let outcome := stopOutcome response.stopReason
  { Response.builder ("resp_bed_" ++ uuid) model now with
    output := bedrockItems toJson 0 response.content
    usage := some ((Usage.new response.usage.totalInputTokens
      response.usage.outputTokens).withCacheHits response.usage.cacheReadTokens)
    status := outcome.1
    incompleteReason := outcome.2.1
    error := outcome.2.2 }

/-! ## The state of a stream -/

/-- The state that is threaded through a stream, but for the output of the SDK. -/
structure BedrockStreamState extends StreamState where
  accumulatedToolCalls : List (Nat × PartialToolCall) := []
  inputTokens : Nat := 0
  cachedTokens : Nat := 0
  outputTokens : Nat := 0
  done : Bool := false

namespace BedrockStreamState

/-- The event that says that the response is in progress. -/
def inProgress (now : Int) (t : BedrockStreamState) : StreamItem :=
  .ok (.responseInProgress (Response.inProgress t.responseId t.model now))

/-- The response of `response.completed`. -/
def finalResponse (now : Int) (order : HashOrder (Nat × PartialToolCall))
    (t : BedrockStreamState) : Response :=
  { Response.builder t.responseId t.model now with
    output := finalOutput order t.accumulatedText t.accumulatedToolCalls
    usage := some ((Usage.new t.inputTokens t.outputTokens).withCacheHits t.cachedTokens)
    status := .completed }

/-- The start of a content block. -/
def startBlock (now : Int) (index : Nat) (contentBlock : BedrockContentBlock ν)
    (t : BedrockStreamState) : StreamItem × BedrockStreamState :=
  match contentBlock with
  | .text _ =>
      if !t.outputItemAdded then
        (.ok (.outputItemAdded 0 (Item.assistant "msg_0" "")), { t with outputItemAdded := true })
      else (t.inProgress now, t)
  | .toolUse id name _ =>
      (t.inProgress now, { t with
        accumulatedToolCalls :=
          amend {} index (fun entry => { entry with id := id, name := name })
            t.accumulatedToolCalls })
  | .image | .toolResult => (t.inProgress now, t)

/-- A delta of a content block. -/
def blockDelta (now : Int) (index : Nat) (delta : BedrockDelta) (t : BedrockStreamState) :
    StreamItem × BedrockStreamState :=
  match delta with
  | .textDelta text =>
      -- the announcement takes the place of the text of its delta
      if !t.contentPartAdded then
        (.ok (.contentPartAdded 0 0 "text"), { t with contentPartAdded := true })
      else
        (.ok (.outputTextDelta 0 0 text), { t with accumulatedText := t.accumulatedText ++ text })
  | .inputJsonDelta partialJson =>
      if (t.accumulatedToolCalls.lookup index).isSome then
        (.ok (.functionCallArgumentsDelta index partialJson), { t with
          accumulatedToolCalls :=
            amend {} index (fun tc => { tc with arguments := tc.arguments ++ partialJson })
              t.accumulatedToolCalls })
      else (t.inProgress now, t)

/-- The stop reasons that complete a response. -/
def completes (stopReason : Option String) : Bool :=
  stopReason ∈ [some "end_turn", some "tool_use", some "stop_sequence"]

/-- What an event does. -/
def handleEvent (now : Int) (order : HashOrder (Nat × PartialToolCall)) (t : BedrockStreamState) :
    BedrockStreamEvent ν → StreamItem × BedrockStreamState
  | .messageStart usage =>
      (t.inProgress now,
        { t with inputTokens := usage.totalInputTokens, cachedTokens := usage.cacheReadTokens })
  | .contentBlockStart index contentBlock => t.startBlock now index contentBlock
  | .contentBlockDelta index delta => t.blockDelta now index delta
  | .contentBlockStop _ => (t.inProgress now, t)
  | .messageDelta stopReason usage =>
      let t := { t with outputTokens := (usage.bind (·.outputTokens)).getD t.outputTokens }
      if completes stopReason then
        (.ok (.responseCompleted (t.finalResponse now order)), { t with done := true })
      else (t.inProgress now, t)
  | .messageStop => (t.inProgress now, t)

end BedrockStreamState

/-! ## Streams -/

/-- What an output of the SDK comes to. -/
inductive BedrockOutput (ν : Type) where
  | event (ev : BedrockStreamEvent ν)
  /-- A chunk that does not parse, or something else: passed over. -/
  | skipped
  | fault (message : String)
  deriving DecidableEq

/-- Read an output; `parse` is `serde_json::from_slice`. -/
def readOutput (parse : List UInt8 → Option (BedrockStreamEvent ν)) :
    Except String ResponseStream → BedrockOutput ν
  | .ok (.chunk bytes) =>
      match parse (bytes.getD []) with
      | some ev => .event ev
      | none => .skipped
  | .ok .other => .skipped
  | .error message => .fault message

namespace BedrockStreamState

section Poll

variable (now : Int) (order : HashOrder (Nat × PartialToolCall))
  (parse : List UInt8 → Option (BedrockStreamEvent ν))

/-- What an output does. -/
def accept (t : BedrockStreamState) : BedrockOutput ν → StreamItem × BedrockStreamState
  | .event ev => t.handleEvent now order ev
  | .skipped => (t.inProgress now, t)
  | .fault message => (.error (.stream message), t)

/-- The closure that is unfolded: the next event, and the state and the source after it. -/
def poll (t : BedrockStreamState) (source : List (Except String ResponseStream)) :
    Option (StreamItem × BedrockStreamState × List (Except String ResponseStream)) :=
  if t.done then none
  else
    match t.toStreamState.opening now with
    | some (e, s) => some (e, { t with toStreamState := s }, source)
    | none =>
        match source with
        | [] => none
        | output :: rest =>
            let accepted := t.accept now order (readOutput parse output)
            some (accepted.1, accepted.2, rest)

/-- No event opens the stream again, and only a message delta closes it. -/
theorem handleEvent_kept (t : BedrockStreamState) (ev : BedrockStreamEvent ν) :
    (t.handleEvent now order ev).2.sentCreated = t.sentCreated
      ∧ (t.handleEvent now order ev).2.sentInProgress = t.sentInProgress
      ∧ (ev.isMessageDelta = false → (t.handleEvent now order ev).2.done = t.done) := by
  cases ev with
  | messageStart usage => exact ⟨rfl, rfl, fun _ => rfl⟩
  | contentBlockStart index contentBlock =>
      cases contentBlock with
      | text s =>
          simp only [handleEvent, startBlock]
          split
          · exact ⟨rfl, rfl, fun _ => rfl⟩
          · exact ⟨rfl, rfl, fun _ => rfl⟩
      | image => exact ⟨rfl, rfl, fun _ => rfl⟩
      | toolUse id name input => exact ⟨rfl, rfl, fun _ => rfl⟩
      | toolResult => exact ⟨rfl, rfl, fun _ => rfl⟩
  | contentBlockDelta index delta =>
      cases delta with
      | textDelta text =>
          simp only [handleEvent, blockDelta]
          split
          · exact ⟨rfl, rfl, fun _ => rfl⟩
          · exact ⟨rfl, rfl, fun _ => rfl⟩
      | inputJsonDelta partialJson =>
          simp only [handleEvent, blockDelta]
          split
          · exact ⟨rfl, rfl, fun _ => rfl⟩
          · exact ⟨rfl, rfl, fun _ => rfl⟩
  | contentBlockStop index => exact ⟨rfl, rfl, fun _ => rfl⟩
  | messageDelta stopReason usage =>
      simp only [handleEvent]
      split
      · exact ⟨rfl, rfl, fun h => by cases h⟩
      · exact ⟨rfl, rfl, fun _ => rfl⟩
  | messageStop => exact ⟨rfl, rfl, fun _ => rfl⟩

/-- What is left: opening events, and outputs. -/
theorem due_of_poll {t t' : BedrockStreamState} {e : StreamItem}
    {source source' : List (Except String ResponseStream)}
    (h : t.poll now order parse source = some (e, t', source')) :
    t'.openingLeft + source'.length < t.openingLeft + source.length := by
  unfold poll at h
  split at h
  · cases h
  · split at h
    · rename_i hopening
      obtain ⟨-, rfl, rfl⟩ := h
      exact Nat.add_lt_add_right (StreamState.openingLeft_of_opening hopening) _
    · cases source with
      | nil => cases h
      | cons output rest =>
          simp only [Option.some.injEq, Prod.mk.injEq] at h
          obtain ⟨-, rfl, rfl⟩ := h
          have hsame : (t.accept now order (readOutput parse output)).2.openingLeft
              = t.openingLeft := by
            cases readOutput parse output with
            | event ev =>
                obtain ⟨hcreated, hprogress, -⟩ := handleEvent_kept now order t ev
                rw [accept, StreamState.openingLeft, StreamState.openingLeft, hcreated, hprogress]
            | skipped => rfl
            | fault message => rfl
          rw [hsame, List.length_cons]
          omega

/-- `futures_util::stream::unfold`. -/
def unfold (t : BedrockStreamState) (source : List (Except String ResponseStream)) :
    List StreamItem :=
  match _h : t.poll now order parse source with
  | none => []
  | some (e, t', source') => e :: unfold t' source'
termination_by t.openingLeft + source.length
decreasing_by exact due_of_poll now order parse _h

end Poll

end BedrockStreamState

/-- `complete_stream`: the events of a stream that the SDK gives. -/
def BedrockProvider.completeStream (env : StreamEnv) (order : HashOrder (Nat × PartialToolCall))
    (parse : List UInt8 → Option (BedrockStreamEvent ν))
    (source : List (Except String ResponseStream)) : List StreamItem :=
  BedrockStreamState.unfold env.now order parse
    { model := env.model, responseId := "resp_bed_" ++ env.uuid } source

/-! ## What an answer says -/

def BedrockContentBlock.text? : BedrockContentBlock ν → Option String
  | .text s => some s
  | _ => none

/-- What a tool use says. -/
def BedrockContentBlock.fields? (toJson : ν → String) :
    BedrockContentBlock ν → Option (String × String × String)
  | .toolUse id name input => some (id, name, toJson input)
  | _ => none

/-- The text of the items is that of the text blocks. -/
theorem text_bedrockItems (toJson : ν → String) (i : Nat)
    (blocks : List (BedrockContentBlock ν)) :
    String.join ((bedrockItems toJson i blocks).map Item.text)
      = String.join (blocks.filterMap BedrockContentBlock.text?) := by
  induction blocks generalizing i with
  | nil => rfl
  | cons block blocks ih =>
      cases block with
      | text s =>
          show String.join ((Item.assistant _ s).text :: (bedrockItems toJson (i + 1) blocks).map _)
            = String.join (s :: blocks.filterMap BedrockContentBlock.text?)
          rw [String.join_cons, String.join_cons, ih, Item.text_assistant]
      | image => exact ih i
      | toolUse id name input =>
          show String.join ("" :: (bedrockItems toJson (i + 1) blocks).map _) = _
          rw [String.join_cons, ih, String.empty_append]
          rfl
      | toolResult => exact ih i

/-- The function calls of the items are the tool uses, in their order. -/
theorem callFields_bedrockItems (toJson : ν → String) (i : Nat)
    (blocks : List (BedrockContentBlock ν)) :
    (bedrockItems toJson i blocks).filterMap callFields
      = blocks.filterMap (BedrockContentBlock.fields? toJson) := by
  induction blocks generalizing i with
  | nil => rfl
  | cons block blocks ih =>
      cases block with
      | text s => exact ih (i + 1)
      | image => exact ih i
      | toolUse id name input =>
          show (id, name, toJson input) :: (bedrockItems toJson (i + 1) blocks).filterMap callFields
            = (id, name, toJson input) :: blocks.filterMap (BedrockContentBlock.fields? toJson)
          rw [ih]
      | toolResult => exact ih i

end AuraGateway.Provider
