import AuraGateway.Foundations.KeyedFolds
import AuraGateway.Provider.Sse
import AuraGateway.Types.Responses

/-!
# Chat-completion chunks

The chunks that OpenAI and the providers compatible with it stream, and how a transformer
accumulates the fragments of tool calls. The loop over the fragments of a chunk returns at
the first fragment that carries arguments, and a chunk that carries content returns before
its fragments are looked at: the fragments of a chunk are those that are reached and those
that are lost (`perm_fragments`).
-/

set_option autoImplicit false

namespace AuraGateway.Provider

open AuraGateway.Foundations AuraGateway.Foundations.KeyedFolds AuraGateway.Types

universe u

/-! ## Wire types -/

structure StreamFunction where
  name : Option String
  arguments : Option String
  deriving DecidableEq, Repr

/-- A fragment of a tool call. -/
structure StreamToolCall where
  index : Nat
  id : Option String
  function : Option StreamFunction
  deriving DecidableEq, Repr

structure StreamDelta where
  content : Option String
  toolCalls : Option (List StreamToolCall)
  deriving DecidableEq, Repr

structure StreamChoice where
  delta : StreamDelta
  deriving DecidableEq, Repr

/-- Usage on the wire, with the cached tokens of `prompt_tokens_details`. -/
structure ChunkUsage where
  promptTokens : Nat
  completionTokens : Nat
  promptTokensDetails : Option (Option Nat)
  deriving DecidableEq, Repr

structure StreamChunk where
  choices : List StreamChoice
  usage : Option ChunkUsage
  deriving DecidableEq, Repr

/-- `openai_compatible_usage`. -/
def ChunkUsage.toUsage (u : ChunkUsage) : Usage :=
  (Usage.new u.promptTokens u.completionTokens).withCacheHits
    ((u.promptTokensDetails.bind id).getD 0)

/-- What a line of the stream carries. -/
inductive ChatMessage where
  | chunk (c : StreamChunk)
  | done
  deriving DecidableEq, Repr

/-- Read a line; `parse` is `serde_json::from_str`. A payload that does not parse is passed
over with a warning. -/
def readChat (parse : String → Option StreamChunk) (line : List Char) : Option ChatMessage :=
  match readLine line with
  | .skip => none
  | .done => some .done
  | .data payload => (parse payload).map .chunk

/-- The messages of a stream that comes in pieces. -/
def received (parse : String → Option StreamChunk) (pieces : List (List UInt8)) :
    List ChatMessage :=
  (bodyLines pieces.flatten).filterMap (readChat parse)

/-- A stream of chunks that is closed by the end marker. -/
def Terminated (parse : String → Option StreamChunk) (pieces : List (List UInt8))
    (cs : List StreamChunk) : Prop :=
  received parse pieces = cs.map .chunk ++ [.done]

/-- The messages of a terminated stream, as its transformer takes them. -/
theorem Terminated.messages {parse : String → Option StreamChunk} {pieces : List (List UInt8)}
    {cs : List StreamChunk} (h : Terminated parse pieces cs) :
    (received parse pieces).map (Sum.inr (α := String))
      = (cs.map ChatMessage.chunk).map .inr ++ [.inr .done] := by
  rw [h, List.map_append]
  rfl

/-! ## Accumulated tool calls -/

/-- The order in which a hash map visits its entries. -/
structure HashOrder (α : Type u) where
  visit : List α → List α
  perm : ∀ l, (visit l).Perm l

structure PartialToolCall where
  id : String := ""
  name : String := ""
  arguments : String := ""
  deriving DecidableEq, Repr

def StreamToolCall.name (tc : StreamToolCall) : Option String := tc.function.bind (·.name)

def StreamToolCall.arguments (tc : StreamToolCall) : Option String :=
  tc.function.bind (·.arguments)

/-- Write a fragment into its entry. -/
def StreamToolCall.merge (tc : StreamToolCall) (entry : PartialToolCall) : PartialToolCall where
  id := tc.id.getD entry.id
  name := tc.name.getD entry.name
  arguments := entry.arguments ++ tc.arguments.getD ""

/-- The loop over the fragments of a chunk: the entries after it, and the index and the
arguments of the fragment it returned at. -/
def toolCallLoop (calls : List (Nat × PartialToolCall)) :
    List StreamToolCall → List (Nat × PartialToolCall) × Option (Nat × String)
  | [] => (calls, none)
  | tc :: rest =>
      let calls := amend {} tc.index tc.merge calls
      match tc.arguments with
      | some args => (calls, some (tc.index, args))
      | none => toolCallLoop calls rest

/-- The function calls of a final response. -/
def callItems (order : HashOrder (Nat × PartialToolCall)) (calls : List (Nat × PartialToolCall)) :
    List Item :=
  (order.visit calls).map fun p =>
    Item.newFunctionCall ("fc_" ++ toString p.1) p.2.id p.2.name p.2.arguments

/-- The output of a final response: a message if there is text, and the function calls. -/
def finalOutput (order : HashOrder (Nat × PartialToolCall)) (text : String)
    (calls : List (Nat × PartialToolCall)) : List Item :=
  (if text.isEmpty then [] else [Item.assistant "msg_0" text]) ++ callItems order calls

section FinalOutput

variable (order : HashOrder (Nat × PartialToolCall)) (text : String)
  (calls : List (Nat × PartialToolCall))

/-- The text of a final response is the text that was accumulated. -/
theorem text_finalOutput : String.join ((finalOutput order text calls).map Item.text) = text := by
  have hcalls : String.join ((callItems order calls).map Item.text) = "" := by
    rw [callItems, List.map_map]
    induction order.visit calls with
    | nil => rfl
    | cons p calls ih =>
        rw [List.map_cons, String.join_cons, ih]
        rfl
  rw [finalOutput, List.map_append, String.join_append, hcalls, String.append_empty]
  split
  · rename_i hempty
    exact (String.isEmpty_iff.mp hempty).symm
  · simp [String.join]

theorem functionCalls_finalOutput :
    (finalOutput order text calls).filterMap Item.asFunctionCall = callItems order calls := by
  have hcalls : (callItems order calls).filterMap Item.asFunctionCall = callItems order calls := by
    rw [callItems, List.filterMap_map]
    induction order.visit calls with
    | nil => rfl
    | cons p calls ih => exact congrArg (List.cons _) ih
  have hmessage : (if text.isEmpty then [] else [Item.assistant "msg_0" text]).filterMap
      Item.asFunctionCall = [] := by
    split <;> rfl
  rw [finalOutput, List.filterMap_append, hmessage, hcalls, List.nil_append]

end FinalOutput

/-! ## What a chunk carries -/

namespace StreamChunk

/-- The delta of the first choice. -/
def delta? (c : StreamChunk) : Option StreamDelta := c.choices.head?.map (·.delta)

def content (c : StreamChunk) : Option String := c.delta?.bind (·.content)

/-- The fragments of tool calls. -/
def fragments (c : StreamChunk) : List StreamToolCall := (c.delta?.bind (·.toolCalls)).getD []

end StreamChunk

/-- The fragments up to the first that carries arguments. -/
def upToArguments : List StreamToolCall → List StreamToolCall
  | [] => []
  | tc :: rest => tc :: if tc.arguments.isSome then [] else upToArguments rest

/-- The fragments after the first that carries arguments. -/
def afterArguments : List StreamToolCall → List StreamToolCall
  | [] => []
  | tc :: rest => if tc.arguments.isSome then rest else afterArguments rest

namespace StreamChunk

/-- The fragments that the transformers come to. -/
def reached (c : StreamChunk) : List StreamToolCall :=
  if c.content.isSome then [] else upToArguments c.fragments

/-- The fragments that they do not come to. -/
def lost (c : StreamChunk) : List StreamToolCall :=
  if c.content.isSome then c.fragments else afterArguments c.fragments

end StreamChunk

namespace StreamChunk

variable {c : StreamChunk}

theorem of_no_choice (h : c.choices.head? = none) : c.content = none ∧ c.reached = [] := by
  have hcontent : c.content = none := by simp [content, delta?, h]
  exact ⟨hcontent, by simp [reached, hcontent, fragments, delta?, h, upToArguments]⟩

theorem of_choice {choice : StreamChoice} (h : c.choices.head? = some choice) :
    c.content = choice.delta.content ∧ c.fragments = choice.delta.toolCalls.getD [] := by
  simp [content, fragments, delta?, h]

theorem reached_of_content {s : String} (h : c.content = some s) : c.reached = [] := by
  simp [reached, h]

theorem reached_of_no_content (h : c.content = none) : c.reached = upToArguments c.fragments := by
  simp [reached, h]

end StreamChunk

/-- The content strings of a stream. -/
def contents (cs : List StreamChunk) : List String := cs.filterMap StreamChunk.content

theorem contents_cons (c : StreamChunk) (cs : List StreamChunk) :
    contents (c :: cs) = c.content.toList ++ contents cs := by
  cases hc : c.content <;> simp [contents, hc]

def fragments (cs : List StreamChunk) : List StreamToolCall := cs.flatMap StreamChunk.fragments

def reached (cs : List StreamChunk) : List StreamToolCall := cs.flatMap StreamChunk.reached

def lost (cs : List StreamChunk) : List StreamToolCall := cs.flatMap StreamChunk.lost

/-- The index and the arguments of a fragment that carries arguments. -/
def StreamToolCall.argumentDelta (tc : StreamToolCall) : Option (Nat × String) :=
  tc.arguments.map fun args => (tc.index, args)

theorem upToArguments_append_afterArguments (tcs : List StreamToolCall) :
    upToArguments tcs ++ afterArguments tcs = tcs := by
  induction tcs with
  | nil => rfl
  | cons tc tcs ih =>
      rw [upToArguments, afterArguments]
      split
      · rfl
      · rw [List.cons_append, ih]

/-- The fragments that are reached come first. -/
theorem StreamChunk.fragments_eq (c : StreamChunk) : c.fragments = c.reached ++ c.lost := by
  rw [StreamChunk.reached, StreamChunk.lost]
  split
  · rfl
  · rw [upToArguments_append_afterArguments]

/-- Every fragment of a stream is reached or lost. -/
theorem mem_fragments {cs : List StreamChunk} {tc : StreamToolCall} :
    tc ∈ fragments cs ↔ tc ∈ reached cs ∨ tc ∈ lost cs := by
  simp only [fragments, reached, lost, List.mem_flatMap, StreamChunk.fragments_eq, List.mem_append]
  constructor
  · rintro ⟨c, hc, h | h⟩
    · exact Or.inl ⟨c, hc, h⟩
    · exact Or.inr ⟨c, hc, h⟩
  · rintro (⟨c, hc, h⟩ | ⟨c, hc, h⟩)
    · exact ⟨c, hc, Or.inl h⟩
    · exact ⟨c, hc, Or.inr h⟩

theorem toolCallLoop_eq (calls : List (Nat × PartialToolCall)) (tcs : List StreamToolCall) :
    toolCallLoop calls tcs
      = (amendAll {} StreamToolCall.index StreamToolCall.merge calls (upToArguments tcs),
        ((upToArguments tcs).filterMap StreamToolCall.argumentDelta).head?) := by
  induction tcs generalizing calls with
  | nil => rfl
  | cons tc tcs ih =>
      rw [toolCallLoop, upToArguments]
      cases h : tc.arguments with
      | none => simp [ih, StreamToolCall.argumentDelta, h, amendAll]
      | some args => simp [StreamToolCall.argumentDelta, h, amendAll]

/-- At most the last fragment that is reached carries arguments. -/
theorem argumentDeltas_upToArguments (tcs : List StreamToolCall) :
    ((upToArguments tcs).filterMap StreamToolCall.argumentDelta).head?.toList
      = (upToArguments tcs).filterMap StreamToolCall.argumentDelta := by
  induction tcs with
  | nil => rfl
  | cons tc tcs ih =>
      rw [upToArguments]
      cases h : tc.arguments with
      | none => simpa [StreamToolCall.argumentDelta, h] using ih
      | some args => simp [StreamToolCall.argumentDelta, h]

end AuraGateway.Provider
