import AuraGateway.Provider.ChatStream

/-!
# What the one-event transformers deliver

The content strings of the first two chunks that have content are not passed on: the text of
a stream is delivered exactly when both are empty (`text_delivered_iff`). The tool calls of a
stream are delivered exactly when there is one and no fragment of it is lost
(`calls_delivered_iff`).
-/

set_option autoImplicit false

namespace AuraGateway.Provider

open AuraGateway.Types

/-! ## Streams of a server -/

/-- A line that holds a payload is read as what the payload parses to. -/
theorem readChat_payload {parse : String → Option StreamChunk} {p : String}
    (htrim : RustStd.trimChars ("data: " ++ p).toList = ("data: " ++ p).toList)
    (hdone : p ≠ "[DONE]") :
    readChat parse ("data: " ++ p).toList = (parse p).map .chunk := by
  have hne : ("data: " ++ p).toList ≠ "data: [DONE]".toList := by
    intro heq
    rw [String.toList_append] at heq
    exact hdone (String.toList_injective (List.append_cancel_left heq))
  have hnonempty : ("data: " ++ p).toList.isEmpty = false := by
    rw [String.toList_append]
    rfl
  have hstrip : stripData ("data: " ++ p).toList = some p := by
    rw [stripData, String.toList_append, if_pos (List.prefix_append _ _)]
    exact congrArg some (String.ofList_toList (s := p))
  rw [readChat, readLine, htrim]
  simp only [hnonempty, if_neg hne, hstrip, Bool.false_eq_true, if_false]

/-- A payload with the chunk that it parses to, sent in one line. -/
structure SentChunk (parse : String → Option StreamChunk) (q : String × StreamChunk) : Prop where
  oneLine : '\n' ∉ q.1.toList
  trimmed : RustStd.trimChars ("data: " ++ q.1).toList = ("data: " ++ q.1).toList
  notDone : q.1 ≠ "[DONE]"
  parsed : parse q.1 = some q.2

section Sent

variable {parse : String → Option StreamChunk} {pieces : List (List UInt8)}

/-- Payloads arrive line by line, in whatever pieces. -/
theorem received_of_payloads {payloads : List String} (h : ∀ p ∈ payloads, '\n' ∉ p.toList)
    (hpieces : pieces.flatten = sseBody payloads) :
    received parse pieces = payloads.filterMap fun p => readChat parse ("data: " ++ p).toList := by
  rw [received, hpieces, bodyLines_sseBody h, filterMap_sseLines rfl]

theorem filterMap_readChat {sent : List (String × StreamChunk)}
    (hsent : ∀ q ∈ sent, SentChunk parse q) :
    (sent.map Prod.fst).filterMap (fun p => readChat parse ("data: " ++ p).toList)
      = (sent.map Prod.snd).map .chunk := by
  rw [List.filterMap_map, List.map_map, ← List.filterMap_eq_map]
  refine List.filterMap_congr fun q hq => ?_
  have h := hsent q hq
  simp only [Function.comp_apply, readChat_payload h.trimmed h.notDone, h.parsed, Option.map_some]

theorem oneLine_of_sent {sent : List (String × StreamChunk)}
    (hsent : ∀ q ∈ sent, SentChunk parse q) : ∀ p ∈ sent.map Prod.fst, '\n' ∉ p.toList := by
  intro p hp
  obtain ⟨q, hq, rfl⟩ := List.mem_map.mp hp
  exact (hsent q hq).oneLine

/-- The chunks that a server sends before the connection ends. -/
theorem received_of_sent {sent : List (String × StreamChunk)}
    (hsent : ∀ q ∈ sent, SentChunk parse q)
    (hpieces : pieces.flatten = sseBody (sent.map Prod.fst)) :
    received parse pieces = (sent.map Prod.snd).map .chunk := by
  rw [received_of_payloads (oneLine_of_sent hsent) hpieces, filterMap_readChat hsent]

/-- The chunks that a server sends, closed by `[DONE]`, arrive in whatever pieces. -/
theorem terminated_of_payloads (sent : List (String × StreamChunk))
    (hsent : ∀ q ∈ sent, SentChunk parse q)
    (hpieces : pieces.flatten = sseBody (sent.map Prod.fst ++ ["[DONE]"])) :
    Terminated parse pieces (sent.map Prod.snd) := by
  have hno : ∀ p ∈ sent.map Prod.fst ++ ["[DONE]"], '\n' ∉ p.toList := by
    intro p hp
    rcases List.mem_append.mp hp with hp | hp
    · exact oneLine_of_sent hsent p hp
    · rw [List.mem_singleton.mp hp]
      decide
  have hend : ["[DONE]"].filterMap (fun p => readChat parse ("data: " ++ p).toList) = [.done] := by
    rfl
  rw [Terminated, received_of_payloads hno hpieces, List.filterMap_append, filterMap_readChat hsent,
    hend]

/-- What closes with a brace is not `[DONE]`. -/
theorem KnownPayloads.sentChunk {sent : List (String × StreamChunk)} {chars : List (List Char)}
    (h : KnownPayloads sent chars) : ∀ q ∈ sent, SentChunk (fun p => sent.lookup p) q := by
  intro q hq
  have hclosed := h.closed _ (h.toList_mem hq)
  refine ⟨h.oneLine _ (h.toList_mem hq), ?_, ?_, h.lookup hq⟩
  · rw [String.toList_append]
    exact trimChars_data hclosed
  · intro hdone
    rw [hdone] at hclosed
    exact absurd hclosed (by decide)

end Sent

/-! ## Text -/

section Text

variable (env : StreamEnv) (order : HashOrder (Nat × PartialToolCall))
  {parse : String → Option StreamChunk} {pieces : List (List UInt8)} {cs : List StreamChunk}

theorem text_delivered_iff (p : ChatProvider) (h : Terminated parse pieces cs) :
    TextDelivered (contents cs) (p.transform env order parse (pieces.map .ok))
      ↔ ∀ s ∈ (contents cs).take 2, s = "" := by
  obtain ⟨items, t, hstream⟩ := p.exists_streamed env order h
  rw [← join_drop_eq_iff, TextDelivered, hstream.deltaText, hstream.completedResponses]
  constructor
  · exact fun hboth => hboth.1
  · intro heq
    exact ⟨heq, _, rfl, hstream.text_final.trans heq⟩

/-- OpenAI: the text is delivered exactly when the first two content strings are empty. -/
theorem openai_text_delivered_iff (h : Terminated parse pieces cs) :
    TextDelivered (contents cs) (OpenAIStreamTransformer.transform env order parse (pieces.map .ok))
      ↔ ∀ s ∈ (contents cs).take 2, s = "" :=
  text_delivered_iff env order OpenAIStreamTransformer h

/-- Mistral, Ollama and HuggingFace: likewise. -/
theorem compatible_text_delivered_iff (h : Terminated parse pieces cs) :
    (TextDelivered (contents cs) (MistralStreamTransformer.transform env order parse (pieces.map .ok))
        ↔ ∀ s ∈ (contents cs).take 2, s = "")
      ∧ (TextDelivered (contents cs) (OllamaStreamTransformer.transform env order parse (pieces.map .ok))
        ↔ ∀ s ∈ (contents cs).take 2, s = "")
      ∧ (TextDelivered (contents cs) (HfStreamTransformer.transform env order parse (pieces.map .ok))
        ↔ ∀ s ∈ (contents cs).take 2, s = "") :=
  ⟨text_delivered_iff env order MistralStreamTransformer h,
    text_delivered_iff env order OllamaStreamTransformer h,
    text_delivered_iff env order HfStreamTransformer h⟩

end Text

/-! ### A stream of two words -/

/-- A chunk that carries content. -/
def textChunk (content : String) : StreamChunk := ⟨[⟨⟨some content, none⟩⟩], none⟩

/-- Payloads with the chunks they parse to. -/
def helloSent : List (String × StreamChunk) :=
  [("\x7b\"id\":\"1\",\"choices\":[\x7b\"delta\":\x7b\"content\":\"Hello\"\x7d\x7d]\x7d",
      textChunk "Hello"),
    ("\x7b\"id\":\"1\",\"choices\":[\x7b\"delta\":\x7b\"content\":\" world\"\x7d\x7d]\x7d",
      textChunk " world")]

/-- The body that a server sends. -/
def helloBody : List UInt8 := sseBody (helloSent.map Prod.fst ++ ["[DONE]"])

/-- The body in two pieces. -/
def helloPieces : List (List UInt8) := [helloBody.take 20, helloBody.drop 20]

/-- A parser that knows the payloads that were sent. -/
def parseSent (sent : List (String × StreamChunk)) (p : String) : Option StreamChunk :=
  sent.lookup p

theorem hello_known : ∃ chars, KnownPayloads helloSent chars :=
  ⟨_, { texts := .cons rfl (.cons rfl .nil)
        oneLine := by decide
        closed := by decide
        distinct := by decide }⟩

theorem hello_terminated :
    Terminated (parseSent helloSent) helloPieces [textChunk "Hello", textChunk " world"] := by
  obtain ⟨chars, hknown⟩ := hello_known
  exact terminated_of_payloads helloSent hknown.sentChunk (by simp [helloPieces, helloBody])

/-- Two words are sent, none is passed on. -/
theorem openai_swallows_hello :
    Terminated (parseSent helloSent) helloPieces [textChunk "Hello", textChunk " world"]
      ∧ ¬ TextDelivered (contents [textChunk "Hello", textChunk " world"])
          (OpenAIStreamTransformer.transform ⟨"gpt-4o", "1", 0⟩ .forward (parseSent helloSent)
            (helloPieces.map .ok)) := by
  refine ⟨hello_terminated, fun h => ?_⟩
  have hempty := (text_delivered_iff _ _ _ hello_terminated).mp h "Hello" (by decide)
  exact absurd hempty (by decide)

theorem compatible_swallow_hello :
    Terminated (parseSent helloSent) helloPieces [textChunk "Hello", textChunk " world"]
      ∧ ∀ p ∈ [MistralStreamTransformer, OllamaStreamTransformer, HfStreamTransformer],
        ¬ TextDelivered (contents [textChunk "Hello", textChunk " world"])
          (p.transform ⟨"mistral-small", "1", 0⟩ .forward (parseSent helloSent)
            (helloPieces.map .ok)) := by
  refine ⟨hello_terminated, fun p _ h => ?_⟩
  have hempty := (text_delivered_iff _ _ p hello_terminated).mp h "Hello" (by decide)
  exact absurd hempty (by decide)

/-- Behind two empty strings, a word is passed on. -/
def paddedSent : List (String × StreamChunk) :=
  [("\x7b\"id\":\"1\",\"choices\":[\x7b\"delta\":\x7b\"content\":\"\"\x7d\x7d]\x7d", textChunk ""),
    ("\x7b\"id\":\"2\",\"choices\":[\x7b\"delta\":\x7b\"content\":\"\"\x7d\x7d]\x7d", textChunk ""),
    ("\x7b\"id\":\"3\",\"choices\":[\x7b\"delta\":\x7b\"content\":\"Hi\"\x7d\x7d]\x7d", textChunk "Hi")]

def paddedPieces : List (List UInt8) := [sseBody (paddedSent.map Prod.fst ++ ["[DONE]"])]

theorem padded_terminated :
    Terminated (parseSent paddedSent) paddedPieces [textChunk "", textChunk "", textChunk "Hi"] := by
  have hknown : KnownPayloads paddedSent _ :=
    { texts := .cons rfl (.cons rfl (.cons rfl .nil))
      oneLine := by decide
      closed := by decide
      distinct := by decide }
  exact terminated_of_payloads paddedSent hknown.sentChunk (by simp [paddedPieces])

theorem openai_text_delivered_sample :
    TextDelivered (contents [textChunk "", textChunk "", textChunk "Hi"])
      (OpenAIStreamTransformer.transform ⟨"gpt-4o", "1", 0⟩ .forward (parseSent paddedSent)
        (paddedPieces.map .ok)) :=
  (openai_text_delivered_iff _ _ padded_terminated).mpr (by decide)

theorem compatible_text_delivered_sample :
    TextDelivered (contents [textChunk "", textChunk "", textChunk "Hi"])
      (MistralStreamTransformer.transform ⟨"mistral-small", "1", 0⟩ .forward (parseSent paddedSent)
        (paddedPieces.map .ok)) :=
  (compatible_text_delivered_iff _ _ padded_terminated).1.mpr (by decide)

/-! ## Tool calls -/

/-- The tool calls of a stream are delivered in the final response. -/
def CallsDelivered (cs : List StreamChunk) (given : List StreamItem) : Prop :=
  ∃ r, given.filterMap completedResponse = [r] ∧ r.functionCalls = receivedCalls (fragments cs)

section Calls

variable (env : StreamEnv) {order : HashOrder (Nat × PartialToolCall)}
  {parse : String → Option StreamChunk} {pieces : List (List UInt8)} {cs : List StreamChunk}

theorem calls_delivered_iff_items (p : ChatProvider) (h : Terminated parse pieces cs) :
    CallsDelivered cs (p.transform env order parse (pieces.map .ok))
      ↔ callItems order (accumulated (reached cs)) = receivedCalls (fragments cs) := by
  obtain ⟨items, t, hstream⟩ := p.exists_streamed env order h
  rw [CallsDelivered, hstream.completedResponses, ← hstream.functionCalls_final]
  constructor
  · rintro ⟨r, hr, hcalls⟩
    rw [List.singleton_inj.mp hr]
    exact hcalls
  · exact fun hcalls => ⟨_, rfl, hcalls⟩

/-- An index is delivered only if a fragment of it is reached. -/
theorem reached_of_items
    (h : callItems order (accumulated (reached cs)) = receivedCalls (fragments cs)) :
    ∀ tc ∈ fragments cs, tc.index ∈ (reached cs).map (·.index) := by
  intro tc htc
  have hmem : receivedCall (fragments cs) tc.index ∈ receivedCalls (fragments cs) :=
    List.mem_map_of_mem (mem_receivedIndices.mpr (List.mem_map.mpr ⟨tc, htc, rfl⟩))
  rw [← h, (callItems_perm order (reached cs)).mem_iff] at hmem
  obtain ⟨i, hi, heq⟩ := List.mem_map.mp hmem
  rw [← (receivedCall_inj heq).1]
  exact mem_indices.mp hi

/-- OpenAI: the tool calls are delivered, whatever the order of the map, exactly when there is
one and the fragments that are lost make no difference to it. -/
theorem openai_calls_delivered_iff (h : Terminated parse pieces cs) :
    (∀ order, CallsDelivered cs
        (OpenAIStreamTransformer.transform env order parse (pieces.map .ok)))
      ↔ CallsKept cs := by
  rw [← callItems_eq_received_iff]
  exact forall_congr' fun order => calls_delivered_iff_items env OpenAIStreamTransformer h

end Calls

/-! ### Two calls in a chunk -/

/-- A chunk that carries fragments of tool calls. -/
def callsChunk (toolCalls : List StreamToolCall) : StreamChunk := ⟨[⟨⟨none, some toolCalls⟩⟩], none⟩

def parallelChunk : StreamChunk :=
  callsChunk [⟨0, some "a", some ⟨some "f", some "1"⟩⟩, ⟨1, some "b", some ⟨some "g", some "2"⟩⟩]

def parallelSent : List (String × StreamChunk) :=
  [("\x7b\"id\":\"1\",\"choices\":[\x7b\"delta\":\x7b\"tool_calls\":["
      ++ "\x7b\"index\":0,\"id\":\"a\",\"function\":\x7b\"name\":\"f\",\"arguments\":\"1\"\x7d\x7d,"
      ++ "\x7b\"index\":1,\"id\":\"b\",\"function\":\x7b\"name\":\"g\",\"arguments\":\"2\"\x7d\x7d"
      ++ "]\x7d\x7d]\x7d", parallelChunk)]

def parallelPieces : List (List UInt8) := [sseBody (parallelSent.map Prod.fst ++ ["[DONE]"])]

theorem parallel_terminated :
    Terminated (parseSent parallelSent) parallelPieces [parallelChunk] := by
  have hknown : KnownPayloads parallelSent _ :=
    { texts := .cons (append_eq_ofList (append_eq_ofList (append_eq_ofList rfl rfl) rfl) rfl) .nil
      oneLine := by decide
      closed := by decide
      distinct := by decide }
  exact terminated_of_payloads parallelSent hknown.sentChunk (by simp [parallelPieces])

/-- The second of two parallel calls is not delivered, whatever the order of the map. -/
theorem openai_loses_parallel_call :
    Terminated (parseSent parallelSent) parallelPieces [parallelChunk]
      ∧ ∀ order, ¬ CallsDelivered [parallelChunk]
          (OpenAIStreamTransformer.transform ⟨"gpt-4o", "1", 0⟩ order (parseSent parallelSent)
            (parallelPieces.map .ok)) := by
  refine ⟨parallel_terminated, fun order h => ?_⟩
  have hreached := reached_of_items ((calls_delivered_iff_items _ _ parallel_terminated).mp h)
    ⟨1, some "b", some ⟨some "g", some "2"⟩⟩ (by decide)
  exact absurd hreached (by decide)

def singleChunks : List StreamChunk :=
  [callsChunk [⟨0, some "a", some ⟨some "f", none⟩⟩], callsChunk [⟨0, none, some ⟨none, some "1"⟩⟩]]

def singleSent : List (String × StreamChunk) :=
  [("\x7b\"id\":\"1\",\"choices\":[\x7b\"delta\":\x7b\"tool_calls\":["
      ++ "\x7b\"index\":0,\"id\":\"a\",\"function\":\x7b\"name\":\"f\"\x7d\x7d]\x7d\x7d]\x7d",
      callsChunk [⟨0, some "a", some ⟨some "f", none⟩⟩]),
    ("\x7b\"id\":\"2\",\"choices\":[\x7b\"delta\":\x7b\"tool_calls\":["
      ++ "\x7b\"index\":0,\"function\":\x7b\"arguments\":\"1\"\x7d\x7d]\x7d\x7d]\x7d",
      callsChunk [⟨0, none, some ⟨none, some "1"⟩⟩])]

def singlePieces : List (List UInt8) := [sseBody (singleSent.map Prod.fst ++ ["[DONE]"])]

theorem single_terminated : Terminated (parseSent singleSent) singlePieces singleChunks := by
  have hknown : KnownPayloads singleSent _ :=
    { texts := .cons (append_eq_ofList rfl rfl) (.cons (append_eq_ofList rfl rfl) .nil)
      oneLine := by decide
      closed := by decide
      distinct := by decide }
  exact terminated_of_payloads singleSent hknown.sentChunk (by simp [singlePieces])

theorem single_kept : CallsKept singleChunks where
  oneCall := by decide
  someReached := by decide
  lostArguments := by decide
  lastId_reached := by decide
  lastName_reached := by decide

theorem openai_calls_delivered_sample :
    CallsKept singleChunks ∧ ∀ order, CallsDelivered singleChunks
      (OpenAIStreamTransformer.transform ⟨"gpt-4o", "1", 0⟩ order (parseSent singleSent)
        (singlePieces.map .ok)) :=
  ⟨single_kept, (openai_calls_delivered_iff _ single_terminated).mpr single_kept⟩

end AuraGateway.Provider
