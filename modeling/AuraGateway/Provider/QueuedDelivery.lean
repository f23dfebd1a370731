import AuraGateway.Provider.ChatDelivery
import AuraGateway.Provider.QueuedStream

/-!
# What Together and Fireworks deliver

The text of a stream is delivered whole (`queued_text_streamed`). The tool calls are
delivered, with a delta for each fragment, exactly when there is one call and the fragments
that are lost carry no arguments and make no difference to its id and name
(`queued_calls_streamed_iff`).
-/

set_option autoImplicit false

namespace AuraGateway.Provider

open AuraGateway.Types

/-! ## Text -/

/-- What a stream announces before its first text, if it has any. -/
def announcementItems (cs : List StreamChunk) : List StreamItem :=
  if (contents cs).isEmpty then []
  else [.ok (.outputItemAdded 0 (Item.assistant "msg_0" "")), .ok (.contentPartAdded 0 0 "text")]

/-- The text of a stream is delivered: the stream opens with the two opening events, passes on
each content string, announces the item and the content part once before the first of them,
and ends the text with the whole of it, which is also the text of the final response. -/
structure TextStreamed (cs : List StreamChunk) (given : List StreamItem) : Prop where
  opening : ∃ r rest, given = .ok (.responseCreated r) :: .ok (.responseInProgress r) :: rest
  deltas : given.filterMap textDelta = contents cs
  deltaText : deltaText given = String.join (contents cs)
  textItems : given.filter isTextItem
    = announcementItems cs ++ (contents cs).map deltaItem
      ++ QueuedTransformer.doneItems (String.join (contents cs))
  final : ∃ r, given.filterMap completedResponse = [r] ∧ r.text = String.join (contents cs)

section Text

variable (env : StreamEnv) (order : HashOrder (Nat × PartialToolCall))
  {parse : String → Option StreamChunk} {pieces : List (List UInt8)} {cs : List StreamChunk}

/-- The whole text is about the text, and is neither a delta nor a response. -/
theorem doneItems_facts (text : String) :
    (QueuedTransformer.doneItems text).filter isTextItem = QueuedTransformer.doneItems text
      ∧ (QueuedTransformer.doneItems text).filterMap textDelta = []
      ∧ (QueuedTransformer.doneItems text).filterMap completedResponse = []
      ∧ (QueuedTransformer.doneItems text).filterMap argumentsDelta = [] := by
  rw [QueuedTransformer.doneItems]
  split <;> exact ⟨rfl, rfl, rfl, rfl⟩

/-- The only response that completes the stream is the final one. -/
theorem ChatProvider.QueuedStreamed.responses {p : ChatProvider} {env : StreamEnv}
    {order : HashOrder (Nat × PartialToolCall)} {cs : List StreamChunk} {items given : List StreamItem}
    {t : QueuedTransformer} (h : p.QueuedStreamed env order cs items t given) :
    given.filterMap completedResponse = [t.toChatTransformer.finalResponse env.now order] := by
  obtain ⟨-, -, hcompleted, -⟩ := doneItems_facts (String.join (contents cs))
  rw [h.given_eq, List.filterMap_append, List.filterMap_append, List.filterMap_append, h.completed,
    hcompleted]
  rfl

theorem filterMap_deltaItem (l : List String) : (l.map deltaItem).filterMap textDelta = l := by
  induction l with
  | nil => rfl
  | cons s l ih => exact congrArg (List.cons s) ih

theorem queued_text_streamed (p : ChatProvider) (h : Terminated parse pieces cs) :
    TextStreamed cs (p.queuedTransform env order parse (pieces.map .ok)) := by
  obtain ⟨items, t, hstream⟩ := p.exists_queuedStreamed env order h
  obtain ⟨hdone, hdelta, -, -⟩ := doneItems_facts (String.join (contents cs))
  have hopening : (openingItems env p.idPrefix).filter isTextItem = [] := rfl
  have hfinal : [Except.ok (StreamEvent.responseCompleted
      (t.toChatTransformer.finalResponse env.now order))].filter isTextItem = [] := rfl
  have htext : (p.queuedTransform env order parse (pieces.map .ok)).filter isTextItem
      = announcementItems cs ++ (contents cs).map deltaItem
        ++ QueuedTransformer.doneItems (String.join (contents cs)) := by
    rw [hstream.given_eq, List.filter_append, List.filter_append, List.filter_append, hopening,
      hdone, hfinal, hstream.textItems, List.nil_append, List.append_nil, announcementItems]
  have hdeltas : (p.queuedTransform env order parse (pieces.map .ok)).filterMap textDelta
      = contents cs := by
    have hannounced : (announcementItems cs).filterMap textDelta = [] := by
      rw [announcementItems]
      split <;> rfl
    rw [← filterMap_textDelta_filter, htext, List.filterMap_append, List.filterMap_append,
      hannounced, hdelta, filterMap_deltaItem, List.nil_append, List.append_nil]
  have hresponses := hstream.responses
  exact
    { opening := ⟨_, _, by rw [hstream.given_eq]; rfl⟩
      deltas := hdeltas
      deltaText := congrArg String.join hdeltas
      textItems := htext
      final := ⟨_, hresponses, by
        rw [← hstream.accumulatedText]
        exact text_finalOutput order t.accumulatedText t.accumulatedToolCalls⟩ }

/-- The pieces of the body make no difference. -/
theorem queuedTransform_pieces (p : ChatProvider) {pieces' : List (List UInt8)}
    (h : pieces'.flatten = pieces.flatten) :
    p.queuedTransform env order parse (pieces'.map .ok)
      = p.queuedTransform env order parse (pieces.map .ok) :=
  Foundations.PolledStream.Machine.run_eq_of_flatten_eq _ h

/-- Together and Fireworks: the text is streamed whole, whatever pieces the body comes in. -/
theorem together_fireworks_text (h : Terminated parse pieces cs) :
    (TextStreamed cs (TogetherStreamTransformer.transform env order parse (pieces.map .ok))
        ∧ TextStreamed cs (FireworksStreamTransformer.transform env order parse (pieces.map .ok)))
      ∧ ∀ pieces' : List (List UInt8), pieces'.flatten = pieces.flatten →
        TogetherStreamTransformer.transform env order parse (pieces'.map .ok)
            = TogetherStreamTransformer.transform env order parse (pieces.map .ok)
          ∧ FireworksStreamTransformer.transform env order parse (pieces'.map .ok)
            = FireworksStreamTransformer.transform env order parse (pieces.map .ok) :=
  ⟨⟨queued_text_streamed env order _ h, queued_text_streamed env order _ h⟩, fun _ hpieces =>
    ⟨queuedTransform_pieces env order _ hpieces, queuedTransform_pieces env order _ hpieces⟩⟩

theorem together_fireworks_hello :
    (TextStreamed [textChunk "Hello", textChunk " world"]
          (TogetherStreamTransformer.transform ⟨"llama", "1", 0⟩ .forward (parseSent helloSent)
            (helloPieces.map .ok))
        ∧ TextStreamed [textChunk "Hello", textChunk " world"]
          (FireworksStreamTransformer.transform ⟨"llama", "1", 0⟩ .forward (parseSent helloSent)
            (helloPieces.map .ok)))
      ∧ TogetherStreamTransformer.transform ⟨"llama", "1", 0⟩ .forward (parseSent helloSent)
            ([helloBody].map .ok)
          = TogetherStreamTransformer.transform ⟨"llama", "1", 0⟩ .forward (parseSent helloSent)
            (helloPieces.map .ok) :=
  ⟨(together_fireworks_text _ _ hello_terminated).1,
    ((together_fireworks_text _ _ hello_terminated).2 [helloBody]
      (by simp [helloPieces])).1⟩

theorem done_terminated (parse : String → Option StreamChunk) :
    Terminated parse [sseBody ["[DONE]"]] [] :=
  terminated_of_payloads [] (fun _ hq => absurd hq List.not_mem_nil) (by simp)

/-- A stream without content announces nothing. -/
theorem done_announces_nothing :
    Terminated (parseSent []) [sseBody ["[DONE]"]] []
      ∧ (TogetherStreamTransformer.transform ⟨"llama", "1", 0⟩ .forward (parseSent [])
          ([sseBody ["[DONE]"]].map .ok)).filter isTextItem = []
      ∧ (FireworksStreamTransformer.transform ⟨"llama", "1", 0⟩ .forward (parseSent [])
          ([sseBody ["[DONE]"]].map .ok)).filter isTextItem = [] :=
  ⟨done_terminated _, (queued_text_streamed _ _ _ (done_terminated _)).textItems,
    (queued_text_streamed _ _ _ (done_terminated _)).textItems⟩

end Text

/-! ## Tool calls -/

/-- The tool calls of a stream are delivered in the final response, and a delta is given for
each fragment of arguments. -/
def CallsStreamed (cs : List StreamChunk) (given : List StreamItem) : Prop :=
  CallsDelivered cs given
    ∧ given.filterMap argumentsDelta = (fragments cs).filterMap StreamToolCall.argumentDelta

/-- One call, of which no lost fragment carries arguments, nor an id or name that would have
made a difference. -/
structure CallsReached (cs : List StreamChunk) : Prop where
  oneCall : ∀ a ∈ fragments cs, ∀ b ∈ fragments cs, a.index = b.index
  someReached : fragments cs ≠ [] → reached cs ≠ []
  lostArguments : ∀ tc ∈ lost cs, tc.arguments = none
  lastId_reached : lastId (reached cs) = lastId (fragments cs)
  lastName_reached : lastName (reached cs) = lastName (fragments cs)

section Calls

variable (env : StreamEnv) {parse : String → Option StreamChunk} {pieces : List (List UInt8)}
  {cs : List StreamChunk}

theorem length_argumentDeltas (cs : List StreamChunk) :
    ((fragments cs).filterMap StreamToolCall.argumentDelta).length
      = ((reached cs).filterMap StreamToolCall.argumentDelta).length
        + ((lost cs).filterMap StreamToolCall.argumentDelta).length := by
  induction cs with
  | nil => rfl
  | cons c cs ih =>
      simp only [fragments, reached, lost, List.flatMap_cons, c.fragments_eq,
        List.filterMap_append, List.length_append] at ih ⊢
      omega

/-- A delta is given for each fragment exactly when no arguments are lost. -/
theorem argumentDeltas_reached_iff (cs : List StreamChunk) :
    (reached cs).filterMap StreamToolCall.argumentDelta
        = (fragments cs).filterMap StreamToolCall.argumentDelta
      ↔ ∀ tc ∈ lost cs, tc.arguments = none := by
  have hnil : (lost cs).filterMap StreamToolCall.argumentDelta = []
      ↔ ∀ tc ∈ lost cs, tc.arguments = none := by
    simp [List.filterMap_eq_nil_iff, StreamToolCall.argumentDelta]
  rw [← hnil]
  constructor
  · intro h
    have hlen := length_argumentDeltas cs
    rw [h] at hlen
    exact List.length_eq_zero_iff.mp (by omega)
  · intro h
    clear hnil
    induction cs with
    | nil => rfl
    | cons c cs ih =>
        rw [lost, List.flatMap_cons, List.filterMap_append] at h
        obtain ⟨hhead, htail⟩ := List.append_eq_nil_iff.mp h
        rw [reached, fragments, List.flatMap_cons, List.flatMap_cons, c.fragments_eq,
          List.filterMap_append, List.filterMap_append, List.filterMap_append, hhead,
          List.append_nil]
        exact congrArg _ (ih htail)

theorem queued_calls_streamed_items (order : HashOrder (Nat × PartialToolCall)) (p : ChatProvider)
    (h : Terminated parse pieces cs) :
    CallsStreamed cs (p.queuedTransform env order parse (pieces.map .ok))
      ↔ callItems order (accumulated (reached cs)) = receivedCalls (fragments cs)
        ∧ (reached cs).filterMap StreamToolCall.argumentDelta
          = (fragments cs).filterMap StreamToolCall.argumentDelta := by
  obtain ⟨items, t, hstream⟩ := p.exists_queuedStreamed env order h
  obtain ⟨-, -, -, harguments⟩ := doneItems_facts (String.join (contents cs))
  have hresponses := hstream.responses
  have hcalls : (t.toChatTransformer.finalResponse env.now order).functionCalls
      = callItems order (accumulated (reached cs)) := by
    rw [← hstream.accumulatedToolCalls]
    exact functionCalls_finalOutput order t.accumulatedText t.accumulatedToolCalls
  have hdeltas : (p.queuedTransform env order parse (pieces.map .ok)).filterMap argumentsDelta
      = (reached cs).filterMap StreamToolCall.argumentDelta := by
    have hopening : (openingItems env p.idPrefix).filterMap argumentsDelta = [] := rfl
    rw [hstream.given_eq, List.filterMap_append, List.filterMap_append, List.filterMap_append,
      hopening, harguments, hstream.arguments, List.nil_append, List.append_nil]
    exact List.append_nil _
  rw [CallsStreamed, CallsDelivered, hresponses, hdeltas, ← hcalls]
  refine and_congr_left' ⟨?_, fun heq => ⟨_, rfl, heq⟩⟩
  rintro ⟨r, hr, heq⟩
  rw [List.singleton_inj.mp hr]
  exact heq

theorem queued_calls_streamed_iff (p : ChatProvider) (h : Terminated parse pieces cs) :
    (∀ order, CallsStreamed cs (p.queuedTransform env order parse (pieces.map .ok)))
      ↔ CallsReached cs := by
  constructor
  · intro hall
    have hitems := fun order => (queued_calls_streamed_items env order p h).mp (hall order)
    have hkept := (callItems_eq_received_iff cs).mp fun order => (hitems order).1
    exact
      { oneCall := hkept.oneCall
        someReached := hkept.someReached
        lostArguments := (argumentDeltas_reached_iff cs).mp (hitems .forward).2
        lastId_reached := hkept.lastId_reached
        lastName_reached := hkept.lastName_reached }
  · intro hreached order
    have hkept : CallsKept cs :=
      { oneCall := hreached.oneCall
        someReached := hreached.someReached
        lostArguments := fun tc htc => by rw [hreached.lostArguments tc htc]; rfl
        lastId_reached := hreached.lastId_reached
        lastName_reached := hreached.lastName_reached }
    exact (queued_calls_streamed_items env order p h).mpr
      ⟨hkept.items order, (argumentDeltas_reached_iff cs).mpr hreached.lostArguments⟩

/-- Together and Fireworks: the tool calls are streamed, whatever the order of the map, exactly
when there is one and the fragments that are lost make no difference. -/
theorem together_fireworks_calls_iff (h : Terminated parse pieces cs) :
    ((∀ order, CallsStreamed cs
          (TogetherStreamTransformer.transform env order parse (pieces.map .ok)))
        ↔ CallsReached cs)
      ∧ ((∀ order, CallsStreamed cs
          (FireworksStreamTransformer.transform env order parse (pieces.map .ok)))
        ↔ CallsReached cs) :=
  ⟨queued_calls_streamed_iff env _ h, queued_calls_streamed_iff env _ h⟩

theorem single_reached : CallsReached singleChunks where
  oneCall := by decide
  someReached := by decide
  lostArguments := by decide
  lastId_reached := by decide
  lastName_reached := by decide

theorem together_fireworks_calls_sample :
    (∀ order, CallsStreamed singleChunks
        (TogetherStreamTransformer.transform ⟨"llama", "1", 0⟩ order (parseSent singleSent)
          (singlePieces.map .ok)))
      ∧ ∀ order, CallsStreamed singleChunks
        (FireworksStreamTransformer.transform ⟨"llama", "1", 0⟩ order (parseSent singleSent)
          (singlePieces.map .ok)) :=
  ⟨(together_fireworks_calls_iff _ single_terminated).1.mpr single_reached,
    (together_fireworks_calls_iff _ single_terminated).2.mpr single_reached⟩

/-- The second of two parallel calls is neither passed on nor delivered. -/
theorem together_fireworks_lose_parallel_call :
    Terminated (parseSent parallelSent) parallelPieces [parallelChunk]
      ∧ ∀ order,
        ¬ CallsStreamed [parallelChunk]
            (TogetherStreamTransformer.transform ⟨"llama", "1", 0⟩ order (parseSent parallelSent)
              (parallelPieces.map .ok))
          ∧ ¬ CallsStreamed [parallelChunk]
            (FireworksStreamTransformer.transform ⟨"llama", "1", 0⟩ order (parseSent parallelSent)
              (parallelPieces.map .ok)) := by
  have hlost : ∀ order p, ¬ CallsStreamed [parallelChunk]
      (ChatProvider.queuedTransform p ⟨"llama", "1", 0⟩ order (parseSent parallelSent)
        (parallelPieces.map .ok)) := by
    intro order p h
    have hreached := reached_of_items
      ((queued_calls_streamed_items _ order p parallel_terminated).mp h).1
      ⟨1, some "b", some ⟨some "g", some "2"⟩⟩ (by decide)
    exact absurd hreached (by decide)
  exact ⟨parallel_terminated, fun order => ⟨hlost order _, hlost order _⟩⟩

end Calls

end AuraGateway.Provider
