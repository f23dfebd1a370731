import AuraGateway.Provider.ChatAnswer
import AuraGateway.Provider.QueuedDelivery
import AuraGateway.Provider.StreamEndings

/-!
# The adapters for chat-completion streams

What the six adapters have in common. A stream that is cut is not closed: it ends once only if
the connection delivers an end marker or a fault (`stream_ends_once_iff`). The usage of a
stream is reported by the adapters that keep it (`streamed_usage_iff`).
-/

set_option autoImplicit false

namespace AuraGateway.Provider

open AuraGateway.Foundations AuraGateway.Foundations.Endings AuraGateway.Types

inductive ChatAdapter where
  | openAI
  | mistral
  | ollama
  | huggingFace
  | together
  | fireworks
  deriving DecidableEq, Repr

namespace ChatAdapter

/-- The stream transformer of an adapter. -/
def transform (a : ChatAdapter) (env : StreamEnv) (order : HashOrder (Nat × PartialToolCall))
    (parse : String → Option StreamChunk) (source : List (Except String (List UInt8))) :
    List StreamItem :=
  match a with
  | .openAI => OpenAIStreamTransformer.transform env order parse source
  | .mistral => MistralStreamTransformer.transform env order parse source
  | .ollama => OllamaStreamTransformer.transform env order parse source
  | .huggingFace => HfStreamTransformer.transform env order parse source
  | .together => TogetherStreamTransformer.transform env order parse source
  | .fireworks => FireworksStreamTransformer.transform env order parse source

/-- The usage that an adapter reports for a whole answer. -/
def toUsage (toJson : Json → String) : ChatAdapter → ChunkUsage → Usage
  | .openAI => OpenAIProvider.answerFormat.toUsage
  | .mistral => MistralProvider.answerFormat.toUsage
  | .ollama => OllamaProvider.answerFormat.toUsage
  | .huggingFace => HuggingFaceProvider.answerFormat.toUsage
  | .together => (TogetherProvider.answerFormat toJson).toUsage
  | .fireworks => (FireworksProvider.answerFormat toJson).toUsage

end ChatAdapter

/-! ## Endings -/

section Endings

variable (env : StreamEnv) (order : HashOrder (Nat × PartialToolCall))
  (parse : String → Option StreamChunk) (source : List (Except String (List UInt8)))

/-- A stream ends once, in whatever way. -/
def EndsSomehow (given : List StreamItem) : Prop := ∃ r, EndsOnce ending r given

/-- A connection closes a stream once: it delivers one end marker or fault, and no chunk that
gives an event after it. -/
def Closes (ms : List (String ⊕ ChatMessage)) : Prop := ∃ r, ClosedOnce chatEffect r ms

theorem endsSomehow_opening_iff (idPrefix : String) {items : List StreamItem}
    {ms : List (String ⊕ ChatMessage)} (h : Blocks ending chatEffect ms items) :
    EndsSomehow (openingItems env idPrefix ++ items) ↔ Closes ms := by
  refine exists_congr fun r => ?_
  rw [endsOnce_append_iff (ending_opening env idPrefix), h.endsOnce_iff]

/-- What a connection delivers is what the machine of a transformer is driven through. -/
theorem chat_ends_iff (p : ChatProvider) :
    EndsSomehow (p.transform env order parse source) ↔ Closes (delivered parse source) := by
  have hdrive : p.transform env order parse source
      = openingItems env p.idPrefix ++ (p.machine env.now order).drive
          { p.start env with sentCreated := true, sentInProgress := true }
          (delivered parse source) := by
    rw [ChatProvider.transform, PolledStream.Machine.run_eq_drive,
      PolledStream.Machine.drive_comap_inputs]
    exact p.drive_start env order _
  rw [hdrive]
  exact endsSomehow_opening_iff env p.idPrefix
    (ChatTransformer.drive_blocks p env.now order _ ⟨rfl, rfl⟩)

theorem queued_ends_iff (p : ChatProvider) :
    EndsSomehow (p.queuedTransform env order parse source) ↔ Closes (delivered parse source) := by
  have hdrive : p.queuedTransform env order parse source
      = openingItems env p.idPrefix ++ (p.queuedMachine env.now order).drive
          { p.queuedStart env with sentCreated := true, sentInProgress := true }
          (delivered parse source) := by
    rw [ChatProvider.queuedTransform, PolledStream.Machine.run_eq_drive,
      PolledStream.Machine.drive_comap_inputs]
    exact p.queued_drive_start env order _
  rw [hdrive]
  exact endsSomehow_opening_iff env p.idPrefix
    (QueuedTransformer.drive_blocks p env.now order _ ⟨⟨rfl, rfl⟩, rfl⟩)

/-- Whatever a connection delivers, the stream of an adapter ends with one terminal event or
one error, and nothing after it, exactly when the connection closes it once. -/
theorem stream_ends_once_iff (a : ChatAdapter) :
    EndsSomehow (a.transform env order parse source) ↔ Closes (delivered parse source) := by
  cases a with
  | openAI => exact chat_ends_iff env order parse source _
  | mistral => exact chat_ends_iff env order parse source _
  | ollama => exact chat_ends_iff env order parse source _
  | huggingFace => exact chat_ends_iff env order parse source _
  | together => exact queued_ends_iff env order parse source _
  | fireworks => exact queued_ends_iff env order parse source _

end Endings

theorem hello_sent : ∀ q ∈ helloSent, SentChunk (parseSent helloSent) q := by
  obtain ⟨chars, hknown⟩ := hello_known
  exact hknown.sentChunk

/-- Two words, and the connection ends: no adapter closes the stream. -/
theorem cut_stream_not_closed :
    delivered (parseSent helloSent) ([sseBody (helloSent.map Prod.fst)].map .ok)
        = [.inr (.chunk (textChunk "Hello")), .inr (.chunk (textChunk " world"))]
      ∧ ∀ a : ChatAdapter, ¬ EndsSomehow
          (a.transform ⟨"llama", "1", 0⟩ .forward (parseSent helloSent)
            ([sseBody (helloSent.map Prod.fst)].map .ok)) := by
  have hmessages : delivered (parseSent helloSent) ([sseBody (helloSent.map Prod.fst)].map .ok)
      = [.inr (.chunk (textChunk "Hello")), .inr (.chunk (textChunk " world"))] := by
    rw [delivered_map_ok, received_of_sent hello_sent (by simp)]
    rfl
  refine ⟨hmessages, ?_⟩
  intro a h
  obtain ⟨r, before, m, after, heq, hclosing, -⟩ := (stream_ends_once_iff _ _ _ _ a).mp h
  have hmem : m ∈ delivered (parseSent helloSent)
      ([sseBody (helloSent.map Prod.fst)].map .ok) := by
    rw [heq]
    simp
  rw [hmessages] at hmem
  -- neither of the two chunks closes the stream
  rcases List.mem_pair.mp hmem with rfl | rfl
  · cases hclosing
  · cases hclosing

/-! ## Usage -/

/-- The response of a terminal event. -/
def terminalResponse : StreamItem → Option Response
  | .ok (.responseCompleted r) | .ok (.responseIncomplete r) | .ok (.responseFailed r)
  | .ok (.responseCancelled r) => some r
  | _ => none

/-- The last usage that a stream carries. -/
def lastUsage (cs : List StreamChunk) : Option ChunkUsage := (cs.filterMap (·.usage)).getLast?

/-- A stream ends with a terminal response that has the usage. -/
def UsageReported (usage : Usage) (given : List StreamItem) : Prop :=
  ∃ r, EndsOnce terminalResponse r given ∧ r.usage = some usage

/-- The usage that a transformer has kept after a chunk. -/
def ChatProvider.keep (p : ChatProvider) (kept : Option Usage) (c : StreamChunk) : Option Usage :=
  match c.usage with
  | some u => if p.keepsUsage then some u.toUsage else kept
  | none => kept

/-- A transformer that keeps usage has the last one, the others have none. -/
theorem foldl_keep (p : ChatProvider) (cs : List StreamChunk) :
    cs.foldl p.keep none = if p.keepsUsage then (lastUsage cs).map ChunkUsage.toUsage else none := by
  induction cs using List.reverseRecOn with
  | nil => simp [lastUsage]
  | append_singleton cs c ih =>
      have hlast : lastUsage (cs ++ [c]) = c.usage.or (lastUsage cs) := by
        rw [lastUsage, List.filterMap_append, lastUsage]
        cases hu : c.usage with
        | none => simp [hu]
        | some u => simp [hu]
      rw [List.foldl_append, ih, List.foldl_cons, List.foldl_nil, ChatProvider.keep, hlast]
      cases hu : c.usage with
      | none => rfl
      | some u =>
          by_cases hkeeps : p.keepsUsage = true
          · simp [hkeeps]
          · simp [hkeeps]

section Kept

variable (p : ChatProvider) (now : Int) (order : HashOrder (Nat × PartialToolCall))

theorem ChatTransformer.usage_noteUsage (c : StreamChunk) (t : ChatTransformer) :
    (t.noteUsage p c).accumulatedUsage = p.keep t.accumulatedUsage c := by
  rw [noteUsage, ChatProvider.keep]
  cases c.usage with
  | none => rfl
  | some u =>
      simp only []
      split
      · rfl
      · rfl

/-- Only the usage of a chunk changes the usage that is kept. -/
theorem ChatTransformer.usage_handleChunk (c : StreamChunk) (t : ChatTransformer) :
    (t.handleChunk p c).2.accumulatedUsage = p.keep t.accumulatedUsage c := by
  rw [← usage_noteUsage, handleChunk, handleChoices]
  split
  · rfl
  · split
    · split
      · rfl
      · split
        · rfl
        · rfl
    · split
      · rfl
      · rfl

theorem ChatTransformer.usage_feed (cs : List StreamChunk) {t : ChatTransformer} (h : t.Opened) :
    ((p.machine now order).feed t (cs.map .chunk)).2.accumulatedUsage
      = cs.foldl p.keep t.accumulatedUsage := by
  induction cs generalizing t with
  | nil => rfl
  | cons c cs ih =>
      have hready : (p.machine now order).ready t = none := ready_eq_none h now
      have haccept : (p.machine now order).accept t (.chunk c)
          = ((t.handleChunk p c).1.map .ok, (t.handleChunk p c).2) := rfl
      rw [List.map_cons, PolledStream.Machine.feed_cons hready, haccept, List.foldl_cons,
        ← usage_handleChunk]
      exact ih ((chunkStep p c t).opened h)

theorem QueuedTransformer.usage_announce (t : QueuedTransformer) :
    t.announceItem.announcePart.accumulatedUsage = t.accumulatedUsage := by
  rw [announcePart, announceItem]
  split
  · split
    · rfl
    · rfl
  · split
    · rfl
    · rfl

theorem QueuedTransformer.usage_handleChunk (c : StreamChunk) (t : QueuedTransformer) :
    (t.handleChunk p c).2.accumulatedUsage = p.keep t.accumulatedUsage c := by
  rw [← ChatTransformer.usage_noteUsage, handleChunk, handleChoices]
  split
  · rfl
  · split
    · exact usage_announce _
    · split
      · rfl
      · simp only []
        split
        · rfl
        · rfl

/-- Chunks in a row leave the usage that is kept. -/
theorem QueuedTransformer.usage_chunks (cs : List StreamChunk) {t : QueuedTransformer}
    (h : t.Settled) :
    ∃ items t', Settled t' ∧ t'.accumulatedUsage = cs.foldl p.keep t.accumulatedUsage
      ∧ ∀ rest, (p.queuedMachine now order).drive t ((cs.map ChatMessage.chunk).map .inr ++ rest)
        = items ++ (p.queuedMachine now order).drive t' rest := by
  induction cs generalizing t with
  | nil => exact ⟨[], t, h, rfl, fun rest => rfl⟩
  | cons c cs ih =>
      have hstep := chunkStep p c h.empty
      obtain ⟨items, t', hsettled, husage, hdrive⟩ :=
        ih (t := { (t.handleChunk p c).2 with pendingEvents := [] }) ⟨hstep.opened h.opened, rfl⟩
      refine ⟨((t.handleChunk p c).1.toList ++ (t.handleChunk p c).2.pendingEvents).map .ok ++ items,
        t', hsettled, ?_, fun rest => ?_⟩
      · rw [husage, List.foldl_cons]
        exact congrArg (fun u => cs.foldl p.keep u) (usage_handleChunk p c t)
      · rw [List.map_cons, List.map_cons, List.cons_append, drive_chunk p now order c h, hdrive,
          List.append_assoc]

end Kept

section Usage

variable (env : StreamEnv) (order : HashOrder (Nat × PartialToolCall))
  {parse : String → Option StreamChunk} {pieces : List (List UInt8)} {cs : List StreamChunk}

/-- A stream that is closed by the end marker ends once. -/
theorem ends_of_terminated (h : Terminated parse pieces cs) :
    Closes (delivered parse (pieces.map .ok)) := by
  refine ⟨.terminal .completed, cs.map (.inr ∘ .chunk), .inr .done, [], ?_, rfl, ?_, ?_⟩
  · rw [delivered_map_ok, h, List.map_append, List.map_map]
    rfl
  · intro b hb r' hclosing
    obtain ⟨c, -, rfl⟩ := List.mem_map.mp hb
    simp only [Function.comp_apply, chatEffect] at hclosing
    split at hclosing
    · cases hclosing
    · cases hclosing
  · exact fun a ha => absurd ha List.not_mem_nil

/-- The last item of a stream that ends once is its terminal event. -/
theorem usageReported_concat {init : List StreamItem} {r : Response}
    (h : EndsSomehow (init ++ [.ok (.responseCompleted r)])) (usage : Usage) :
    UsageReported usage (init ++ [.ok (.responseCompleted r)]) ↔ r.usage = some usage := by
  obtain ⟨-, init', e, heq, -, hnone⟩ := h
  obtain ⟨rfl, -⟩ := List.append_inj' heq rfl
  have hterminal : ∀ i ∈ init, terminalResponse i = none := by
    intro i hi
    have hi := hnone i hi
    cases i with
    | error fault => rfl
    | ok event => cases event <;> first | rfl | cases hi
  constructor
  · rintro ⟨r', ⟨init', e, heq, he, -⟩, husage⟩
    obtain ⟨-, htail⟩ := List.append_inj' heq rfl
    rw [← List.singleton_inj.mp htail] at he
    rw [Option.some.inj he]
    exact husage
  · exact fun husage => ⟨r, ⟨init, _, rfl, rfl, hterminal⟩, husage⟩

theorem chat_usage_iff (p : ChatProvider) (h : Terminated parse pieces cs) (usage : Usage) :
    UsageReported usage (p.transform env order parse (pieces.map .ok))
      ↔ cs.foldl p.keep none = some usage := by
  let t₀ : ChatTransformer := { p.start env with sentCreated := true, sentInProgress := true }
  have hopened : t₀.Opened := ⟨rfl, rfl⟩
  let row := (p.machine env.now order).feed t₀ (cs.map .chunk)
  have hgiven : p.transform env order parse (pieces.map .ok)
      = (openingItems env p.idPrefix ++ row.1)
        ++ [.ok (.responseCompleted (row.2.finalResponse env.now order))] := by
    have hchunks := ChatTransformer.feed_chunks p env.now order cs t₀ hopened
    rw [ChatProvider.transform_eq_drive, h.messages, ChatProvider.drive_start,
      PolledStream.Machine.drive_append, ChatProvider.drive_done p env order hchunks.opened]
    rfl
  have hends := (chat_ends_iff env order parse (pieces.map .ok) p).mpr (ends_of_terminated h)
  rw [hgiven] at hends ⊢
  rw [usageReported_concat hends]
  exact Eq.congr_left (ChatTransformer.usage_feed p env.now order cs hopened)

theorem queued_usage_iff (p : ChatProvider) (h : Terminated parse pieces cs) (usage : Usage) :
    UsageReported usage (p.queuedTransform env order parse (pieces.map .ok))
      ↔ cs.foldl p.keep none = some usage := by
  have hsettled : QueuedTransformer.Settled
      { p.queuedStart env with sentCreated := true, sentInProgress := true } := ⟨⟨rfl, rfl⟩, rfl⟩
  obtain ⟨items, t, ht, husage, hdrive⟩ :=
    QueuedTransformer.usage_chunks p env.now order cs hsettled
  have hgiven : p.queuedTransform env order parse (pieces.map .ok)
      = (openingItems env p.idPrefix ++ items ++ QueuedTransformer.doneItems t.accumulatedText)
        ++ [.ok (.responseCompleted (t.toChatTransformer.finalResponse env.now order))] := by
    have hnil : (p.queuedMachine env.now order).drive { t with pendingEvents := [] } [] = [] :=
      QueuedTransformer.drive_nil p env.now order ⟨ht.opened, rfl⟩
    rw [ChatProvider.queuedTransform_eq_drive, h.messages, ChatProvider.queued_drive_start, hdrive,
      QueuedTransformer.drive_done p env.now order ht, hnil]
    simp only [List.append_assoc]
  have hends := (queued_ends_iff env order parse (pieces.map .ok) p).mpr (ends_of_terminated h)
  rw [hgiven] at hends ⊢
  rw [usageReported_concat hends]
  exact Eq.congr_left husage

/-- For a stream that is closed by the end marker and carries usage, the terminal response has
the usage that the adapter reports for a whole answer, exactly when the adapter is that of
OpenAI, Together or Fireworks. -/
theorem streamed_usage_iff (toJson : Json → String) (a : ChatAdapter)
    (h : Terminated parse pieces cs) {u : ChunkUsage} (hu : lastUsage cs = some u) :
    UsageReported (a.toUsage toJson u) (a.transform env order parse (pieces.map .ok))
      ↔ a ∈ [ChatAdapter.openAI, .together, .fireworks] := by
  have hkept : ∀ p : ChatProvider, p.keepsUsage = true →
      cs.foldl p.keep none = some u.toUsage := by
    intro p hp
    rw [foldl_keep, if_pos hp, hu]
    rfl
  have hlost : ∀ p : ChatProvider, p.keepsUsage = false → cs.foldl p.keep none = none := by
    intro p hp
    rw [foldl_keep, if_neg (by simp [hp])]
  cases a with
  | openAI =>
      refine iff_of_true ?_ (by decide)
      exact (chat_usage_iff env order _ h _).mpr (hkept _ rfl)
  | mistral =>
      refine iff_of_false (fun hreported => ?_) (by decide)
      have hsome := (chat_usage_iff env order _ h _).mp hreported
      rw [hlost _ rfl] at hsome
      cases hsome
  | ollama =>
      refine iff_of_false (fun hreported => ?_) (by decide)
      have hsome := (chat_usage_iff env order _ h _).mp hreported
      rw [hlost _ rfl] at hsome
      cases hsome
  | huggingFace =>
      refine iff_of_false (fun hreported => ?_) (by decide)
      have hsome := (chat_usage_iff env order _ h _).mp hreported
      rw [hlost _ rfl] at hsome
      cases hsome
  | together =>
      refine iff_of_true ?_ (by decide)
      exact (queued_usage_iff env order _ h _).mpr (hkept _ rfl)
  | fireworks =>
      refine iff_of_true ?_ (by decide)
      exact (queued_usage_iff env order _ h _).mpr (hkept _ rfl)

end Usage

/-! ### A stream with usage -/

/-- A chunk of its own that carries usage. -/
def usageChunk : StreamChunk := ⟨[], some ⟨12, 3, some (some 8)⟩⟩

def usageSent : List (String × StreamChunk) :=
  [("\x7b\"id\":\"1\",\"choices\":[],\"usage\":\x7b\"prompt_tokens\":12,\"completion_tokens\":3,"
      ++ "\"total_tokens\":15,\"prompt_tokens_details\":\x7b\"cached_tokens\":8\x7d\x7d\x7d",
    usageChunk)]

def usagePieces : List (List UInt8) := [sseBody (usageSent.map Prod.fst ++ ["[DONE]"])]

theorem usage_terminated : Terminated (parseSent usageSent) usagePieces [usageChunk] := by
  have hknown : KnownPayloads usageSent _ :=
    { texts := .cons (append_eq_ofList rfl rfl) .nil
      oneLine := by decide
      closed := by decide
      distinct := by decide }
  exact terminated_of_payloads usageSent hknown.sentChunk (by simp [usagePieces])

/-- Mistral does not report the usage of a stream. -/
theorem mistral_loses_usage :
    Terminated (parseSent usageSent) usagePieces [usageChunk]
      ∧ ∀ toJson, ¬ UsageReported (ChatAdapter.mistral.toUsage toJson ⟨12, 3, some (some 8)⟩)
          (ChatAdapter.mistral.transform ⟨"mistral-small", "1", 0⟩ .forward (parseSent usageSent)
            (usagePieces.map .ok)) := by
  refine ⟨usage_terminated, fun toJson h => ?_⟩
  have hsome := (chat_usage_iff _ _ _ usage_terminated _).mp h
  rw [foldl_keep] at hsome
  cases hsome

theorem streamed_usage_sample :
    lastUsage [usageChunk] = some ⟨12, 3, some (some 8)⟩
      ∧ ∀ toJson, UsageReported (ChatAdapter.openAI.toUsage toJson ⟨12, 3, some (some 8)⟩)
          (ChatAdapter.openAI.transform ⟨"gpt-4o", "1", 0⟩ .forward (parseSent usageSent)
            (usagePieces.map .ok)) := by
  refine ⟨rfl, fun toJson => ?_⟩
  exact (streamed_usage_iff _ _ toJson .openAI usage_terminated rfl).mpr (by decide)

end AuraGateway.Provider
