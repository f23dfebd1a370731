import AuraGateway.Provider.ChatChunks
import AuraGateway.Provider.Events
import AuraGateway.Provider.ReceivedCalls

/-!
# Anthropic streams

The stream transformer of Anthropic. A line holds one event, and gives at most one. The item
is announced at the start of a text block; the content part is announced by the first text
delta, whose text is neither passed on nor kept (`feed_row`). The final response is given
when a message delta carries one of three stop reasons.
-/

set_option autoImplicit false

namespace AuraGateway.Provider

open AuraGateway.Foundations AuraGateway.Foundations.KeyedFolds AuraGateway.Types

/-! ## Wire types -/

/-- A content block, with the fields that a stream reads. -/
inductive AnthropicContentBlock where
  | text (text : String)
  | image
  | toolUse (id name : String)
  | toolResult
  | thinking (thinking : String)
  deriving DecidableEq, Repr

inductive AnthropicDelta where
  | textDelta (text : String)
  | inputJsonDelta (partialJson : String)
  | thinkingDelta (thinking : String)
  deriving DecidableEq, Repr

structure AnthropicUsage where
  inputTokens : Nat
  outputTokens : Nat
  cacheCreationInputTokens : Option Nat
  cacheReadInputTokens : Option Nat
  deriving DecidableEq, Repr

structure AnthropicDeltaUsage where
  outputTokens : Option Nat
  inputTokens : Option Nat
  cacheCreationInputTokens : Option Nat
  cacheReadInputTokens : Option Nat
  deriving DecidableEq, Repr

inductive AnthropicStreamEvent where
  | messageStart (usage : AnthropicUsage)
  | contentBlockStart (index : Nat) (contentBlock : AnthropicContentBlock)
  | contentBlockDelta (index : Nat) (delta : AnthropicDelta)
  | contentBlockStop (index : Nat)
  | messageDelta (stopReason : Option String) (usage : Option AnthropicDeltaUsage)
  | messageStop
  | error (message : String)
  | ping
  deriving DecidableEq, Repr

/-- `u32::saturating_add`. -/
def saturatingAdd (a b : Nat) : Nat := min (a + b) (2 ^ 32 - 1)

/-- The whole prompt is the sum of the uncached tokens and those written to and read from the
cache. -/
def AnthropicUsage.toUsage (u : AnthropicUsage) : Usage :=
  let cacheRead := u.cacheReadInputTokens.getD 0
  (Usage.new (saturatingAdd (saturatingAdd u.inputTokens (u.cacheCreationInputTokens.getD 0))
    cacheRead) u.outputTokens).withCacheHits cacheRead

/-! ## The transformer -/

/-- The state of a transformer, but for its buffer. -/
structure AnthropicTransformer extends StreamState where
  accumulatedToolCalls : List (Nat × PartialToolCall) := []
  accumulatedThinking : String := ""
  currentContentIndex : Nat := 0
  inputTokens : Nat := 0
  cacheCreationInputTokens : Nat := 0
  cacheReadInputTokens : Nat := 0
  outputTokens : Nat := 0

namespace AnthropicTransformer

/-- An opening event. -/
def ready (now : Int) (t : AnthropicTransformer) : Option (StreamItem × AnthropicTransformer) :=
  match t.toStreamState.opening now with
  | some (e, s) => some (e, { t with toStreamState := s })
  | none => none

theorem openingLeft_of_ready {now : Int} {t t' : AnthropicTransformer} {e : StreamItem}
    (h : t.ready now = some (e, t')) : t'.openingLeft < t.openingLeft := by
  rw [ready] at h
  split at h
  · rename_i hopening
    obtain ⟨-, rfl⟩ := Prod.mk.inj (Option.some.inj h)
    exact StreamState.openingLeft_of_opening hopening
  · cases h

theorem ready_eq_none {t : AnthropicTransformer} (h : t.Opened) (now : Int) :
    t.ready now = none := by
  rw [ready, h.opening_eq_none]

/-- Final usage. -/
def usage (t : AnthropicTransformer) : Usage :=
  AnthropicUsage.toUsage
    { inputTokens := t.inputTokens
      outputTokens := t.outputTokens
      cacheCreationInputTokens := some t.cacheCreationInputTokens
      cacheReadInputTokens := some t.cacheReadInputTokens }

/-- The response of `response.completed`. -/
def finalResponse (now : Int) (order : HashOrder (Nat × PartialToolCall))
    (t : AnthropicTransformer) : Response :=
  { Response.builder t.responseId t.model now with
    output := finalOutput order t.accumulatedText t.accumulatedToolCalls
      ++ (if t.accumulatedThinking.isEmpty then []
        else [Item.newReasoning "reasoning_0" t.accumulatedThinking])
    status := .completed
    usage := some t.usage }

/-- The start of a message. -/
def noteUsage (u : AnthropicUsage) (t : AnthropicTransformer) : AnthropicTransformer :=
  { t with
    inputTokens := u.inputTokens
    cacheCreationInputTokens := u.cacheCreationInputTokens.getD 0
    cacheReadInputTokens := u.cacheReadInputTokens.getD 0
    outputTokens := if 0 < u.outputTokens then u.outputTokens else t.outputTokens }

/-- Usage of a message delta is cumulative; input and cache counts are not always there. -/
def noteDeltaUsage (u : Option AnthropicDeltaUsage) (t : AnthropicTransformer) :
    AnthropicTransformer :=
  match u with
  | none => t
  | some u =>
      { t with
        outputTokens := u.outputTokens.getD t.outputTokens
        inputTokens := u.inputTokens.getD t.inputTokens
        cacheCreationInputTokens := u.cacheCreationInputTokens.getD t.cacheCreationInputTokens
        cacheReadInputTokens := u.cacheReadInputTokens.getD t.cacheReadInputTokens }

/-- The start of a content block. -/
def startBlock (index : Nat) (contentBlock : AnthropicContentBlock) (t : AnthropicTransformer) :
    Option StreamItem × AnthropicTransformer :=
  let t := { t with currentContentIndex := index }
  match contentBlock with
  | .text _ =>
      if !t.outputItemAdded then
        (some (.ok (.outputItemAdded 0 (Item.assistant "msg_0" ""))),
          { t with outputItemAdded := true })
      else (none, t)
  | .toolUse id name =>
      (none, { t with
        accumulatedToolCalls :=
          amend {} index (fun entry => { entry with id := id, name := name })
            t.accumulatedToolCalls })
  | .image | .toolResult | .thinking _ => (none, t)

/-- A delta of a content block. -/
def blockDelta (index : Nat) (delta : AnthropicDelta) (t : AnthropicTransformer) :
    Option StreamItem × AnthropicTransformer :=
  match delta with
  | .textDelta text =>
      -- the announcement takes the place of the text of its delta
      if !t.contentPartAdded then
        (some (.ok (.contentPartAdded 0 0 "text")), { t with contentPartAdded := true })
      else
        (some (.ok (.outputTextDelta 0 0 text)),
          { t with accumulatedText := t.accumulatedText ++ text })
  | .inputJsonDelta partialJson =>
      if (t.accumulatedToolCalls.lookup index).isSome then
        (some (.ok (.functionCallArgumentsDelta index partialJson)),
          { t with
            accumulatedToolCalls :=
              amend {} index (fun tc => { tc with arguments := tc.arguments ++ partialJson })
                t.accumulatedToolCalls })
      else (none, t)
  | .thinkingDelta thinking =>
      (some (.ok (.reasoningDelta 0 thinking)),
        { t with accumulatedThinking := t.accumulatedThinking ++ thinking })

/-- The stop reasons that complete a response. -/
def completes (stopReason : Option String) : Bool :=
  stopReason = some "end_turn" || stopReason = some "tool_use"
    || stopReason = some "stop_sequence"

/-- `process_sse_data`, for data that parses. -/
def processSseData (now : Int) (order : HashOrder (Nat × PartialToolCall))
    (t : AnthropicTransformer) : AnthropicStreamEvent → Option StreamItem × AnthropicTransformer
  | .messageStart usage => (none, t.noteUsage usage)
  | .contentBlockStart index contentBlock => t.startBlock index contentBlock
  | .contentBlockDelta index delta => t.blockDelta index delta
  | .contentBlockStop _ => (none, t)
  | .messageDelta stopReason usage =>
      let t := t.noteDeltaUsage usage
      if completes stopReason then (some (.ok (.responseCompleted (t.finalResponse now order))), t)
      else (none, t)
  | .messageStop => (none, t)
  | .error message => (some (.error (.provider 500 message)), t)
  | .ping => (none, t)

end AnthropicTransformer

namespace AnthropicStreamTransformer

/-- The control of the stream. -/
def machine (now : Int) (order : HashOrder (Nat × PartialToolCall)) :
    PolledStream.Machine AnthropicStreamEvent String AnthropicTransformer StreamItem where
  ready := AnthropicTransformer.ready now
  accept := AnthropicTransformer.processSseData now order
  failed message := .error (.stream message)
  finish _ := none
  due t := t.openingLeft
  due_of_ready := AnthropicTransformer.openingLeft_of_ready
  due_of_finish _ h := by cases h

/-- A transformer before anything is sent. -/
def start (env : StreamEnv) : AnthropicTransformer :=
  { model := env.model, responseId := "resp_ant_" ++ env.uuid }

/-- `transform`: the events of a response that comes in pieces. -/
def transform (env : StreamEnv) (order : HashOrder (Nat × PartialToolCall))
    (parse : String → Option AnthropicStreamEvent) (source : List (Except String (List UInt8))) :
    List StreamItem :=
  ((machine env.now order).comap (readEvent parse)).run utf8Decoder lineScanner
    { control := start env, buffer := [], pending := [], source := source }

end AnthropicStreamTransformer

/-! ## Rows of events -/

/-- The text of an event that is a text delta. -/
def AnthropicStreamEvent.text : AnthropicStreamEvent → Option String
  | .contentBlockDelta _ (.textDelta text) => some text
  | _ => none

def AnthropicStreamEvent.isMessageDelta : AnthropicStreamEvent → Bool
  | .messageDelta .. => true
  | _ => false

/-- The text deltas of a row of events. -/
def eventTexts (evs : List AnthropicStreamEvent) : List String :=
  evs.filterMap AnthropicStreamEvent.text

namespace AnthropicTransformer

/-- What events that are no message deltas give and leave, by the text they carry. -/
structure RowStep (texts : List String) (t : AnthropicTransformer) (items : List StreamItem)
    (t' : AnthropicTransformer) : Prop where
  opened : t.Opened → t'.Opened
  completed : items.filterMap completedResponse = []
  text : items.filterMap textDelta = texts.drop (!t.contentPartAdded).toNat
  accumulatedText : t'.accumulatedText
    = t.accumulatedText ++ String.join (texts.drop (!t.contentPartAdded).toNat)
  announced : (!t'.contentPartAdded).toNat = (!t.contentPartAdded).toNat - texts.length

/-- An event that carries no text. -/
theorem RowStep.of_no_text {t t' : AnthropicTransformer} {items : List StreamItem}
    (hopened : t.Opened → t'.Opened) (hcompleted : items.filterMap completedResponse = [])
    (htext : items.filterMap textDelta = []) (hkept : t'.accumulatedText = t.accumulatedText)
    (hpart : t'.contentPartAdded = t.contentPartAdded) : RowStep [] t items t' where
  opened := hopened
  completed := hcompleted
  text := by rw [htext, List.drop_nil]
  accumulatedText := by rw [hkept, List.drop_nil, String.join_nil, String.append_empty]
  announced := by rw [hpart, List.length_nil, Nat.sub_zero]

theorem blockDelta_step (t : AnthropicTransformer) (index : Nat) (delta : AnthropicDelta) :
    RowStep (AnthropicStreamEvent.contentBlockDelta index delta).text.toList t
      (t.blockDelta index delta).1.toList (t.blockDelta index delta).2 := by
  cases delta with
  | textDelta text =>
      rw [blockDelta]
      by_cases hpart : t.contentPartAdded = true
      · rw [if_neg (by simp [hpart])]
        exact
          { opened := fun h => h
            completed := rfl
            text := by rw [hpart]; rfl
            accumulatedText := by simp [hpart, AnthropicStreamEvent.text, String.join_cons]
            announced := by simp [hpart] }
      · have hfalse : t.contentPartAdded = false := by simpa using hpart
        rw [if_pos (by simp [hpart])]
        exact
          { opened := fun h => h
            completed := rfl
            text := by rw [hfalse]; rfl
            accumulatedText := by
              rw [hfalse]
              exact String.append_empty.symm
            announced := by rw [hfalse]; rfl }
  | inputJsonDelta partialJson =>
      rw [blockDelta]
      split
      · exact RowStep.of_no_text (fun h => h) rfl rfl rfl rfl
      · exact RowStep.of_no_text (fun h => h) rfl rfl rfl rfl
  | thinkingDelta thinking => exact RowStep.of_no_text (fun h => h) rfl rfl rfl rfl

theorem startBlock_step (t : AnthropicTransformer) (index : Nat)
    (contentBlock : AnthropicContentBlock) :
    RowStep [] t (t.startBlock index contentBlock).1.toList (t.startBlock index contentBlock).2 := by
  cases contentBlock with
  | text text =>
      simp only [startBlock]
      split
      · exact RowStep.of_no_text (fun h => h) rfl rfl rfl rfl
      · exact RowStep.of_no_text (fun h => h) rfl rfl rfl rfl
  | image => exact RowStep.of_no_text (fun h => h) rfl rfl rfl rfl
  | toolUse id name => exact RowStep.of_no_text (fun h => h) rfl rfl rfl rfl
  | toolResult => exact RowStep.of_no_text (fun h => h) rfl rfl rfl rfl
  | thinking thinking => exact RowStep.of_no_text (fun h => h) rfl rfl rfl rfl

variable (now : Int) (order : HashOrder (Nat × PartialToolCall))

theorem processSseData_step (t : AnthropicTransformer) (ev : AnthropicStreamEvent)
    (h : ev.isMessageDelta = false) :
    RowStep ev.text.toList t (t.processSseData now order ev).1.toList
      (t.processSseData now order ev).2 := by
  cases ev with
  | messageStart usage => exact RowStep.of_no_text (fun h => h) rfl rfl rfl rfl
  | contentBlockStart index contentBlock => exact startBlock_step t index contentBlock
  | contentBlockDelta index delta => exact blockDelta_step t index delta
  | contentBlockStop index => exact RowStep.of_no_text (fun h => h) rfl rfl rfl rfl
  | messageDelta stopReason usage => cases h
  | messageStop => exact RowStep.of_no_text (fun h => h) rfl rfl rfl rfl
  | error message => exact RowStep.of_no_text (fun h => h) rfl rfl rfl rfl
  | ping => exact RowStep.of_no_text (fun h => h) rfl rfl rfl rfl

/-- Steps in a row. -/
theorem RowStep.append {texts texts' : List String} {t t' t'' : AnthropicTransformer}
    {items items' : List StreamItem} (h : RowStep texts t items t')
    (h' : RowStep texts' t' items' t'') : RowStep (texts ++ texts') t (items ++ items') t'' where
  opened ho := h'.opened (h.opened ho)
  completed := by rw [List.filterMap_append, h.completed, h'.completed, List.nil_append]
  text := by rw [List.filterMap_append, h.text, h'.text, h.announced, List.drop_append]
  accumulatedText := by
    rw [h'.accumulatedText, h.accumulatedText, h.announced, List.drop_append, String.join_append,
      String.append_assoc]
  announced := by rw [h'.announced, h.announced, List.length_append, Nat.sub_sub]

theorem feed_row (row : List AnthropicStreamEvent) (hrow : ∀ ev ∈ row, ev.isMessageDelta = false)
    (t : AnthropicTransformer) (h : t.Opened) :
    RowStep (eventTexts row) t ((AnthropicStreamTransformer.machine now order).feed t row).1
      ((AnthropicStreamTransformer.machine now order).feed t row).2 := by
  induction row generalizing t with
  | nil => exact RowStep.of_no_text (fun h => h) rfl rfl rfl rfl
  | cons ev row ih =>
      have hstep := processSseData_step now order t ev (hrow ev (List.mem_cons_self ..))
      have hready : (AnthropicStreamTransformer.machine now order).ready t = none :=
        ready_eq_none h now
      have htexts : eventTexts (ev :: row) = ev.text.toList ++ eventTexts row := by
        cases htext : ev.text <;> simp [eventTexts, htext]
      rw [PolledStream.Machine.feed_cons hready, htexts]
      exact hstep.append (ih (fun ev hev => hrow ev (List.mem_cons_of_mem _ hev)) _
        (hstep.opened h))

/-- The text of the final response is the text that was kept. -/
theorem text_finalResponse (t : AnthropicTransformer) :
    (t.finalResponse now order).text = t.accumulatedText := by
  have hreasoning : String.join ((if t.accumulatedThinking.isEmpty then []
      else [Item.newReasoning "reasoning_0" t.accumulatedThinking]).map Item.text) = "" := by
    split <;> rfl
  have hfinal := text_finalOutput order t.accumulatedText t.accumulatedToolCalls
  rw [Response.text, finalResponse, List.map_append, String.join_append, hfinal, hreasoning,
    String.append_empty]

end AnthropicTransformer

/-! ## Streams -/

/-- A content block of a well-formed stream, with its deltas. -/
structure AnthropicBlock where
  index : Nat
  contentBlock : AnthropicContentBlock
  deltas : List AnthropicDelta

def AnthropicBlock.events (b : AnthropicBlock) : List AnthropicStreamEvent :=
  .contentBlockStart b.index b.contentBlock
    :: (b.deltas.map (.contentBlockDelta b.index) ++ [.contentBlockStop b.index])

/-- A well-formed stream: the message, its content blocks, a message delta with the stop
reason, and the end; and pings anywhere. -/
def WellFormed (stopReason : Option String) (evs : List AnthropicStreamEvent) : Prop :=
  ∃ usage, ∃ blocks : List AnthropicBlock, ∃ usage',
    evs.filter (fun ev => ev ≠ .ping)
      = .messageStart usage :: blocks.flatMap AnthropicBlock.events
        ++ [.messageDelta stopReason usage', .messageStop]

/-- An event is a ping or among those that are none. -/
theorem ping_or_mem {evs l : List AnthropicStreamEvent}
    (h : evs.filter (fun ev => ev ≠ .ping) = l) {ev : AnthropicStreamEvent} (hev : ev ∈ evs) :
    ev = .ping ∨ ev ∈ l := by
  by_cases hping : ev = .ping
  · exact Or.inl hping
  · exact Or.inr (h ▸ List.mem_filter.mpr ⟨hev, decide_eq_true hping⟩)

theorem AnthropicBlock.isMessageDelta_events {b : AnthropicBlock} {ev : AnthropicStreamEvent}
    (h : ev ∈ b.events) : ev.isMessageDelta = false := by
  rcases List.mem_cons.mp h with rfl | h
  · rfl
  · rcases List.mem_append.mp h with h | h
    · obtain ⟨delta, -, rfl⟩ := List.mem_map.mp h
      rfl
    · rw [List.mem_singleton.mp h]
      rfl

/-- All text of a well-formed stream comes before its message delta. -/
theorem WellFormed.split {stopReason : Option String} {evs : List AnthropicStreamEvent}
    (h : WellFormed stopReason evs) :
    ∃ before usage after, evs = before ++ .messageDelta stopReason usage :: after
      ∧ (∀ ev ∈ before, ev.isMessageDelta = false) ∧ (∀ ev ∈ after, ev.isMessageDelta = false)
      ∧ eventTexts after = [] := by
  obtain ⟨usage, blocks, usage', hfilter⟩ := h
  obtain ⟨before, rest, rfl, hbefore, hrest⟩ := List.filter_eq_append_iff.mp hfilter
  obtain ⟨pings, after, rfl, hpings, -, hafter⟩ := List.filter_eq_cons_iff.mp hrest
  have hstop : ∀ ev ∈ after, ev = .ping ∨ ev = .messageStop := by
    intro ev hev
    exact (ping_or_mem hafter hev).imp_right List.mem_singleton.mp
  refine ⟨before ++ pings, usage', after, by rw [List.append_assoc], ?_, ?_, ?_⟩
  · intro ev hev
    rcases List.mem_append.mp hev with hev | hev
    · rcases ping_or_mem hbefore hev with rfl | hev
      · rfl
      · rcases List.mem_cons.mp hev with rfl | hev
        · rfl
        · obtain ⟨b, -, hev⟩ := List.mem_flatMap.mp hev
          exact AnthropicBlock.isMessageDelta_events hev
    · have hping : ev = .ping := by simpa using hpings ev hev
      rw [hping]
      rfl
  · intro ev hev
    rcases hstop ev hev with rfl | rfl
    · rfl
    · rfl
  · refine List.filterMap_eq_nil_iff.mpr fun ev hev => ?_
    rcases hstop ev hev with rfl | rfl
    · rfl
    · rfl

/-! ## What a stream delivers -/

section Delivery

open AnthropicTransformer

variable (env : StreamEnv) (order : HashOrder (Nat × PartialToolCall))
  {parse : String → Option AnthropicStreamEvent} {pieces : List (List UInt8)}

/-- What a stream gives: the opening, the rows before and after the message delta, and the
final response if the stop reason is one that completes. -/
structure AnthropicStreamed (stopReason : Option String) (texts : List String)
    (items : List StreamItem) (t : AnthropicTransformer) (items' given : List StreamItem) : Prop where
  given_eq : given = openingItems env "resp_ant_" ++ items
    ++ (if completes stopReason then [.ok (.responseCompleted (t.finalResponse env.now order))]
      else []) ++ items'
  completed : items.filterMap completedResponse = []
  text : items.filterMap textDelta = texts.drop 1
  accumulatedText : t.accumulatedText = String.join (texts.drop 1)
  completed' : items'.filterMap completedResponse = []
  text' : items'.filterMap textDelta = []

namespace AnthropicStreamed

variable {env order} {stopReason : Option String} {texts : List String}
  {items items' given : List StreamItem} {t : AnthropicTransformer}

theorem deltaText (h : AnthropicStreamed env order stopReason texts items t items' given) :
    deltaText given = String.join (texts.drop 1) := by
  have hopening : (openingItems env "resp_ant_").filterMap textDelta = [] := rfl
  have hresponse : (if completes stopReason then
      [.ok (.responseCompleted (t.finalResponse env.now order))] else []).filterMap textDelta = [] := by
    split <;> rfl
  rw [Provider.deltaText, h.given_eq]
  simp only [List.filterMap_append, hopening, hresponse, h.text, h.text', List.append_nil,
    List.nil_append]

theorem completedResponses (h : AnthropicStreamed env order stopReason texts items t items' given) :
    given.filterMap completedResponse
      = if completes stopReason then [t.finalResponse env.now order] else [] := by
  have hopening : (openingItems env "resp_ant_").filterMap completedResponse = [] := rfl
  have hresponse : (if completes stopReason then
      [.ok (.responseCompleted (t.finalResponse env.now order))] else []).filterMap completedResponse
      = if completes stopReason then [t.finalResponse env.now order] else [] := by
    split <;> rfl
  rw [h.given_eq]
  simp only [List.filterMap_append, hopening, hresponse, h.completed, h.completed', List.append_nil,
    List.nil_append]

end AnthropicStreamed

/-- A message delta changes nothing but the usage. -/
theorem noteDeltaUsage_facts (u : Option AnthropicDeltaUsage) (t : AnthropicTransformer) :
    ((t.noteDeltaUsage u).Opened ↔ t.Opened)
      ∧ (t.noteDeltaUsage u).accumulatedText = t.accumulatedText := by
  cases u with
  | none => exact ⟨Iff.rfl, rfl⟩
  | some u => exact ⟨Iff.rfl, rfl⟩

theorem drive_nil_of_opened {t : AnthropicTransformer} (h : t.Opened) :
    (AnthropicStreamTransformer.machine env.now order).drive t [] = [] := by
  exact PolledStream.Machine.close_of_none (M := AnthropicStreamTransformer.machine env.now order)
    (ready_eq_none h env.now) rfl

/-- What a stream gives is determined by the events of its whole body. -/
theorem anthropic_transform_eq_drive :
    AnthropicStreamTransformer.transform env order parse (pieces.map .ok)
      = openingItems env "resp_ant_"
        ++ (AnthropicStreamTransformer.machine env.now order).drive
            { AnthropicStreamTransformer.start env with sentCreated := true, sentInProgress := true }
            ((receivedEvents parse pieces).map .inr) := by
  rw [AnthropicStreamTransformer.transform, PolledStream.Machine.run_start,
    PolledStream.Machine.drive_comap, PolledStream.Machine.drive_of_ready (by rfl),
    PolledStream.Machine.drive_of_ready (by rfl)]
  rfl

theorem exists_anthropicStreamed {stopReason : Option String}
    (h : WellFormed stopReason (receivedEvents parse pieces)) :
    ∃ items t items', AnthropicStreamed env order stopReason
      (eventTexts (receivedEvents parse pieces)) items t items'
      (AnthropicStreamTransformer.transform env order parse (pieces.map .ok)) := by
  obtain ⟨before, usage, after, hevs, hbefore, hafter, htexts⟩ := h.split
  let M := AnthropicStreamTransformer.machine env.now order
  let t₀ : AnthropicTransformer :=
    { AnthropicStreamTransformer.start env with sentCreated := true, sentInProgress := true }
  have hrow := feed_row env.now order before hbefore t₀ ⟨rfl, rfl⟩
  let t₁ := (M.feed t₀ before).2
  have hopened₁ : t₁.Opened := hrow.opened ⟨rfl, rfl⟩
  let t₂ := t₁.noteDeltaUsage usage
  obtain ⟨hopened, htext⟩ := noteDeltaUsage_facts usage t₁
  have hopened₂ : t₂.Opened := hopened.mpr hopened₁
  have hrow' := feed_row env.now order after hafter t₂ hopened₂
  have hready : M.ready t₁ = none := ready_eq_none hopened₁ env.now
  have hdelta : (M.accept t₁ (.messageDelta stopReason usage)).1.toList
        = (if completes stopReason then
            [.ok (.responseCompleted (t₂.finalResponse env.now order))] else [])
      ∧ (M.accept t₁ (.messageDelta stopReason usage)).2 = t₂ := by
    change (AnthropicTransformer.processSseData env.now order t₁ _).1.toList = _
      ∧ (AnthropicTransformer.processSseData env.now order t₁ _).2 = t₂
    rw [processSseData]
    split
    · exact ⟨rfl, rfl⟩
    · exact ⟨rfl, rfl⟩
  have hall : eventTexts (receivedEvents parse pieces) = eventTexts before := by
    have hcons : eventTexts (.messageDelta stopReason usage :: after) = eventTexts after := rfl
    rw [hevs, eventTexts, List.filterMap_append]
    change eventTexts before ++ eventTexts (.messageDelta stopReason usage :: after) = _
    rw [hcons, htexts, List.append_nil]
  refine ⟨(M.feed t₀ before).1, t₂, (M.feed t₂ after).1, ?_⟩
  rw [hall]
  exact
    { given_eq := by
        have hinputs : (receivedEvents parse pieces).map (Sum.inr (α := String))
            = before.map .inr ++ .inr (.messageDelta stopReason usage) :: (after.map .inr ++ []) := by
          rw [hevs, List.map_append, List.map_cons, List.append_nil]
        rw [anthropic_transform_eq_drive, hinputs, PolledStream.Machine.drive_append,
          PolledStream.Machine.drive_line hready, hdelta.1, hdelta.2,
          PolledStream.Machine.drive_append,
          drive_nil_of_opened env order (hrow'.opened hopened₂), List.append_nil]
        simp only [List.append_assoc]
        rfl
      completed := hrow.completed
      text := hrow.text
      accumulatedText := htext.trans (hrow.accumulatedText.trans String.empty_append)
      completed' := hrow'.completed
      text' := by rw [hrow'.text, htexts, List.drop_nil] }

/-- The text is delivered exactly when the first text delta is empty and the stop reason is
one that completes. -/
theorem anthropic_text_delivered_iff {stopReason : Option String}
    (h : WellFormed stopReason (receivedEvents parse pieces)) :
    TextDelivered (eventTexts (receivedEvents parse pieces))
        (AnthropicStreamTransformer.transform env order parse (pieces.map .ok))
      ↔ (∀ s ∈ (eventTexts (receivedEvents parse pieces)).take 1, s = "")
        ∧ completes stopReason = true := by
  obtain ⟨items, t, items', hstream⟩ := exists_anthropicStreamed env order h
  rw [← join_drop_eq_iff, TextDelivered, hstream.deltaText, hstream.completedResponses]
  constructor
  · rintro ⟨htext, r, hr, -⟩
    refine ⟨htext, ?_⟩
    by_contra hstop
    rw [if_neg hstop] at hr
    cases hr
  · rintro ⟨htext, hstop⟩
    rw [if_pos hstop]
    exact ⟨htext, _, rfl, (text_finalResponse env.now order t).trans
      (hstream.accumulatedText.trans htext)⟩

end Delivery

/-! ### A stream of one word -/

/-- A message with one text block. -/
def anthropicMessage (texts : List String) : List AnthropicStreamEvent :=
  .messageStart ⟨1, 0, none, none⟩
    :: (AnthropicBlock.events ⟨0, .text "", texts.map .textDelta⟩
      ++ [.messageDelta (some "end_turn") none, .messageStop])

theorem anthropicMessage_wellFormed (texts : List String) :
    WellFormed (some "end_turn") (anthropicMessage texts) := by
  refine ⟨⟨1, 0, none, none⟩, [⟨0, .text "", texts.map .textDelta⟩], none, ?_⟩
  rw [List.filter_eq_self.mpr]
  · simp [anthropicMessage]
  · intro ev hev
    refine decide_eq_true fun hping => ?_
    subst hping
    simp [anthropicMessage, AnthropicBlock.events] at hev

/-- Payloads with the events they parse to: a delta each for `texts`. -/
def anthropicSent (texts : List String) : List (String × AnthropicStreamEvent) :=
  (["\x7b\"type\":\"message_start\",\"message\":\x7b\"usage\":\x7b\"input_tokens\":1\x7d\x7d\x7d",
      "\x7b\"type\":\"content_block_start\",\"index\":0,"
        ++ "\"content_block\":\x7b\"type\":\"text\",\"text\":\"\"\x7d\x7d"]
    ++ texts.map (fun text => "\x7b\"type\":\"content_block_delta\",\"index\":0,"
        ++ "\"delta\":\x7b\"type\":\"text_delta\",\"text\":\"" ++ text ++ "\"\x7d\x7d")
    ++ ["\x7b\"type\":\"content_block_stop\",\"index\":0\x7d",
      "\x7b\"type\":\"message_delta\",\"delta\":\x7b\"stop_reason\":\"end_turn\"\x7d\x7d",
      "\x7b\"type\":\"message_stop\"\x7d"]).zip (anthropicMessage texts)

/-- The body that a server sends, in two pieces. -/
def anthropicPieces (texts : List String) : List (List UInt8) :=
  let body := sseBody ((anthropicSent texts).map Prod.fst)
  [body.take 20, body.drop 20]

/-- A parser that knows the payloads that were sent. -/
def parseAnthropicSent (texts : List String) (p : String) : Option AnthropicStreamEvent :=
  (anthropicSent texts).lookup p

theorem hello_received : receivedEvents (parseAnthropicSent ["Hello"]) (anthropicPieces ["Hello"])
    = anthropicMessage ["Hello"] := by
  have hknown : KnownPayloads (anthropicSent ["Hello"]) _ :=
    { texts := .cons rfl (.cons (append_eq_ofList rfl rfl)
        (.cons (append_eq_ofList (append_eq_ofList (append_eq_ofList rfl rfl) rfl) rfl)
        (.cons rfl (.cons rfl (.cons rfl .nil)))))
      oneLine := by decide
      closed := by decide
      distinct := by decide }
  exact hknown.received (by simp [anthropicPieces])

/-- One word is sent, and none is passed on. -/
theorem anthropic_swallows_hello :
    WellFormed (some "end_turn")
        (receivedEvents (parseAnthropicSent ["Hello"]) (anthropicPieces ["Hello"]))
      ∧ ¬ TextDelivered
          (eventTexts (receivedEvents (parseAnthropicSent ["Hello"]) (anthropicPieces ["Hello"])))
          (AnthropicStreamTransformer.transform ⟨"claude", "1", 0⟩ .forward
            (parseAnthropicSent ["Hello"]) ((anthropicPieces ["Hello"]).map .ok)) := by
  have hformed : WellFormed (some "end_turn")
      (receivedEvents (parseAnthropicSent ["Hello"]) (anthropicPieces ["Hello"])) := by
    rw [hello_received]
    exact anthropicMessage_wellFormed _
  refine ⟨hformed, fun h => ?_⟩
  obtain ⟨items, t, items', hstream⟩ := exists_anthropicStreamed ⟨"claude", "1", 0⟩ .forward hformed
  have htext := h.1
  rw [hstream.deltaText, hello_received] at htext
  exact absurd htext (by decide)

theorem padded_received :
    receivedEvents (parseAnthropicSent ["", "Hi"]) (anthropicPieces ["", "Hi"])
      = anthropicMessage ["", "Hi"] := by
  have hknown : KnownPayloads (anthropicSent ["", "Hi"]) _ :=
    { texts := .cons rfl (.cons (append_eq_ofList rfl rfl)
        (.cons (append_eq_ofList (append_eq_ofList (append_eq_ofList rfl rfl) rfl) rfl)
        (.cons (append_eq_ofList (append_eq_ofList (append_eq_ofList rfl rfl) rfl) rfl)
        (.cons rfl (.cons rfl (.cons rfl .nil))))))
      oneLine := by decide
      closed := by decide
      distinct := by decide }
  exact hknown.received (by simp [anthropicPieces])

theorem anthropic_text_delivered_sample :
    TextDelivered
      (eventTexts (receivedEvents (parseAnthropicSent ["", "Hi"]) (anthropicPieces ["", "Hi"])))
      (AnthropicStreamTransformer.transform ⟨"claude", "1", 0⟩ .forward
        (parseAnthropicSent ["", "Hi"]) ((anthropicPieces ["", "Hi"]).map .ok)) := by
  have hformed : WellFormed (some "end_turn")
      (receivedEvents (parseAnthropicSent ["", "Hi"]) (anthropicPieces ["", "Hi"])) := by
    rw [padded_received]
    exact anthropicMessage_wellFormed _
  refine (anthropic_text_delivered_iff _ _ hformed).mpr ⟨?_, rfl⟩
  rw [padded_received]
  decide

end AuraGateway.Provider
