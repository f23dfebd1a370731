import AuraGateway.Provider.Anthropic
import AuraGateway.Provider.ChatAnswer
import AuraGateway.Provider.StreamEndings

/-!
# Anthropic answers, and how their streams end

A whole answer is incomplete where it was cut at the token limit, and completed for all other
stop reasons. A stream has a terminal event for three of them only: it ends once, as the whole
answer would, exactly when one message delta carries one of these and the events after it give
nothing (`anthropic_ends_once_iff`).
-/

set_option autoImplicit false

namespace AuraGateway.Provider

open AuraGateway.Foundations AuraGateway.Foundations.Endings AuraGateway.Foundations.KeyedFolds
  AuraGateway.Types

/-! ## Whole answers -/

/-- A content block of an answer; `ν` is `serde_json::Value`. -/
inductive AnthropicAnswerBlock (ν : Type) where
  | text (text : String)
  | image
  | toolUse (id name : String) (input : ν)
  | toolResult
  | thinking (thinking : String)

structure AnthropicAnswer (ν : Type) where
  id : String
  content : List (AnthropicAnswerBlock ν)
  stopReason : Option String
  usage : AnthropicUsage

/-- What a stop reason makes of a response: its status, why it is incomplete, its error. -/
def stopOutcome : Option String → ResponseStatus × Option IncompleteReason × Option ResponseError
  | some "max_tokens" => (.incomplete, some .maxTokens, none)
  | some _ => (.completed, none, none)
  | none => (.failed, none, some noResponse)

section Items

variable {ν : Type} (toJson : ν → String)

/-- The item of a content block; images and tool results have none. -/
def AnthropicAnswerBlock.item (itemIndex : Nat) : AnthropicAnswerBlock ν → Option Item
  | .text s => some (Item.assistant ("msg_" ++ toString itemIndex) s)
  | .toolUse id name input =>
      some (Item.newFunctionCall ("fc_" ++ toString itemIndex) id name (toJson input))
  | .thinking s => some (Item.newReasoning ("reasoning_" ++ toString itemIndex) s)
  | .image | .toolResult => none

/-- The items of an answer, numbered from `itemIndex` on. -/
def answerItems (itemIndex : Nat) : List (AnthropicAnswerBlock ν) → List Item
  | [] => []
  | block :: blocks =>
      match block.item toJson itemIndex with
      | some item => item :: answerItems (itemIndex + 1) blocks
      | none => answerItems itemIndex blocks

/-- `AnthropicProvider::transform_response`. -/
def AnthropicProvider.transformResponse (now : Int) (answer : AnthropicAnswer ν) (model : String) :
    Response :=
  let outcome := stopOutcome answer.stopReason
  { Response.builder ("resp_ant_" ++ answer.id) model now with
    output := answerItems toJson 0 answer.content
    usage := some answer.usage.toUsage
    status := outcome.1
    incompleteReason := outcome.2.1
    error := outcome.2.2 }

end Items

/-! ## What the events of a stream do -/

def AnthropicStreamEvent.isTextStart : AnthropicStreamEvent → Bool
  | .contentBlockStart _ (.text _) => true
  | _ => false

/-- The index of a block of tool use that starts. -/
def AnthropicStreamEvent.toolStart : AnthropicStreamEvent → Option Nat
  | .contentBlockStart index (.toolUse _ _) => some index
  | _ => none

/-- What an event does to a stream, after the events before it. -/
def anthropicEffect : List AnthropicStreamEvent × AnthropicStreamEvent → Effect ResponseStatus
  | (_, .messageDelta stopReason _) =>
      if AnthropicTransformer.completes stopReason then .closing .completed else .silent
  | (before, .contentBlockStart _ (.text _)) =>
      if before.any AnthropicStreamEvent.isTextStart then .silent else .passing
  | (before, .contentBlockDelta index (.inputJsonDelta _)) =>
      if index ∈ before.filterMap AnthropicStreamEvent.toolStart then .passing else .silent
  | (_, .contentBlockDelta _ (.textDelta _)) | (_, .contentBlockDelta _ (.thinkingDelta _))
  | (_, .error _) => .passing
  | (_, _) => .silent

/-- Events, each with those before it. -/
def withHistory (before : List AnthropicStreamEvent) :
    List AnthropicStreamEvent → List (List AnthropicStreamEvent × AnthropicStreamEvent)
  | [] => []
  | ev :: evs => (before, ev) :: withHistory (before ++ [ev]) evs

namespace AnthropicTransformer

/-- What a transformer remembers of the events before. -/
structure Remembers (before : List AnthropicStreamEvent) (t : AnthropicTransformer) : Prop where
  opened : t.Opened
  textStarted : t.outputItemAdded = before.any AnthropicStreamEvent.isTextStart
  toolStarted : ∀ index, (t.accumulatedToolCalls.lookup index).isSome = true
    ↔ index ∈ before.filterMap AnthropicStreamEvent.toolStart

/-- An event that starts no text block and no tool use is not remembered. -/
theorem Remembers.of_same {before : List AnthropicStreamEvent} {t t' : AnthropicTransformer}
    {ev : AnthropicStreamEvent} (h : Remembers before t) (htext : ev.isTextStart = false)
    (htool : ev.toolStart = none) (hopened : t'.Opened)
    (hadded : t'.outputItemAdded = t.outputItemAdded)
    (hcalls : ∀ index, (t'.accumulatedToolCalls.lookup index).isSome
      = (t.accumulatedToolCalls.lookup index).isSome) :
    Remembers (before ++ [ev]) t' where
  opened := hopened
  textStarted := by
    rw [hadded, h.textStarted, List.any_append]
    simp [htext]
  toolStarted := by
    intro index
    rw [hcalls, h.toolStarted, List.filterMap_append]
    simp [htool]

section Events

variable (now : Int) (order : HashOrder (Nat × PartialToolCall))

/-- What one event gives, and that it is remembered. -/
structure EventStep (before : List AnthropicStreamEvent) (ev : AnthropicStreamEvent)
    (given : Option StreamItem) (t' : AnthropicTransformer) : Prop where
  remembers : Remembers (before ++ [ev]) t'
  silent : given = none → anthropicEffect (before, ev) = .silent
  given : ∀ item ∈ given,
    (anthropicEffect (before, ev) = .passing ∧ terminalKind item = none)
      ∨ ∃ r, anthropicEffect (before, ev) = .closing r ∧ terminalKind item = some r

/-- An event that gives nothing and leaves what is remembered. -/
theorem EventStep.of_silent {before : List AnthropicStreamEvent} {ev : AnthropicStreamEvent}
    {t' : AnthropicTransformer} (hremembers : Remembers (before ++ [ev]) t')
    (heffect : anthropicEffect (before, ev) = .silent) : EventStep before ev none t' where
  remembers := hremembers
  silent _ := heffect
  given _ hitem := by cases hitem

/-- An event that gives an item that is no ending. -/
theorem EventStep.of_passing {before : List AnthropicStreamEvent} {ev : AnthropicStreamEvent}
    {t' : AnthropicTransformer} {item : StreamItem} (hremembers : Remembers (before ++ [ev]) t')
    (heffect : anthropicEffect (before, ev) = .passing) (hitem : terminalKind item = none) :
    EventStep before ev (some item) t' where
  remembers := hremembers
  silent h := by cases h
  given i hi := by
    cases hi
    exact Or.inl ⟨heffect, hitem⟩

variable {before : List AnthropicStreamEvent} {t : AnthropicTransformer}

theorem startBlock_remembers (h : Remembers before t) (index : Nat)
    (contentBlock : AnthropicContentBlock) :
    EventStep before (.contentBlockStart index contentBlock) (t.startBlock index contentBlock).1
      (t.startBlock index contentBlock).2 := by
  cases contentBlock with
  | text text =>
      have hremembered : ∀ t' : AnthropicTransformer, t'.Opened → t'.outputItemAdded = true →
          t'.accumulatedToolCalls = t.accumulatedToolCalls →
          Remembers (before ++ [.contentBlockStart index (.text text)]) t' := by
        intro t' hopened hadded hcalls
        refine ⟨hopened, ?_, fun i => ?_⟩
        · rw [hadded, List.any_append]
          simp [AnthropicStreamEvent.isTextStart]
        · rw [hcalls, h.toolStarted, List.filterMap_append]
          simp [AnthropicStreamEvent.toolStart]
      simp only [startBlock]
      by_cases hadded : t.outputItemAdded = true
      · rw [if_neg (by simp [hadded])]
        refine EventStep.of_silent (hremembered _ h.opened hadded rfl) ?_
        rw [h.textStarted] at hadded
        simp [anthropicEffect, hadded]
      · rw [if_pos (by simp [hadded])]
        refine EventStep.of_passing (hremembered _ h.opened rfl rfl) ?_ rfl
        rw [h.textStarted] at hadded
        simp [anthropicEffect, hadded]
  | image =>
      exact EventStep.of_silent (h.of_same rfl rfl h.opened rfl fun _ => rfl) rfl
  | toolUse id name =>
      refine EventStep.of_silent ⟨h.opened, ?_, fun i => ?_⟩ rfl
      · have hsame : (t.startBlock index (.toolUse id name)).2.outputItemAdded = t.outputItemAdded :=
          rfl
        rw [hsame, h.textStarted, List.any_append]
        simp [AnthropicStreamEvent.isTextStart]
      · have hlookup := lookup_amend (d := ({} : PartialToolCall)) index i
          (fun entry => { entry with id := id, name := name }) t.accumulatedToolCalls
        rw [List.filterMap_append, List.mem_append, ← h.toolStarted]
        change (List.lookup i (amend _ _ _ _)).isSome = true ↔ _
        rw [hlookup]
        by_cases hi : i = index
        · simp [hi, AnthropicStreamEvent.toolStart]
        · simp [hi, AnthropicStreamEvent.toolStart]
  | toolResult =>
      exact EventStep.of_silent (h.of_same rfl rfl h.opened rfl fun _ => rfl) rfl
  | thinking thinking =>
      exact EventStep.of_silent (h.of_same rfl rfl h.opened rfl fun _ => rfl) rfl

theorem blockDelta_remembers (h : Remembers before t) (index : Nat) (delta : AnthropicDelta) :
    EventStep before (.contentBlockDelta index delta) (t.blockDelta index delta).1
      (t.blockDelta index delta).2 := by
  cases delta with
  | textDelta text =>
      rw [blockDelta]
      split
      · exact EventStep.of_passing (h.of_same rfl rfl h.opened rfl fun _ => rfl) rfl rfl
      · exact EventStep.of_passing (h.of_same rfl rfl h.opened rfl fun _ => rfl) rfl rfl
  | inputJsonDelta partialJson =>
      rw [blockDelta]
      split
      · rename_i hstarted
        have hmem := (h.toolStarted index).mp hstarted
        refine EventStep.of_passing (h.of_same rfl rfl h.opened rfl fun i => ?_)
          (by simp only [anthropicEffect, if_pos hmem]) rfl
        -- the entry of the block is there already
        change (List.lookup i (amend _ _ _ _)).isSome = _
        rw [lookup_amend]
        by_cases hi : i = index
        · rw [if_pos hi, hi, hstarted]
          rfl
        · rw [if_neg hi]
      · rename_i hstarted
        have hmem : index ∉ before.filterMap AnthropicStreamEvent.toolStart := fun hmem =>
          hstarted ((h.toolStarted index).mpr hmem)
        exact EventStep.of_silent (h.of_same rfl rfl h.opened rfl fun _ => rfl)
          (by simp only [anthropicEffect, if_neg hmem])
  | thinkingDelta thinking =>
      exact EventStep.of_passing (h.of_same rfl rfl h.opened rfl fun _ => rfl) rfl rfl

theorem noteDeltaUsage_same (u : Option AnthropicDeltaUsage) (t : AnthropicTransformer) :
    ((t.noteDeltaUsage u).Opened ↔ t.Opened)
      ∧ (t.noteDeltaUsage u).outputItemAdded = t.outputItemAdded
      ∧ (t.noteDeltaUsage u).accumulatedToolCalls = t.accumulatedToolCalls := by
  cases u with
  | none => exact ⟨Iff.rfl, rfl, rfl⟩
  | some u => exact ⟨Iff.rfl, rfl, rfl⟩

theorem processSseData_remembers (h : Remembers before t) (ev : AnthropicStreamEvent) :
    EventStep before ev (t.processSseData now order ev).1 (t.processSseData now order ev).2 := by
  cases ev with
  | messageStart usage =>
      exact EventStep.of_silent (h.of_same rfl rfl h.opened rfl fun _ => rfl) rfl
  | contentBlockStart index contentBlock => exact startBlock_remembers h index contentBlock
  | contentBlockDelta index delta => exact blockDelta_remembers h index delta
  | contentBlockStop index =>
      exact EventStep.of_silent (h.of_same rfl rfl h.opened rfl fun _ => rfl) rfl
  | messageDelta stopReason usage =>
      obtain ⟨hopened, hadded, hcalls⟩ := noteDeltaUsage_same usage t
      have hremembers : Remembers (before ++ [.messageDelta stopReason usage])
          (t.noteDeltaUsage usage) :=
        h.of_same rfl rfl (hopened.mpr h.opened) hadded fun _ => by rw [hcalls]
      rw [processSseData]
      split
      · rename_i hcompletes
        refine ⟨hremembers, (fun hnone => by cases hnone), fun item hitem => Or.inr ?_⟩
        cases hitem
        exact ⟨.completed, if_pos hcompletes, rfl⟩
      · rename_i hcompletes
        exact EventStep.of_silent hremembers (if_neg hcompletes)
  | messageStop => exact EventStep.of_silent (h.of_same rfl rfl h.opened rfl fun _ => rfl) rfl
  | error message =>
      exact EventStep.of_passing (h.of_same rfl rfl h.opened rfl fun _ => rfl) rfl rfl
  | ping => exact EventStep.of_silent (h.of_same rfl rfl h.opened rfl fun _ => rfl) rfl

/-- What a stream gives, event by event. -/
theorem drive_blocks (evs : List AnthropicStreamEvent) {before : List AnthropicStreamEvent}
    {t : AnthropicTransformer} (h : Remembers before t) :
    Blocks terminalKind anthropicEffect (withHistory before evs)
      ((AnthropicStreamTransformer.machine now order).drive t (evs.map .inr)) := by
  induction evs generalizing before t with
  | nil =>
      have hnil : (AnthropicStreamTransformer.machine now order).drive t [] = [] :=
        PolledStream.Machine.close_of_none (M := AnthropicStreamTransformer.machine now order)
          (ready_eq_none h.opened now) rfl
      rw [List.map_nil, hnil]
      exact .nil
  | cons ev evs ih =>
      have hready : (AnthropicStreamTransformer.machine now order).ready t = none :=
        ready_eq_none h.opened now
      have hstep := processSseData_remembers now order h ev
      have hrest := ih hstep.remembers
      have haccept : (AnthropicStreamTransformer.machine now order).accept t ev
          = t.processSseData now order ev := rfl
      rw [List.map_cons, PolledStream.Machine.drive_line hready, haccept, withHistory]
      cases hgiven : (t.processSseData now order ev).1 with
      | none => exact .silent (hstep.silent hgiven) hrest
      | some item =>
          rcases hstep.given item hgiven with ⟨heffect, hitem⟩ | ⟨r, heffect, hitem⟩
          · exact Blocks.passes heffect hitem hrest
          · exact Blocks.ends heffect hitem hrest

end Events

end AnthropicTransformer

/-! ## How a stream ends -/

/-- The stop reason of a stream: the last one that a message delta carries. -/
def streamStopReason (evs : List AnthropicStreamEvent) : Option String :=
  (evs.filterMap fun
    | .messageDelta stopReason _ => stopReason
    | _ => none).getLast?

section Ends

open AnthropicTransformer

variable (env : StreamEnv) (order : HashOrder (Nat × PartialToolCall))
  {parse : String → Option AnthropicStreamEvent} {pieces : List (List UInt8)}

theorem anthropic_endsOnce_iff (r : ResponseStatus) :
    EndsOnce terminalKind r (AnthropicStreamTransformer.transform env order parse (pieces.map .ok))
      ↔ ClosedOnce anthropicEffect r (withHistory [] (receivedEvents parse pieces)) := by
  have hopening : ∀ i ∈ openingItems env "resp_ant_", terminalKind i = none := by
    intro i hi
    rcases List.mem_pair.mp hi with rfl | rfl
    · rfl
    · rfl
  have hstart : Remembers []
      { AnthropicStreamTransformer.start env with sentCreated := true, sentInProgress := true } :=
    { opened := ⟨rfl, rfl⟩
      textStarted := rfl
      toolStarted := fun index => by simp [AnthropicStreamTransformer.start] }
  rw [anthropic_transform_eq_drive, endsOnce_append_iff hopening,
    (drive_blocks env.now order _ hstart).endsOnce_iff]

/-- A stream that is closed is completed. -/
theorem closedOnce_completed {evs : List AnthropicStreamEvent} {r : ResponseStatus}
    (h : ClosedOnce anthropicEffect r (withHistory [] evs)) : r = .completed := by
  obtain ⟨-, m, -, -, hclosing, -⟩ := h
  obtain ⟨before, ev⟩ := m
  unfold anthropicEffect at hclosing
  split at hclosing
  · split at hclosing
    · exact (Effect.closing.inj hclosing).symm
    · cases hclosing
  · split at hclosing
    · cases hclosing
    · cases hclosing
  · split at hclosing
    · cases hclosing
    · cases hclosing
  · cases hclosing
  · cases hclosing
  · cases hclosing
  · cases hclosing

/-- A stream with a stop reason ends with one terminal event, of the kind that the whole answer
with this stop reason has, exactly when one message delta completes it, no later event gives
anything, and the stop reason is not the token limit. -/
theorem anthropic_ends_once_iff {ν : Type} (toJson : ν → String) (now : Int)
    (answer : AnthropicAnswer ν) (model : String) {stopReason : String}
    (hcarried : streamStopReason (receivedEvents parse pieces) = some stopReason)
    (hanswer : answer.stopReason = some stopReason) :
    EndsOnce terminalKind (AnthropicProvider.transformResponse toJson now answer model).status
        (AnthropicStreamTransformer.transform env order parse (pieces.map .ok))
      ↔ ClosedOnce anthropicEffect .completed (withHistory [] (receivedEvents parse pieces))
        ∧ streamStopReason (receivedEvents parse pieces) ≠ some "max_tokens" := by
  have hstatus : (AnthropicProvider.transformResponse toJson now answer model).status
      = if stopReason = "max_tokens" then .incomplete else .completed := by
    change (stopOutcome answer.stopReason).1 = _
    rw [hanswer]
    by_cases hmax : stopReason = "max_tokens"
    · rw [if_pos hmax, hmax]
      rfl
    · rw [if_neg hmax, stopOutcome]
      simpa using hmax
  rw [anthropic_endsOnce_iff, hstatus, hcarried, ne_eq, Option.some.injEq]
  constructor
  · intro hclosed
    by_cases hmax : stopReason = "max_tokens"
    · rw [if_pos hmax] at hclosed
      cases closedOnce_completed hclosed
    · rw [if_neg hmax] at hclosed
      exact ⟨hclosed, hmax⟩
  · rintro ⟨hclosed, hmax⟩
    rw [if_neg hmax]
    exact hclosed

end Ends

/-! ### A stream with a stop reason -/

/-- A message without content that stops for a reason. -/
def stopMessage (stopReason : String) : List AnthropicStreamEvent :=
  [.messageStart ⟨1, 0, none, none⟩, .messageDelta (some stopReason) none, .messageStop]

/-- Payloads with the events they parse to. -/
def stopSent (stopReason : String) : List (String × AnthropicStreamEvent) :=
  ["\x7b\"type\":\"message_start\",\"message\":\x7b\"usage\":\x7b\"input_tokens\":1\x7d\x7d\x7d",
    "\x7b\"type\":\"message_delta\",\"delta\":\x7b\"stop_reason\":\"" ++ stopReason
      ++ "\"\x7d\x7d",
    "\x7b\"type\":\"message_stop\"\x7d"].zip (stopMessage stopReason)

def stopPieces (stopReason : String) : List (List UInt8) :=
  [sseBody ((stopSent stopReason).map Prod.fst)]

def parseStopSent (stopReason : String) (p : String) : Option AnthropicStreamEvent :=
  (stopSent stopReason).lookup p

/-- The whole answer for it. -/
def stopAnswer (stopReason : String) : AnthropicAnswer String where
  id := "msg_1"
  content := []
  stopReason := some stopReason
  usage := ⟨1, 0, none, none⟩

theorem stop_known {stopReason : String} {cs : List Char} (h : stopReason = String.ofList cs)
    (hline : '\n' ∉ cs) : ∃ chars, KnownPayloads (stopSent stopReason) chars :=
  ⟨_, { texts := .cons rfl (.cons (append_eq_ofList (append_eq_ofList rfl h) rfl) (.cons rfl .nil))
        oneLine := by simp [hline]
        closed := by simp [List.getLast?_cons]
        distinct := by simp }⟩

theorem stop_received {stopReason : String} {cs : List Char} (h : stopReason = String.ofList cs)
    (hline : '\n' ∉ cs) :
    receivedEvents (parseStopSent stopReason) (stopPieces stopReason) = stopMessage stopReason := by
  obtain ⟨chars, hknown⟩ := stop_known h hline
  exact hknown.received (by simp [stopPieces])

theorem maxTokens_received : receivedEvents (parseStopSent "max_tokens") (stopPieces "max_tokens")
    = stopMessage "max_tokens" :=
  stop_received rfl (by decide)

theorem endTurn_received : receivedEvents (parseStopSent "end_turn") (stopPieces "end_turn")
    = stopMessage "end_turn" :=
  stop_received rfl (by decide)

/-- A message that was cut at the token limit has no terminal event. -/
theorem anthropic_cut_not_ended :
    receivedEvents (parseStopSent "max_tokens") (stopPieces "max_tokens") = stopMessage "max_tokens"
      ∧ ∀ r, ¬ EndsOnce terminalKind r
          (AnthropicStreamTransformer.transform ⟨"claude", "1", 0⟩ .forward
            (parseStopSent "max_tokens") ((stopPieces "max_tokens").map .ok)) := by
  refine ⟨maxTokens_received, fun r h => ?_⟩
  have hclosed := (anthropic_endsOnce_iff ⟨"claude", "1", 0⟩ .forward r).mp h
  rw [maxTokens_received] at hclosed
  obtain ⟨before, m, after, heq, hclosing, -⟩ := hclosed
  have hmem : m ∈ withHistory [] (stopMessage "max_tokens") := by
    rw [heq]
    simp
  have hsilent : ∀ m ∈ withHistory [] (stopMessage "max_tokens"),
      anthropicEffect m = .silent := by
    decide
  rw [hsilent m hmem] at hclosing
  cases hclosing

theorem endTurn_closed :
    ClosedOnce anthropicEffect .completed (withHistory [] (stopMessage "end_turn")) := by
  refine ⟨[([], .messageStart ⟨1, 0, none, none⟩)],
    ([.messageStart ⟨1, 0, none, none⟩], .messageDelta (some "end_turn") none),
    [([.messageStart ⟨1, 0, none, none⟩, .messageDelta (some "end_turn") none], .messageStop)],
    rfl, rfl, ?_, by decide⟩
  intro b hb r' hclosing
  rw [List.mem_singleton.mp hb] at hclosing
  cases hclosing

theorem anthropic_ends_once_sample :
    EndsOnce terminalKind
      (AnthropicProvider.transformResponse id 0 (stopAnswer "end_turn") "claude").status
      (AnthropicStreamTransformer.transform ⟨"claude", "1", 0⟩ .forward (parseStopSent "end_turn")
        ((stopPieces "end_turn").map .ok)) := by
  have hcarried : streamStopReason
      (receivedEvents (parseStopSent "end_turn") (stopPieces "end_turn")) = some "end_turn" := by
    rw [endTurn_received]
    rfl
  refine (anthropic_ends_once_iff _ _ id 0 (stopAnswer "end_turn") "claude" hcarried rfl).mpr ⟨?_, ?_⟩
  · rw [endTurn_received]
    exact endTurn_closed
  · rw [hcarried]
    decide

end AuraGateway.Provider
