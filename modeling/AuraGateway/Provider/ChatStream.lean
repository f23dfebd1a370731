import AuraGateway.Provider.Events
import AuraGateway.Provider.ReceivedCalls

/-!
# Chat-completion streams, one event a line

The stream transformers of OpenAI, Mistral, Ollama and HuggingFace. A line gives at most one
event: the first chunk with content gives the announcement of the item, the second that of
the content part, and only from the third on is the content passed on and kept
(`feed_chunks`).
-/

set_option autoImplicit false

namespace AuraGateway.Provider

open AuraGateway.Foundations AuraGateway.Foundations.KeyedFolds AuraGateway.Types

/-! ## The transformer -/

/-- The state of a transformer, but for its buffer. -/
structure ChatTransformer extends StreamState where
  accumulatedToolCalls : List (Nat × PartialToolCall) := []
  accumulatedUsage : Option Usage := none

/-- What the providers do differently: the prefix of response ids, and whether usage is kept. -/
structure ChatProvider where
  idPrefix : String
  keepsUsage : Bool

namespace ChatTransformer

/-- An opening event. -/
def ready (now : Int) (t : ChatTransformer) : Option (StreamItem × ChatTransformer) :=
  match t.toStreamState.opening now with
  | some (e, s) => some (e, { t with toStreamState := s })
  | none => none

theorem openingLeft_of_ready {now : Int} {t t' : ChatTransformer} {e : StreamItem}
    (h : t.ready now = some (e, t')) : t'.openingLeft < t.openingLeft := by
  rw [ready] at h
  split at h
  · rename_i hopening
    obtain ⟨-, rfl⟩ := Prod.mk.inj (Option.some.inj h)
    exact StreamState.openingLeft_of_opening hopening
  · cases h

theorem ready_eq_none {t : ChatTransformer} (h : t.Opened) (now : Int) : t.ready now = none := by
  rw [ready, h.opening_eq_none]

/-- The response of `response.completed`. -/
def finalResponse (now : Int) (order : HashOrder (Nat × PartialToolCall)) (t : ChatTransformer) :
    Response :=
  { Response.builder t.responseId t.model now with
    output := finalOutput order t.accumulatedText t.accumulatedToolCalls
    status := .completed
    usage := t.accumulatedUsage }

/-- Usage comes in the last chunk before the end marker. -/
def noteUsage (p : ChatProvider) (c : StreamChunk) (t : ChatTransformer) : ChatTransformer :=
  match c.usage with
  | some u => if p.keepsUsage then { t with accumulatedUsage := some u.toUsage } else t
  | none => t

/-- What the first choice of a chunk does. -/
def handleChoices (c : StreamChunk) (t : ChatTransformer) : Option StreamEvent × ChatTransformer :=
  match c.choices.head? with
  | none => (none, t)
  | some choice =>
      match choice.delta.content with
      | some content =>
          -- each announcement takes the place of the content of its chunk
          if !t.outputItemAdded then
            (some (.outputItemAdded 0 (Item.assistant "msg_0" "")), { t with outputItemAdded := true })
          else if !t.contentPartAdded then
            (some (.contentPartAdded 0 0 "text"), { t with contentPartAdded := true })
          else
            (some (.outputTextDelta 0 0 content),
              { t with accumulatedText := t.accumulatedText ++ content })
      | none =>
          match choice.delta.toolCalls with
          | none => (none, t)
          | some toolCalls =>
              let looped := toolCallLoop t.accumulatedToolCalls toolCalls
              (looped.2.map fun d => .functionCallArgumentsDelta d.1 d.2,
                { t with accumulatedToolCalls := looped.1 })

/-- What a chunk does. -/
def handleChunk (p : ChatProvider) (c : StreamChunk) (t : ChatTransformer) :
    Option StreamEvent × ChatTransformer :=
  handleChoices c (t.noteUsage p c)

/-- What a message does. -/
def handle (p : ChatProvider) (now : Int) (order : HashOrder (Nat × PartialToolCall))
    (t : ChatTransformer) : ChatMessage → Option StreamItem × ChatTransformer
  | .done => (some (.ok (.responseCompleted (t.finalResponse now order))), t)
  | .chunk c => ((t.handleChunk p c).1.map .ok, (t.handleChunk p c).2)

end ChatTransformer

namespace ChatProvider

/-- The control of a stream that gives one event a line. -/
def machine (p : ChatProvider) (now : Int) (order : HashOrder (Nat × PartialToolCall)) :
    PolledStream.Machine ChatMessage String ChatTransformer StreamItem where
  ready := ChatTransformer.ready now
  accept := ChatTransformer.handle p now order
  failed message := .error (.stream message)
  finish _ := none
  due t := t.openingLeft
  due_of_ready := ChatTransformer.openingLeft_of_ready
  due_of_finish _ h := by cases h

/-- `transform`: the events of a response that comes in pieces. -/
def transform (p : ChatProvider) (env : StreamEnv) (order : HashOrder (Nat × PartialToolCall))
    (parse : String → Option StreamChunk) (source : List (Except String (List UInt8))) :
    List StreamItem :=
  ((p.machine env.now order).comap (readChat parse)).run utf8Decoder lineScanner
    { control := { model := env.model, responseId := p.idPrefix ++ env.uuid }
      buffer := [], pending := [], source := source }

end ChatProvider

/-! ## Chunks -/

namespace ChatTransformer

/-- How many chunks with content will be used up by announcements. -/
def announcementsLeft (t : ChatTransformer) : Nat :=
  (!t.outputItemAdded).toNat + (!t.contentPartAdded).toNat

variable (p : ChatProvider)

/-- Usage leaves everything else as it was. -/
theorem noteUsage_facts (c : StreamChunk) (t : ChatTransformer) :
    ((t.noteUsage p c).Opened ↔ t.Opened)
      ∧ (t.noteUsage p c).outputItemAdded = t.outputItemAdded
      ∧ (t.noteUsage p c).contentPartAdded = t.contentPartAdded
      ∧ (t.noteUsage p c).accumulatedText = t.accumulatedText
      ∧ (t.noteUsage p c).accumulatedToolCalls = t.accumulatedToolCalls := by
  rw [noteUsage]
  split
  · split
    · exact ⟨Iff.rfl, rfl, rfl, rfl, rfl⟩
    · exact ⟨Iff.rfl, rfl, rfl, rfl, rfl⟩
  · exact ⟨Iff.rfl, rfl, rfl, rfl, rfl⟩

/-- What a chunk gives and leaves, by what it carries. -/
structure ChunkStep (c : StreamChunk) (t : ChatTransformer) (e : Option StreamEvent)
    (t' : ChatTransformer) : Prop where
  opened : t.Opened → t'.Opened
  completed : (e.map .ok).bind completedResponse = none
  announcements : t'.announcementsLeft = t.announcementsLeft - c.content.toList.length
  text : ((e.map .ok).bind textDelta).toList = c.content.toList.drop t.announcementsLeft
  accumulatedText : t'.accumulatedText
    = t.accumulatedText ++ String.join (c.content.toList.drop t.announcementsLeft)
  arguments : ((e.map .ok).bind argumentsDelta).toList
    = c.reached.filterMap StreamToolCall.argumentDelta
  accumulatedToolCalls : t'.accumulatedToolCalls
    = amendAll {} StreamToolCall.index StreamToolCall.merge t.accumulatedToolCalls c.reached

theorem chunkStep_choices (c : StreamChunk) (t : ChatTransformer) :
    ChunkStep c t (handleChoices c t).1 (handleChoices c t).2 := by
  rw [handleChoices]
  cases hhead : c.choices.head? with
  | none =>
      obtain ⟨hcontent, hreached⟩ := StreamChunk.of_no_choice hhead
      constructor <;> simp [hcontent, hreached, amendAll]
  | some choice =>
      obtain ⟨hcontent, hfragments⟩ := StreamChunk.of_choice hhead
      cases hc : choice.delta.content with
      | some content =>
          have hsome : c.content.toList = [content] := by rw [hcontent, hc]; rfl
          have hreached := StreamChunk.reached_of_content (hcontent.trans hc)
          simp only [hc]
          by_cases hitem : t.outputItemAdded = true
          · rw [if_neg (by simp [hitem])]
            by_cases hpart : t.contentPartAdded = true
            · -- nothing is left to announce
              have hleft : t.announcementsLeft = 0 := by simp [announcementsLeft, hitem, hpart]
              rw [if_neg (by simp [hpart])]
              exact
                { opened := fun h => h
                  completed := rfl
                  announcements := by rw [hleft, Nat.zero_sub]; exact hleft
                  text := by rw [hsome, hleft]; rfl
                  accumulatedText := by rw [hsome, hleft]; simp
                  arguments := by rw [hreached]; rfl
                  accumulatedToolCalls := by rw [hreached]; rfl }
            · have hleft : t.announcementsLeft = 1 := by simp [announcementsLeft, hitem, hpart]
              rw [if_pos (by simp [hpart])]
              exact
                { opened := fun h => h
                  completed := rfl
                  announcements := by rw [hleft, hsome]; simp [announcementsLeft, hitem]
                  text := by rw [hsome, hleft]; rfl
                  accumulatedText := by rw [hsome, hleft]; simp
                  arguments := by rw [hreached]; rfl
                  accumulatedToolCalls := by rw [hreached]; rfl }
          · have hleft : t.announcementsLeft = 1 + (!t.contentPartAdded).toNat := by
              simp [announcementsLeft, hitem]
            have hdrop : [content].drop t.announcementsLeft = [] :=
              List.drop_eq_nil_of_le (by rw [hleft]; exact Nat.le_add_right 1 _)
            rw [if_pos (by simp [hitem])]
            exact
              { opened := fun h => h
                completed := rfl
                announcements := by rw [hleft, hsome]; simp [announcementsLeft]
                text := by rw [hsome, hdrop]; rfl
                accumulatedText := by rw [hsome, hdrop]; simp
                arguments := by rw [hreached]; rfl
                accumulatedToolCalls := by rw [hreached]; rfl }
      | none =>
          have hnone : c.content.toList = [] := by rw [hcontent, hc]; rfl
          have hreached := StreamChunk.reached_of_no_content (hcontent.trans hc)
          rw [hfragments] at hreached
          cases ht : choice.delta.toolCalls with
          | none =>
              rw [ht] at hreached
              simp only [hc, ht]
              exact ⟨fun h => h, rfl, by rw [hnone]; rfl, by rw [hnone, List.drop_nil]; rfl,
                by rw [hnone, List.drop_nil]; simp, by rw [hreached]; rfl, by rw [hreached]; rfl⟩
          | some toolCalls =>
              rw [ht] at hreached
              have hargs := argumentDeltas_upToArguments toolCalls
              simp only [hc, ht, toolCallLoop_eq]
              cases hd : ((upToArguments toolCalls).filterMap StreamToolCall.argumentDelta).head? with
              | none =>
                  rw [hd] at hargs
                  exact ⟨fun h => h, rfl, by rw [hnone]; rfl, by rw [hnone, List.drop_nil]; rfl,
                    by rw [hnone, List.drop_nil]; simp, by rw [hreached]; exact hargs,
                    by rw [hreached]; rfl⟩
              | some d =>
                  rw [hd] at hargs
                  exact ⟨fun h => h, rfl, by rw [hnone]; rfl, by rw [hnone, List.drop_nil]; rfl,
                    by rw [hnone, List.drop_nil]; simp, by rw [hreached]; exact hargs,
                    by rw [hreached]; rfl⟩

theorem chunkStep (c : StreamChunk) (t : ChatTransformer) :
    ChunkStep c t (t.handleChunk p c).1 (t.handleChunk p c).2 := by
  obtain ⟨hopened, hitem, hpart, htext, hcalls⟩ := noteUsage_facts p c t
  have hleft : (t.noteUsage p c).announcementsLeft = t.announcementsLeft := by
    rw [announcementsLeft, announcementsLeft, hitem, hpart]
  have hstep := chunkStep_choices c (t.noteUsage p c)
  exact
    { opened := fun h => hstep.opened (hopened.mpr h)
      completed := hstep.completed
      announcements := hleft ▸ hstep.announcements
      text := hleft ▸ hstep.text
      accumulatedText := htext ▸ hleft ▸ hstep.accumulatedText
      arguments := hstep.arguments
      accumulatedToolCalls := hcalls ▸ hstep.accumulatedToolCalls }

/-- What a row of chunks gives and leaves. -/
structure ChunksStep (cs : List StreamChunk) (t : ChatTransformer) (items : List StreamItem)
    (t' : ChatTransformer) : Prop where
  opened : t'.Opened
  completed : items.filterMap completedResponse = []
  text : items.filterMap textDelta = (contents cs).drop t.announcementsLeft
  accumulatedText : t'.accumulatedText
    = t.accumulatedText ++ String.join ((contents cs).drop t.announcementsLeft)
  arguments : items.filterMap argumentsDelta = (reached cs).filterMap StreamToolCall.argumentDelta
  accumulatedToolCalls : t'.accumulatedToolCalls
    = amendAll {} StreamToolCall.index StreamToolCall.merge t.accumulatedToolCalls (reached cs)

theorem feed_chunks (now : Int) (order : HashOrder (Nat × PartialToolCall))
    (cs : List StreamChunk) (t : ChatTransformer) (h : t.Opened) :
    ChunksStep cs t ((p.machine now order).feed t (cs.map .chunk)).1
      ((p.machine now order).feed t (cs.map .chunk)).2 := by
  induction cs generalizing t with
  | nil =>
      exact
        { opened := h
          completed := rfl
          text := by simp [contents, PolledStream.Machine.feed]
          accumulatedText := by simp [contents, PolledStream.Machine.feed]
          arguments := rfl
          accumulatedToolCalls := rfl }
  | cons c cs ih =>
      have hstep := chunkStep p c t
      have hrest := ih (t.handleChunk p c).2 (hstep.opened h)
      have hcontents := contents_cons c cs
      have hreached : reached (c :: cs) = c.reached ++ reached cs := List.flatMap_cons
      have hready : (p.machine now order).ready t = none := ChatTransformer.ready_eq_none h now
      have haccept : (p.machine now order).accept t (.chunk c)
          = ((t.handleChunk p c).1.map .ok, (t.handleChunk p c).2) := rfl
      have hfilter : ∀ {α : Type} (f : StreamItem → Option α) (e : Option StreamItem),
          e.toList.filterMap f = (e.bind f).toList := by
        intro α f e
        cases e with
        | none => rfl
        | some e => cases hf : f e <;> simp [hf]
      rw [List.map_cons, PolledStream.Machine.feed_cons hready, haccept]
      exact
        { opened := hrest.opened
          completed := by
            rw [List.filterMap_append, hfilter, hstep.completed, hrest.completed]
            rfl
          text := by
            rw [List.filterMap_append, hfilter, hstep.text, hrest.text, hstep.announcements,
              hcontents, List.drop_append]
          accumulatedText := by
            rw [hrest.accumulatedText, hstep.accumulatedText, hstep.announcements, hcontents,
              List.drop_append, String.join_append, String.append_assoc]
          arguments := by
            rw [List.filterMap_append, hfilter, hstep.arguments, hrest.arguments, hreached,
              List.filterMap_append]
          accumulatedToolCalls := by
            rw [hrest.accumulatedToolCalls, hstep.accumulatedToolCalls, hreached,
              amendAll_append] }

end ChatTransformer

/-! ## Streams -/

namespace ChatProvider

variable (p : ChatProvider) (env : StreamEnv) (order : HashOrder (Nat × PartialToolCall))

/-- A transformer before anything is sent. -/
def start : ChatTransformer := { model := env.model, responseId := p.idPrefix ++ env.uuid }

/-- The opening events, and the transformer after them. -/
theorem drive_start (rest : List (String ⊕ ChatMessage)) :
    (p.machine env.now order).drive (p.start env) rest
      = .ok (.responseCreated (Response.inProgress (p.idPrefix ++ env.uuid) env.model env.now))
        :: .ok (.responseInProgress
            (Response.inProgress (p.idPrefix ++ env.uuid) env.model env.now))
        :: (p.machine env.now order).drive
            { p.start env with sentCreated := true, sentInProgress := true } rest := by
  rw [PolledStream.Machine.drive_of_ready (by rfl), PolledStream.Machine.drive_of_ready (by rfl)]
  rfl

variable {parse : String → Option StreamChunk} {pieces : List (List UInt8)}
  {cs : List StreamChunk}

/-- What a stream gives is determined by the messages of its whole body. -/
theorem transform_eq_drive :
    p.transform env order parse (pieces.map .ok)
      = (p.machine env.now order).drive (p.start env) ((received parse pieces).map .inr) := by
  rw [transform, PolledStream.Machine.run_start, PolledStream.Machine.drive_comap]
  rfl

theorem drive_done {t : ChatTransformer} (h : t.Opened) :
    (p.machine env.now order).drive t [.inr .done]
      = [.ok (.responseCompleted (t.finalResponse env.now order))] := by
  have hready : (p.machine env.now order).ready t = none := ChatTransformer.ready_eq_none h env.now
  rw [PolledStream.Machine.drive_line hready, PolledStream.Machine.drive]
  exact congrArg _ (PolledStream.Machine.close_of_none hready rfl)

/-- What a stream gives: the opening, what the chunks give, and the final response. -/
structure Streamed (cs : List StreamChunk) (items : List StreamItem) (t : ChatTransformer)
    (given : List StreamItem) : Prop where
  given_eq : given = openingItems env p.idPrefix
    ++ items ++ [.ok (.responseCompleted (t.finalResponse env.now order))]
  completed : items.filterMap completedResponse = []
  text : items.filterMap textDelta = (contents cs).drop 2
  accumulatedText : t.accumulatedText = String.join ((contents cs).drop 2)
  arguments : items.filterMap argumentsDelta = (reached cs).filterMap StreamToolCall.argumentDelta
  accumulatedToolCalls : t.accumulatedToolCalls = accumulated (reached cs)

theorem exists_streamed (h : Terminated parse pieces cs) :
    ∃ items t, p.Streamed env order cs items t (p.transform env order parse (pieces.map .ok)) := by
  have hopened : StreamState.Opened
      { (p.start env).toStreamState with sentCreated := true, sentInProgress := true } := ⟨rfl, rfl⟩
  have hchunks := ChatTransformer.feed_chunks p env.now order cs
    { p.start env with sentCreated := true, sentInProgress := true } hopened
  refine ⟨_, _, ?_, hchunks.completed, hchunks.text, ?_, hchunks.arguments,
    hchunks.accumulatedToolCalls⟩
  · rw [transform_eq_drive, h.messages, drive_start, PolledStream.Machine.drive_append,
      drive_done p env order hchunks.opened]
    rfl
  · rw [hchunks.accumulatedText]
    exact String.empty_append

variable {p env order} {items given : List StreamItem} {t : ChatTransformer}

theorem Streamed.deltaText (h : p.Streamed env order cs items t given) :
    deltaText given = String.join ((contents cs).drop 2) := by
  have hopening : (openingItems env p.idPrefix).filterMap textDelta = [] := rfl
  have hfinal : [Except.ok (StreamEvent.responseCompleted (t.finalResponse env.now order))].filterMap
      textDelta = [] := rfl
  rw [h.given_eq, Provider.deltaText, List.filterMap_append, List.filterMap_append, h.text,
    hopening, hfinal, List.nil_append, List.append_nil]

theorem Streamed.completedResponses (h : p.Streamed env order cs items t given) :
    given.filterMap completedResponse = [t.finalResponse env.now order] := by
  rw [h.given_eq, List.filterMap_append, List.filterMap_append, h.completed]
  rfl

theorem Streamed.text_final (h : p.Streamed env order cs items t given) :
    (t.finalResponse env.now order).text = String.join ((contents cs).drop 2) := by
  rw [← h.accumulatedText]
  exact text_finalOutput order t.accumulatedText t.accumulatedToolCalls

theorem Streamed.functionCalls_final (h : p.Streamed env order cs items t given) :
    (t.finalResponse env.now order).functionCalls = callItems order (accumulated (reached cs)) := by
  rw [← h.accumulatedToolCalls]
  exact functionCalls_finalOutput order t.accumulatedText t.accumulatedToolCalls

end ChatProvider

def OpenAIStreamTransformer : ChatProvider := ⟨"resp_oai_", true⟩

def MistralStreamTransformer : ChatProvider := ⟨"resp_mis_", false⟩

def OllamaStreamTransformer : ChatProvider := ⟨"resp_oll_", false⟩

def HfStreamTransformer : ChatProvider := ⟨"resp_hf_", false⟩

end AuraGateway.Provider
