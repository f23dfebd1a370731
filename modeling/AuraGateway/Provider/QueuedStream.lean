import AuraGateway.Provider.ChatStream

/-!
# Chat-completion streams with queued events

The stream transformers of Together and Fireworks. What a chunk gives goes through a queue
that is emptied, one event a round, before the next line is read. So a chunk gives all its
events (`drive_chunk`), and the whole stream can be stated as a list: the messages about the
text are the announcements, one delta for each content string, and the text
(`Streamed.textItems`).
-/

set_option autoImplicit false

namespace AuraGateway.Provider

open AuraGateway.Foundations AuraGateway.Foundations.KeyedFolds AuraGateway.Types

/-! ## The transformer -/

/-- The state of a transformer with a queue, but for its buffer. -/
structure QueuedTransformer extends ChatTransformer where
  pendingEvents : List StreamEvent := []

namespace QueuedTransformer

/-- An event that is due: an opening event, else the first of the queue. -/
def ready (now : Int) (t : QueuedTransformer) : Option (StreamItem × QueuedTransformer) :=
  match t.toStreamState.opening now with
  | some (e, s) => some (e, { t with toStreamState := s })
  | none =>
      match t.pendingEvents with
      | e :: rest => some (.ok e, { t with pendingEvents := rest })
      | [] => none

def due (t : QueuedTransformer) : Nat := t.openingLeft + t.pendingEvents.length

theorem due_of_ready {now : Int} {t t' : QueuedTransformer} {e : StreamItem}
    (h : t.ready now = some (e, t')) : t'.due < t.due := by
  rw [ready] at h
  split at h
  · rename_i hopening
    obtain ⟨-, rfl⟩ := Prod.mk.inj (Option.some.inj h)
    exact Nat.add_lt_add_right (StreamState.openingLeft_of_opening hopening) _
  · split at h
    · rename_i hpending
      obtain ⟨-, rfl⟩ := Prod.mk.inj (Option.some.inj h)
      rw [due, due, hpending, List.length_cons]
      exact Nat.lt_succ_self _
    · cases h

/-- `push_back`. -/
def push (e : StreamEvent) (t : QueuedTransformer) : QueuedTransformer :=
  { t with pendingEvents := t.pendingEvents ++ [e] }

/-- `pop_front`, with the queue after it. -/
def pop (t : QueuedTransformer) : Option StreamEvent × QueuedTransformer :=
  (t.pendingEvents.head?, { t with pendingEvents := t.pendingEvents.tail })

/-- Announce the item, unless it has been announced. -/
def announceItem (t : QueuedTransformer) : QueuedTransformer :=
  if t.outputItemAdded then t
  else { t with outputItemAdded := true }.push (.outputItemAdded 0 (Item.assistant "msg_0" ""))

/-- Announce the content part, unless it has been announced. -/
def announcePart (t : QueuedTransformer) : QueuedTransformer :=
  if t.contentPartAdded then t
  else { t with contentPartAdded := true }.push (.contentPartAdded 0 0 "text")

/-- Pass content on. -/
def pushContent (content : String) (t : QueuedTransformer) : QueuedTransformer :=
  { t with accumulatedText := t.accumulatedText ++ content }.push (.outputTextDelta 0 0 content)

/-- What the first choice of a chunk does. -/
def handleChoices (c : StreamChunk) (t : QueuedTransformer) :
    Option StreamEvent × QueuedTransformer :=
  match c.choices.head? with
  | none => (none, t)
  | some choice =>
      match choice.delta.content with
      -- the queue is not empty, so its first event is returned here
      | some content => (t.announceItem.announcePart.pushContent content).pop
      | none =>
          match choice.delta.toolCalls with
          | none => (none, t)
          | some toolCalls =>
              let looped := toolCallLoop t.accumulatedToolCalls toolCalls
              let t := { t with accumulatedToolCalls := looped.1 }
              match looped.2 with
              | some d => (t.push (.functionCallArgumentsDelta d.1 d.2)).pop
              | none => (none, t)

/-- What a chunk does. -/
def handleChunk (p : ChatProvider) (c : StreamChunk) (t : QueuedTransformer) :
    Option StreamEvent × QueuedTransformer :=
  handleChoices c { t with toChatTransformer := t.toChatTransformer.noteUsage p c }

/-- The end marker: the text if there is any, and the final response. -/
def handleDone (now : Int) (order : HashOrder (Nat × PartialToolCall)) (t : QueuedTransformer) :
    Option StreamEvent × QueuedTransformer :=
  let t' := if t.accumulatedText.isEmpty then t else t.push (.outputTextDone 0 0 t.accumulatedText)
  (t'.push (.responseCompleted (t.toChatTransformer.finalResponse now order))).pop

/-- What a message does. -/
def handle (p : ChatProvider) (now : Int) (order : HashOrder (Nat × PartialToolCall))
    (t : QueuedTransformer) : ChatMessage → Option StreamItem × QueuedTransformer
  | .done => ((t.handleDone now order).1.map .ok, (t.handleDone now order).2)
  | .chunk c => ((t.handleChunk p c).1.map .ok, (t.handleChunk p c).2)

end QueuedTransformer

namespace ChatProvider

/-- The control of a stream with a queue. -/
def queuedMachine (p : ChatProvider) (now : Int) (order : HashOrder (Nat × PartialToolCall)) :
    PolledStream.Machine ChatMessage String QueuedTransformer StreamItem where
  ready := QueuedTransformer.ready now
  accept := QueuedTransformer.handle p now order
  failed message := .error (.stream message)
  finish _ := none
  due := QueuedTransformer.due
  due_of_ready := QueuedTransformer.due_of_ready
  due_of_finish _ h := by cases h

/-- `transform`: the events of a response that comes in pieces. -/
def queuedTransform (p : ChatProvider) (env : StreamEnv)
    (order : HashOrder (Nat × PartialToolCall)) (parse : String → Option StreamChunk)
    (source : List (Except String (List UInt8))) : List StreamItem :=
  ((p.queuedMachine env.now order).comap (readChat parse)).run utf8Decoder lineScanner
    { control := { model := env.model, responseId := p.idPrefix ++ env.uuid }
      buffer := [], pending := [], source := source }

end ChatProvider

/-- `TogetherStreamTransformer::transform`. -/
def TogetherStreamTransformer.transform := ChatProvider.queuedTransform ⟨"resp_tog_", true⟩

/-- `FireworksStreamTransformer::transform`. -/
def FireworksStreamTransformer.transform := ChatProvider.queuedTransform ⟨"resp_fw_", true⟩

/-! ## What a chunk gives -/

namespace QueuedTransformer

/-- A transformer between two lines: the opening is over and the queue is empty. -/
structure Settled (t : QueuedTransformer) : Prop where
  opened : t.toStreamState.Opened
  empty : t.pendingEvents = []

variable (p : ChatProvider) (now : Int) (order : HashOrder (Nat × PartialToolCall))

theorem Settled.ready_eq_none {t : QueuedTransformer} (h : t.Settled) : t.ready now = none := by
  simp [ready, h.opened.opening_eq_none, h.empty]

/-- The queue comes first. -/
theorem drive_pending (events : List StreamEvent) {t : QueuedTransformer}
    (h : t.toStreamState.Opened) (rest : List (String ⊕ ChatMessage)) :
    (p.queuedMachine now order).drive { t with pendingEvents := events } rest
      = events.map .ok ++ (p.queuedMachine now order).drive { t with pendingEvents := [] } rest := by
  induction events with
  | nil => rfl
  | cons e events ih =>
      have hready : (p.queuedMachine now order).ready { t with pendingEvents := e :: events }
          = some (.ok e, { t with pendingEvents := events }) := by
        simp [ChatProvider.queuedMachine, ready, h.opening_eq_none]
      rw [PolledStream.Machine.drive_of_ready hready, ih]
      rfl

/-- The announcements that are still to be made. -/
def announcements (t : QueuedTransformer) : List StreamEvent :=
  (if t.outputItemAdded then [] else [.outputItemAdded 0 (Item.assistant "msg_0" "")])
    ++ (if t.contentPartAdded then [] else [.contentPartAdded 0 0 "text"])

/-- What a chunk gives, its event and what it leaves in the queue, by what it carries. -/
structure ChunkStep (c : StreamChunk) (t : QueuedTransformer) (e : Option StreamEvent)
    (t' : QueuedTransformer) : Prop where
  opened : t.toStreamState.Opened → t'.toStreamState.Opened
  events : e.toList ++ t'.pendingEvents
    = match c.content with
      | some content => t.announcements ++ [.outputTextDelta 0 0 content]
      | none => (c.reached.filterMap StreamToolCall.argumentDelta).map
          fun d => .functionCallArgumentsDelta d.1 d.2
  announcements : t'.announcements = if c.content.isSome then [] else t.announcements
  accumulatedText : t'.accumulatedText = t.accumulatedText ++ String.join c.content.toList
  accumulatedToolCalls : t'.accumulatedToolCalls
    = amendAll {} StreamToolCall.index StreamToolCall.merge t.accumulatedToolCalls c.reached

theorem pop_append (t : QueuedTransformer) : t.pop.1.toList ++ t.pop.2.pendingEvents = t.pendingEvents := by
  rw [pop]
  cases t.pendingEvents with
  | nil => rfl
  | cons e rest => rfl

theorem announce_facts (t : QueuedTransformer) :
    let t' := t.announceItem.announcePart
    (t.toStreamState.Opened → t'.toStreamState.Opened)
      ∧ t'.pendingEvents = t.pendingEvents ++ t.announcements
      ∧ t'.announcements = []
      ∧ t'.accumulatedText = t.accumulatedText
      ∧ t'.accumulatedToolCalls = t.accumulatedToolCalls := by
  cases hitem : t.outputItemAdded with
  | false =>
      cases hpart : t.contentPartAdded with
      | false =>
          simp [announceItem, announcePart, announcements, push, hitem, hpart,
            StreamState.Opened]
      | true =>
          simp [announceItem, announcePart, announcements, push, hitem, hpart,
            StreamState.Opened]
  | true =>
      cases hpart : t.contentPartAdded with
      | false =>
          simp [announceItem, announcePart, announcements, push, hitem, hpart,
            StreamState.Opened]
      | true => simp [announceItem, announcePart, announcements, hitem, hpart]

theorem chunkStep_choices (c : StreamChunk) {t : QueuedTransformer} (h : t.pendingEvents = []) :
    ChunkStep c t (handleChoices c t).1 (handleChoices c t).2 := by
  rw [handleChoices]
  cases hhead : c.choices.head? with
  | none =>
      obtain ⟨hcontent, hreached⟩ := StreamChunk.of_no_choice hhead
      constructor <;> simp [hcontent, hreached, h, amendAll]
  | some choice =>
      obtain ⟨hcontent, hfragments⟩ := StreamChunk.of_choice hhead
      cases hc : choice.delta.content with
      | some content =>
          rw [hc] at hcontent
          obtain ⟨hopened, hpending, hannounced, htext, hcalls⟩ := announce_facts t
          have hreached := StreamChunk.reached_of_content hcontent
          simp only [hc]
          exact
            { opened := hopened
              events := by
                rw [pop_append, hcontent, pushContent, push, hpending, h]
                rfl
              announcements := by
                rw [hcontent]
                exact hannounced
              accumulatedText := by
                rw [hcontent, Option.toList_some, String.join_cons, String.join_nil,
                  String.append_empty]
                exact congrArg (· ++ content) htext
              accumulatedToolCalls := by
                rw [hreached]
                exact hcalls }
      | none =>
          rw [hc] at hcontent
          have hreached := StreamChunk.reached_of_no_content hcontent
          rw [hfragments] at hreached
          cases ht : choice.delta.toolCalls with
          | none =>
              rw [ht] at hreached
              simp only [hc, ht]
              constructor <;> simp [hcontent, hreached, h, amendAll, upToArguments]
          | some toolCalls =>
              rw [ht] at hreached
              have hargs := argumentDeltas_upToArguments toolCalls
              simp only [hc, ht, toolCallLoop_eq]
              cases hd : ((upToArguments toolCalls).filterMap StreamToolCall.argumentDelta).head? with
              | none =>
                  rw [hd] at hargs
                  exact
                    { opened := fun hopened => hopened
                      events := by
                        rw [hcontent, hreached, Option.getD_some, ← hargs]
                        exact h
                      announcements := by
                        rw [hcontent]
                        rfl
                      accumulatedText := by rw [hcontent]; exact String.append_empty.symm
                      accumulatedToolCalls := by rw [hreached]; rfl }
              | some d =>
                  rw [hd] at hargs
                  exact
                    { opened := fun hopened => hopened
                      events := by
                        rw [hcontent, hreached, Option.getD_some, ← hargs, pop_append, push, h]
                        rfl
                      announcements := by
                        rw [hcontent]
                        rfl
                      accumulatedText := by rw [hcontent]; exact String.append_empty.symm
                      accumulatedToolCalls := by rw [hreached]; rfl }

theorem chunkStep (c : StreamChunk) {t : QueuedTransformer} (h : t.pendingEvents = []) :
    ChunkStep c t (t.handleChunk p c).1 (t.handleChunk p c).2 := by
  obtain ⟨hopened, hitem, hpart, htext, hcalls⟩ :=
    ChatTransformer.noteUsage_facts p c t.toChatTransformer
  have hleft : announcements { t with toChatTransformer := t.toChatTransformer.noteUsage p c }
      = t.announcements := by
    simp only [announcements, hitem, hpart]
  have hstep := chunkStep_choices c (t := { t with
    toChatTransformer := t.toChatTransformer.noteUsage p c }) h
  exact
    { opened := fun h => hstep.opened (hopened.mpr h)
      events := hleft ▸ hstep.events
      announcements := hleft ▸ hstep.announcements
      accumulatedText := htext ▸ hstep.accumulatedText
      accumulatedToolCalls := hcalls ▸ hstep.accumulatedToolCalls }

/-- A chunk gives its event and what it leaves in the queue, before the next message. -/
theorem drive_chunk (c : StreamChunk) {t : QueuedTransformer} (h : t.Settled)
    (rest : List (String ⊕ ChatMessage)) :
    (p.queuedMachine now order).drive t (.inr (.chunk c) :: rest)
      = ((t.handleChunk p c).1.toList ++ (t.handleChunk p c).2.pendingEvents).map .ok
        ++ (p.queuedMachine now order).drive { (t.handleChunk p c).2 with pendingEvents := [] }
          rest := by
  have hready : (p.queuedMachine now order).ready t = none := h.ready_eq_none now
  have hopened := (chunkStep p c h.empty).opened h.opened
  have haccept : (p.queuedMachine now order).accept t (.chunk c)
      = ((t.handleChunk p c).1.map .ok, (t.handleChunk p c).2) := rfl
  rw [PolledStream.Machine.drive_line hready, haccept, List.map_append, List.append_assoc,
    ← drive_pending p now order _ hopened]
  cases (t.handleChunk p c).1 <;> rfl

/-- What a row of chunks gives and leaves. -/
structure ChunksStep (cs : List StreamChunk) (t : QueuedTransformer) (items : List StreamItem)
    (t' : QueuedTransformer) : Prop where
  settled : t'.Settled
  completed : items.filterMap completedResponse = []
  textItems : items.filter isTextItem
    = (if (contents cs).isEmpty then [] else t.announcements.map .ok) ++ (contents cs).map deltaItem
  accumulatedText : t'.accumulatedText = t.accumulatedText ++ String.join (contents cs)
  arguments : items.filterMap argumentsDelta = (reached cs).filterMap StreamToolCall.argumentDelta
  accumulatedToolCalls : t'.accumulatedToolCalls
    = amendAll {} StreamToolCall.index StreamToolCall.merge t.accumulatedToolCalls (reached cs)

/-- Argument deltas are about nothing else. -/
theorem argumentItems_facts (deltas : List (Nat × String)) :
    let items : List StreamItem :=
      (deltas.map fun d => StreamEvent.functionCallArgumentsDelta d.1 d.2).map .ok
    items.filterMap completedResponse = [] ∧ items.filter isTextItem = []
      ∧ items.filterMap argumentsDelta = deltas := by
  induction deltas with
  | nil => exact ⟨rfl, rfl, rfl⟩
  | cons d deltas ih =>
      obtain ⟨hcompleted, htext, harguments⟩ := ih
      exact ⟨hcompleted, htext, congrArg (List.cons d) harguments⟩

/-- The events of one chunk, seen by what they are. -/
theorem ChunkStep.items {c : StreamChunk} {t t' : QueuedTransformer} {e : Option StreamEvent}
    (h : ChunkStep c t e t') :
    let items : List StreamItem := (e.toList ++ t'.pendingEvents).map .ok
    items.filterMap completedResponse = []
      ∧ items.filter isTextItem
        = (if c.content.isNone then [] else t.announcements.map .ok)
          ++ c.content.toList.map deltaItem
      ∧ items.filterMap argumentsDelta = c.reached.filterMap StreamToolCall.argumentDelta := by
  intro items
  have hitems : items = (e.toList ++ t'.pendingEvents).map .ok := rfl
  have hevents := h.events
  cases hc : c.content with
  | none =>
      rw [hc] at hevents
      rw [hitems, hevents]
      obtain ⟨hcompleted, htext, harguments⟩ :=
        argumentItems_facts (c.reached.filterMap StreamToolCall.argumentDelta)
      exact ⟨hcompleted, htext, harguments⟩
  | some content =>
      rw [hc] at hevents
      rw [hitems, hevents, StreamChunk.reached_of_content hc, QueuedTransformer.announcements]
      by_cases hitem : t.outputItemAdded = true
      · rw [if_pos hitem]
        by_cases hpart : t.contentPartAdded = true
        · rw [if_pos hpart]
          exact ⟨rfl, rfl, rfl⟩
        · rw [if_neg hpart]
          exact ⟨rfl, rfl, rfl⟩
      · rw [if_neg hitem]
        by_cases hpart : t.contentPartAdded = true
        · rw [if_pos hpart]
          exact ⟨rfl, rfl, rfl⟩
        · rw [if_neg hpart]
          exact ⟨rfl, rfl, rfl⟩

/-- The announcements come before the first content, and not again. -/
theorem textItems_cons {c : StreamChunk} (cs : List StreamChunk) {t t' : QueuedTransformer}
    (h : t'.announcements = if c.content.isSome then [] else t.announcements) :
    ((if c.content.isNone then [] else t.announcements.map .ok) ++ c.content.toList.map deltaItem)
        ++ ((if (contents cs).isEmpty then [] else t'.announcements.map .ok)
          ++ (contents cs).map deltaItem)
      = (if (contents (c :: cs)).isEmpty then [] else t.announcements.map .ok)
        ++ (contents (c :: cs)).map deltaItem := by
  rw [h, contents_cons]
  cases hc : c.content with
  | none => simp
  | some content => simp

theorem drive_chunks (cs : List StreamChunk) {t : QueuedTransformer} (h : t.Settled) :
    ∃ items t', ChunksStep cs t items t' ∧ ∀ rest,
      (p.queuedMachine now order).drive t ((cs.map ChatMessage.chunk).map .inr ++ rest)
        = items ++ (p.queuedMachine now order).drive t' rest := by
  induction cs generalizing t with
  | nil =>
      refine ⟨[], t, ?_, fun rest => rfl⟩
      exact
        { settled := h
          completed := rfl
          textItems := rfl
          accumulatedText := String.append_empty.symm
          arguments := rfl
          accumulatedToolCalls := rfl }
  | cons c cs ih =>
      have hstep := chunkStep p c h.empty
      obtain ⟨hcompleted, htext, harguments⟩ := hstep.items
      have hsettled : Settled { (t.handleChunk p c).2 with pendingEvents := [] } :=
        ⟨hstep.opened h.opened, rfl⟩
      obtain ⟨items, t', hrest, hdrive⟩ := ih hsettled
      refine ⟨((t.handleChunk p c).1.toList ++ (t.handleChunk p c).2.pendingEvents).map .ok ++ items,
        t', ?_, fun rest => ?_⟩
      · have hreached : reached (c :: cs) = c.reached ++ reached cs := List.flatMap_cons
        have hcontents : contents (c :: cs) = c.content.toList ++ contents cs := contents_cons c cs
        exact
          { settled := hrest.settled
            completed := by rw [List.filterMap_append, hcompleted, hrest.completed, List.nil_append]
            textItems := by
              rw [List.filter_append, htext, hrest.textItems]
              exact textItems_cons cs hstep.announcements
            accumulatedText := by
              rw [hrest.accumulatedText, hcontents, String.join_append, ← String.append_assoc]
              exact congrArg (· ++ String.join (contents cs)) hstep.accumulatedText
            arguments := by
              rw [List.filterMap_append, harguments, hrest.arguments, hreached,
                List.filterMap_append]
            accumulatedToolCalls := by
              rw [hrest.accumulatedToolCalls, hreached, amendAll_append]
              exact congrArg (fun calls => amendAll _ _ _ calls _) hstep.accumulatedToolCalls }
      · rw [List.map_cons, List.map_cons, List.cons_append, drive_chunk p now order c h, hdrive,
          List.append_assoc]

/-- The whole text, if there is any. -/
def doneItems (text : String) : List StreamItem :=
  if text.isEmpty then [] else [.ok (.outputTextDone 0 0 text)]

theorem drive_nil {t : QueuedTransformer} (h : t.Settled) :
    (p.queuedMachine now order).drive t [] = [] :=
  PolledStream.Machine.close_of_none (M := p.queuedMachine now order) (h.ready_eq_none now) rfl

/-- The end marker gives the whole text and the final response. -/
theorem drive_done {t : QueuedTransformer} (h : t.Settled) (rest : List (String ⊕ ChatMessage)) :
    (p.queuedMachine now order).drive t (.inr .done :: rest)
      = doneItems t.accumulatedText
        ++ .ok (.responseCompleted (t.toChatTransformer.finalResponse now order))
          :: (p.queuedMachine now order).drive { t with pendingEvents := [] } rest := by
  have hready : (p.queuedMachine now order).ready t = none := h.ready_eq_none now
  rw [PolledStream.Machine.drive_line hready, doneItems]
  by_cases htext : t.accumulatedText.isEmpty = true
  · have haccept : (p.queuedMachine now order).accept t .done
        = (some (.ok (.responseCompleted (t.toChatTransformer.finalResponse now order))),
          { t with pendingEvents := [] }) := by
      simp [ChatProvider.queuedMachine, handle, handleDone, htext, push, pop, h.empty]
    rw [haccept, if_pos htext]
    rfl
  · have haccept : (p.queuedMachine now order).accept t .done
        = (some (.ok (.outputTextDone 0 0 t.accumulatedText)),
          { t with pendingEvents :=
            [.responseCompleted (t.toChatTransformer.finalResponse now order)] }) := by
      simp [ChatProvider.queuedMachine, handle, handleDone, htext, push, pop, h.empty]
    rw [haccept, drive_pending p now order _ h.opened, if_neg htext]
    rfl

end QueuedTransformer

/-! ## Streams -/

namespace ChatProvider

open QueuedTransformer

variable (p : ChatProvider) (env : StreamEnv) (order : HashOrder (Nat × PartialToolCall))
  {parse : String → Option StreamChunk} {pieces : List (List UInt8)} {cs : List StreamChunk}

/-- A transformer before anything is sent. -/
def queuedStart : QueuedTransformer := { toChatTransformer := p.start env }

/-- What a stream gives is determined by the messages of its whole body. -/
theorem queuedTransform_eq_drive :
    p.queuedTransform env order parse (pieces.map .ok)
      = (p.queuedMachine env.now order).drive (p.queuedStart env)
          ((received parse pieces).map .inr) := by
  rw [queuedTransform, PolledStream.Machine.run_start, PolledStream.Machine.drive_comap]
  rfl

/-- The opening events, and the transformer after them. -/
theorem queued_drive_start (rest : List (String ⊕ ChatMessage)) :
    (p.queuedMachine env.now order).drive (p.queuedStart env) rest
      = openingItems env p.idPrefix
        ++ (p.queuedMachine env.now order).drive
            { p.queuedStart env with sentCreated := true, sentInProgress := true } rest := by
  rw [PolledStream.Machine.drive_of_ready (by rfl), PolledStream.Machine.drive_of_ready (by rfl)]
  rfl

/-- What a stream gives: the opening, what the chunks give, the whole text and the final
response. -/
structure QueuedStreamed (cs : List StreamChunk) (items : List StreamItem) (t : QueuedTransformer)
    (given : List StreamItem) : Prop where
  given_eq : given = openingItems env p.idPrefix ++ items ++ doneItems (String.join (contents cs))
    ++ [.ok (.responseCompleted (t.toChatTransformer.finalResponse env.now order))]
  completed : items.filterMap completedResponse = []
  textItems : items.filter isTextItem
    = (if (contents cs).isEmpty then []
      else [.ok (.outputItemAdded 0 (Item.assistant "msg_0" "")), .ok (.contentPartAdded 0 0 "text")])
      ++ (contents cs).map deltaItem
  accumulatedText : t.accumulatedText = String.join (contents cs)
  arguments : items.filterMap argumentsDelta = (reached cs).filterMap StreamToolCall.argumentDelta
  accumulatedToolCalls : t.accumulatedToolCalls = accumulated (reached cs)

theorem exists_queuedStreamed (h : Terminated parse pieces cs) :
    ∃ items t, p.QueuedStreamed env order cs items t
      (p.queuedTransform env order parse (pieces.map .ok)) := by
  have hsettled : Settled { p.queuedStart env with sentCreated := true, sentInProgress := true } :=
    ⟨⟨rfl, rfl⟩, rfl⟩
  obtain ⟨items, t, hstep, hdrive⟩ := drive_chunks p env.now order cs hsettled
  have htext : t.accumulatedText = String.join (contents cs) :=
    hstep.accumulatedText.trans String.empty_append
  refine ⟨items, t, ?_, hstep.completed, hstep.textItems, htext, hstep.arguments,
    hstep.accumulatedToolCalls⟩
  have hnil : (p.queuedMachine env.now order).drive { t with pendingEvents := [] } [] = [] :=
    QueuedTransformer.drive_nil p env.now order ⟨hstep.settled.opened, rfl⟩
  rw [queuedTransform_eq_drive, h.messages, queued_drive_start, hdrive,
    QueuedTransformer.drive_done p env.now order hstep.settled, hnil, htext]
  simp only [List.append_assoc]

end ChatProvider

end AuraGateway.Provider
