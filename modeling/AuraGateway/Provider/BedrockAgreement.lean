import AuraGateway.Provider.Bedrock
import AuraGateway.Provider.Outcomes

/-!
# Whole and streamed answers of Claude on Bedrock

A well-formed stream of an answer starts each content block, sends its text or its JSON in
deltas, and closes with the stop reason of the answer. `bedrock_stream_agrees_iff` says when
what such a stream gives agrees with the response to the whole answer.
-/

set_option autoImplicit false

namespace AuraGateway.Provider

open AuraGateway.Foundations AuraGateway.Foundations.KeyedFolds AuraGateway.Types

variable {ν : Type}

/-! ## Rows of events -/

namespace BedrockStreamState

section Rows

variable (now : Int) (order : HashOrder (Nat × PartialToolCall))

/-- What a row of events gives and leaves. -/
def feed (t : BedrockStreamState) : List (BedrockStreamEvent ν) →
    List StreamItem × BedrockStreamState
  | [] => ([], t)
  | ev :: evs =>
      let given := t.handleEvent now order ev
      let row := feed given.2 evs
      (given.1 :: row.1, row.2)

theorem feed_append (t : BedrockStreamState) (evs evs' : List (BedrockStreamEvent ν)) :
    t.feed now order (evs ++ evs')
      = ((t.feed now order evs).1 ++ ((t.feed now order evs).2.feed now order evs').1,
        ((t.feed now order evs).2.feed now order evs').2) := by
  induction evs generalizing t with
  | nil => rfl
  | cons ev evs ih => rw [List.cons_append, feed, ih, feed, List.cons_append]

variable (parse : List UInt8 → Option (BedrockStreamEvent ν))

theorem unfold_of_poll {t t' : BedrockStreamState} {e : StreamItem}
    {source source' : List (Except String ResponseStream)}
    (h : t.poll now order parse source = some (e, t', source')) :
    t.unfold now order parse source = e :: t'.unfold now order parse source' := by
  rw [BedrockStreamState.unfold]
  split
  · rename_i hnone
    rw [h] at hnone
    cases hnone
  · rename_i hsome
    rw [h] at hsome
    obtain ⟨rfl, rfl, rfl⟩ := hsome
    rfl

theorem unfold_of_none {t : BedrockStreamState} {source : List (Except String ResponseStream)}
    (h : t.poll now order parse source = none) : t.unfold now order parse source = [] := by
  rw [BedrockStreamState.unfold]
  split
  · rfl
  · rename_i hsome
    rw [h] at hsome
    cases hsome

/-- A closed stream gives nothing more. -/
theorem unfold_done {t : BedrockStreamState} (h : t.done = true)
    (source : List (Except String ResponseStream)) : t.unfold now order parse source = [] := by
  apply unfold_of_none
  unfold poll
  rw [if_pos h]

/-- An open stream ends with its source. -/
theorem unfold_nil {t : BedrockStreamState} (h : t.Opened) :
    t.unfold now order parse [] = [] := by
  apply unfold_of_none
  unfold poll
  split
  · rfl
  · rw [h.opening_eq_none]

theorem unfold_cons {t : BedrockStreamState} (h : t.Opened) (hdone : t.done = false)
    (output : Except String ResponseStream) (rest : List (Except String ResponseStream)) :
    t.unfold now order parse (output :: rest)
      = (t.accept now order (readOutput parse output)).1
        :: (t.accept now order (readOutput parse output)).2.unfold now order parse rest := by
  apply unfold_of_poll
  unfold poll
  rw [if_neg (by simp [hdone]), h.opening_eq_none]

/-- Outputs that are read as events give what the events give, if none of them closes the
stream. -/
theorem unfold_events (evs : List (BedrockStreamEvent ν))
    {outputs : List (Except String ResponseStream)}
    (houtputs : outputs.map (readOutput parse) = evs.map .event)
    (hevs : ∀ ev ∈ evs, ev.isMessageDelta = false) {t : BedrockStreamState} (h : t.Opened)
    (hdone : t.done = false) (rest : List (Except String ResponseStream)) :
    t.unfold now order parse (outputs ++ rest)
      = (t.feed now order evs).1 ++ (t.feed now order evs).2.unfold now order parse rest := by
  induction evs generalizing outputs t with
  | nil =>
      rw [List.map_nil, List.map_eq_nil_iff] at houtputs
      rw [houtputs]
      rfl
  | cons ev evs ih =>
      cases outputs with
      | nil => cases houtputs
      | cons output outputs =>
          rw [List.map_cons, List.map_cons] at houtputs
          obtain ⟨hread, houtputs⟩ := List.cons.inj houtputs
          obtain ⟨hcreated, hprogress, hkept⟩ := handleEvent_kept now order t ev
          have hdelta := hevs ev List.mem_cons_self
          have hopened : (t.handleEvent now order ev).2.Opened :=
            ⟨hcreated.trans h.1, hprogress.trans h.2⟩
          have hrest := ih houtputs (fun ev' hev' => hevs ev' (List.mem_cons_of_mem ev hev')) hopened
            ((hkept hdelta).trans hdone)
          rw [List.cons_append, unfold_cons now order parse h hdone, hread, accept, hrest, feed,
            List.cons_append]

end Rows

/-! ## What the events of a block do -/

/-- What events that close nothing give and leave, by the text they carry and the calls they
make. -/
structure BlockStep (texts : List String) (entries : List (Nat × PartialToolCall))
    (t : BedrockStreamState) (items : List StreamItem) (t' : BedrockStreamState) : Prop where
  terminal : items.filterMap terminalResponse = []
  text : items.filterMap textDelta = texts.drop (!t.contentPartAdded).toNat
  accumulatedText : t'.accumulatedText
    = t.accumulatedText ++ String.join (texts.drop (!t.contentPartAdded).toNat)
  announced : (!t'.contentPartAdded).toNat = (!t.contentPartAdded).toNat - texts.length
  accumulatedToolCalls : t'.accumulatedToolCalls = t.accumulatedToolCalls ++ entries
  inputTokens : t'.inputTokens = t.inputTokens
  cachedTokens : t'.cachedTokens = t.cachedTokens
  outputTokens : t'.outputTokens = t.outputTokens

/-- Steps in a row. -/
theorem BlockStep.append {texts texts' : List String} {entries entries' : List (Nat × PartialToolCall)}
    {t t' t'' : BedrockStreamState} {items items' : List StreamItem}
    (h : BlockStep texts entries t items t') (h' : BlockStep texts' entries' t' items' t'') :
    BlockStep (texts ++ texts') (entries ++ entries') t (items ++ items') t'' where
  terminal := by rw [List.filterMap_append, h.terminal, h'.terminal, List.append_nil]
  text := by rw [List.filterMap_append, h.text, h'.text, h.announced, List.drop_append]
  accumulatedText := by
    rw [h'.accumulatedText, h.accumulatedText, h.announced, List.drop_append, String.join_append,
      String.append_assoc]
  announced := by rw [h'.announced, h.announced, List.length_append, Nat.sub_sub]
  accumulatedToolCalls := by
    rw [h'.accumulatedToolCalls, h.accumulatedToolCalls, List.append_assoc]
  inputTokens := h'.inputTokens.trans h.inputTokens
  cachedTokens := h'.cachedTokens.trans h.cachedTokens
  outputTokens := h'.outputTokens.trans h.outputTokens

/-- Items that carry no text and end nothing. -/
theorem BlockStep.of_quiet {t t' : BedrockStreamState} {items : List StreamItem}
    {entries : List (Nat × PartialToolCall)} (hterminal : items.filterMap terminalResponse = [])
    (htext : items.filterMap textDelta = []) (hkept : t'.accumulatedText = t.accumulatedText)
    (hpart : t'.contentPartAdded = t.contentPartAdded)
    (hcalls : t'.accumulatedToolCalls = t.accumulatedToolCalls ++ entries)
    (htokens : t'.inputTokens = t.inputTokens ∧ t'.cachedTokens = t.cachedTokens
      ∧ t'.outputTokens = t.outputTokens) : BlockStep [] entries t items t' where
  terminal := hterminal
  text := by rw [htext, List.drop_nil]
  accumulatedText := by rw [hkept, List.drop_nil, String.join_nil, String.append_empty]
  announced := by rw [hpart, List.length_nil, Nat.sub_zero]
  accumulatedToolCalls := hcalls
  inputTokens := htokens.1
  cachedTokens := htokens.2.1
  outputTokens := htokens.2.2

section Blocks

variable (now : Int) (order : HashOrder (Nat × PartialToolCall)) (i : Nat)

theorem textDelta_step (t : BedrockStreamState) (text : String) :
    BlockStep [text] [] t [(t.blockDelta now i (.textDelta text)).1]
      (t.blockDelta now i (.textDelta text)).2 := by
  rw [blockDelta]
  by_cases hpart : t.contentPartAdded = true
  · rw [if_neg (by simp [hpart])]
    exact
      { terminal := rfl
        text := by rw [hpart]; rfl
        accumulatedText := by simp [hpart, String.join_cons]
        announced := by simp [hpart]
        accumulatedToolCalls := (List.append_nil _).symm
        inputTokens := rfl
        cachedTokens := rfl
        outputTokens := rfl }
  · have hfalse : t.contentPartAdded = false := by simpa using hpart
    rw [if_pos (by simp [hpart])]
    exact
      { terminal := rfl
        text := by rw [hfalse]; rfl
        accumulatedText := by
          rw [hfalse]
          exact String.append_empty.symm
        announced := by rw [hfalse]; rfl
        accumulatedToolCalls := (List.append_nil _).symm
        inputTokens := rfl
        cachedTokens := rfl
        outputTokens := rfl }

theorem feed_textDeltas (deltas : List String) (t : BedrockStreamState) :
    BlockStep deltas [] t
      (t.feed (ν := ν) now order (deltas.map fun d => .contentBlockDelta i (.textDelta d))).1
      (t.feed (ν := ν) now order (deltas.map fun d => .contentBlockDelta i (.textDelta d))).2 := by
  induction deltas generalizing t with
  | nil =>
      exact BlockStep.of_quiet rfl rfl rfl rfl (List.append_nil _).symm ⟨rfl, rfl, rfl⟩
  | cons d deltas ih =>
      exact (textDelta_step now i t d).append (ih (t.blockDelta now i (.textDelta d)).2)

/-- The JSON of a tool use is appended to the arguments of its entry, the last one. -/
theorem feed_jsonDeltas (deltas : List String) (t : BedrockStreamState)
    {entries : List (Nat × PartialToolCall)} {call : PartialToolCall}
    (hcalls : t.accumulatedToolCalls = entries ++ [(i, call)]) (hnew : i ∉ entries.map Prod.fst) :
    t.feed (ν := ν) now order (deltas.map fun d => .contentBlockDelta i (.inputJsonDelta d))
      = (deltas.map fun d => .ok (.functionCallArgumentsDelta i d),
        { t with
          accumulatedToolCalls :=
            entries ++ [(i, { call with arguments := call.arguments ++ String.join deltas })] }) := by
  induction deltas generalizing t call with
  | nil =>
      rw [String.join_nil, String.append_empty, ← hcalls]
      rfl
  | cons d deltas ih =>
      have hfound : (t.accumulatedToolCalls.lookup i).isSome = true := by
        rw [hcalls, List.lookup_isSome_iff]
        exact ⟨(i, call), by simp, by simp⟩
      have hstep : t.handleEvent now order
          (.contentBlockDelta i (.inputJsonDelta d) : BedrockStreamEvent ν)
          = (.ok (.functionCallArgumentsDelta i d), { t with
              accumulatedToolCalls :=
                entries ++ [(i, { call with arguments := call.arguments ++ d })] }) := by
        rw [handleEvent, blockDelta, if_pos hfound, hcalls, amend_concat hnew]
      rw [List.map_cons, feed, hstep, ih _ rfl, String.join_cons, ← String.append_assoc]
      rfl

end Blocks

end BedrockStreamState

/-! ## Streams of an answer -/

/-- A content block as it is streamed. -/
inductive StreamedBlock (ν : Type) where
  | text (deltas : List String)
  | toolUse (id name : String) (input : ν) (deltas : List String)

namespace StreamedBlock

def texts : StreamedBlock ν → List String
  | text deltas => deltas
  | toolUse .. => []

/-- The entry of a tool use. -/
def entries (i : Nat) : StreamedBlock ν → List (Nat × PartialToolCall)
  | text _ => []
  | toolUse id name _ deltas => [(i, { id, name, arguments := String.join deltas })]

/-- The events of the `i`-th block. -/
def events (i : Nat) : StreamedBlock ν → List (BedrockStreamEvent ν)
  | text deltas =>
      .contentBlockStart i (.text "")
        :: (deltas.map fun d => .contentBlockDelta i (.textDelta d)) ++ [.contentBlockStop i]
  | toolUse id name input deltas =>
      .contentBlockStart i (.toolUse id name input)
        :: (deltas.map fun d => .contentBlockDelta i (.inputJsonDelta d)) ++ [.contentBlockStop i]

/-- A streamed block carries a block of an answer. The JSON of a tool use is any text that is
parsed to its input; without JSON, the input is the one that the block starts with. -/
def Carries (parseJson : String → Option ν) : StreamedBlock ν → BedrockContentBlock ν → Prop
  | text deltas, .text s => String.join deltas = s
  | toolUse id name input deltas, .toolUse id' name' input' =>
      id = id' ∧ name = name'
        ∧ (if String.join deltas = "" then input = input'
          else parseJson (String.join deltas) = some input')
  | _, _ => False

/-- The JSON of a tool use is the text that `serde_json::to_string` gives for its input. -/
def Written (toJson : ν → String) : StreamedBlock ν → BedrockContentBlock ν → Prop
  | toolUse _ _ _ deltas, .toolUse _ _ input => String.join deltas = toJson input
  | _, _ => True

end StreamedBlock

/-- The events of blocks that are numbered from `i` on. -/
def blockEvents (i : Nat) : List (StreamedBlock ν) → List (BedrockStreamEvent ν)
  | [] => []
  | b :: bs => b.events i ++ blockEvents (i + 1) bs

/-- The entries of blocks that are numbered from `i` on. -/
def blockEntries (i : Nat) : List (StreamedBlock ν) → List (Nat × PartialToolCall)
  | [] => []
  | b :: bs => b.entries i ++ blockEntries (i + 1) bs

/-- The events of a message. -/
def messageEvents (start : BedrockUsage) (bs : List (StreamedBlock ν)) (stopReason : Option String)
    (deltaUsage : Option BedrockDeltaUsage) : List (BedrockStreamEvent ν) :=
  .messageStart start :: blockEvents 0 bs ++ [.messageDelta stopReason deltaUsage, .messageStop]

/-- The events of a message are a well-formed stream of an answer. The start of the message
counts the prompt; the output is counted by the message delta, or by the start if the delta
does not. -/
structure StreamOf (parseJson : String → Option ν) (answer : BedrockClaudeResponse ν)
    (start : BedrockUsage) (bs : List (StreamedBlock ν)) (deltaUsage : Option BedrockDeltaUsage) :
    Prop where
  blocks : List.Forall₂ (StreamedBlock.Carries parseJson) bs answer.content
  inputTokens : start.totalInputTokens = answer.usage.totalInputTokens
  cacheReadTokens : start.cacheReadTokens = answer.usage.cacheReadTokens
  outputTokens : (deltaUsage.bind (·.outputTokens)).getD start.outputTokens
    = answer.usage.outputTokens

namespace BedrockStreamState

section Message

variable (now : Int) (order : HashOrder (Nat × PartialToolCall))

/-- A block gives its text and makes its entry. -/
theorem block_step (b : StreamedBlock ν) (i : Nat) (t : BedrockStreamState)
    (hnew : i ∉ t.accumulatedToolCalls.map Prod.fst) :
    BlockStep b.texts (b.entries i) t (t.feed now order (b.events i)).1
      (t.feed now order (b.events i)).2 := by
  have hstop : ∀ t : BedrockStreamState, BlockStep [] [] t
      (t.feed now order [(.contentBlockStop i : BedrockStreamEvent ν)]).1
      (t.feed now order [(.contentBlockStop i : BedrockStreamEvent ν)]).2 := by
    intro t
    exact BlockStep.of_quiet rfl rfl rfl rfl (List.append_nil _).symm ⟨rfl, rfl, rfl⟩
  cases b with
  | text deltas =>
      have hstart : BlockStep [] [] t [(t.startBlock (ν := ν) now i (.text "")).1]
          (t.startBlock (ν := ν) now i (.text "")).2 := by
        simp only [startBlock]
        split
        · exact BlockStep.of_quiet rfl rfl rfl rfl (List.append_nil _).symm ⟨rfl, rfl, rfl⟩
        · exact BlockStep.of_quiet rfl rfl rfl rfl (List.append_nil _).symm ⟨rfl, rfl, rfl⟩
      have hrow := (hstart.append (feed_textDeltas (ν := ν) now order i deltas _)).append (hstop _)
      rw [List.append_nil] at hrow
      rw [StreamedBlock.events, List.cons_append, feed, feed_append]
      exact hrow
  | toolUse id name input deltas =>
      have hstart : t.handleEvent now order (.contentBlockStart i (.toolUse id name input))
          = (t.inProgress now, { t with
              accumulatedToolCalls := t.accumulatedToolCalls ++ [(i, { id, name })] }) := by
        rw [handleEvent, startBlock, amend_of_not_mem hnew]
      have hjson := feed_jsonDeltas (ν := ν) now order i deltas
        { t with accumulatedToolCalls := t.accumulatedToolCalls ++ [(i, { id, name })] } rfl hnew
      have hdeltas : (deltas.map fun d : String =>
          (.ok (.functionCallArgumentsDelta i d) : StreamItem)).filterMap terminalResponse = []
          ∧ (deltas.map fun d : String =>
          (.ok (.functionCallArgumentsDelta i d) : StreamItem)).filterMap textDelta = [] := by
        constructor
        · simp [List.filterMap_map, terminalResponse]
        · simp [List.filterMap_map, textDelta]
      have hrow : BlockStep [] (StreamedBlock.entries i (.toolUse id name input deltas)) t
          (t.inProgress now :: deltas.map fun d => .ok (.functionCallArgumentsDelta i d))
          { t with
            accumulatedToolCalls :=
              t.accumulatedToolCalls ++ [(i, { id, name, arguments := String.join deltas })] } :=
        BlockStep.of_quiet hdeltas.1 hdeltas.2 rfl rfl rfl ⟨rfl, rfl, rfl⟩
      have hwhole := hrow.append (hstop _)
      rw [List.append_nil] at hwhole
      rw [StreamedBlock.events, List.cons_append, feed, feed_append, hstart, hjson,
        String.empty_append]
      exact hwhole

theorem mem_keys_entries {b : StreamedBlock ν} {i k : Nat}
    (h : k ∈ (b.entries i).map Prod.fst) : k = i := by
  cases b with
  | text deltas => cases h
  | toolUse id name input deltas => exact List.mem_singleton.mp h

/-- Blocks in a row; each is new. -/
theorem blocks_step (bs : List (StreamedBlock ν)) (i : Nat) (t : BedrockStreamState)
    (hnew : ∀ k ∈ t.accumulatedToolCalls.map Prod.fst, k < i) :
    BlockStep (bs.flatMap StreamedBlock.texts) (blockEntries i bs) t
      (t.feed now order (blockEvents i bs)).1 (t.feed now order (blockEvents i bs)).2 := by
  induction bs generalizing i t with
  | nil => exact BlockStep.of_quiet rfl rfl rfl rfl (List.append_nil _).symm ⟨rfl, rfl, rfl⟩
  | cons b bs ih =>
      have hblock := block_step now order b i t fun hmem => lt_irrefl i (hnew i hmem)
      have hkeys : ∀ k ∈ (t.feed now order (b.events i)).2.accumulatedToolCalls.map Prod.fst,
          k < i + 1 := by
        intro k hk
        rw [hblock.accumulatedToolCalls, List.map_append] at hk
        rcases List.mem_append.mp hk with hk | hk
        · exact Nat.lt_succ_of_lt (hnew k hk)
        · rw [mem_keys_entries hk]
          exact Nat.lt_succ_self i
      rw [List.flatMap_cons, blockEntries, blockEvents, feed_append]
      exact hblock.append (ih (i + 1) _ hkeys)

/-- Events that close nothing leave a stream open. -/
theorem feed_kept (evs : List (BedrockStreamEvent ν))
    (hevs : ∀ ev ∈ evs, ev.isMessageDelta = false) {t : BedrockStreamState} (h : t.Opened)
    (hdone : t.done = false) :
    (t.feed now order evs).2.Opened ∧ (t.feed now order evs).2.done = false := by
  induction evs generalizing t with
  | nil => exact ⟨h, hdone⟩
  | cons ev evs ih =>
      obtain ⟨hcreated, hprogress, hkept⟩ := handleEvent_kept now order t ev
      apply ih
      · exact fun ev' hev' => hevs ev' (List.mem_cons_of_mem ev hev')
      · exact ⟨hcreated.trans h.1, hprogress.trans h.2⟩
      · exact (hkept (hevs ev List.mem_cons_self)).trans hdone

end Message

end BedrockStreamState

theorem blockEvents_isMessageDelta (i : Nat) (bs : List (StreamedBlock ν)) :
    ∀ ev ∈ blockEvents i bs, ev.isMessageDelta = false := by
  induction bs generalizing i with
  | nil => exact fun ev hev => absurd hev List.not_mem_nil
  | cons b bs ih =>
      intro ev hev
      rcases List.mem_append.mp hev with hev | hev
      · cases b with
        | text deltas =>
            simp only [StreamedBlock.events, List.cons_append, List.mem_cons, List.mem_append,
              List.mem_map, List.not_mem_nil, or_false] at hev
            rcases hev with rfl | ⟨d, -, rfl⟩ | rfl
            · rfl
            · rfl
            · rfl
        | toolUse id name input deltas =>
            simp only [StreamedBlock.events, List.cons_append, List.mem_cons, List.mem_append,
              List.mem_map, List.not_mem_nil, or_false] at hev
            rcases hev with rfl | ⟨d, -, rfl⟩ | rfl
            · rfl
            · rfl
            · rfl
      · exact ih (i + 1) ev hev

/-- What the stream of a message gives: the state at its message delta, with which it is
closed if the stop reason completes it. -/
structure MessageStreamed (env : StreamEnv) (order : HashOrder (Nat × PartialToolCall))
    (start : BedrockUsage) (bs : List (StreamedBlock ν)) (stopReason : Option String)
    (deltaUsage : Option BedrockDeltaUsage) (t : BedrockStreamState) (given : List StreamItem) :
    Prop where
  terminal : given.filterMap terminalResponse
    = if BedrockStreamState.completes stopReason then [t.finalResponse env.now order] else []
  text : deltaText given = String.join ((bs.flatMap StreamedBlock.texts).drop 1)
  accumulatedText : t.accumulatedText = String.join ((bs.flatMap StreamedBlock.texts).drop 1)
  accumulatedToolCalls : t.accumulatedToolCalls = blockEntries 0 bs
  inputTokens : t.inputTokens = start.totalInputTokens
  cachedTokens : t.cachedTokens = start.cacheReadTokens
  outputTokens : t.outputTokens = (deltaUsage.bind (·.outputTokens)).getD 0

section Streamed

open BedrockStreamState

variable (env : StreamEnv) (order : HashOrder (Nat × PartialToolCall))
  (parse : List UInt8 → Option (BedrockStreamEvent ν))
  {source : List (Except String ResponseStream)} {start : BedrockUsage}
  {bs : List (StreamedBlock ν)} {stopReason : Option String} {deltaUsage : Option BedrockDeltaUsage}

theorem completeStream_eq (source : List (Except String ResponseStream)) :
    BedrockProvider.completeStream env order parse source
      = openingItems env "resp_bed_"
        ++ BedrockStreamState.unfold env.now order parse
          { model := env.model, responseId := "resp_bed_" ++ env.uuid, sentCreated := true
            sentInProgress := true } source := by
  rw [BedrockProvider.completeStream, unfold_of_poll env.now order parse (by rfl),
    unfold_of_poll env.now order parse (by rfl)]
  rfl

theorem exists_messageStreamed
    (hsource : source.map (readOutput parse)
      = (messageEvents start bs stopReason deltaUsage).map .event) :
    ∃ t, MessageStreamed env order start bs stopReason deltaUsage t
      (BedrockProvider.completeStream env order parse source) := by
  -- the outputs up to the message delta, and the last two
  rw [messageEvents, List.map_append] at hsource
  obtain ⟨outputs, last, rfl, houtputs, hlast⟩ := List.map_eq_append_iff.mp hsource
  obtain ⟨o, last, rfl, ho, hlast⟩ := List.map_eq_cons_iff.mp hlast
  obtain ⟨o', last, rfl, ho', hlast⟩ := List.map_eq_cons_iff.mp hlast
  obtain rfl := List.map_eq_nil_iff.mp hlast
  let t₀ : BedrockStreamState :=
    { model := env.model, responseId := "resp_bed_" ++ env.uuid, sentCreated := true
      sentInProgress := true }
  let t₁ : BedrockStreamState :=
    { t₀ with inputTokens := start.totalInputTokens, cachedTokens := start.cacheReadTokens }
  have hevs : ∀ ev ∈ .messageStart start :: blockEvents 0 bs, ev.isMessageDelta = false := by
    intro ev hev
    rcases List.mem_cons.mp hev with rfl | hev
    · rfl
    · exact blockEvents_isMessageDelta 0 bs ev hev
  have hfeed : t₀.feed env.now order (.messageStart start :: blockEvents 0 bs)
      = (t₀.inProgress env.now :: (t₁.feed env.now order (blockEvents 0 bs)).1,
        (t₁.feed env.now order (blockEvents 0 bs)).2) := rfl
  obtain ⟨hopened, hdone⟩ := feed_kept env.now order _ hevs (t := t₀) ⟨rfl, rfl⟩ rfl
  have hgiven := unfold_events env.now order parse _ houtputs hevs (t := t₀) ⟨rfl, rfl⟩ rfl [o, o']
  have hblocks := blocks_step env.now order bs 0 t₁ fun k hk => absurd hk List.not_mem_nil
  rw [hfeed] at hopened hdone hgiven
  revert hopened hdone hgiven hblocks
  generalize t₁.feed env.now order (blockEvents 0 bs) = row
  intro hopened hdone hgiven hblocks
  let t : BedrockStreamState :=
    { row.2 with outputTokens := (deltaUsage.bind (·.outputTokens)).getD row.2.outputTokens }
  have hopening : (openingItems env "resp_bed_").filterMap terminalResponse = []
      ∧ (openingItems env "resp_bed_").filterMap textDelta = [] := ⟨rfl, rfl⟩
  have hrest : (row.2.unfold env.now order parse [o, o']).filterMap terminalResponse
        = (if completes stopReason then [t.finalResponse env.now order] else [])
      ∧ (row.2.unfold env.now order parse [o, o']).filterMap textDelta = [] := by
    rw [unfold_cons env.now order parse hopened hdone, ho, accept, handleEvent]
    by_cases hcompletes : completes stopReason = true
    · rw [if_pos hcompletes, if_pos hcompletes, unfold_done env.now order parse rfl]
      exact ⟨rfl, rfl⟩
    · rw [if_neg hcompletes, if_neg hcompletes,
        unfold_cons env.now order parse (t := t) hopened hdone, ho', accept, handleEvent,
        unfold_nil env.now order parse (t := t) hopened]
      exact ⟨rfl, rfl⟩
  refine ⟨t, ?_, ?_, ?_, hblocks.accumulatedToolCalls, hblocks.inputTokens, hblocks.cachedTokens,
    congrArg (Option.getD _) hblocks.outputTokens⟩
  · rw [completeStream_eq, hgiven, List.filterMap_append, List.filterMap_append, hopening.1, hrest.1]
    exact congrArg (· ++ _) hblocks.terminal
  · rw [deltaText, completeStream_eq, hgiven, List.filterMap_append, List.filterMap_append,
      hopening.2, hrest.2, List.append_nil]
    exact congrArg String.join hblocks.text
  · exact hblocks.accumulatedText.trans String.empty_append

end Streamed

/-! ## Agreement -/

/-- What a stream gives agrees with the response to the whole answer: one terminal event, whose
response has its outcome and its usage, and text deltas that are its text. -/
def StreamAgrees (whole : Response) (given : List StreamItem) : Prop :=
  ∃ r, given.filterMap terminalResponse = [r] ∧ SameOutcome r whole ∧ r.usage = whole.usage
    ∧ deltaText given = whole.text

/-- What a streamed tool use says. -/
def StreamedBlock.fields? : StreamedBlock ν → Option (String × String × String)
  | .text _ => none
  | .toolUse id name _ deltas => some (id, name, String.join deltas)

/-- The answers and streams for which Bedrock agrees. -/
structure BedrockAgrees (toJson : ν → String) (answer : BedrockClaudeResponse ν)
    (bs : List (StreamedBlock ν)) (deltaUsage : Option BedrockDeltaUsage) : Prop where
  completes : answer.stopReason ∈ [some "end_turn", some "tool_use", some "stop_sequence"]
  leadingEmpty : ∀ s ∈ (bs.flatMap StreamedBlock.texts).take 1, s = ""
  callsAlike : ∀ a ∈ bs.filterMap StreamedBlock.fields?,
    ∀ b ∈ bs.filterMap StreamedBlock.fields?, a = b
  written : List.Forall₂ (StreamedBlock.Written toJson) bs answer.content
  outputCounted : (deltaUsage.bind (·.outputTokens)).getD 0 = answer.usage.outputTokens

section Carried

variable {parseJson : String → Option ν} {bs : List (StreamedBlock ν)}
  {content : List (BedrockContentBlock ν)}

/-- The text deltas of a stream are the text of the answer. -/
theorem texts_of_carries (h : List.Forall₂ (StreamedBlock.Carries parseJson) bs content) :
    String.join (bs.flatMap StreamedBlock.texts)
      = String.join (content.filterMap BedrockContentBlock.text?) := by
  induction h with
  | nil => rfl
  | @cons b c bs content hcarries _ ih =>
      rw [List.flatMap_cons, String.join_append, ih]
      cases b with
      | text deltas =>
          cases c with
          | text s =>
              rw [StreamedBlock.texts, show String.join deltas = s from hcarries]
              exact (String.join_cons ..).symm
          | image => cases hcarries
          | toolUse id name input => cases hcarries
          | toolResult => cases hcarries
      | toolUse id name input deltas =>
          cases c with
          | text s => cases hcarries
          | image => cases hcarries
          | toolUse id' name' input' => exact String.empty_append
          | toolResult => cases hcarries

/-- The streamed tool uses say what those of the answer say exactly when their JSON is the text
that is written for their inputs. -/
theorem fields_eq_iff (toJson : ν → String)
    (h : List.Forall₂ (StreamedBlock.Carries parseJson) bs content) :
    bs.filterMap StreamedBlock.fields? = content.filterMap (BedrockContentBlock.fields? toJson)
      ↔ List.Forall₂ (StreamedBlock.Written toJson) bs content := by
  induction h with
  | nil => exact iff_of_true rfl .nil
  | @cons b c bs content hcarries _ ih =>
      rw [List.forall₂_cons, ← ih]
      cases b with
      | text deltas =>
          cases c with
          | text s => exact (and_iff_right trivial).symm
          | image => cases hcarries
          | toolUse id name input => cases hcarries
          | toolResult => cases hcarries
      | toolUse id name input deltas =>
          cases c with
          | text s => cases hcarries
          | image => cases hcarries
          | toolUse id' name' input' =>
              obtain ⟨rfl, rfl, -⟩ := hcarries
              show (id, name, String.join deltas) :: bs.filterMap StreamedBlock.fields?
                = (id, name, toJson input') :: content.filterMap _ ↔ _
              rw [List.cons.injEq]
              simp [StreamedBlock.Written]
          | toolResult => cases hcarries

theorem map_fields_blockEntries (i : Nat) (bs : List (StreamedBlock ν)) :
    (blockEntries i bs).map (fun p => p.2.fields) = bs.filterMap StreamedBlock.fields? := by
  induction bs generalizing i with
  | nil => rfl
  | cons b bs ih =>
      rw [blockEntries, List.map_append, ih]
      cases b with
      | text deltas => rfl
      | toolUse id name input deltas => rfl

end Carried

theorem outputTokens_withCacheHits (u : Usage) (cachedTokens : Nat) :
    (u.withCacheHits cachedTokens).outputTokens = u.outputTokens := by
  rw [Usage.withCacheHits]
  split
  · rfl
  · rfl

/-- The stop reasons that complete a stream complete the whole answer. -/
theorem stopOutcome_of_mem {stopReason : Option String}
    (h : stopReason ∈ [some "end_turn", some "tool_use", some "stop_sequence"]) :
    stopOutcome stopReason = (.completed, none, none) := by
  simp only [List.mem_cons, List.not_mem_nil, or_false] at h
  rcases h with rfl | rfl | rfl
  · rfl
  · rfl
  · rfl

section Agreement

variable (env : StreamEnv) (parse : List UInt8 → Option (BedrockStreamEvent ν))
  {source : List (Except String ResponseStream)} {start : BedrockUsage}
  {bs : List (StreamedBlock ν)} {deltaUsage : Option BedrockDeltaUsage}
  {answer : BedrockClaudeResponse ν} {parseJson : String → Option ν} (toJson : ν → String)
  (uuid : String) (now : Int) (model : String)

/-- In one order of the map. -/
theorem streamAgrees_iff (order : HashOrder (Nat × PartialToolCall))
    (hstream : StreamOf parseJson answer start bs deltaUsage)
    (hsource : source.map (readOutput parse)
      = (messageEvents start bs answer.stopReason deltaUsage).map .event) :
    StreamAgrees (BedrockProvider.transformClaudeResponse toJson uuid now answer model)
        (BedrockProvider.completeStream env order parse source)
      ↔ answer.stopReason ∈ [some "end_turn", some "tool_use", some "stop_sequence"]
        ∧ (∀ s ∈ (bs.flatMap StreamedBlock.texts).take 1, s = "")
        ∧ (order.visit (blockEntries 0 bs)).map (fun p => p.2.fields)
          = answer.content.filterMap (BedrockContentBlock.fields? toJson)
        ∧ (deltaUsage.bind (·.outputTokens)).getD 0 = answer.usage.outputTokens := by
  obtain ⟨t, ht⟩ := exists_messageStreamed env order parse hsource
  let whole := BedrockProvider.transformClaudeResponse toJson uuid now answer model
  have hwholeText : whole.text = String.join (bs.flatMap StreamedBlock.texts) := by
    rw [texts_of_carries hstream.blocks]
    exact text_bedrockItems toJson 0 answer.content
  have hwholeCalls : emittedCalls whole
      = answer.content.filterMap (BedrockContentBlock.fields? toJson) :=
    callFields_bedrockItems toJson 0 answer.content
  have hfinalText : (t.finalResponse env.now order).text
      = String.join ((bs.flatMap StreamedBlock.texts).drop 1) := by
    rw [← ht.accumulatedText]
    exact text_finalOutput order t.accumulatedText t.accumulatedToolCalls
  have hfinalCalls : emittedCalls (t.finalResponse env.now order)
      = (order.visit (blockEntries 0 bs)).map fun p => p.2.fields := by
    rw [← ht.accumulatedToolCalls]
    exact callFields_finalOutput order t.accumulatedText t.accumulatedToolCalls
  have husage : (t.finalResponse env.now order).usage = whole.usage
      ↔ (deltaUsage.bind (·.outputTokens)).getD 0 = answer.usage.outputTokens := by
    have hfinal : (t.finalResponse env.now order).usage
        = some ((Usage.new answer.usage.totalInputTokens t.outputTokens).withCacheHits
            answer.usage.cacheReadTokens) := by
      rw [← hstream.inputTokens, ← hstream.cacheReadTokens, ← ht.inputTokens, ← ht.cachedTokens]
      rfl
    have hwhole : whole.usage
        = some ((Usage.new answer.usage.totalInputTokens answer.usage.outputTokens).withCacheHits
            answer.usage.cacheReadTokens) := rfl
    rw [hfinal, hwhole, ← ht.outputTokens]
    constructor
    · intro heq
      have houtput := congrArg Usage.outputTokens (Option.some.inj heq)
      rw [outputTokens_withCacheHits, outputTokens_withCacheHits] at houtput
      exact houtput
    · intro heq
      rw [heq]
  rw [← join_drop_eq_iff, ← hwholeText, ← hwholeCalls, ← hfinalCalls, ← husage]
  constructor
  · rintro ⟨r, hr, hsame, hsameUsage, hdeltas⟩
    rw [ht.terminal] at hr
    have hcompletes : BedrockStreamState.completes answer.stopReason = true := by
      by_contra hnot
      rw [if_neg hnot] at hr
      cases hr
    rw [if_pos hcompletes] at hr
    rw [← List.singleton_inj.mp hr] at hsame hsameUsage
    exact ⟨of_decide_eq_true hcompletes, ht.text.symm.trans hdeltas, hsame.calls, hsameUsage⟩
  · rintro ⟨hcompletes, htext, hcalls, hsameUsage⟩
    have houtcome := stopOutcome_of_mem hcompletes
    refine ⟨t.finalResponse env.now order, ?_, ?_, hsameUsage, ht.text.trans htext⟩
    · rw [ht.terminal]
      exact if_pos (decide_eq_true hcompletes)
    · exact
        { status := (congrArg Prod.fst houtcome).symm
          incompleteReason := (congrArg (·.2.1) houtcome).symm
          text := hfinalText.trans htext
          calls := hcalls }

/-- What a well-formed stream of an answer gives agrees with the response to the whole answer,
in whatever order the map of the tool calls is visited, exactly when the stop reason is one of
three, the first text delta is empty, all tool calls are alike, their JSON is written as the
library writes it, and the message delta counts the output. -/
theorem bedrock_stream_agrees_iff (hstream : StreamOf parseJson answer start bs deltaUsage)
    (hsource : source.map (readOutput parse)
      = (messageEvents start bs answer.stopReason deltaUsage).map .event) :
    (∀ order, StreamAgrees (BedrockProvider.transformClaudeResponse toJson uuid now answer model)
        (BedrockProvider.completeStream env order parse source))
      ↔ BedrockAgrees toJson answer bs deltaUsage := by
  have hcalls := map_visit_iff (fun p : Nat × PartialToolCall => p.2.fields) (blockEntries 0 bs)
    (answer.content.filterMap (BedrockContentBlock.fields? toJson))
  rw [map_fields_blockEntries, fields_eq_iff toJson hstream.blocks] at hcalls
  have halike : (∀ a ∈ blockEntries 0 bs, ∀ b ∈ blockEntries 0 bs, a.2.fields = b.2.fields)
      ↔ ∀ a ∈ bs.filterMap StreamedBlock.fields?, ∀ b ∈ bs.filterMap StreamedBlock.fields?,
        a = b := by
    rw [← map_fields_blockEntries 0]
    simp only [List.forall_mem_map]
  rw [forall_congr' fun order =>
    streamAgrees_iff env parse toJson uuid now model order hstream hsource]
  constructor
  · intro hall
    obtain ⟨hcompletes, hleading, -, houtput⟩ := hall .forward
    obtain ⟨hsame, hwritten⟩ := hcalls.mp fun order => (hall order).2.2.1
    exact ⟨hcompletes, hleading, halike.mp hsame, hwritten, houtput⟩
  · intro h order
    exact ⟨h.completes, h.leadingEmpty, hcalls.mpr ⟨halike.mpr h.callsAlike, h.written⟩ order,
      h.outputCounted⟩

end Agreement

/-! ### An answer of one word -/

/-- An answer of one word that stops for a reason; a value is its text. -/
def oneWordAnswer (stopReason : String) : BedrockClaudeResponse String where
  content := [.text "Hi"]
  stopReason := some stopReason
  usage := ⟨10, 2, none, some 4⟩

def oneWordStart : BedrockUsage := ⟨10, 1, none, some 4⟩

def oneWordBlocks : List (StreamedBlock String) := [.text ["", "Hi"]]

/-- The payloads of its stream. -/
def oneWordPayloads (stopReason : String) : List String :=
  ["\x7b\"type\":\"message_start\",\"message\":\x7b\"usage\":\x7b\"input_tokens\":10,"
      ++ "\"output_tokens\":1,\"cache_read_input_tokens\":4\x7d\x7d\x7d",
    "\x7b\"type\":\"content_block_start\",\"index\":0,\"content_block\":"
      ++ "\x7b\"type\":\"text\",\"text\":\"\"\x7d\x7d",
    "\x7b\"type\":\"content_block_delta\",\"index\":0,\"delta\":"
      ++ "\x7b\"type\":\"text_delta\",\"text\":\"\"\x7d\x7d",
    "\x7b\"type\":\"content_block_delta\",\"index\":0,\"delta\":"
      ++ "\x7b\"type\":\"text_delta\",\"text\":\"Hi\"\x7d\x7d",
    "\x7b\"type\":\"content_block_stop\",\"index\":0\x7d",
    "\x7b\"type\":\"message_delta\",\"delta\":\x7b\"stop_reason\":\"" ++ stopReason
      ++ "\"\x7d,\"usage\":\x7b\"output_tokens\":2\x7d\x7d",
    "\x7b\"type\":\"message_stop\"\x7d"]

/-- Payloads with the events they parse to. -/
def oneWordSent (stopReason : String) : List (List UInt8 × BedrockStreamEvent String) :=
  ((oneWordPayloads stopReason).map fun p => p.toList.flatMap String.utf8EncodeChar).zip
    (messageEvents oneWordStart oneWordBlocks (some stopReason) (some ⟨some 2⟩))

def oneWordSource (stopReason : String) : List (Except String ResponseStream) :=
  (oneWordSent stopReason).map fun q => .ok (.chunk (some q.1))

/-- A parser that knows the payloads that were sent. -/
def parseOneWord (stopReason : String) (bytes : List UInt8) :
    Option (BedrockStreamEvent String) :=
  (oneWordSent stopReason).lookup bytes

/-- The payloads tell the events apart. -/
theorem oneWord_distinct (stopReason : String) :
    ((oneWordSent stopReason).map Prod.fst).Nodup := by
  have htexts : List.Forall₂ (fun p cs => p = String.ofList cs) (oneWordPayloads stopReason) _ :=
    .cons (append_eq_ofList rfl rfl) (.cons (append_eq_ofList rfl rfl)
      (.cons (append_eq_ofList rfl rfl) (.cons (append_eq_ofList rfl rfl)
      (.cons rfl (.cons (append_eq_ofList (append_eq_ofList rfl String.ofList_toList.symm) rfl)
      (.cons rfl .nil))))))
  have hbytes : (oneWordSent stopReason).map Prod.fst
      = (oneWordPayloads stopReason).map fun p => p.toList.flatMap String.utf8EncodeChar := rfl
  rw [hbytes, eq_map_ofList htexts, List.map_map]
  refine List.Nodup.map (fun s t heq => ?_) (by simp)
  simp only [Function.comp_apply, String.toList_ofList] at heq
  -- the bytes are decoded to the characters they were encoded from
  have hdecoded := (RustStd.fromUtf8_encode s).symm.trans
    ((congrArg RustStd.fromUtf8 heq).trans (RustStd.fromUtf8_encode t))
  exact Except.ok.inj hdecoded

theorem oneWord_read (stopReason : String) :
    (oneWordSource stopReason).map (readOutput (parseOneWord stopReason))
      = (messageEvents oneWordStart oneWordBlocks (some stopReason) (some ⟨some 2⟩)).map .event := by
  have hevents : (oneWordSent stopReason).map Prod.snd
      = messageEvents oneWordStart oneWordBlocks (some stopReason) (some ⟨some 2⟩) := rfl
  rw [oneWordSource, List.map_map, ← hevents, List.map_map]
  refine List.map_congr_left fun q hq => ?_
  have hparse : parseOneWord stopReason q.1 = some q.2 :=
    lookup_of_nodup (oneWord_distinct stopReason) hq
  simp only [Function.comp_apply, readOutput, Option.getD_some, hparse]

theorem oneWord_stream (stopReason : String) :
    StreamOf some (oneWordAnswer stopReason) oneWordStart oneWordBlocks
      (some ⟨some 2⟩) where
  blocks := .cons rfl .nil
  inputTokens := rfl
  cacheReadTokens := rfl
  outputTokens := rfl

/-- The stream of an answer that was cut at the token limit has no terminal event. -/
theorem bedrock_cut_disagrees :
    StreamOf some (oneWordAnswer "max_tokens") oneWordStart oneWordBlocks
        (some ⟨some 2⟩)
      ∧ (oneWordSource "max_tokens").map (readOutput (parseOneWord "max_tokens"))
        = (messageEvents oneWordStart oneWordBlocks (some "max_tokens") (some ⟨some 2⟩)).map .event
      ∧ ∀ order, ¬ StreamAgrees
          (BedrockProvider.transformClaudeResponse id "1" 0 (oneWordAnswer "max_tokens") "claude")
          (BedrockProvider.completeStream ⟨"claude", "1", 0⟩ order (parseOneWord "max_tokens")
            (oneWordSource "max_tokens")) := by
  have hread := oneWord_read "max_tokens"
  refine ⟨oneWord_stream "max_tokens", hread, fun order h => ?_⟩
  have hagrees := (streamAgrees_iff _ _ id "1" 0 "claude" order (oneWord_stream "max_tokens")
    hread).mp h
  exact absurd hagrees.1 (by decide)

theorem bedrock_stream_agrees_sample :
    BedrockAgrees id (oneWordAnswer "end_turn") oneWordBlocks (some ⟨some 2⟩)
      ∧ ∀ order, StreamAgrees
          (BedrockProvider.transformClaudeResponse id "1" 0 (oneWordAnswer "end_turn") "claude")
          (BedrockProvider.completeStream ⟨"claude", "1", 0⟩ order (parseOneWord "end_turn")
            (oneWordSource "end_turn")) := by
  have hagrees : BedrockAgrees id (oneWordAnswer "end_turn") oneWordBlocks (some ⟨some 2⟩) :=
    { completes := by decide
      leadingEmpty := by decide
      callsAlike := by decide
      written := .cons trivial .nil
      outputCounted := rfl }
  refine ⟨hagrees, ?_⟩
  exact (bedrock_stream_agrees_iff _ _ id "1" 0 "claude" (oneWord_stream "end_turn")
    (oneWord_read "end_turn")).mpr hagrees

end AuraGateway.Provider
