import AuraGateway.Sdk.Streaming

/-!
# Delivery of stream events

What the two SDKs yield for the events that the gateway writes, whatever the chunks they
arrive in. Names that neither lists, two of the four terminal events among them, are never
delivered (`parseSSE_events`, `parseSseStream_events`). All events arrive with all their
data if and only if each is of a listed kind, uses only what the Python models declare, and
has only numbers that JavaScript reads as they are (`sdks_deliver_iff`).
-/

set_option autoImplicit false

namespace AuraGateway.Sdk

open AuraGateway.Types AuraGateway.Foundations.Framing

/-! ## Numbers in JavaScript -/

mutual

/-- A value with its numbers read as doubles. -/
def asDoubles (double : String → String) : Json → Json
  | .number text => .number (double text)
  | .array items => .array (asDoublesItems double items)
  | .object fields => .object (asDoublesFields double fields)
  | j => j

def asDoublesItems (double : String → String) : List Json → List Json
  | [] => []
  | j :: items => asDoubles double j :: asDoublesItems double items

def asDoublesFields (double : String → String) : List (String × Json) → List (String × Json)
  | [] => []
  | (name, j) :: fields => (name, asDoubles double j) :: asDoublesFields double fields

end

mutual

/-- The numbers of a value. -/
def numbers : Json → List String
  | .number text => [text]
  | .array items => numbersItems items
  | .object fields => numbersFields fields
  | _ => []

def numbersItems : List Json → List String
  | [] => []
  | j :: items => numbers j ++ numbersItems items

def numbersFields : List (String × Json) → List String
  | [] => []
  | (_, j) :: fields => numbers j ++ numbersFields fields

end

mutual

/-- A value is read as it is if and only if each of its numbers is. -/
theorem asDoubles_eq_self_iff (double : String → String) :
    ∀ j, asDoubles double j = j ↔ ∀ text ∈ numbers j, double text = text
  | .null => by simp [asDoubles, numbers]
  | .bool b => by simp [asDoubles, numbers]
  | .number text => by simp [asDoubles, numbers]
  | .string s => by simp [asDoubles, numbers]
  | .array items => by
      simpa [asDoubles, numbers] using asDoublesItems_eq_self_iff double items
  | .object fields => by
      simpa [asDoubles, numbers] using asDoublesFields_eq_self_iff double fields

theorem asDoublesItems_eq_self_iff (double : String → String) :
    ∀ items, asDoublesItems double items = items ↔
      ∀ text ∈ numbersItems items, double text = text
  | [] => by simp [asDoublesItems, numbersItems]
  | j :: items => by
      rw [asDoublesItems, numbersItems, List.cons_eq_cons, List.forall_mem_append,
        asDoubles_eq_self_iff double j, asDoublesItems_eq_self_iff double items]

theorem asDoublesFields_eq_self_iff (double : String → String) :
    ∀ fields, asDoublesFields double fields = fields ↔
      ∀ text ∈ numbersFields fields, double text = text
  | [] => by simp [asDoublesFields, numbersFields]
  | (name, j) :: fields => by
      rw [asDoublesFields, numbersFields, List.cons_eq_cons, List.forall_mem_append, Prod.mk.injEq,
        asDoubles_eq_self_iff double j, asDoublesFields_eq_self_iff double fields]
      simp

end

/-! ## Reading a frame back -/

/-- What the SDKs rely on for one value: its text is one line in braces, Python reads it
back, and JavaScript reads it back with its numbers as doubles. -/
structure JsonText.Faithful (c : JsonText) (j : Json) : Prop where
  braces : ∃ inner, (c.write j).toList = '{' :: inner ++ ['}']
  oneLine : '\n' ∉ (c.write j).toList
  jsonParse : c.jsonParse (c.write j) = some (asDoubles c.double j)
  jsonLoads : c.jsonLoads (c.write j) = some j

/-- Nothing is trimmed from a text that neither starts nor ends with a space. -/
theorem trimBy_cons_space {isSpace : Char → Bool} (hspace : isSpace ' ' = true) {t : List Char}
    (hne : t ≠ []) (hhead : isSpace (t.head hne) = false) (hlast : isSpace (t.getLast hne) = false) :
    trimBy isSpace (' ' :: t) = t := by
  have hdrop : (' ' :: t).dropWhile isSpace = t := by
    obtain ⟨a, rest, rfl⟩ := List.exists_cons_of_ne_nil hne
    rw [List.dropWhile_cons_of_pos hspace, List.dropWhile_cons_of_neg]
    simpa using hhead
  rw [trimBy, hdrop, List.rdropWhile_eq_self_iff]
  intro _
  simpa using hlast

/-- The characters of event names and the braces of JSON are no spaces in either language. -/
structure SpaceTest (isSpace : Char → Bool) : Prop where
  space : isSpace ' ' = true
  opening : isSpace '{' = false
  closing : isSpace '}' = false
  name : ∀ c : Char, c.isAlpha = true ∨ c = '.' ∨ c = '_' → isSpace c = false

theorem spaceTest_js : SpaceTest isJsSpace where
  space := by decide
  opening := by decide
  closing := by decide
  name c hc := by
    obtain ⟨hlo, hhi⟩ := toNat_of_name hc
    simp [isJsSpace]
    omega

theorem spaceTest_py : SpaceTest isPySpace where
  space := by decide
  opening := by decide
  closing := by decide
  name c hc := by
    obtain ⟨hlo, hhi⟩ := toNat_of_name hc
    simp [isPySpace]
    omega

/-- The line with the name of an event. -/
def eventLine (name : String) : List Char :=
  ['e', 'v', 'e', 'n', 't', ':', ' '] ++ name.toList

/-- The line with its data. -/
def dataLine (floats : FloatJson) (c : JsonText) (e : StreamEvent) : List Char :=
  ['d', 'a', 't', 'a', ':', ' '] ++ (c.write (e.json floats)).toList

/-- A frame without the empty line that closes it. -/
def frame (floats : FloatJson) (c : JsonText) (e : StreamEvent) : List Char :=
  eventLine e.eventType ++ '\n' :: dataLine floats c e

variable {c : JsonText} {p : Pydantic} {floats : FloatJson} {e : StreamEvent}

theorem toList_toSse (e : StreamEvent) :
    (e.toSse floats c.write).toList = frame floats c e ++ separator := by
  simp [StreamEvent.toSse, frame, eventLine, dataLine, separator]

theorem newline_not_mem_eventLine (e : StreamEvent) : '\n' ∉ eventLine e.eventType := by
  have hname : '\n' ∉ e.eventType.toList := by
    intro h
    rcases e.eventType_chars.2 _ h with h | h | h <;> exact absurd h (by decide)
  simp [eventLine, hname]

theorem newline_not_mem_dataLine (h : c.Faithful (e.json floats)) : '\n' ∉ dataLine floats c e := by
  simp [dataLine, h.oneLine]

theorem framed_frame (h : c.Faithful (e.json floats)) : Framed separator (frame floats c e) := by
  have hne : dataLine floats c e ≠ [] := by
    simp [dataLine]
  exact framed_two_lines (newline_not_mem_eventLine e) (newline_not_mem_dataLine h) hne

theorem trimBy_eventType {isSpace : Char → Bool} (hspace : SpaceTest isSpace) (e : StreamEvent) :
    trimBy isSpace (' ' :: e.eventType.toList) = e.eventType.toList := by
  obtain ⟨hne, hchars⟩ := e.eventType_chars
  have hne : e.eventType.toList ≠ [] := by simpa using hne
  exact trimBy_cons_space hspace.space hne (hspace.name _ (hchars _ (List.head_mem hne)))
    (hspace.name _ (hchars _ (List.getLast_mem hne)))

theorem trimBy_json {isSpace : Char → Bool} (hspace : SpaceTest isSpace)
    (h : c.Faithful (e.json floats)) :
    trimBy isSpace (' ' :: (c.write (e.json floats)).toList) = (c.write (e.json floats)).toList := by
  obtain ⟨inner, hbraces⟩ := h.braces
  rw [hbraces]
  apply trimBy_cons_space hspace.space (by simp)
  · exact hspace.opening
  · simpa using hspace.closing

theorem readLine_eventLine {isSpace : Char → Bool} (hspace : SpaceTest isSpace) (b : Block) :
    readLine isSpace b (eventLine e.eventType) = { b with event := some e.eventType.toList } := by
  have hsplit : eventLine e.eventType = "event:".toList ++ ' ' :: e.eventType.toList := by simp [eventLine]
  have hlen : "event:".toList.length = 6 := by simp
  rw [readLine, hsplit, if_pos (List.prefix_append _ _), List.drop_left' hlen,
    trimBy_eventType hspace]

theorem readLine_dataLine {isSpace : Char → Bool} (hspace : SpaceTest isSpace) (b : Block)
    (h : c.Faithful (e.json floats)) :
    readLine isSpace b (dataLine floats c e)
      = { b with data := b.data ++ [(c.write (e.json floats)).toList] } := by
  have hsplit : dataLine floats c e = "data:".toList ++ ' ' :: (c.write (e.json floats)).toList := by
    simp [dataLine]
  have hlen : "data:".toList.length = 5 := by simp
  have hevent : ¬ "event:".toList <+: "data:".toList ++ ' ' :: (c.write (e.json floats)).toList := by
    simp
  rw [readLine, hsplit, if_neg hevent, if_pos (List.prefix_append _ _), List.drop_left' hlen,
    trimBy_json hspace h]

/-- Both SDKs read the name and the data of a frame. -/
theorem readBlock_frame {isSpace : Char → Bool} (hspace : SpaceTest isSpace)
    (h : c.Faithful (e.json floats)) :
    readBlock isSpace (frame floats c e)
      = { event := some e.eventType.toList, data := [(c.write (e.json floats)).toList] } := by
  rw [readBlock, frame, List.splitOn_append_cons_self_of_not_mem (newline_not_mem_eventLine e),
    List.splitOn_eq_singleton (newline_not_mem_dataLine h), List.foldl_cons, List.foldl_cons,
    List.foldl_nil, readLine_eventLine hspace, readLine_dataLine hspace _ h, List.nil_append]

/-! ## Both SDKs over a stream -/

/-- The text the gateway writes. -/
def sseText (floats : FloatJson) (c : JsonText) (events : List StreamEvent) : List Char :=
  events.flatMap fun e => (e.toSse floats c.write).toList

theorem dataStr_frame (t : String) :
    ({ event := some e.eventType.toList, data := [t.toList] } : Block).dataStr = t := by
  simp [Block.dataStr]

theorem write_ne_done (h : c.Faithful (e.json floats)) : c.write (e.json floats) ≠ "[DONE]" := by
  intro heq
  obtain ⟨inner, hbraces⟩ := h.braces
  rw [heq] at hbraces
  simp at hbraces

/-- TypeScript hands on the data of the events it lists. -/
theorem parseSSEChunk_frame (h : c.Faithful (e.json floats)) :
    parseSSEChunk c (frame floats c e)
      = if e.eventType ∈ streamEventTypes then some (asDoubles c.double (e.json floats))
        else none := by
  simp [parseSSEChunk, readBlock_frame spaceTest_js h, dataStr_frame, write_ne_done h, h.jsonParse]

/-- Python validates the data of the events its map has. -/
theorem parseSseEvent_frame (h : c.Faithful (e.json floats)) :
    parseSseEvent c p (frame floats c e)
      = .ok (((Python.eventMap p).lookup e.eventType).bind fun eventClass =>
          (eventClass.validate (e.json floats)).map fun fields => { cls := e.eventType, fields }) := by
  simp [parseSseEvent, readBlock_frame spaceTest_py h, dataStr_frame, write_ne_done h, h.jsonLoads,
    parseEventData, e.eventType_chars.1]

variable {events : List StreamEvent} {chunks : List (List Char)}

/-- Every frame is cut off once, wherever the chunks end. -/
theorem feed_chunks (h : ∀ e ∈ events, c.Faithful (e.json floats))
    (hchunks : chunks.flatten = sseText floats c events) :
    feed separator separator_ne_nil [] chunks = (events.map (frame floats c), []) := by
  have htext : sseText floats c events
      = (events.map (frame floats c)).flatMap fun f => f ++ separator := by
    simp [sseText, toList_toSse, List.flatMap_map]
  rw [feed_eq_drain rfl, List.nil_append, hchunks, htext]
  apply drain_frames
  intro f hf
  obtain ⟨e, he, rfl⟩ := List.mem_map.mp hf
  exact framed_frame (h e he)

/-- What TypeScript yields: the data of the events it lists, and nothing of the others. -/
theorem parseSSE_events (h : ∀ e ∈ events, c.Faithful (e.json floats))
    (hchunks : chunks.flatten = sseText floats c events) :
    parseSSE c chunks []
      = events.filterMap fun e =>
          if e.eventType ∈ streamEventTypes then some (asDoubles c.double (e.json floats))
          else none := by
  have htail : trimBy isJsSpace ([] ++ []) = [] := rfl
  rw [parseSSE, feed_chunks h hchunks, htail, if_pos rfl, List.append_nil, List.filterMap_map]
  apply List.filterMap_congr
  intro e he
  exact parseSSEChunk_frame (h e he)

/-- What Python yields: the events of its map that their models accept, as the models read
them. No exception is raised. -/
theorem parseSseStream_events (h : ∀ e ∈ events, c.Faithful (e.json floats))
    (hchunks : chunks.flatten = sseText floats c events) :
    parseSseStream c p chunks
      = (events.filterMap fun e =>
          ((Python.eventMap p).lookup e.eventType).bind fun eventClass =>
            (eventClass.validate (e.json floats)).map fun fields => { cls := e.eventType, fields },
          none) := by
  rw [parseSseStream, feed_chunks h hchunks]
  clear hchunks
  induction events with
  | nil => rfl
  | cons e events ih =>
      rw [List.map_cons, parseBlocks, parseSseEvent_frame (h e (List.mem_cons_self ..)),
        ih fun e' he' => h e' (List.mem_cons_of_mem e he'), List.filterMap_cons]
      cases ((Python.eventMap p).lookup e.eventType).bind fun eventClass =>
        (eventClass.validate (e.json floats)).map fun fields =>
          ({ cls := e.eventType, fields } : PyEvent) <;> rfl

/-- A selection keeps everything if and only if nothing is left out or changed. -/
theorem filterMap_eq_map_iff {α β : Type} {f : α → Option β} {g : α → β} {l : List α} :
    l.filterMap f = l.map g ↔ ∀ a ∈ l, f a = some (g a) := by
  induction l with
  | nil => simp
  | cons a l ih =>
      rw [List.forall_mem_cons, ← ih]
      cases ha : f a with
      | none =>
          rw [List.filterMap_cons_none ha]
          refine ⟨?_, ?_⟩
          · intro heq
            have hlen := List.length_filterMap_le f l
            rw [heq] at hlen
            simp at hlen
          · rintro ⟨hnone, -⟩
            cases hnone
      | some b =>
          rw [List.filterMap_cons_some ha, List.map_cons, List.cons_eq_cons, Option.some.injEq]

theorem listed_of_declared (h : EventDeclared p e) : e.eventType ∈ streamEventTypes := by
  cases e <;> simp [EventDeclared, StreamEvent.eventType, streamEventTypes] at h ⊢

theorem parseSSE_eq_map_iff (h : ∀ e ∈ events, c.Faithful (e.json floats))
    (hchunks : chunks.flatten = sseText floats c events) :
    parseSSE c chunks [] = events.map (fun e => e.json floats) ↔
      ∀ e ∈ events, e.eventType ∈ streamEventTypes ∧
        ∀ text ∈ numbers (e.json floats), c.double text = text := by
  rw [parseSSE_events h hchunks, filterMap_eq_map_iff]
  apply forall₂_congr
  intro e _
  by_cases hlisted : e.eventType ∈ streamEventTypes
  · simp [hlisted, asDoubles_eq_self_iff]
  · simp [hlisted]

theorem parseSseStream_eq_map_iff (h : ∀ e ∈ events, c.Faithful (e.json floats))
    (hchunks : chunks.flatten = sseText floats c events) :
    parseSseStream c p chunks
        = (events.map fun e => { cls := e.eventType, fields := e.json floats }, none) ↔
      ∀ e ∈ events, EventDeclared p e := by
  rw [parseSseStream_events h hchunks, Prod.mk.injEq, filterMap_eq_map_iff, and_iff_left rfl]
  apply forall₂_congr
  intro e _
  -- a model keeps the data as it is if and only if it declares all of it
  rw [← declares_event_iff p floats e, Option.bind_eq_some_iff]
  apply exists_congr
  intro t
  simp [← t.keeps_iff]

/-- For every sequence of events and every split of its text into chunks: both SDKs yield
exactly these events with their data if and only if each of them is one that the Python
models declare in full, and its numbers are ones that JavaScript reads as they are. -/
theorem sdks_deliver_iff (c : JsonText) (p : Pydantic) (floats : FloatJson)
    (events : List StreamEvent) (h : ∀ e ∈ events, c.Faithful (e.json floats))
    (tsChunks pyChunks : List (List Char)) (hts : tsChunks.flatten = sseText floats c events)
    (hpy : pyChunks.flatten = sseText floats c events) :
    (parseSSE c tsChunks [] = events.map (fun e => e.json floats) ∧
      parseSseStream c p pyChunks
        = (events.map fun e => { cls := e.eventType, fields := e.json floats }, none)) ↔
      ∀ e ∈ events, EventDeclared p e ∧ ∀ text ∈ numbers (e.json floats), c.double text = text := by
  rw [parseSSE_eq_map_iff h hts, parseSseStream_eq_map_iff h hpy]
  constructor
  · rintro ⟨hlisted, hdeclared⟩ e he
    exact ⟨hdeclared e he, (hlisted e he).2⟩
  · intro hall
    refine ⟨?_, fun e he => (hall e he).1⟩
    intro e he
    exact ⟨listed_of_declared (hall e he).1, (hall e he).2⟩

namespace Sample

/-- The conversions play no part in the events below. -/
def pydantic : Pydantic where
  toInt _ := none
  toFloat _ := none
  untagged _ := none
  isInt_toInt _ _ h := by cases h
  isNumber_toFloat _ _ h := by cases h

def noFloats : FloatJson where
  f64 _ := .null
  f32 _ := .null
  f64_number _ := Or.inl rfl
  f32_number _ := Or.inl rfl

/-- The JSON functions on one object, by the text between its braces. -/
def jsonText (inner : String) (j : Json) : JsonText where
  write _ := "\x7b" ++ inner ++ "\x7d"
  jsonParse s := if s = "\x7b" ++ inner ++ "\x7d" then some j else none
  jsonLoads s := if s = "\x7b" ++ inner ++ "\x7d" then some j else none
  double n := n

theorem faithful (inner : String) (j : Json) (hline : '\n' ∉ inner.toList) :
    (jsonText inner j).Faithful j where
  braces := ⟨inner.toList, by simp [jsonText]⟩
  oneLine := by simp [jsonText, hline]
  jsonParse := by
    have hself : asDoubles (fun n => n) j = j := (asDoubles_eq_self_iff _ j).mpr fun _ _ => rfl
    simp [jsonText, hself]
  jsonLoads := by simp [jsonText]

def delta : StreamEvent := .outputTextDelta 0 0 "Hi"

def deltaJson : JsonText :=
  jsonText
    "\"type\":\"response.output_text.delta\",\"output_index\":0,\"content_index\":0,\"delta\":\"Hi\""
    (delta.json noFloats)

def incomplete : StreamEvent :=
  .responseIncomplete
    { id := "r", object := "response", createdAt := 0, model := "m", status := .incomplete,
      output := [], usage := none, error := none, incompleteReason := none,
      previousResponseId := none, metadata := none, validation := none, consistency := none }

def incompleteJson : JsonText :=
  jsonText
    "\"type\":\"response.incomplete\",\"response\":\x7b\"id\":\"r\",\"object\":\"response\",\"created_at\":0,\"model\":\"m\",\"status\":\"incomplete\",\"output\":[]\x7d"
    (incomplete.json noFloats)

theorem faithful_delta : ∀ e ∈ [delta], deltaJson.Faithful (e.json noFloats) := by
  intro e he
  rw [List.mem_singleton.mp he]
  apply faithful
  exact not_mem_toList rfl (by decide)

set_option maxRecDepth 1500 in
theorem faithful_incomplete : ∀ e ∈ [incomplete], incompleteJson.Faithful (e.json noFloats) := by
  intro e he
  rw [List.mem_singleton.mp he]
  apply faithful
  exact not_mem_toList rfl (by decide)

/-- A text that arrives in two chunks. -/
def twoChunks (text : List Char) : List (List Char) := [text.take 9, text.drop 9]

theorem flatten_twoChunks (text : List Char) : (twoChunks text).flatten = text := by
  simp [twoChunks]

end Sample

/-- A text delta arrives in both SDKs, here in one chunk and in two. -/
theorem sdks_deliver_sample :
    parseSSE Sample.deltaJson [sseText Sample.noFloats Sample.deltaJson [Sample.delta]] []
        = [Sample.delta.json Sample.noFloats] ∧
      parseSseStream Sample.deltaJson Sample.pydantic
          (Sample.twoChunks (sseText Sample.noFloats Sample.deltaJson [Sample.delta]))
        = ([{ cls := "response.output_text.delta", fields := Sample.delta.json Sample.noFloats }],
            none) := by
  refine (sdks_deliver_iff Sample.deltaJson Sample.pydantic Sample.noFloats [Sample.delta]
    Sample.faithful_delta _ _ (by simp) (Sample.flatten_twoChunks _)).mpr ?_
  intro e he
  rw [List.mem_singleton.mp he]
  exact ⟨trivial, fun _ _ => rfl⟩

/-- The terminal event of a response that was cut short arrives in neither SDK. -/
theorem incomplete_not_delivered :
    Sample.incomplete.isTerminal = true ∧
      parseSSE Sample.incompleteJson
          [sseText Sample.noFloats Sample.incompleteJson [Sample.incomplete]] [] = [] ∧
      parseSseStream Sample.incompleteJson Sample.pydantic
          [sseText Sample.noFloats Sample.incompleteJson [Sample.incomplete]] = ([], none) := by
  have hname : Sample.incomplete.eventType = "response.incomplete" := rfl
  have hunlisted : "response.incomplete" ∉ streamEventTypes := by decide
  have hunknown : (Python.eventMap Sample.pydantic).lookup "response.incomplete" = none := by
    simp [Python.eventMap, Python.event, List.lookup]
  refine ⟨rfl, ?_, ?_⟩
  · rw [parseSSE_events Sample.faithful_incomplete (by simp), List.filterMap_cons, hname,
      if_neg hunlisted, List.filterMap_nil]
  · rw [parseSseStream_events Sample.faithful_incomplete (by simp), List.filterMap_cons, hname,
      hunknown, Option.bind_none, List.filterMap_nil]

end AuraGateway.Sdk
