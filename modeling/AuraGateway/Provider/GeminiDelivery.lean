import AuraGateway.Provider.GeminiStream

/-!
# What Gemini delivers

The text of a stream is passed on whole. The final response has the text up to the first
chunk that finishes; if later chunks carry nothing, it is the last event and has all of the
text (`gemini_text`). Each function call is in the final response exactly once if and only if
no two calls are parts of the same index in their chunks, none comes after the chunk that
finishes, and none is in a candidate that is not streamed (`gemini_calls_delivered_iff`).
-/

set_option autoImplicit false

namespace AuraGateway.Provider

open AuraGateway.Foundations AuraGateway.Foundations.KeyedFolds AuraGateway.Types

variable {ν : Type}

/-- The text parts are those up to the first chunk that finishes, and those after it. -/
theorem texts_eq (cs : List (GeminiResponse ν)) :
    texts cs = texts (upToFinish cs) ++ texts (afterFinish cs) := by
  conv_lhs => rw [← upToFinish_append_afterFinish cs, texts, List.flatMap_append]
  rfl

theorem calls_eq (cs : List (GeminiResponse ν)) :
    calls cs = calls (upToFinish cs) ++ calls (afterFinish cs) := by
  conv_lhs => rw [← upToFinish_append_afterFinish cs, calls, List.flatMap_append]
  rfl

/-! ## Final responses -/

namespace GeminiTransformer

variable (calls : List (Nat × PartialFunctionCall)) (now : Int) (t : GeminiTransformer)

/-- The call id, the name and the arguments of a function call. -/
def callParts : Item → Option (String × String × String)
  | .functionCall _ callId name arguments _ => some (callId, name, arguments)
  | _ => none

theorem text_callOutput : String.join ((callOutput calls).map Item.text) = "" := by
  rw [callOutput, List.map_map]
  induction calls.mergeSort fun a b => decide (a.1 ≤ b.1) with
  | nil => rfl
  | cons p sorted ih =>
      rw [List.map_cons, String.join_cons, ih]
      rfl

/-- The text of the final response is the text that was accumulated. -/
theorem text_completedResponse : (t.completedResponse now).text = t.accumulatedText := by
  rw [Response.text, completedResponse, List.map_append, String.join_append, text_callOutput,
    String.append_empty]
  split
  · rename_i hempty
    exact (String.isEmpty_iff.mp hempty).symm
  · simp [String.join_cons]

theorem callParts_callOutput :
    ((callOutput calls).filterMap callParts).Perm
      (calls.map fun p => ("call_" ++ p.2.name, p.2.name, p.2.args)) := by
  have hmap : (callOutput calls).filterMap callParts
      = (calls.mergeSort fun a b => decide (a.1 ≤ b.1)).map fun p =>
          ("call_" ++ p.2.name, p.2.name, p.2.args) := by
    rw [callOutput, List.filterMap_map, ← List.filterMap_eq_map]
    rfl
  rw [hmap]
  exact (List.mergeSort_perm _ _).map _

/-- The function calls of the final response are the entries. -/
theorem callParts_completedResponse :
    ((t.completedResponse now).output.filterMap callParts).Perm
      (t.accumulatedFunctionCalls.map fun p => ("call_" ++ p.2.name, p.2.name, p.2.args)) := by
  have hmessage : (if t.accumulatedText.isEmpty then [] else [Item.assistant "msg_0" t.accumulatedText]
      ).filterMap callParts = [] := by
    split <;> rfl
  rw [completedResponse, List.filterMap_append, hmessage, List.nil_append]
  exact callParts_callOutput _

end GeminiTransformer

namespace GeminiStreamed

variable {env : StreamEnv} {toJson : ν → String} {cs : List (GeminiResponse ν)}
  {items items' given : List StreamItem} {t : GeminiTransformer}

theorem deltaText (h : GeminiStreamed env toJson cs items t items' given) :
    deltaText given = String.join (texts cs) := by
  have hopening : Provider.deltaText (openingItems env "resp_gem_") = "" := rfl
  have hresponse : Provider.deltaText (if responds cs then
      [.ok (.responseCompleted (t.completedResponse env.now))] else []) = "" := by
    split <;> rfl
  have hjoin : ∀ l m : List StreamItem,
      Provider.deltaText (l ++ m) = Provider.deltaText l ++ Provider.deltaText m := by
    intro l m
    rw [Provider.deltaText, List.filterMap_append, String.join_append]
    rfl
  rw [h.given_eq, hjoin, hjoin, hjoin, hopening, hresponse, h.text, h.text', texts_eq cs,
    String.join_append, String.empty_append, String.append_empty]

theorem completedResponses (h : GeminiStreamed env toJson cs items t items' given) :
    given.filterMap completedResponse
      = if responds cs then [t.completedResponse env.now] else [] := by
  have hopening : (openingItems env "resp_gem_").filterMap completedResponse = [] := rfl
  have hresponse : (if responds cs then
      [.ok (.responseCompleted (t.completedResponse env.now))] else []).filterMap completedResponse
      = if responds cs then [t.completedResponse env.now] else [] := by
    split <;> rfl
  rw [h.given_eq]
  simp only [List.filterMap_append, hopening, hresponse, h.completed, h.completed', List.append_nil,
    List.nil_append]

end GeminiStreamed

/-! ## Text -/

/-- The text of a stream is delivered: in the deltas, and in a final response that comes at
most once and last. -/
structure GeminiTextDelivered (cs : List (GeminiResponse ν)) (given : List StreamItem) : Prop where
  deltas : deltaText given = String.join (texts cs)
  atMostOnce : (given.filterMap completedResponse).length ≤ 1
  final : ∀ r ∈ given.filterMap completedResponse, r.text = String.join (texts cs)
  last : ∀ r ∈ given.filterMap completedResponse, given.getLast? = some (.ok (.responseCompleted r))

/-- What is delivered in any case. -/
structure GeminiTextStreamed (cs : List (GeminiResponse ν)) (given : List StreamItem) : Prop where
  deltas : deltaText given = String.join (texts cs)
  atMostOnce : (given.filterMap completedResponse).length ≤ 1
  responded : (given.filterMap completedResponse).length = 1 ↔ responds cs = true
  final : ∀ r ∈ given.filterMap completedResponse, r.text = String.join (texts (upToFinish cs))
  whole : (∀ text ∈ texts (afterFinish cs), text = "") → calls (afterFinish cs) = [] →
    GeminiTextDelivered cs given

section Text

variable (env : StreamEnv) (toJson : ν → String) (parse : String → Option (GeminiResponse ν))
  (pieces : List (List UInt8))

theorem gemini_text_streamed :
    GeminiTextStreamed (receivedEvents parse pieces)
      (GeminiStreamTransformer.transform env toJson parse (pieces.map .ok)) := by
  obtain ⟨items, t, items', hstream⟩ := exists_geminiStreamed env toJson parse pieces
  have hresponses := hstream.completedResponses
  have hfinal : ∀ r ∈ (GeminiStreamTransformer.transform env toJson parse (pieces.map .ok)).filterMap
      completedResponse, responds (receivedEvents parse pieces) = true
        ∧ r = t.completedResponse env.now := by
    intro r hr
    rw [hresponses] at hr
    split at hr
    · rename_i hresponds
      exact ⟨hresponds, List.mem_singleton.mp hr⟩
    · exact absurd hr List.not_mem_nil
  have htext := (GeminiTransformer.text_completedResponse env.now t).trans hstream.accumulatedText
  have honce : ((GeminiStreamTransformer.transform env toJson parse (pieces.map .ok)).filterMap
      completedResponse).length ≤ 1 := by
    rw [hresponses]
    split
    · exact le_refl 1
    · exact Nat.zero_le 1
  exact
    { deltas := hstream.deltaText
      atMostOnce := honce
      responded := by
        rw [hresponses]
        split
        · rename_i hresponds
          exact ⟨fun _ => hresponds, fun _ => rfl⟩
        · rename_i hsilent
          exact ⟨fun h => absurd h (by decide), fun h => absurd h hsilent⟩
      final := by
        intro r hr
        rw [(hfinal r hr).2, htext]
      whole := by
        intro htexts hcalls
        have hafter : String.join (texts (afterFinish (receivedEvents parse pieces))) = "" := by
          rw [← hstream.text', hstream.quiet' htexts hcalls]
          rfl
        have hwhole : String.join (texts (upToFinish (receivedEvents parse pieces)))
            = String.join (texts (receivedEvents parse pieces)) := by
          rw [texts_eq (receivedEvents parse pieces), String.join_append, hafter,
            String.append_empty]
        exact
          { deltas := hstream.deltaText
            atMostOnce := honce
            final := by
              intro r hr
              rw [(hfinal r hr).2, htext, hwhole]
            last := by
              intro r hr
              obtain ⟨hresponds, rfl⟩ := hfinal r hr
              rw [hstream.given_eq, hstream.quiet' htexts hcalls, if_pos hresponds, List.append_nil,
                List.getLast?_concat] } }

/-- The text of a stream is passed on whole, whatever pieces the body comes in; the final
response has the text up to the first chunk that finishes. -/
theorem gemini_text :
    GeminiTextStreamed (receivedEvents parse pieces)
        (GeminiStreamTransformer.transform env toJson parse (pieces.map .ok))
      ∧ ∀ pieces' : List (List UInt8), pieces'.flatten = pieces.flatten →
        GeminiStreamTransformer.transform env toJson parse (pieces'.map .ok)
          = GeminiStreamTransformer.transform env toJson parse (pieces.map .ok) :=
  ⟨gemini_text_streamed env toJson parse pieces, fun _ hpieces =>
    PolledStream.Machine.run_eq_of_flatten_eq _ hpieces⟩

end Text

/-! ### A chunk after the end -/

/-- A chunk of one candidate; a value is its text. -/
def geminiChunk (parts : List (GeminiPart String)) (finishReason : Option String) :
    GeminiResponse String :=
  ⟨some [⟨some ⟨parts⟩, finishReason⟩], none⟩

def wordChunk (text : String) (finishReason : Option String) : GeminiResponse String :=
  geminiChunk [.text text] finishReason

/-- Payloads with the chunks they parse to. -/
def lateSent : List (String × GeminiResponse String) :=
  [("\x7b\"candidates\":[\x7b\"content\":\x7b\"parts\":[\x7b\"text\":\"Hi\"\x7d]\x7d,"
      ++ "\"finishReason\":\"STOP\"\x7d]\x7d", wordChunk "Hi" (some "STOP")),
    ("\x7b\"candidates\":[\x7b\"content\":\x7b\"parts\":[\x7b\"text\":\"!\"\x7d]\x7d\x7d]\x7d",
      wordChunk "!" none)]

/-- The body that a server sends, in two pieces. -/
def geminiPieces (sent : List (String × GeminiResponse String)) : List (List UInt8) :=
  let body := sseBody (sent.map Prod.fst)
  [body.take 20, body.drop 20]

/-- A parser that knows the payloads that were sent. -/
def parseGeminiSent (sent : List (String × GeminiResponse String)) (p : String) :
    Option (GeminiResponse String) :=
  sent.lookup p

theorem late_received : receivedEvents (parseGeminiSent lateSent) (geminiPieces lateSent)
    = [wordChunk "Hi" (some "STOP"), wordChunk "!" none] := by
  have hknown : KnownPayloads lateSent _ :=
    { texts := .cons (append_eq_ofList rfl rfl) (.cons rfl .nil)
      oneLine := by decide
      closed := by decide
      distinct := by decide }
  exact hknown.received (by simp [geminiPieces])

/-- Text that comes after the chunk that finishes is missing from the final response. -/
theorem gemini_misses_late_text :
    ¬ GeminiTextDelivered (receivedEvents (parseGeminiSent lateSent) (geminiPieces lateSent))
        (GeminiStreamTransformer.transform ⟨"gemini-pro", "1", 0⟩ id (parseGeminiSent lateSent)
          ((geminiPieces lateSent).map .ok)) := by
  intro h
  have hstreamed := gemini_text_streamed ⟨"gemini-pro", "1", 0⟩ id (parseGeminiSent lateSent)
    (geminiPieces lateSent)
  have hlength := hstreamed.responded.mpr (by rw [late_received]; decide)
  obtain ⟨r, hr⟩ := List.length_eq_one_iff.mp hlength
  have hmem := hr ▸ List.mem_singleton_self r
  have hboth := (h.final r hmem).symm.trans (hstreamed.final r hmem)
  rw [late_received] at hboth
  exact absurd hboth (by decide)

theorem gemini_text_sample :
    GeminiTextStreamed [wordChunk "Hi" (some "STOP"), wordChunk "!" none]
        (GeminiStreamTransformer.transform ⟨"gemini-pro", "1", 0⟩ id (parseGeminiSent lateSent)
          ((geminiPieces lateSent).map .ok))
      ∧ GeminiStreamTransformer.transform ⟨"gemini-pro", "1", 0⟩ id (parseGeminiSent lateSent)
          ([sseBody (lateSent.map Prod.fst)].map .ok)
        = GeminiStreamTransformer.transform ⟨"gemini-pro", "1", 0⟩ id (parseGeminiSent lateSent)
          ((geminiPieces lateSent).map .ok) := by
  rw [← late_received]
  exact ⟨(gemini_text _ _ _ _).1, (gemini_text _ _ _ _).2 _ (by simp [geminiPieces])⟩

/-! ## Function calls -/

/-- The call id, the name and the arguments of a call that is received. -/
def GeminiFunctionCall.parts (toJson : ν → String) (fc : GeminiFunctionCall ν) :
    String × String × String :=
  ("call_" ++ fc.name, fc.name, toJson fc.args)

def GeminiCandidate.calls (k : GeminiCandidate ν) : List (GeminiFunctionCall ν) :=
  k.parts.filterMap GeminiPart.functionCall?

/-- The function calls of all candidates of a chunk. -/
def GeminiResponse.allCalls (c : GeminiResponse ν) : List (GeminiFunctionCall ν) :=
  (c.candidates.getD []).flatMap GeminiCandidate.calls

/-- The function calls of the candidates that are not streamed. -/
def GeminiResponse.otherCalls (c : GeminiResponse ν) : List (GeminiFunctionCall ν) :=
  (c.candidates.getD []).tail.flatMap GeminiCandidate.calls

/-- The function calls of a stream. -/
def receivedFunctionCalls (toJson : ν → String) (cs : List (GeminiResponse ν)) :
    List (String × String × String) :=
  (cs.flatMap GeminiResponse.allCalls).map (GeminiFunctionCall.parts toJson)

/-- The function calls that are received are, each once, in the final response. -/
def FunctionCallsDelivered (toJson : ν → String) (cs : List (GeminiResponse ν))
    (given : List StreamItem) : Prop :=
  (given.filterMap completedResponse).length ≤ 1
    ∧ ((given.filterMap completedResponse).flatMap fun r =>
        r.output.filterMap GeminiTransformer.callParts).Perm (receivedFunctionCalls toJson cs)

/-- No two calls have the index of their part in common, none comes after the chunk that
finishes, and none is in a candidate that is not streamed. -/
structure GeminiCallsKept (cs : List (GeminiResponse ν)) : Prop where
  distinct : ((calls cs).map Prod.fst).Nodup
  noneAfter : calls (afterFinish cs) = []
  noneOther : cs.flatMap GeminiResponse.otherCalls = []

/-- The function calls of a chunk are among its parts, in their order. -/
theorem GeminiResponse.map_snd_calls (c : GeminiResponse ν) :
    c.calls.map Prod.snd = c.parts.filterMap GeminiPart.functionCall? := by
  have hparts : c.parts = c.parts.zipIdx.map Prod.fst := (List.zipIdx_map_fst 0 c.parts).symm
  conv_rhs => rw [hparts, List.filterMap_map]
  rw [calls, List.map_filterMap]
  refine List.filterMap_congr fun p _ => ?_
  cases hcall : p.1.functionCall? <;> simp [hcall]

theorem GeminiResponse.allCalls_eq (c : GeminiResponse ν) :
    c.allCalls = c.calls.map Prod.snd ++ c.otherCalls := by
  rw [map_snd_calls, allCalls, otherCalls, parts, candidate?]
  cases c.candidates with
  | none => rfl
  | some candidates =>
      cases candidates with
      | nil => rfl
      | cons k rest => rfl

theorem receivedFunctionCalls_perm (toJson : ν → String) (cs : List (GeminiResponse ν)) :
    (receivedFunctionCalls toJson cs).Perm
      ((calls cs).map (fun p => p.2.parts toJson)
        ++ (cs.flatMap GeminiResponse.otherCalls).map (GeminiFunctionCall.parts toJson)) := by
  induction cs with
  | nil => exact List.Perm.refl _
  | cons c cs ih =>
      rw [receivedFunctionCalls] at ih ⊢
      simp only [calls, List.flatMap_cons, List.map_append, c.allCalls_eq, List.map_map] at ih ⊢
      refine ((ih.append_left _).trans ?_)
      -- the other calls of the chunk move behind the calls of the rest
      rw [List.append_assoc, List.append_assoc]
      refine List.Perm.append_left _ ?_
      rw [← List.append_assoc, ← List.append_assoc]
      exact List.perm_append_comm.append_right _

/-- The function calls of the final responses are those up to the chunk that finishes, one
for each index. -/
theorem GeminiStreamed.functionCalls {env : StreamEnv} {toJson : ν → String}
    {cs : List (GeminiResponse ν)} {items items' given : List StreamItem} {t : GeminiTransformer}
    (h : GeminiStreamed env toJson cs items t items' given) :
    ((given.filterMap completedResponse).flatMap fun r =>
        r.output.filterMap GeminiTransformer.callParts).Perm
      ((collect {} Prod.fst (fun p _ => p.2.entry toJson) (calls (upToFinish cs))).map
        fun p => ("call_" ++ p.2.name, p.2.name, p.2.args)) := by
  rw [h.completedResponses]
  split
  · rw [List.flatMap_singleton, ← h.accumulatedFunctionCalls]
    exact GeminiTransformer.callParts_completedResponse _ _
  · rename_i hsilent
    -- there is no final response because there are no calls
    have hnone : calls cs = [] := by
      rw [responds, Bool.or_eq_true, not_or] at hsilent
      simpa using hsilent.2
    rw [calls_eq, List.append_eq_nil_iff] at hnone
    rw [hnone.1]
    exact List.Perm.refl _

/-- The function calls are delivered, each once with its name, arguments and call id, exactly
when `GeminiCallsKept`. -/
theorem gemini_calls_delivered_iff (env : StreamEnv) (toJson : ν → String)
    (parse : String → Option (GeminiResponse ν)) (pieces : List (List UInt8)) :
    FunctionCallsDelivered toJson (receivedEvents parse pieces)
        (GeminiStreamTransformer.transform env toJson parse (pieces.map .ok))
      ↔ GeminiCallsKept (receivedEvents parse pieces) := by
  obtain ⟨items, t, items', hstream⟩ := exists_geminiStreamed env toJson parse pieces
  have honce := (gemini_text_streamed env toJson parse pieces).atMostOnce
  have hgiven := hstream.functionCalls
  have hreceived := receivedFunctionCalls_perm toJson (receivedEvents parse pieces)
  have hcalls := calls_eq (receivedEvents parse pieces)
  obtain ⟨hle, hnodup⟩ := length_collect ({} : PartialFunctionCall) Prod.fst
    (fun (p : Nat × GeminiFunctionCall ν) _ => p.2.entry toJson)
    (calls (upToFinish (receivedEvents parse pieces)))
  constructor
  · rintro ⟨-, hperm⟩
    have hlength := (hgiven.symm.trans (hperm.trans hreceived)).length_eq
    have hsum := congrArg List.length hcalls
    simp only [List.length_append, List.length_map] at hlength hsum
    have hafter : calls (afterFinish (receivedEvents parse pieces)) = [] :=
      List.length_eq_zero_iff.mp (by omega)
    exact
      { distinct := by
          rw [hcalls, hafter, List.append_nil]
          exact hnodup (by omega)
        noneAfter := hafter
        noneOther := List.length_eq_zero_iff.mp (by omega) }
  · intro hkept
    refine ⟨honce, hgiven.trans ?_⟩
    rw [hkept.noneAfter, List.append_nil] at hcalls
    have hdistinct := hkept.distinct
    rw [hcalls] at hdistinct
    rw [collect_of_nodup hdistinct, List.map_map]
    rw [hkept.noneOther, List.map_nil, List.append_nil, hcalls] at hreceived
    exact hreceived.symm

/-! ### Two calls in two chunks -/

/-- A chunk that is one function call. -/
def callChunk (name args : String) (finishReason : Option String) : GeminiResponse String :=
  geminiChunk [.functionCall ⟨name, args⟩] finishReason

def twoCallsSent : List (String × GeminiResponse String) :=
  [("\x7b\"candidates\":[\x7b\"content\":\x7b\"parts\":[\x7b\"functionCall\":"
      ++ "\x7b\"name\":\"f\",\"args\":1\x7d\x7d]\x7d\x7d]\x7d", callChunk "f" "1" none),
    ("\x7b\"candidates\":[\x7b\"content\":\x7b\"parts\":[\x7b\"functionCall\":"
      ++ "\x7b\"name\":\"g\",\"args\":2\x7d\x7d]\x7d,\"finishReason\":\"STOP\"\x7d]\x7d",
      callChunk "g" "2" (some "STOP"))]

theorem twoCalls_received : receivedEvents (parseGeminiSent twoCallsSent) (geminiPieces twoCallsSent)
    = [callChunk "f" "1" none, callChunk "g" "2" (some "STOP")] := by
  have hknown : KnownPayloads twoCallsSent _ :=
    { texts := .cons (append_eq_ofList rfl rfl) (.cons (append_eq_ofList rfl rfl) .nil)
      oneLine := by decide
      closed := by decide
      distinct := by decide }
  exact hknown.received (by simp [geminiPieces])

/-- Both calls are the first part of their chunk: the first is overwritten. -/
theorem gemini_loses_call :
    ¬ FunctionCallsDelivered id
        (receivedEvents (parseGeminiSent twoCallsSent) (geminiPieces twoCallsSent))
        (GeminiStreamTransformer.transform ⟨"gemini-pro", "1", 0⟩ id (parseGeminiSent twoCallsSent)
          ((geminiPieces twoCallsSent).map .ok)) := by
  intro h
  obtain ⟨items, t, items', hstream⟩ := exists_geminiStreamed ⟨"gemini-pro", "1", 0⟩ id
    (parseGeminiSent twoCallsSent) (geminiPieces twoCallsSent)
  have hlength := (hstream.functionCalls.symm.trans h.2).length_eq
  rw [twoCalls_received] at hlength
  exact absurd hlength (by decide)

end AuraGateway.Provider
