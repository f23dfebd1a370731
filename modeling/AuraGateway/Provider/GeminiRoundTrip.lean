import AuraGateway.Provider.GeminiAnswer
import AuraGateway.Provider.GeminiDelivery
import AuraGateway.Provider.GeminiRequest

/-!
# Tool calls of Gemini and back

A call is given the id `call_` with the name of its function behind it, and an output is sent
under its call id. So calls of one function share an id, and no output is sent under the name
of the function that was called: the round trip works exactly for an answer whose calls are of
different functions and a request that returns none of their outputs
(`gemini_round_trip_iff`).
-/

set_option autoImplicit false

namespace AuraGateway.Provider

open AuraGateway.Foundations AuraGateway.Foundations.KeyedFolds AuraGateway.Types

variable {ν : Type}

/-! ## Round trips -/

/-- The calls of a response: call id, name and arguments. -/
def emittedCalls (r : Response) : List (String × String × String) := r.output.filterMap callFields

/-- The call ids of a response are distinct, and each output that a request returns under one of
them is sent under the name of the function that was called. -/
structure RoundTrips (parse : String → Option Json) (r : Response)
    (request : CreateResponseRequest) : Prop where
  distinct : ((emittedCalls r).map Prod.fst).Nodup
  named : List.Forall₂
    (fun callId name => ∀ call ∈ emittedCalls r, call.1 = callId → name = call.2.1)
    (outputCallIds request.input)
    (responseNames (GeminiProvider.transformRequest parse request).contents)

/-- Calls of these functions are told apart, and no output of one is returned. -/
structure DistinctUnreturned (names : List String) (request : CreateResponseRequest) : Prop where
  distinct : names.Nodup
  unreturned : ∀ callId ∈ outputCallIds request.input, ∀ name ∈ names, callId ≠ "call_" ++ name

/-- The id of a call is not the name of its function. -/
theorem callId_ne_name (name : String) : "call_" ++ name ≠ name := by
  intro h
  have hlength := congrArg String.length h
  rw [String.length_append] at hlength
  have hprefix : "call_".length = 5 := by decide
  omega

/-- For a response whose calls are named after their functions. -/
theorem roundTrips_iff (parse : String → Option Json) {r : Response} {names : List String}
    (hids : (emittedCalls r).map Prod.fst = names.map ("call_" ++ ·))
    (hnames : (emittedCalls r).map (fun call => call.2.1) = names)
    (request : CreateResponseRequest) :
    RoundTrips parse r request ↔ DistinctUnreturned names request := by
  have hinjective : Function.Injective ("call_" ++ · : String → String) :=
    fun _ _ h => (String.append_right_inj _).mp h
  have hcall : ∀ call ∈ emittedCalls r, call.1 = "call_" ++ call.2.1 := by
    -- position by position, both lists are those of the names
    have hpointwise : (emittedCalls r).map Prod.fst
        = (emittedCalls r).map fun call => "call_" ++ call.2.1 := by
      rw [hids, ← hnames, List.map_map]
      rfl
    exact List.map_inj_left.mp hpointwise
  constructor
  · intro h
    constructor
    · have hdistinct := h.distinct
      rw [hids] at hdistinct
      exact List.Nodup.of_map _ hdistinct
    · intro callId hcallId name hname heq
      rw [← hnames] at hname
      obtain ⟨call, hmem, rfl⟩ := List.mem_map.mp hname
      have hnamed := h.named
      rw [responseNames_transformRequest, List.forall₂_same] at hnamed
      -- the output is sent under its call id
      have hsent := hnamed callId hcallId call hmem ((hcall call hmem).trans heq.symm)
      exact callId_ne_name call.2.1 (heq.symm.trans hsent)
  · intro h
    constructor
    · rw [hids]
      exact h.distinct.map hinjective
    · rw [responseNames_transformRequest, List.forall₂_same]
      intro callId hcallId call hmem heq
      have hname : call.2.1 ∈ names := by
        rw [← hnames]
        exact List.mem_map_of_mem hmem
      exact absurd (heq.symm.trans (hcall call hmem)) (h.unreturned callId hcallId _ hname)

/-! ## Whole and streamed answers -/

/-- The functions that an answer calls. -/
def GeminiResponse.calledNames (answer : GeminiResponse ν) : List String :=
  (answer.parts.filterMap GeminiPart.functionCall?).map (·.name)

theorem emittedCalls_transformResponse (toJson : ν → String) (uuid : String) (now : Int)
    (answer : GeminiResponse ν) (model : String) :
    let r := GeminiProvider.transformResponse toJson uuid now answer model
    (emittedCalls r).map Prod.fst = answer.calledNames.map ("call_" ++ ·)
      ∧ (emittedCalls r).map (fun call => call.2.1) = answer.calledNames := by
  dsimp only
  rw [emittedCalls, GeminiProvider.callFields_transformResponse, List.map_map, List.map_map,
    GeminiResponse.calledNames, List.map_map]
  exact ⟨rfl, rfl⟩

/-- The functions whose calls a stream keeps, by the index of their part: the last call of each
index, up to the chunk that finishes. -/
def keptNames (cs : List (GeminiResponse ν)) : List (Nat × String) :=
  (collect "" Prod.fst (fun p _ => p.2.name) (calls (upToFinish cs))).mergeSort
    fun a b => decide (a.1 ≤ b.1)

namespace GeminiTransformer

/-- The calls of a final response are its entries, in the order of their indices. -/
theorem emittedCalls_completedResponse (now : Int) (t : GeminiTransformer) :
    emittedCalls (t.completedResponse now)
      = (t.accumulatedFunctionCalls.mergeSort fun a b => decide (a.1 ≤ b.1)).map
          fun p => ("call_" ++ p.2.name, p.2.name, p.2.args) := by
  have hmessage : (if t.accumulatedText.isEmpty then [] else [Item.assistant "msg_0" t.accumulatedText]
      ).filterMap callFields = [] := by
    split <;> rfl
  rw [emittedCalls, completedResponse, List.filterMap_append, hmessage, List.nil_append, callOutput,
    List.filterMap_map, ← List.filterMap_eq_map]
  rfl

end GeminiTransformer

/-- Entries that are sorted by their key stay sorted when what is kept of them is changed. -/
theorem map_mergeSort_keys {β γ : Type} (f : β → γ) (l : List (Nat × β)) :
    (l.mergeSort fun a b => decide (a.1 ≤ b.1)).map (fun p => (p.1, f p.2))
      = (l.map fun p => (p.1, f p.2)).mergeSort fun a b => decide (a.1 ≤ b.1) :=
  List.map_mergeSort fun _ _ _ _ => rfl

theorem emittedCalls_stream (env : StreamEnv) (toJson : ν → String)
    (parse : String → Option (GeminiResponse ν)) (pieces : List (List UInt8)) :
    ∀ r ∈ (GeminiStreamTransformer.transform env toJson parse (pieces.map .ok)).filterMap
        completedResponse,
      (emittedCalls r).map Prod.fst
          = ((keptNames (receivedEvents parse pieces)).map Prod.snd).map ("call_" ++ ·)
        ∧ (emittedCalls r).map (fun call => call.2.1)
          = (keptNames (receivedEvents parse pieces)).map Prod.snd := by
  intro r hr
  obtain ⟨items, t, items', hstream⟩ := exists_geminiStreamed env toJson parse pieces
  rw [hstream.completedResponses] at hr
  have hresponse : r = t.completedResponse env.now := by
    split at hr
    · exact List.mem_singleton.mp hr
    · exact absurd hr List.not_mem_nil
  have hkept : (t.accumulatedFunctionCalls.mergeSort fun a b => decide (a.1 ≤ b.1)).map
      (fun p => (p.1, p.2.name)) = keptNames (receivedEvents parse pieces) := by
    have hcollect := @map_collect Nat PartialFunctionCall (Nat × GeminiFunctionCall ν) _ {} Prod.fst
      (fun p _ => p.2.entry toJson) String PartialFunctionCall.name (fun p _ => p.2.name)
      (fun _ _ => rfl) (calls (upToFinish (receivedEvents parse pieces)))
    rw [map_mergeSort_keys, hstream.accumulatedFunctionCalls, hcollect]
    rfl
  rw [hresponse, GeminiTransformer.emittedCalls_completedResponse, ← hkept]
  simp only [List.map_map]
  exact ⟨rfl, rfl⟩

/-- The round trip works, for the response to a whole answer and for one that completes a
stream, exactly when the calls are of different functions and the request returns no output
of theirs. -/
theorem gemini_round_trip_iff (parseJson : String → Option Json) (request : CreateResponseRequest)
    (toJson : ν → String) :
    (∀ (uuid : String) (now : Int) (answer : GeminiResponse ν) (model : String),
      RoundTrips parseJson (GeminiProvider.transformResponse toJson uuid now answer model) request
        ↔ DistinctUnreturned answer.calledNames request)
      ∧ ∀ (env : StreamEnv) (parse : String → Option (GeminiResponse ν))
          (pieces : List (List UInt8)) (r : Response),
        r ∈ (GeminiStreamTransformer.transform env toJson parse (pieces.map .ok)).filterMap
            completedResponse →
        (RoundTrips parseJson r request
          ↔ DistinctUnreturned ((keptNames (receivedEvents parse pieces)).map Prod.snd) request) := by
  constructor
  · intro uuid now answer model
    obtain ⟨hids, hnames⟩ := emittedCalls_transformResponse toJson uuid now answer model
    exact roundTrips_iff parseJson hids hnames request
  · intro env parse pieces r hr
    obtain ⟨hids, hnames⟩ := emittedCalls_stream env toJson parse pieces r hr
    exact roundTrips_iff parseJson hids hnames request

/-! ### A call and its output -/

/-- A call of `get_weather`; a value is its text. -/
def weatherAnswer : GeminiResponse String :=
  geminiChunk [.functionCall ⟨"get_weather", "\x7b\x7d"⟩] (some "STOP")

/-- Two calls of `get_weather`. -/
def parallelAnswer : GeminiResponse String :=
  geminiChunk [.functionCall ⟨"get_weather", "1"⟩, .functionCall ⟨"get_weather", "2"⟩]
    (some "STOP")

/-- The request that returns the output of a call. -/
def weatherOutput (callId : String) : CreateResponseRequest where
  model := "gemini-2.0-flash"
  input := [.user "Weather?", .functionCallOutput callId "sunny"]

/-- No text is JSON. -/
def noJson (_ : String) : Option Json := none

/-- The output of one call is sent under its call id, which is not the name of the function, and
two calls of one function have one id. -/
theorem gemini_output_misnamed :
    emittedCalls (GeminiProvider.transformResponse id "1" 0 weatherAnswer "gemini-2.0-flash")
        = [("call_get_weather", "get_weather", "\x7b\x7d")]
      ∧ responseNames
          (GeminiProvider.transformRequest noJson (weatherOutput "call_get_weather")).contents
        = ["call_get_weather"]
      ∧ ¬ RoundTrips noJson
          (GeminiProvider.transformResponse id "1" 0 weatherAnswer "gemini-2.0-flash")
          (weatherOutput "call_get_weather")
      ∧ ¬ RoundTrips noJson
          (GeminiProvider.transformResponse id "1" 0 parallelAnswer "gemini-2.0-flash")
          (CreateResponseRequest.text "gemini-2.0-flash" "hi") := by
  have hcalls : emittedCalls
      (GeminiProvider.transformResponse id "1" 0 weatherAnswer "gemini-2.0-flash")
      = [("call_get_weather", "get_weather", "\x7b\x7d")] := by
    decide
  have hsent : responseNames
      (GeminiProvider.transformRequest noJson (weatherOutput "call_get_weather")).contents
      = ["call_get_weather"] := by
    rw [responseNames_transformRequest]
    rfl
  refine ⟨hcalls, hsent, fun h => ?_, fun h => ?_⟩
  · have hnamed := h.named
    rw [hsent, hcalls] at hnamed
    cases hnamed with
    | cons hname _ =>
        have hwrong := hname _ (List.mem_singleton_self _) rfl
        exact absurd hwrong (by decide)
  · have hdistinct := h.distinct
    exact absurd hdistinct (by decide)

theorem gemini_round_trip_sample :
    ∃ r, RoundTrips noJson r (CreateResponseRequest.text "gemini-2.0-flash" "hi") := by
  have hlength := (gemini_text_streamed ⟨"gemini-pro", "1", 0⟩ id (parseGeminiSent twoCallsSent)
    (geminiPieces twoCallsSent)).responded.mpr (by rw [twoCalls_received]; decide)
  obtain ⟨r, hr⟩ := List.length_eq_one_iff.mp hlength
  have hiff := (gemini_round_trip_iff noJson (CreateResponseRequest.text "gemini-2.0-flash" "hi")
    id).2 _ _ _ r (hr ▸ List.mem_singleton_self r)
  refine ⟨r, hiff.mpr ⟨?_, fun callId hcallId => absurd hcallId List.not_mem_nil⟩⟩
  rw [twoCalls_received]
  decide +kernel

end AuraGateway.Provider
