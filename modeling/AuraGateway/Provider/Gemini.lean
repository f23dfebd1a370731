import AuraGateway.Foundations.KeyedFolds
import AuraGateway.Provider.Events
import AuraGateway.Provider.Sse

/-!
# Gemini streams

The stream transformer of Gemini. A chunk can give several events, which are queued. Function
calls are kept under the index of their part inside its chunk. The final response is queued
behind what the first chunk with a finish reason carries; a stream without one is closed at
its end, if it carried anything.
-/

set_option autoImplicit false

namespace AuraGateway.Provider

open AuraGateway.Foundations AuraGateway.Foundations.KeyedFolds AuraGateway.Types

/-! ## Wire types -/

/-- A function call; `ν` is `serde_json::Value`. -/
structure GeminiFunctionCall (ν : Type) where
  name : String
  args : ν
  deriving DecidableEq

inductive GeminiPart (ν : Type) where
  | text (text : String)
  | inlineData
  | fileData
  | functionCall (functionCall : GeminiFunctionCall ν)
  | functionResponse
  deriving DecidableEq

structure GeminiContent (ν : Type) where
  parts : List (GeminiPart ν)
  deriving DecidableEq

structure GeminiCandidate (ν : Type) where
  content : Option (GeminiContent ν)
  finishReason : Option String
  deriving DecidableEq

structure GeminiUsageMetadata where
  promptTokenCount : Option Nat
  cachedContentTokenCount : Option Nat
  candidatesTokenCount : Option Nat
  deriving DecidableEq

/-- A chunk of a stream. -/
structure GeminiResponse (ν : Type) where
  candidates : Option (List (GeminiCandidate ν))
  usageMetadata : Option GeminiUsageMetadata
  deriving DecidableEq

variable {ν : Type}

/-! ## The transformer -/

structure PartialFunctionCall where
  name : String := ""
  args : String := ""
  deriving DecidableEq, Repr

/-- The state of a transformer, but for its buffer. -/
structure GeminiTransformer extends StreamState where
  accumulatedFunctionCalls : List (Nat × PartialFunctionCall) := []
  pending : List StreamItem := []
  completedSent : Bool := false
  inputTokens : Nat := 0
  cachedTokens : Nat := 0
  outputTokens : Nat := 0

namespace GeminiTransformer

/-- An event that is due: an opening event, else the first of the queue. -/
def ready (now : Int) (t : GeminiTransformer) : Option (StreamItem × GeminiTransformer) :=
  match t.toStreamState.opening now with
  | some (e, s) => some (e, { t with toStreamState := s })
  | none =>
      match t.pending with
      | e :: rest => some (e, { t with pending := rest })
      | [] => none

/-- The function calls of the final response, sorted by index: the order of the map does not
matter. -/
def callOutput (calls : List (Nat × PartialFunctionCall)) : List Item :=
  (calls.mergeSort fun a b => decide (a.1 ≤ b.1)).map fun p =>
    Item.newFunctionCall ("fc_" ++ toString p.1) ("call_" ++ p.2.name) p.2.name p.2.args

/-- The final response for everything accumulated so far. -/
def completedResponse (now : Int) (t : GeminiTransformer) : Response :=
  { Response.builder t.responseId t.model now with
    output := (if t.accumulatedText.isEmpty then [] else [Item.assistant "msg_0" t.accumulatedText])
      ++ callOutput t.accumulatedFunctionCalls
    usage := some ((Usage.new t.inputTokens t.outputTokens).withCacheHits t.cachedTokens)
    status := .completed }

/-- The end of the source: close the response if no chunk did and there is content. -/
def finish (now : Int) (t : GeminiTransformer) : Option (StreamItem × GeminiTransformer) :=
  if !t.completedSent && (!t.accumulatedText.isEmpty || !t.accumulatedFunctionCalls.isEmpty) then
    some (.ok (.responseCompleted (t.completedResponse now)), { t with completedSent := true })
  else none

/-- `push_back`. -/
def push (e : StreamEvent) (t : GeminiTransformer) : GeminiTransformer :=
  { t with pending := t.pending ++ [.ok e] }

def announceItem (t : GeminiTransformer) : GeminiTransformer :=
  if t.outputItemAdded then t
  else { t with outputItemAdded := true }.push (.outputItemAdded 0 (Item.assistant "msg_0" ""))

def announcePart (t : GeminiTransformer) : GeminiTransformer :=
  if t.contentPartAdded then t
  else { t with contentPartAdded := true }.push (.contentPartAdded 0 0 "text")

/-- A text part. -/
def handleText (text : String) (t : GeminiTransformer) : GeminiTransformer :=
  if text.isEmpty then t
  else
    let t := t.announceItem.announcePart
    { t with accumulatedText := t.accumulatedText ++ text }.push (.outputTextDelta 0 0 text)

/-- What is passed on of the arguments: what is new, if they extend those of the entry. -/
def argsDelta (entry : PartialFunctionCall) (args : String) : String :=
  if entry.args.toList <+: args.toList ∧ ¬ entry.args.isEmpty then
    String.ofList (args.toList.drop entry.args.toList.length)
  else args

/-- A function call, whose arguments serialise to `args`. -/
def handleFunctionCall (partIdx : Nat) (name args : String) (t : GeminiTransformer) :
    GeminiTransformer :=
  let delta := argsDelta ((t.accumulatedFunctionCalls.lookup partIdx).getD {}) args
  let t := { t with
    accumulatedFunctionCalls :=
      amend {} partIdx (fun _ => { name := name, args := args }) t.accumulatedFunctionCalls }
  if delta.isEmpty then t else t.push (.functionCallArgumentsDelta partIdx delta)

/-- A part; `toJson` is `serde_json::to_string`. -/
def handlePart (toJson : ν → String) (t : GeminiTransformer) (p : GeminiPart ν × Nat) :
    GeminiTransformer :=
  match p.1 with
  | .text text => t.handleText text
  | .functionCall functionCall =>
      t.handleFunctionCall p.2 functionCall.name (toJson functionCall.args)
  | .inlineData | .fileData | .functionResponse => t

def noteUsage (u : Option GeminiUsageMetadata) (t : GeminiTransformer) : GeminiTransformer :=
  match u with
  | none => t
  | some u =>
      { t with
        inputTokens := u.promptTokenCount.getD t.inputTokens
        cachedTokens := u.cachedContentTokenCount.getD t.cachedTokens
        outputTokens := u.candidatesTokenCount.getD t.outputTokens }

/-- The finish reasons that complete a response. -/
def finishes (finishReason : Option String) : Bool :=
  finishReason = some "STOP" || finishReason = some "MAX_TOKENS" || finishReason = some "SAFETY"

/-- Queue the final response, unless it has been queued. -/
def handleFinish (now : Int) (finishReason : Option String) (t : GeminiTransformer) :
    GeminiTransformer :=
  if finishes finishReason && !t.completedSent then
    { t with completedSent := true }.push (.responseCompleted (t.completedResponse now))
  else t

/-- `process_sse_data`, for data that parses: content first, then the finish reason. -/
def processSseData (now : Int) (toJson : ν → String) (t : GeminiTransformer)
    (chunk : GeminiResponse ν) : GeminiTransformer :=
  let t := t.noteUsage chunk.usageMetadata
  match chunk.candidates.bind List.head? with
  | none => t
  | some candidate =>
      let parts := (candidate.content.map (·.parts)).getD []
      (parts.zipIdx.foldl (handlePart toJson) t).handleFinish now candidate.finishReason

/-- What is due, and the final response if it has not been given. -/
def due (t : GeminiTransformer) : Nat :=
  t.openingLeft + t.pending.length + (!t.completedSent).toNat

theorem due_of_ready {now : Int} {t t' : GeminiTransformer} {e : StreamItem}
    (h : t.ready now = some (e, t')) : t'.due < t.due := by
  rw [ready] at h
  split at h
  · rename_i hopening
    obtain ⟨-, rfl⟩ := Prod.mk.inj (Option.some.inj h)
    exact Nat.add_lt_add_right
      (Nat.add_lt_add_right (StreamState.openingLeft_of_opening hopening) _) _
  · split at h
    · rename_i hpending
      obtain ⟨-, rfl⟩ := Prod.mk.inj (Option.some.inj h)
      rw [due, due, hpending, List.length_cons]
      exact Nat.add_lt_add_right (Nat.lt_succ_self _) _
    · cases h

theorem due_of_finish {now : Int} {t t' : GeminiTransformer} {e : StreamItem}
    (h : t.finish now = some (e, t')) : t'.due < t.due := by
  rw [finish] at h
  split at h
  · rename_i hopen
    have hsent : t.completedSent = false := by
      rw [Bool.and_eq_true] at hopen
      simpa using hopen.1
    obtain ⟨-, rfl⟩ := Prod.mk.inj (Option.some.inj h)
    simp [due, hsent, StreamState.openingLeft]
  · cases h

end GeminiTransformer

namespace GeminiStreamTransformer

/-- The control of the stream. -/
def machine (now : Int) (toJson : ν → String) :
    PolledStream.Machine (GeminiResponse ν) String GeminiTransformer StreamItem where
  ready := GeminiTransformer.ready now
  accept t chunk := (none, t.processSseData now toJson chunk)
  failed message := .error (.stream message)
  finish := GeminiTransformer.finish now
  due := GeminiTransformer.due
  due_of_ready := GeminiTransformer.due_of_ready
  due_of_finish _ := GeminiTransformer.due_of_finish

/-- A transformer before anything is sent. -/
def start (env : StreamEnv) : GeminiTransformer :=
  { model := env.model, responseId := "resp_gem_" ++ env.uuid }

/-- `transform`: the events of a response that comes in pieces. -/
def transform (env : StreamEnv) (toJson : ν → String) (parse : String → Option (GeminiResponse ν))
    (source : List (Except String (List UInt8))) : List StreamItem :=
  ((machine env.now toJson).comap (readEvent parse)).run utf8Decoder lineScanner
    { control := start env, buffer := [], pending := [], source := source }

end GeminiStreamTransformer

/-! ## What a chunk carries -/

def GeminiPart.text? : GeminiPart ν → Option String
  | .text s => some s
  | _ => none

def GeminiPart.functionCall? : GeminiPart ν → Option (GeminiFunctionCall ν)
  | .functionCall fc => some fc
  | _ => none

/-- The entry of a function call. -/
def GeminiFunctionCall.entry (toJson : ν → String) (fc : GeminiFunctionCall ν) :
    PartialFunctionCall where
  name := fc.name
  args := toJson fc.args

def GeminiCandidate.parts (k : GeminiCandidate ν) : List (GeminiPart ν) :=
  (k.content.map (·.parts)).getD []

namespace GeminiResponse

/-- The candidate that is streamed. -/
def candidate? (c : GeminiResponse ν) : Option (GeminiCandidate ν) := c.candidates.bind List.head?

def parts (c : GeminiResponse ν) : List (GeminiPart ν) :=
  (c.candidate?.map GeminiCandidate.parts).getD []

def texts (c : GeminiResponse ν) : List String := c.parts.filterMap GeminiPart.text?

/-- The function calls, each with the index of its part. -/
def calls (c : GeminiResponse ν) : List (Nat × GeminiFunctionCall ν) :=
  c.parts.zipIdx.filterMap fun p => p.1.functionCall?.map fun fc => (p.2, fc)

def finishes (c : GeminiResponse ν) : Bool :=
  GeminiTransformer.finishes (c.candidate?.bind (·.finishReason))

end GeminiResponse

/-- The text parts of a stream. -/
def texts (cs : List (GeminiResponse ν)) : List String := cs.flatMap GeminiResponse.texts

/-- The function calls of a stream, each with the index of its part in its chunk. -/
def calls (cs : List (GeminiResponse ν)) : List (Nat × GeminiFunctionCall ν) :=
  cs.flatMap GeminiResponse.calls

/-- The chunks up to the first that finishes. -/
def upToFinish : List (GeminiResponse ν) → List (GeminiResponse ν)
  | [] => []
  | c :: cs => c :: if c.finishes then [] else upToFinish cs

/-- The chunks after the first that finishes. -/
def afterFinish : List (GeminiResponse ν) → List (GeminiResponse ν)
  | [] => []
  | c :: cs => if c.finishes then cs else afterFinish cs

theorem upToFinish_append_afterFinish (cs : List (GeminiResponse ν)) :
    upToFinish cs ++ afterFinish cs = cs := by
  induction cs with
  | nil => rfl
  | cons c cs ih =>
      rw [upToFinish, afterFinish]
      split
      · rfl
      · rw [List.cons_append, ih]

/-- Either no chunk finishes, or there is a first one that does. -/
theorem finish_cases (cs : List (GeminiResponse ν)) :
    ((∀ c ∈ cs, c.finishes = false) ∧ upToFinish cs = cs ∧ afterFinish cs = [])
      ∨ ∃ before c, (∀ b ∈ before, b.finishes = false) ∧ c.finishes = true
          ∧ upToFinish cs = before ++ [c] := by
  induction cs with
  | nil => exact Or.inl ⟨fun c hc => absurd hc List.not_mem_nil, rfl, rfl⟩
  | cons c cs ih =>
      rw [upToFinish, afterFinish]
      by_cases hc : c.finishes = true
      · rw [if_pos hc]
        exact Or.inr ⟨[], c, fun b hb => absurd hb List.not_mem_nil, hc, rfl⟩
      · have hfalse : c.finishes = false := by simpa using hc
        rw [if_neg hc, if_neg hc]
        rcases ih with ⟨hnone, hupto, hafter⟩ | ⟨before, d, hbefore, hd, hupto⟩
        · refine Or.inl ⟨?_, by rw [hupto], hafter⟩
          intro b hb
          rcases List.mem_cons.mp hb with rfl | hb
          · exact hfalse
          · exact hnone b hb
        · refine Or.inr ⟨c :: before, d, ?_, hd, by rw [hupto]; rfl⟩
          intro b hb
          rcases List.mem_cons.mp hb with rfl | hb
          · exact hfalse
          · exact hbefore b hb

end AuraGateway.Provider
