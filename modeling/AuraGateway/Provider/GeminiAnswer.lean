import AuraGateway.Provider.ChatAnswer
import AuraGateway.Provider.Gemini

/-!
# Gemini answers

What Gemini's `transform_response` makes of a whole answer: an item for each text and each
function call of the first candidate, and the status that its finish reason gives.
-/

set_option autoImplicit false

namespace AuraGateway.Provider

open AuraGateway.Types

variable {ν : Type}

/-! ## Items -/

/-- The item of a part, numbered `i`. A call has no id of its own: it is named after its
function. -/
def GeminiPart.item? (toJson : ν → String) (i : Nat) : GeminiPart ν → Option Item
  | .text s => some (.assistant ("msg_" ++ toString i) s)
  | .functionCall fc =>
      some (.newFunctionCall ("fc_" ++ toString i) ("call_" ++ fc.name) fc.name (toJson fc.args))
  | .inlineData | .fileData | .functionResponse => none

/-- The items of parts, numbered from `i`; parts that give no item are not counted. -/
def geminiItems (toJson : ν → String) : Nat → List (GeminiPart ν) → List Item
  | _, [] => []
  | i, p :: ps =>
      match p.item? toJson i with
      | some item => item :: geminiItems toJson (i + 1) ps
      | none => geminiItems toJson i ps

/-! ## The response -/

def generationFailed : ResponseError where
  code := "generation_failed"
  message := "Generation stopped for other reasons"
  param := none

/-- Status, reason and error that a finish reason gives. -/
def geminiOutcome (output : List Item) :
    Option String → ResponseStatus × Option IncompleteReason × Option ResponseError
  | some "STOP" => (.completed, none, none)
  | some "MAX_TOKENS" => (.incomplete, some .maxTokens, none)
  | some "SAFETY" => (.incomplete, some .contentFilter, none)
  | some "RECITATION" => (.incomplete, some .contentFilter, none)
  | some "OTHER" => (.failed, none, some generationFailed)
  | some _ => (.completed, none, none)
  | none => if output.isEmpty then (.failed, none, some noResponse) else (.completed, none, none)

def GeminiUsageMetadata.toUsage (u : GeminiUsageMetadata) : Usage :=
  (Usage.new (u.promptTokenCount.getD 0) (u.candidatesTokenCount.getD 0)).withCacheHits
    (u.cachedContentTokenCount.getD 0)

/-- `GeminiProvider::transform_response`: without validation the first candidate is taken. -/
def GeminiProvider.transformResponse (toJson : ν → String) (uuid : String) (now : Int)
    (answer : GeminiResponse ν) (model : String) : Response :=
  let output := geminiItems toJson 0 answer.parts
  let outcome := geminiOutcome output (answer.candidate?.bind (·.finishReason))
  { Response.builder ("resp_gem_" ++ uuid) model now with
    output
    status := outcome.1
    incompleteReason := outcome.2.1
    error := outcome.2.2
    usage := answer.usageMetadata.map GeminiUsageMetadata.toUsage }

/-! ## What an answer says -/

/-- What the call of a function says. -/
def GeminiFunctionCall.fields (toJson : ν → String) (fc : GeminiFunctionCall ν) :
    String × String × String :=
  ("call_" ++ fc.name, fc.name, toJson fc.args)

theorem text_geminiItems (toJson : ν → String) (i : Nat) (parts : List (GeminiPart ν)) :
    String.join ((geminiItems toJson i parts).map Item.text)
      = String.join (parts.filterMap GeminiPart.text?) := by
  induction parts generalizing i with
  | nil => rfl
  | cons p parts ih =>
      cases p with
      | text s =>
          show String.join ((Item.assistant _ s).text :: (geminiItems toJson (i + 1) parts).map _)
            = String.join (s :: parts.filterMap GeminiPart.text?)
          rw [String.join_cons, String.join_cons, ih, Item.text_assistant]
      | functionCall fc =>
          show String.join ("" :: (geminiItems toJson (i + 1) parts).map _) = _
          rw [String.join_cons, ih, String.empty_append]
          rfl
      | inlineData => exact ih i
      | fileData => exact ih i
      | functionResponse => exact ih i

theorem callFields_geminiItems (toJson : ν → String) (i : Nat) (parts : List (GeminiPart ν)) :
    (geminiItems toJson i parts).filterMap callFields
      = (parts.filterMap GeminiPart.functionCall?).map (GeminiFunctionCall.fields toJson) := by
  induction parts generalizing i with
  | nil => rfl
  | cons p parts ih =>
      cases p with
      | text s =>
          show (geminiItems toJson (i + 1) parts).filterMap callFields = _
          rw [ih]
          rfl
      | functionCall fc =>
          show fc.fields toJson :: (geminiItems toJson (i + 1) parts).filterMap callFields = _
          rw [ih]
          rfl
      | inlineData => exact ih i
      | fileData => exact ih i
      | functionResponse => exact ih i

namespace GeminiProvider

variable (toJson : ν → String) (uuid : String) (now : Int) (answer : GeminiResponse ν)
  (model : String)

/-- The text of a response is the text of the first candidate. -/
theorem text_transformResponse :
    (transformResponse toJson uuid now answer model).text = String.join answer.texts :=
  text_geminiItems toJson 0 answer.parts

/-- The function calls of a response are those of the first candidate, in their order. -/
theorem callFields_transformResponse :
    (transformResponse toJson uuid now answer model).output.filterMap callFields
      = (answer.parts.filterMap GeminiPart.functionCall?).map
          (GeminiFunctionCall.fields toJson) :=
  callFields_geminiItems toJson 0 answer.parts

end GeminiProvider

end AuraGateway.Provider
