import AuraGateway.Types.StreamEvent

/-!
# Building responses

The constructors of items, usage and responses that the providers use, and what a response
says: its text and its function calls.
-/

set_option autoImplicit false

namespace AuraGateway.Types

/-! ## Usage -/

/-- `Usage::new`; the total is a `u32`. -/
def Usage.new (inputTokens outputTokens : Nat) : Usage where
  inputTokens := inputTokens
  outputTokens := outputTokens
  totalTokens := (inputTokens + outputTokens) % 2 ^ 32
  reasoningTokens := none
  cachedTokens := none
  costUsd := none

/-- Record prompt-cache reads, leaving `cachedTokens` unset on a miss. -/
def Usage.withCacheHits (u : Usage) (cachedTokens : Nat) : Usage :=
  if 0 < cachedTokens then { u with cachedTokens := some cachedTokens } else u

/-! ## Items -/

/-- `MessageItem::assistant`. -/
def Item.assistant (id text : String) : Item := .message id .assistant [.text text] .completed

/-- `FunctionCallItem::new`. -/
def Item.newFunctionCall (id callId name arguments : String) : Item :=
  .functionCall id callId name arguments .completed

/-- `ReasoningItem::new`. -/
def Item.newReasoning (id text : String) : Item := .reasoning id [.text text] none .completed

/-- The text of a message, its parts joined; nothing for other items. -/
def Item.text : Item → String
  | .message _ _ content _ =>
      String.join (content.filterMap fun | .text t => some t | _ => none)
  | _ => ""

/-- The function call that an item is. -/
def Item.asFunctionCall : Item → Option Item
  | .functionCall id callId name arguments status =>
      some (.functionCall id callId name arguments status)
  | _ => none

@[simp] theorem Item.text_assistant (id text : String) : (Item.assistant id text).text = text := by
  simp [Item.assistant, Item.text, String.join]

/-! ## Responses -/

/-- `Response::builder`, built at `createdAt`. -/
def Response.builder (id model : String) (createdAt : Int) : Response where
  id := id
  object := "response"
  createdAt := createdAt
  model := model
  status := .inProgress
  output := []
  usage := none
  error := none
  incompleteReason := none
  previousResponseId := none
  metadata := none
  validation := none
  consistency := none

/-- `Response::in_progress`. -/
def Response.inProgress (id model : String) (createdAt : Int) : Response :=
  Response.builder id model createdAt

/-- The text of the output messages. -/
def Response.text (r : Response) : String := String.join (r.output.map Item.text)

/-- The function calls of the output. -/
def Response.functionCalls (r : Response) : List Item := r.output.filterMap Item.asFunctionCall

end AuraGateway.Types
