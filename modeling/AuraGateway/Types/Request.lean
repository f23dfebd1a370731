import AuraGateway.Types.Routing

/-!
# Requests

The body of `POST /v1/responses` as the gateway passes it between its parts:
input items, tools, sampling parameters and the routing options. Items carry
everything the feature extractor, the eligibility oracle, the cache key and the
outgoing provider calls read.
-/

set_option autoImplicit false

namespace AuraGateway.Types

/-- JSON values; a number is kept as its source text. -/
inductive Json where
  | null
  | bool (b : Bool)
  | number (text : String)
  | string (s : String)
  | array (items : List Json)
  | object (fields : List (String × Json))

namespace Json

/-- The elements of an array. -/
def asArray : Json → Option (List Json)
  | .array items => some items
  | _ => none

/-- The text of a string. -/
def asStr : Json → Option String
  | .string s => some s
  | _ => none

/-- The value of an object's field. -/
def get (key : String) : Json → Option Json
  | .object fields => fields.lookup key
  | _ => none

end Json

/-- Author of a message. -/
inductive Role where
  | user
  | assistant
  | system
  | tool
  deriving DecidableEq, Repr

/-- One part of a message. -/
inductive ContentPart where
  | text (text : String)
  | image (url data mediaType : Option String)
  | audio (data : String) (mediaType : Option String)
  deriving DecidableEq, Repr

/-- Content of an input message. -/
inductive InputContent where
  | text (text : String)
  | parts (parts : List ContentPart)
  deriving DecidableEq, Repr

/-- An input item. -/
inductive InputItem where
  | message (role : Role) (content : InputContent)
  | functionCall (callId name arguments : String)
  | functionCallOutput (callId output : String)
  deriving DecidableEq, Repr

/-- A user message with plain text. -/
def InputItem.user (text : String) : InputItem := .message .user (.text text)

/-- A function the model may call. -/
structure FunctionDefinition where
  name : String
  description : Option String := none
  parameters : Option Json := none
  strict : Option Bool := none

/-- A tool attached to a request; functions are the only kind. -/
structure Tool where
  function : FunctionDefinition

/-- Keyword form of `tool_choice`. -/
inductive ToolChoiceAuto where
  | auto
  | required
  | none
  deriving DecidableEq, Repr

/-- How the model should use tools. -/
inductive ToolChoice where
  | auto (choice : ToolChoiceAuto)
  | function (type name : String)
  deriving DecidableEq, Repr

/-- How a response is validated. -/
inductive ValidationStrategy where
  | none
  | logprobs
  | bestOfN
  | selfConsistency
  | confidenceThreshold
  | ensemble
  deriving DecidableEq, Repr

/-- The part of the validation settings that decides how many candidates are fired and which
confidence is enough. -/
structure ValidationConfig where
  strategy : ValidationStrategy := .none
  n : Option Nat := none
  minConfidence : Option Float32 := none
  deriving DecidableEq, Repr

/-- A create-response request. -/
structure CreateResponseRequest where
  model : String
  input : List InputItem
  instructions : Option String := none
  maxOutputTokens : Option Nat := none
  temperature : Option Float32 := none
  topP : Option Float32 := none
  stream : Bool := false
  previousResponseId : Option String := none
  tools : Option (List Tool) := none
  toolChoice : Option ToolChoice := none
  user : Option String := none
  metadata : Option Json := none
  validation : Option ValidationConfig := none
  consistency : Option Json := none
  compression : Option Json := none
  routing : Option RoutingOptions := none

/-- A request with one user message. -/
def CreateResponseRequest.text (model text : String) : CreateResponseRequest :=
  { model, input := [.user text] }

end AuraGateway.Types
