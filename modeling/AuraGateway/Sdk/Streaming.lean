import AuraGateway.Foundations.Framing
import AuraGateway.Sdk.PythonTypes

/-!
# Stream parsers of the SDKs

How the TypeScript and the Python SDK read a stream of events: both collect decoded text in
a buffer, cut off blocks at empty lines, read the `event:` and `data:` lines of a block and
parse the data. TypeScript hands on what it parsed where it lists the event's name; Python
validates it with the model its map has for the name.
-/

set_option autoImplicit false

namespace AuraGateway.Sdk

open AuraGateway.Types AuraGateway.Foundations.Framing

/-! ## Text -/

/-- The characters `String.prototype.trim` removes. -/
def isJsSpace (c : Char) : Bool :=
  let n := c.toNat
  (0x0009 ≤ n && n ≤ 0x000D) || n == 0x0020 || n == 0x00A0 || n == 0x1680
    || (0x2000 ≤ n && n ≤ 0x200A) || n == 0x2028 || n == 0x2029 || n == 0x202F || n == 0x205F
    || n == 0x3000 || n == 0xFEFF

/-- The characters `str.strip` removes. -/
def isPySpace (c : Char) : Bool :=
  let n := c.toNat
  (0x0009 ≤ n && n ≤ 0x000D) || (0x001C ≤ n && n ≤ 0x0020) || n == 0x0085 || n == 0x00A0
    || n == 0x1680 || (0x2000 ≤ n && n ≤ 0x200A) || n == 0x2028 || n == 0x2029 || n == 0x202F
    || n == 0x205F || n == 0x3000

/-- Remove characters at both ends. -/
def trimBy (isSpace : Char → Bool) (t : List Char) : List Char :=
  (t.dropWhile isSpace).rdropWhile isSpace

/-- The JSON functions on the way: what the gateway writes, what each SDK reads, and the
text of the double that JavaScript reads a number as. -/
structure JsonText where
  write : Json → String
  jsonParse : String → Option Json
  jsonLoads : String → Option Json
  double : String → String

/-! ## Blocks -/

/-- The `event:` line and the `data:` lines of a block. -/
structure Block where
  event : Option (List Char)
  data : List (List Char)

/-- Read one line; comments and other lines are ignored. -/
def readLine (isSpace : Char → Bool) (b : Block) (line : List Char) : Block :=
  if "event:".toList <+: line then { b with event := some (trimBy isSpace (line.drop 6)) }
  else if "data:".toList <+: line then { b with data := b.data ++ [trimBy isSpace (line.drop 5)] }
  else b

def readBlock (isSpace : Char → Bool) (text : List Char) : Block :=
  (text.splitOn '\n').foldl (readLine isSpace) { event := none, data := [] }

/-- The data lines as one text. -/
def Block.dataStr (b : Block) : String := String.ofList (['\n'].intercalate b.data)

/-- Records are separated by an empty line. -/
def separator : List Char := ['\n', '\n']

theorem separator_ne_nil : separator ≠ [] := List.cons_ne_nil _ _

/-! ## TypeScript -/

/-- `STREAM_EVENT_TYPES`. -/
def streamEventTypes : List String :=
  ["response.created", "response.in_progress", "response.completed", "response.failed",
    "response.output_item.added", "response.output_item.done", "response.output_text.delta",
    "response.output_text.done", "response.function_call.delta", "response.function_call.done",
    "error"]

/-- Parse one block into an event; its name is in the event line, or else in the data. -/
def parseSSEChunk (c : JsonText) (chunk : List Char) : Option Json :=
  let block := readBlock isJsSpace chunk
  if block.data = [] then none
  else if block.dataStr = "[DONE]" then none
  else
    match c.jsonParse block.dataStr with
    | none => none
    | some data =>
        let type :=
          match block.event with
          | some name => some (String.ofList name)
          | none => (data.get "type").bind Json.asStr
        match type with
        | some type => if type ∈ streamEventTypes then some data else none
        | none => none

/-- Turn decoded chunks into events. `flushed` is what the decoder gives at the end. -/
def parseSSE (c : JsonText) (chunks : List (List Char)) (flushed : List Char) : List Json :=
  let fed := feed separator separator_ne_nil [] chunks
  let tail := trimBy isJsSpace (fed.2 ++ flushed)
  fed.1.filterMap (parseSSEChunk c) ++ if tail = [] then [] else (parseSSEChunk c tail).toList

/-! ## Python -/

/-- An event of the Python SDK: its class, by the name of the event, and its fields. -/
structure PyEvent where
  cls : String
  fields : Json

/-- What can end the generator early. -/
inductive PyError where
  /-- `data.get` where the data is no dictionary. -/
  | attributeError
  /-- A list or a dictionary as the key of a lookup. -/
  | typeError
  deriving DecidableEq

/-- Parse event data into the type the map has for the event. A type that is no string is
falsy, unknown to the map, or cannot be looked up. -/
def parseEventData (p : Pydantic) (eventType data : Json) : Except PyError (Option PyEvent) :=
  match eventType with
  | .string name =>
      if name = "" then .ok none
      else
        .ok (((Python.eventMap p).lookup name).bind fun eventClass =>
          (eventClass.validate data).map fun fields => { cls := name, fields })
  | .array (_ :: _) | .object (_ :: _) => .error .typeError
  | _ => .ok none

/-- Parse a single event. -/
def parseSseEvent (c : JsonText) (p : Pydantic) (eventStr : List Char) :
    Except PyError (Option PyEvent) :=
  let block := readBlock isPySpace eventStr
  if block.data = [] then .ok none
  else if block.dataStr = "[DONE]" then .ok none
  else
    match c.jsonLoads block.dataStr with
    | none => .ok none
    | some data =>
        let fromData :=
          match data with
          | .object _ => parseEventData p ((data.get "type").getD .null) data
          | _ => .error .attributeError
        match block.event with
        | some name =>
            if name = [] then fromData else parseEventData p (.string (String.ofList name)) data
        | none => fromData

/-- The events of a series of blocks, up to an exception. -/
def parseBlocks (c : JsonText) (p : Pydantic) : List (List Char) → List PyEvent × Option PyError
  | [] => ([], none)
  | eventStr :: rest =>
      match parseSseEvent c p eventStr with
      | .error e => ([], some e)
      | .ok event =>
          let parsed := parseBlocks c p rest
          (event.toList ++ parsed.1, parsed.2)

/-- Parse the events of a stream; what is left in the buffer at the end is dropped. -/
def parseSseStream (c : JsonText) (p : Pydantic) (chunks : List (List Char)) :
    List PyEvent × Option PyError :=
  parseBlocks c p (feed separator separator_ne_nil [] chunks).1

/-- Both SDKs know the same names. -/
theorem eventMap_names (p : Pydantic) : (Python.eventMap p).map Prod.fst = streamEventTypes := rfl

end AuraGateway.Sdk
