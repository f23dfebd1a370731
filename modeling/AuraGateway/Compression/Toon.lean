import AuraGateway.Compression.Yaml

/-!
# TOON encoding

An array whose elements are objects with the same keys is written as a table: a header with the
number of rows and the names of the fields, and a line for each object with its values between
commas. A string with a comma, a line break or a quotation mark is put in quotes.
-/

set_option autoImplicit false

namespace AuraGateway.Compression

open AuraGateway.Types

structure ToonConfig where
  minArraySize : Nat := 2
  minFields : Nat := 2

/-- The error of the encoder. -/
inductive ToonError where
  | notUniformArray (reason : String)
  deriving DecidableEq, Repr

/-- `serde_json::to_string`, which writes a value on one line. -/
structure JsonWriter where
  toString : Json → List Char
  oneLine : ∀ v, '\n' ∉ toString v

namespace Toon

variable (config : ToonConfig) (json : JsonWriter)

/-- `Value::as_object`. -/
def asObject : Json → Option (List (String × Json))
  | .object fields => some fields
  | _ => none

/-- Check if an array is uniform (all objects with same keys). -/
def isUniformArray (arr : List Json) : Bool :=
  if arr.length < config.minArraySize then false
  else match arr.head?.bind asObject with
    | none => false
    | some first =>
        if first.length < config.minFields then false
        else arr.all fun item => match asObject item with
          | some obj => obj.length == first.length
              && (first.map Prod.fst).all fun k => (obj.lookup k).isSome
          | none => false

/-! ## Values -/

/-- The string contains special characters. -/
def hasSpecial (s : List Char) : Bool := s.contains ',' || s.contains '\n' || s.contains '"'

def encodeString (s : List Char) : List Char :=
  if hasSpecial s then '"' :: Yaml.replace '"' ['\\', '"'] s ++ ['"'] else s

mutual

def encodeValue : Json → List Char
  | .null => ['~']
  | .bool b => if b then ['T'] else ['F']
  | .number text => text.toList
  | .string s => encodeString s.toList
  | .array items =>
      if items.isEmpty then ['[', ']'] else '[' :: [','].intercalate (encodeItems items) ++ [']']
  | .object fields => json.toString (.object fields)

def encodeItems : List Json → List (List Char)
  | [] => []
  | v :: items => encodeValue v :: encodeItems items

end

/-! ## Tables, arrays and objects -/

/-- The number of rows, and the names of the fields. -/
def header (count : Nat) (fields : List String) : List Char :=
  ['['] ++ (toString count).toList ++ [']', '\x7b']
    ++ [','].intercalate (fields.map String.toList) ++ ['\x7d', ':']

def encodeTabular (arr : List Json) : Except ToonError (List Char) :=
  match arr.head?.bind asObject with
  | none => .error (.notUniformArray "Array is empty or first element is not an object")
  | some first =>
      let fields := first.map Prod.fst
      let rows := (arr.filterMap asObject).map fun obj =>
        [','].intercalate (fields.map fun field =>
          encodeValue json ((obj.lookup field).getD .null))
      .ok (header arr.length fields ++ ['\n', ' ', ' '] ++ ['\n', ' ', ' '].intercalate rows)

/-- The text two columns further to the right, its first line apart. -/
def indent (s : List Char) : List Char := Yaml.replace '\n' ['\n', ' ', ' '] s

mutual

/-- The part of an object for one of its fields. -/
def encodePart (key : List Char) : Json → Except ToonError (List Char)
  | .array arr =>
      if isUniformArray config arr then do
        let tabular ← encodeTabular json arr
        return key ++ [':', '\n', ' ', ' '] ++ indent tabular
      else return key ++ [':', ' '] ++ encodeValue json (.array arr)
  | .object nested => do
      let encoded ← if nested.isEmpty then pure ['\x7b', '\x7d'] else
        return ['\n'].intercalate (← encodeParts nested)
      return key ++ [':', '\n', ' ', ' '] ++ indent encoded
  | v => return key ++ [':', ' '] ++ encodeValue json v

def encodeParts : List (String × Json) → Except ToonError (List (List Char))
  | [] => return []
  | (key, v) :: fields => return (← encodePart key.toList v) :: (← encodeParts fields)

end

def encodeObject (obj : List (String × Json)) : Except ToonError (List Char) :=
  if obj.isEmpty then return ['\x7b', '\x7d']
  else return ['\n'].intercalate (← encodeParts config json obj)

/-- The elements of an array that is no table: on one line when all of them are simple. -/
def joinElements (arr : List Json) (encoded : List (List Char)) : List Char :=
  if arr.all isScalar then ['['] ++ [','].intercalate encoded ++ [']']
  else ['[', '\n', ' ', ' '] ++ [',', '\n', ' ', ' '].intercalate encoded ++ ['\n', ']']

mutual

/-- `ToonEncoder::encode`, with `encode_array` for arrays. -/
def encode : Json → Except ToonError (List Char)
  | .array arr =>
      if arr.isEmpty then return ['[', ']']
      else if isUniformArray config arr then encodeTabular json arr
      else return joinElements arr (← encodeElements arr)
  | .object obj => encodeObject config json obj
  | v => return json.toString v

def encodeElements : List Json → Except ToonError (List (List Char))
  | [] => return []
  | v :: arr => return (← encode v) :: (← encodeElements arr)

end

end Toon

end AuraGateway.Compression
