import AuraGateway.Compression.Values
import AuraGateway.Foundations.UniqueReading
import AuraGateway.Standard.RustStd

/-!
# YAML conversion

Values are written as YAML with few quotation marks: objects as a line for each field, arrays as a
line for each item or, when they are short and simple, in brackets. Strings that look like something
else are quoted.
-/

set_option autoImplicit false

namespace AuraGateway.Compression

open AuraGateway.Types AuraGateway.Foundations.UniqueReading

structure YamlConfig where
  flowShortArrays : Bool := true
  flowThreshold : Nat := 5
  minimalQuotes : Bool := true

namespace Yaml

variable (config : YamlConfig)

/-! ## Scalars -/

/-- Whether the string needs quoting. -/
def needsQuotes (s : List Char) : Bool :=
  s.isEmpty
    || s.head? = some ' '
    || s.getLast? = some ' '
    || s.contains ':'
    || s.contains '#'
    || s.contains '\n'
    || s.contains '"'
    || s.contains '\''
    || s.head? = some '-'
    || s.head? = some '['
    || s.head? = some '{'
    || s = ['t', 'r', 'u', 'e']
    || s = ['f', 'a', 'l', 's', 'e']
    || s = ['n', 'u', 'l', 'l']
    || s = ['~']
    || parsesF64 s

/-- `str::replace` of one character. -/
def replace (c : Char) (by_ : List Char) (s : List Char) : List Char :=
  s.flatMap fun d => if d = c then by_ else [d]

/-- In double quotes, with the quotes inside escaped. -/
def quote (s : List Char) : List Char :=
  '"' :: replace '"' ['\\', '"'] (replace '\\' ['\\', '\\'] s) ++ ['"']

def formatString (s : List Char) : List Char :=
  if needsQuotes s || !config.minimalQuotes then quote s else s

/-! ## Arrays and objects -/

/-- `"  ".repeat(indent)`. -/
def indentStr (indent : Nat) : List Char := List.replicate (2 * indent) ' '

/-- Whether the array is written in brackets. -/
def isFlow (items : List Json) : Bool :=
  config.flowShortArrays && items.length ≤ config.flowThreshold && items.all isScalar

/-- A line for an item, and the lines below it. -/
def formatItem (indent : Nat) (v : Json) (formatted : List Char) : List Char :=
  match v with
  | .object _ =>
      -- the first key stands on the line of the dash
      if '\n' ∈ formatted then
        indentStr indent ++ ['-', ' '] ++ formatted.takeWhile (· != '\n')
          ++ formatted.dropWhile (· != '\n')
      else indentStr indent ++ ['-', ' '] ++ formatted
  | .array _ => indentStr indent ++ ['-', '\n'] ++ formatted
  | _ => indentStr indent ++ ['-', ' '] ++ formatted

def formatKey (key : List Char) : List Char :=
  if key.contains ':' || key.contains ' ' || key.isEmpty then '"' :: key ++ ['"'] else key

/-- A line for a field, and the lines below it. -/
def formatField (indent : Nat) (key : String) (v : Json) (formatted : List Char) : List Char :=
  let inline := indentStr indent ++ formatKey key.toList ++ [':', ' '] ++ formatted
  match v with
  | .object _ | .array _ =>
      if formatted.head? = some '[' ∨ formatted.head? = some '{' then inline
      else indentStr indent ++ formatKey key.toList ++ [':', '\n'] ++ formatted
  | _ => inline

mutual

/-- A value that stands at an indentation. -/
def toYaml (indent : Nat) : Json → List Char
  | .null => ['~']
  | .bool b => if b then ['t', 'r', 'u', 'e'] else ['f', 'a', 'l', 's', 'e']
  | .number text => text.toList
  | .string s => formatString config s.toList
  | .array items =>
      if items.isEmpty then ['[', ']']
      else if isFlow config items then
        '[' :: [',', ' '].intercalate (flowItems items) ++ [']']
      else ['\n'].intercalate (blockItems indent items)
  | .object fields =>
      if fields.isEmpty then ['{', '}'] else ['\n'].intercalate (blockFields indent fields)

def flowItems : List Json → List (List Char)
  | [] => []
  | v :: items => toYaml 0 v :: flowItems items

def blockItems (indent : Nat) : List Json → List (List Char)
  | [] => []
  | v :: items => formatItem indent v (toYaml (indent + 1) v) :: blockItems indent items

def blockFields (indent : Nat) : List (String × Json) → List (List Char)
  | [] => []
  | (key, v) :: fields =>
      formatField indent key v (toYaml (indent + 1) v) :: blockFields indent fields

end

/-- `YamlConverter::convert`. -/
def convert (v : Json) : String := String.ofList (toYaml config 0 v)

end Yaml

end AuraGateway.Compression
