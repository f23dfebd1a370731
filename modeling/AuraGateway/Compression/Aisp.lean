import AuraGateway.Foundations.LeftmostRegex
import AuraGateway.Standard.JsStd
import AuraGateway.Types.SseMessage

/-!
# AISP encoding

Rules in natural language are rewritten in symbols, line by line: definitions, quantifiers, rules,
logical connectives, comparisons and memberships, one after another. The phrases are described by
regular expressions.
-/

set_option autoImplicit false

namespace AuraGateway.Compression

open AuraGateway.RustStd AuraGateway.Types
open AuraGateway.JsStd (CaseTable)
open AuraGateway.Foundations.LeftmostRegex

/-- AISP configuration. -/
structure AispConfig where
  convertRules : Bool := true
  convertDefinitions : Bool := true
  convertQuantifiers : Bool := true
  deriving DecidableEq, Repr

/-- The classes `\w` and `\d` of the regular expressions. -/
structure CharTables where
  isWord : Char → Bool
  isDigit : Char → Bool
  isWord_of_alphanum : ∀ c, c.isAlphanum = true → isWord c = true

namespace Aisp

/-! ## Classes and words -/

/-- A letter of a pattern, which is in lower case, matches both cases of it: `(?i)`. -/
def sameLetter (c d : Char) : Bool :=
  d.toLower == c || (c == 's' && d == 'ſ') || (c == 'k' && d == '\u212a')

def word (s : String) : Regex Char :=
  Regex.seqs (s.toList.map fun c => .one (sameLetter c))

/-- Words in the order in which they are tried. -/
def words (s : String) (rest : List String) : Regex Char :=
  rest.foldl (fun r w => .alt r (word w)) (word s)

/-- `.` -/
def isAny (c : Char) : Bool := c != '\n'

/-- `\s+` -/
def spaces : Regex Char := Regex.plus isWhitespace

/-- `\s*` -/
def maybeSpaces : Regex Char := .many isWhitespace true

section Patterns

variable (tables : CharTables)

/-- `\b` -/
def boundary : Regex Char :=
  .look fun prev next => prev.any tables.isWord != next.any tables.isWord

/-- `^` -/
def textStart : Regex Char := .look fun prev _ => prev.isNone

/-- `$` -/
def textEnd : Regex Char := .look fun _ next => next.isNone

/-! ## Patterns for detecting convertible phrases -/

def forAllPattern : Regex Char :=
  Regex.seqs [boundary tables, .group 1 (words "for all" ["for each", "for every", "all"]), spaces,
    .group 2 (Regex.plus tables.isWord), Regex.opt (word "s"), spaces,
    .group 3 (words "in" ["of", "from"]), spaces, .group 4 (Regex.plus tables.isWord)]

def existsPattern : Regex Char :=
  Regex.seqs [boundary tables,
    .group 1 (.alt (.seq (word "there exist") (Regex.opt (word "s")))
      (.alt (.seq (word "exist") (Regex.opt (word "s"))) (words "some" ["at least one"]))),
    spaces, .group 2 (Regex.plus tables.isWord), maybeSpaces,
    Regex.opt (.group 3 (words "in" ["of", "from", "such that", "where"]))]

def definePattern : Regex Char :=
  Regex.seqs [boundary tables, .group 1 (words "define" ["set", "let"]), spaces,
    .group 2 (Regex.plus tables.isWord), maybeSpaces, .group 3 (words "as" ["to", "=", ":="]),
    maybeSpaces, .group 4 (Regex.plus isAny)]

def equalsDefPattern : Regex Char :=
  Regex.seqs [textStart, .group 1 (Regex.plus tables.isWord), maybeSpaces, word "=", maybeSpaces,
    .group 2 (Regex.plus isAny), textEnd]

/-- A condition behind a word, and what follows from it behind another. -/
def conditionalPattern (keyword : String) : Regex Char :=
  Regex.seqs [boundary tables, word keyword, spaces, .group 1 (Regex.plusLazy isAny), maybeSpaces,
    Regex.opt (word ","), maybeSpaces, word "then", spaces, .group 2 (Regex.plus isAny)]

def ifThenPattern : Regex Char := conditionalPattern tables "if"

def whenThenPattern : Regex Char := conditionalPattern tables "when"

def impliesPattern : Regex Char :=
  Regex.seqs [boundary tables, .group 1 (Regex.plusLazy isAny), spaces, word "implies", spaces,
    .group 2 (Regex.plus isAny)]

def andPattern : Regex Char := Regex.seqs [spaces, word "and", spaces]

def orPattern : Regex Char := Regex.seqs [spaces, word "or", spaces]

def notPattern : Regex Char :=
  Regex.seqs [boundary tables,
    .group 1 (words "not" ["don't", "doesn't", "isn't", "aren't", "won't", "cannot", "can't"]),
    spaces]

/-- A word, a relation in words with or without an `is`, and an operand. -/
def relationPattern (relation : Regex Char) (operand : Char → Bool) : Regex Char :=
  Regex.seqs [.group 1 (Regex.plus tables.isWord), spaces,
    Regex.opt (.group 2 (.seq (word "is") spaces)), .group 3 relation, spaces,
    .group 4 (Regex.plus operand)]

def greaterThanPattern : Regex Char :=
  relationPattern tables
    (.alt (words "greater than" ["more than", "above"])
      (.alt (.seq (word "exceed") (Regex.opt (word "s"))) (word ">"))) tables.isDigit

def lessThanPattern : Regex Char :=
  relationPattern tables (words "less than" ["fewer than", "below", "under", "<"]) tables.isDigit

def atLeastPattern : Regex Char :=
  relationPattern tables (words "at least" [">=", "≥"]) tables.isDigit

def atMostPattern : Regex Char :=
  relationPattern tables (words "at most" ["<=", "≤"]) tables.isDigit

def inSetPattern : Regex Char :=
  relationPattern tables (words "in" ["member of", "belongs to", "∈"]) tables.isWord

def notInSetPattern : Regex Char :=
  relationPattern tables
    (words "not in" ["not a member of", "doesn't belong to", "∉"]) tables.isWord

end Patterns

/-! ## The encoder -/

section Encoder

variable (captures : Engine Char) (tables : CharTables) (table : CaseTable)

/-- `Regex::replace`: the first match. -/
def replace (r : Regex Char) (replacement text : List Char) : List Char :=
  match captures r none text with
  | some caps => caps.before ++ replacement ++ caps.rest
  | none => text

/-- `Regex::replace_all` behind a character. Every match takes a character, so the length of the text
is enough for `fuel`. -/
def replaceAllFrom (r : Regex Char) (replacement : Found Char → List Char) :
    Nat → Option Char → List Char → List Char
  | 0, _, text => text
  | fuel + 1, prev, text =>
      match captures r prev text with
      | some caps => caps.before ++ replacement caps
          ++ replaceAllFrom r replacement fuel ((caps.before ++ caps.taken).getLast?.or prev) caps.rest
      | none => text

def replaceAll (r : Regex Char) (replacement : Found Char → List Char) (text : List Char) :
    List Char :=
  replaceAllFrom captures r replacement (text.length + 1) none text

/-- Two operands and a symbol between them. -/
def symbolic (left : List Char) (symbol : Char) (right : List Char) : List Char :=
  left ++ [' ', symbol, ' '] ++ right

def convertDefinitions (input : List Char) : List Char :=
  match captures (definePattern tables) none input with
  | some caps => symbolic (caps.get 2) '≜' (caps.get 4)
  | none =>
      match captures (equalsDefPattern tables) none input with
      | some caps => symbolic (caps.get 1) '≜' (caps.get 2)
      | none => input

/-- The first letter of a variable, in lower case. -/
def varLower (var : List Char) : List Char := table.lowerChar [] (var.head?.getD 'x') []

def convertQuantifiers (input : List Char) : List Char :=
  let result :=
    match captures (forAllPattern tables) none input with
    | some caps =>
        replace captures (forAllPattern tables)
          ('∀' :: varLower table (caps.get 2) ++ '∈' :: caps.get 4 ++ [':']) input
    | none => input
  match captures (existsPattern tables) none result with
  | some caps =>
      let suffix := caps.get 3
      let colon :=
        if suffix.isEmpty || suffix == "such that".toList || suffix == "where".toList then [':']
        else []
      replace captures (existsPattern tables) ('∃' :: varLower table (caps.get 2) ++ colon) result
  | none => result

/-- "if X then Y" -> "X ⇒ Y", with the pattern of the words. -/
def convertConditional (r : Regex Char) (input : List Char) : List Char :=
  match captures r none input with
  | some caps => symbolic (trimChars (caps.get 1)) '⇒' (trimChars (caps.get 2))
  | none => input

def convertRules (input : List Char) : List Char :=
  let result := convertConditional captures (ifThenPattern tables) input
  let result := convertConditional captures (whenThenPattern tables) result
  replaceAll captures (impliesPattern tables)
    (fun caps => symbolic (trimChars (caps.get 1)) '⇒' (trimChars (caps.get 2))) result

def convertLogic (input : List Char) : List Char :=
  let result := replaceAll captures andPattern (fun _ => [' ', '∧', ' ']) input
  let result := replaceAll captures orPattern (fun _ => [' ', '∨', ' ']) result
  replaceAll captures (notPattern tables) (fun _ => ['¬']) result

/-- "X greater than N" -> "X > N", with the pattern of a relation and its symbol. -/
def convertRelation (r : Regex Char) (symbol : Char) (input : List Char) : List Char :=
  match captures r none input with
  | some caps => replace captures r (symbolic (caps.get 1) symbol (caps.get 4)) input
  | none => input

def convertComparisons (input : List Char) : List Char :=
  let result := convertRelation captures (greaterThanPattern tables) '>' input
  let result := convertRelation captures (lessThanPattern tables) '<' result
  let result := convertRelation captures (atLeastPattern tables) '≥' result
  convertRelation captures (atMostPattern tables) '≤' result

def convertMembership (input : List Char) : List Char :=
  let result := convertRelation captures (notInSetPattern tables) '∉' input
  convertRelation captures (inSetPattern tables) '∈' result

variable (config : AispConfig)

/-- The text of a line that its rules are converted in. -/
def beforeRules (input : List Char) : List Char :=
  let result := if config.convertDefinitions then convertDefinitions captures tables input else input
  if config.convertQuantifiers then convertQuantifiers captures tables table result else result

def encodeLine (input : List Char) : List Char :=
  let result := beforeRules captures tables table config input
  let result := if config.convertRules then convertRules captures tables result else result
  let result := convertLogic captures tables result
  let result := convertComparisons captures tables result
  convertMembership captures tables result

/-- The texts that are encoded one by one: the lines, or the whole input if it has only one. -/
def encodedLines (input : List Char) : List (List Char) :=
  if 1 < (strLines input).length then strLines input else [input]

/-- `AispEncoder::encode` -/
def encode (input : List Char) : List Char :=
  ['\n'].intercalate ((encodedLines input).map (encodeLine captures tables table config))

end Encoder

end Aisp

end AuraGateway.Compression
