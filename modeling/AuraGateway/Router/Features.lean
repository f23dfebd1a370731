import AuraGateway.Router.Config
import AuraGateway.Types.Request

/-!
# Feature extraction

Turns a request into the numeric feature vector the scorer reads. Regular
expressions and the Unicode letter tables come from outside the repository: a
`TextEngine` stands for them, and no result constrains it.
-/

set_option autoImplicit false

namespace AuraGateway.Router

open AuraGateway.RustStd AuraGateway.Types

/-- The regular-expression engine and the Unicode tables behind
`char::is_alphabetic` and `char::is_numeric`. `build pattern insensitive` is the
compiled matcher, `none` when the pattern does not compile. -/
structure TextEngine where
  build : String → Bool → Option (String → Bool)
  escape : String → String
  isAlphabetic : Char → Bool
  isNumeric : Char → Bool

/-- Explicit user intent about answer depth. -/
inductive IntentHint where
  | quick
  | deep
  deriving DecidableEq, Repr

/-- Numeric features describing one request. -/
structure RequestFeatures where
  estInputTokens : Nat := 0
  estLastUserTokens : Nat := 0
  inputItems : Nat := 0
  userMessages : Nat := 0
  functionCallOutputs : Nat := 0
  isContinuation : Bool := false
  isToolLoopTurn : Bool := false
  toolCount : Nat := 0
  toolRequired : Bool := false
  hasImages : Bool := false
  hasAudio : Bool := false
  maxOutputTokens : Option Nat := none
  code : Float := 0.0
  codeMatches : Nat := 0
  reasoning : Float := 0.0
  reasoningMatches : Nat := 0
  technical : Float := 0.0
  technicalMatches : Nat := 0
  simple : Float := 0.0
  simpleMatches : Nat := 0
  multiStep : Float := 0.0
  questionMarks : Nat := 0
  explicitIntent : Option IntentHint := none
  nonAsciiRatio : Float := 0.0
  codeFences : Nat := 0

/-- Rough token estimate for a number of characters: four per token, rounded up. -/
def tokensForChars (n : Nat) : Nat := (n + 3) / 4

/-- Rough token estimate. -/
def estimateTokens (text : String) : Nat := tokensForChars text.length

/-! ## Collecting text -/

/-- Text collected from the request for scoring. -/
structure Collected where
  userText : String := ""
  lastUser : String := ""
  allText : String := ""

/-- Append a text part on a line of its own. -/
def pushPart (out text : String) : String :=
  if out.isEmpty then out ++ text else out ++ "\n" ++ text

/-- Text of a message; image and audio parts only set their flags. -/
def contentText (f : RequestFeatures) : InputContent → RequestFeatures × String
  | .text t => (f, t)
  | .parts parts =>
      parts.foldl
        (fun acc p => match p with
          | .text text => (acc.1, pushPart acc.2 text)
          | .image .. => ({ acc.1 with hasImages := true }, acc.2)
          | .audio .. => ({ acc.1 with hasAudio := true }, acc.2))
        (f, "")

/-- Fold one input item into the features and the collected text. -/
def collectItem (acc : RequestFeatures × Collected) (item : InputItem) :
    RequestFeatures × Collected :=
  let f := { acc.1 with inputItems := acc.1.inputItems + 1 }
  let c := acc.2
  match item with
  | .message role content =>
      let (f, text) := contentText f content
      let c := { c with allText := c.allText ++ text ++ "\n" }
      -- assistant and tool text is not scored, only counted
      match role with
      | .user =>
          ({ f with userMessages := f.userMessages + 1 },
            { c with lastUser := text, userText := c.userText ++ text ++ "\n" })
      | .system => (f, { c with userText := c.userText ++ text ++ "\n" })
      | .assistant => (f, c)
      | .tool => (f, c)
  | .functionCall _ _ arguments => (f, { c with allText := c.allText ++ arguments ++ "\n" })
  | .functionCallOutput _ output =>
      ({ f with functionCallOutputs := f.functionCallOutputs + 1 },
        { c with allText := c.allText ++ output ++ "\n" })

/-- Collect the text of a request. Instructions count as user text. -/
def collect (request : CreateResponseRequest) : RequestFeatures × Collected :=
  let start : Collected :=
    match request.instructions with
    | some instr => { allText := instr ++ "\n", userText := instr ++ "\n" }
    | none => {}
  request.input.foldl collectItem ({}, start)

/-! ## Keyword matching -/

/-- A compiled keyword. -/
inductive Matcher where
  | word (isMatch : String → Bool)
  | phrase (p : String)

/-- Compile a keyword: a single word by word-boundary expression, anything else
as a lowered substring. -/
def Matcher.compile (engine : TextEngine) (keyword : String) : Option Matcher :=
  let kw := trim keyword
  if kw.isEmpty then none
  else
    let wordChar := fun c : Char =>
      engine.isAlphabetic c || engine.isNumeric c || c == '_' || c == '-'
    -- word boundaries only make sense around a single word
    let singleWord := !kw.toList.any isWhitespace && kw.toList.all wordChar
    if singleWord then (engine.build ("\\b" ++ engine.escape kw ++ "\\b") true).map .word
    else some (.phrase (toAsciiLowercase kw))

/-- Whether a compiled keyword occurs in the text. -/
def Matcher.isMatch (text textLower : String) : Matcher → Bool
  | .word re => re text
  | .phrase p => contains textLower.toList p.toList

/-- Compile a keyword list, dropping what does not compile. -/
def compileAll (engine : TextEngine) (list : List String) : List Matcher :=
  list.filterMap (Matcher.compile engine)

/-- Number of keywords that occur in the text. -/
def countKeywords (matchers : List Matcher) (text textLower : String) : Nat :=
  (matchers.filter (Matcher.isMatch text textLower)).length

/-- Compiled keyword matcher. -/
structure KeywordMatcher where
  code : List Matcher
  reasoning : List Matcher
  technical : List Matcher
  simple : List Matcher
  intentQuick : List Matcher
  intentDeep : List Matcher

/-- Compile the configured keyword lists. -/
def KeywordMatcher.new (engine : TextEngine) (lists : KeywordLists) : KeywordMatcher :=
  { code := compileAll engine lists.code
    reasoning := compileAll engine lists.reasoning
    technical := compileAll engine lists.technical
    simple := compileAll engine lists.simple
    intentQuick := compileAll engine lists.intentQuick
    intentDeep := compileAll engine lists.intentDeep }

/-- Expressions that mark multi-step instructions. -/
def multiStepPatterns : List String :=
  ["(?is)\\bfirst\\b.*\\bthen\\b",
    "(?im)^\\s*\\d+[.)]\\s+\\S",
    "(?im)^\\s*[a-z][.)]\\s+\\S",
    "(?i)\\b(after that|finally|and then|next,|lastly|subsequently)\\b"]

/-- Expressions that mark code: fences, source paths, calls, stack frames, line numbers. -/
def codePatterns : List String :=
  ["```",
    "(?i)\\b[\\w./-]+\\.(rs|py|ts|tsx|js|jsx|go|java|rb|cpp|cc|c|h|hpp|cs|kt|swift|sql|yaml|yml|json|toml|sh|proto)\\b",
    "[A-Za-z_][A-Za-z0-9_]*\\s*\\([^)]*\\)\\s*(\\\x7b|=>|->|:)",
    "(?m)^\\s+at\\s+[\\w$.<>]+\\s*\\(",
    "(?i)\\bline \\d+\\b"]

/-- Number of expressions that match the text; those that do not compile are skipped. -/
def countPatterns (engine : TextEngine) (patterns : List String) (text : String) : Nat :=
  ((patterns.filterMap fun p => engine.build p false).filter fun re => re text).length

/-- Map a match count to a score with two thresholds. -/
def tieredScore (matchCount half full : Nat) : Float :=
  if full ≤ matchCount then 1.0 else if half ≤ matchCount then 0.5 else 0.0

/-- Whether `tool_choice` forces a tool call. -/
def toolRequired : Option ToolChoice → Bool
  | some (.auto .required) => true
  | some (.function ..) => true
  | _ => false

/-- Explicit intent from the two keyword counts; a tie says nothing. -/
def explicitIntent (quick deep : Nat) : Option IntentHint :=
  if deep < quick then some .quick else if quick < deep then some .deep else none

/-- Fraction of alphabetic characters outside ASCII. -/
def nonAsciiRatio (engine : TextEngine) (text : String) : Float :=
  let letters := text.toList.filter engine.isAlphabetic
  let foreign := letters.filter fun c => 127 < c.toNat
  if letters.length = 0 then 0.0 else foreign.length.toFloat / letters.length.toFloat

/-- Extract features from a request. -/
def extractFeatures (engine : TextEngine) (request : CreateResponseRequest)
    (matcher : KeywordMatcher) : RequestFeatures :=
  let (f, collected) := collect request
  let isContinuation := request.previousResponseId.isSome
  let text := collected.userText
  let lower := toAsciiLowercase text
  let codeKw := countKeywords matcher.code text lower
  let codePat := countPatterns engine codePatterns text
  let codeFences := countMatches "```".toList text.toList / 2
  let reasoningMatches := countKeywords matcher.reasoning text lower
  let technicalMatches := countKeywords matcher.technical text lower
  let simpleMatches := countKeywords matcher.simple text lower
  { f with
    estInputTokens := estimateTokens collected.allText
    estLastUserTokens := estimateTokens collected.lastUser
    isContinuation
    isToolLoopTurn := isContinuation && decide (0 < f.functionCallOutputs)
    toolCount := (request.tools.map List.length).getD 0
    toolRequired := toolRequired request.toolChoice
    maxOutputTokens := request.maxOutputTokens
    codeFences
    codeMatches := codeKw + codePat
    code := if 0 < codeFences then 1.0 else tieredScore (codeKw + 2 * codePat) 1 2
    reasoningMatches
    reasoning := tieredScore reasoningMatches 1 2
    technicalMatches
    technical := tieredScore technicalMatches 2 4
    simpleMatches
    simple := tieredScore simpleMatches 1 2
    multiStep := tieredScore (countPatterns engine multiStepPatterns text) 1 3
    questionMarks := countMatches ['?'] text.toList
    explicitIntent :=
      explicitIntent (countKeywords matcher.intentQuick text lower)
        (countKeywords matcher.intentDeep text lower)
    nonAsciiRatio := nonAsciiRatio engine text }

end AuraGateway.Router
