import AuraGateway.Standard.JsStd
import AuraGateway.Types.Request
import AuraGateway.Types.Routing

/-!
# Outcome signals and rewards

A routing decision is scored after the fact: from the status of its request, the feedback on
its response, and what the user did in the next turn of the conversation.
-/

set_option autoImplicit false

namespace AuraGateway.Decisions

open AuraGateway.Types AuraGateway.JsStd

/-! ## Signals -/

/-- What the user did after a turn. -/
inductive NextTurn where
  | none
  | moveOn
  | retry
  | correction
  | escalation
  deriving DecidableEq, Repr

/-- Stable lowercase name for storage. -/
def NextTurn.asStr : NextTurn → String
  | .none => "none"
  | .moveOn => "move_on"
  | .retry => "retry"
  | .correction => "correction"
  | .escalation => "escalation"

/-- The follow-up turn; the tier is that of its model in the current catalog. -/
structure NextTurnInputs where
  userText : Option String
  model : String
  modelTier : Option Tier
  isToolContinuation : Bool

/-- Everything the reward function needs about one decision. -/
structure OutcomeInputs where
  status : Option String
  feedback : Option String
  toolCalls : Int
  userText : Option String
  tier : Tier
  selectedModel : String
  next : Option NextTurnInputs

/-- Classified outcome. -/
structure Outcome where
  nextTurn : NextTurn
  reward : Float

/-! ## Texts -/

/-- Phrases that open a correction. -/
def correctionOpeners : List String :=
  ["no,", "no.", "no ", "nope", "wrong", "that's wrong", "thats wrong", "that is wrong",
    "incorrect", "not what i asked", "not what i meant", "that's not", "thats not", "that is not",
    "try again", "still wrong", "still doesn't", "still does not", "didn't work", "did not work",
    "doesn't work", "does not work", "you missed", "you forgot", "you ignored", "you didn't",
    "you did not", "this is wrong", "this doesn't", "this does not", "that doesn't",
    "that does not", "actually,", "actually ", "fix this", "redo"]

/-- Lowercase forms, and the letters and numbers, beyond ASCII. -/
structure LetterTables where
  lower : CaseTable
  alphanumeric : Char → Bool

section Texts

variable (tables : LetterTables)

/-- `char::is_alphanumeric`. -/
def LetterTables.isAlphanumeric (c : Char) : Bool :=
  if c.toNat < 128 then c.isAlphanum else tables.alphanumeric c

/-- The words of more than one byte in lowercase, each once. -/
def wordSet (s : List Char) : List (List Char) :=
  (((s.splitOnP fun c => !tables.isAlphanumeric c).filter fun w =>
    1 < (String.ofList w).utf8ByteSize).map tables.lower.toLowerCase).dedup

/-- Jaccard similarity of lowercase word sets, zero when either is empty. -/
def wordJaccard (a b : String) : Float :=
  let wa := wordSet tables a.toList
  let wb := wordSet tables b.toList
  if wa.isEmpty || wb.isEmpty then 0
  else
    let inter := (wa.filter fun w => wb.contains w).length
    let union := wa.length + (wb.filter fun w => !wa.contains w).length
    inter.toFloat / union.toFloat

/-- The text opens with a correction phrase. -/
def isCorrection (text : String) : Bool :=
  let t := tables.lower.toLowerCase (text.toList.dropWhile fun c => !tables.isAlphanumeric c)
  let head := t.take 80
  correctionOpeners.any fun p => p.toList.isPrefixOf head

/-! ## Scores -/

/-- Classify the next turn relative to this one. -/
def classifyNextTurn (inputs : OutcomeInputs) : NextTurn :=
  match inputs.next with
  | none => .none
  | some next =>
      -- a tool roundtrip is part of the same task
      if next.isToolContinuation then .none
      else if next.modelTier.any fun nextTier =>
          next.model ≠ inputs.selectedModel ∧ inputs.tier < nextTier then .escalation
      else
        match next.userText with
        | some text =>
            if isCorrection tables text then .correction
            else if 0.8 ≤ wordJaccard tables (inputs.userText.getD "") text then .retry
            else .moveOn
        | none => .moveOn

end Texts

/-- Reward for a decision: explicit feedback, hard failures, the next turn, and last a
completed response without complaint. -/
def rewardFor (inputs : OutcomeInputs) (nextTurn : NextTurn) : Float :=
  if inputs.feedback = some "approved" then 1.0
  else if inputs.feedback = some "rejected" then -1.0
  else if inputs.status = some "failed" then -1.0
  else if inputs.status = some "incomplete" ∨ inputs.status = some "cancelled" then -0.5
  else
    match nextTurn with
    | .escalation | .correction => -1.0
    | .retry => -0.5
    | .moveOn => 1.0
    | .none => if inputs.status = some "completed" then 0.5 else 0.0

/-- Classify and score in one step. -/
def evaluate (tables : LetterTables) (inputs : OutcomeInputs) : Outcome :=
  let nextTurn := classifyNextTurn tables inputs
  ⟨nextTurn, rewardFor inputs nextTurn⟩

end AuraGateway.Decisions
