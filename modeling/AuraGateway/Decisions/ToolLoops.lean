import AuraGateway.Decisions.Rollup

/-!
# Tool loops

A turn that answers function calls continues the task of the turn before it, and says nothing
about its answer. Clients send the outputs alone, or the whole input again with the calls and
their outputs behind it. The scorer takes any user message in the next input for a new one: of
the two forms it recognises the first (`lastUserText_eq_none_iff`), and the second only where
there is no user message to repeat.
-/

set_option autoImplicit false

namespace AuraGateway.Decisions

open AuraGateway.Types AuraGateway.Router

/-! ## Turns that answer function calls -/

def isFunctionCallOutput : InputItem → Bool
  | .functionCallOutput _ _ => true
  | _ => false

def isFunctionCall : InputItem → Bool
  | .functionCall _ _ _ => true
  | _ => false

def isUserMessage : InputItem → Bool
  | .message .user _ => true
  | _ => false

/-- A function call or its output. -/
def isRoundTrip (i : InputItem) : Bool := isFunctionCall i || isFunctionCallOutput i

/-- The next input answers function calls and adds no user message: it is outputs alone (with
the calls that the gateway puts in front of them), or the earlier input followed by function
calls and their outputs. -/
inductive AnswersCalls (current : List InputItem) : List InputItem → Prop where
  | alone (added : List InputItem) (hsome : ∃ i ∈ added, isFunctionCallOutput i = true)
      (hadded : ∀ i ∈ added, isRoundTrip i = true) : AnswersCalls current added
  | echoed (added : List InputItem) (hsome : ∃ i ∈ added, isFunctionCallOutput i = true)
      (hadded : ∀ i ∈ added, isRoundTrip i = true) : AnswersCalls current (current ++ added)

theorem isUserMessage_of_roundTrip {i : InputItem} (h : isRoundTrip i = true) :
    isUserMessage i = false := by
  cases i with
  | message role content => cases h
  | functionCall callId name arguments => rfl
  | functionCallOutput callId output => rfl

section Inputs

variable {current next : List InputItem}

theorem AnswersCalls.exists_output (h : AnswersCalls current next) :
    ∃ i ∈ next, isFunctionCallOutput i = true := by
  cases h with
  | alone _ hsome hadded => exact hsome
  | echoed added hsome hadded =>
      obtain ⟨i, hi, houtput⟩ := hsome
      exact ⟨i, List.mem_append_right current hi, houtput⟩

/-- There is no user message in the next input if it is a round trip alone, or repeats none. -/
theorem AnswersCalls.no_user_message_iff (h : AnswersCalls current next) :
    (∀ i ∈ next, isUserMessage i = false) ↔
      (∀ i ∈ next, isRoundTrip i = true) ∨ ∀ i ∈ current, isUserMessage i = false := by
  cases h with
  | alone _ hsome hadded =>
      refine iff_of_true (fun i hi => ?_) (.inl hadded)
      exact isUserMessage_of_roundTrip (hadded i hi)
  | echoed added hsome hadded =>
      constructor
      · intro h
        exact .inr fun i hi => h i (List.mem_append_left added hi)
      · rintro (hround | hcurrent) i hi
        · exact isUserMessage_of_roundTrip (hround i hi)
        · rcases List.mem_append.mp hi with hi | hi
          · exact hcurrent i hi
          · exact isUserMessage_of_roundTrip (hadded i hi)

end Inputs

/-! ## What the scorer reads of a turn -/

theorem lastUserText_eq_none_iff (items : List InputItem) :
    lastUserText items = none ↔ ∀ i ∈ items, isUserMessage i = false := by
  rw [lastUserText, List.findSome?_eq_none_iff]
  simp only [List.mem_reverse]
  refine forall₂_congr fun i _ => ?_
  cases i with
  | message role content => cases role <;> simp [isUserMessage]
  | functionCall callId name arguments => simp [isUserMessage]
  | functionCallOutput callId output => simp [isUserMessage]

section Scored

variable (env : ScoreEnv) (tierOf : String → Option Tier) (row : PendingRoutingOutcome)

/-- What follows a turn is no verdict only if nothing follows it, or a tool continuation. -/
theorem classifyNextTurn_eq_none_iff (inputs : OutcomeInputs) :
    classifyNextTurn env.letters inputs = .none ↔
      ∀ next ∈ inputs.next, next.isToolContinuation = true := by
  rw [classifyNextTurn]
  cases hnext : inputs.next with
  | none => simp
  | some next =>
      dsimp only
      by_cases htool : next.isToolContinuation = true
      · rw [if_pos htool]
        simp [htool]
      · rw [if_neg htool]
        refine iff_of_false ?_ fun h => htool (h next rfl)
        split
        · exact NextTurn.noConfusion
        · split
          · split
            · exact NextTurn.noConfusion
            · split <;> exact NextTurn.noConfusion
          · exact NextTurn.noConfusion

/-- The round trip of a tool loop is no verdict on the turn before it exactly when the next input
is the round trip alone, or there is no user message in the input that it repeats. -/
theorem tool_loop_none_iff {nextModel : String} (hnext : row.nextModel = some nextModel)
    (h : AnswersCalls (itemsOf env row.inputItems) (itemsOf env row.nextInputItems)) :
    (evaluate env.letters (inputsFor env tierOf row)).nextTurn = .none ↔
      (∀ i ∈ itemsOf env row.nextInputItems, isRoundTrip i = true)
        ∨ ∀ i ∈ itemsOf env row.inputItems, isUserMessage i = false := by
  have houtputs : (itemsOf env row.nextInputItems).any (fun
      | .functionCallOutput _ _ => true
      | _ => false) = true := by
    obtain ⟨i, hi, houtput⟩ := h.exists_output
    refine List.any_eq_true.mpr ⟨i, hi, ?_⟩
    cases i with
    | message role content => cases houtput
    | functionCall callId name arguments => cases houtput
    | functionCallOutput callId output => rfl
  have hcontinuation : (∀ next ∈ (inputsFor env tierOf row).next, next.isToolContinuation = true)
      ↔ lastUserText (itemsOf env row.nextInputItems) = none := by
    simp only [inputsFor, hnext, Option.map_some, Option.mem_some_iff, forall_eq']
    rw [Bool.and_eq_true, Option.isNone_iff_eq_none]
    exact and_iff_right houtputs
  rw [evaluate, classifyNextTurn_eq_none_iff, hcontinuation, lastUserText_eq_none_iff]
  exact h.no_user_message_iff

end Scored

/-! ### A chart -/

namespace Sample

def parseItem : Json → Option InputItem
  | .object [("type", .string "message"), ("role", .string "user"), ("content", .string text)] =>
      some (.user text)
  | .object [("type", .string "function_call"), ("call_id", .string callId), ("name", .string name),
      ("arguments", .string arguments)] => some (.functionCall callId name arguments)
  | .object [("type", .string "function_call_output"), ("call_id", .string callId),
      ("output", .string output)] => some (.functionCallOutput callId output)
  | _ => none

/-- Stored items are read as they are written. -/
def itemsEnv : ScoreEnv where
  letters := ⟨.fixed, fun _ => false⟩
  parseItems
    | .array items => items.mapM parseItem
    | _ => none

def redo : Json :=
  .object [("type", .string "message"), ("role", .string "user"),
    ("content", .string "Redo the chart in blue")]

def call : Json :=
  .object [("type", .string "function_call"), ("call_id", .string "call_1"),
    ("name", .string "draw"), ("arguments", .string "\x7b\x7d")]

def output : Json :=
  .object [("type", .string "function_call_output"), ("call_id", .string "call_1"),
    ("output", .string "done")]

theorem epoch_inRange : minMicros ≤ 0 ∧ (0 : Int) ≤ maxMicros := by decide

/-- A turn that asks for a tool, and the next one. -/
def turns (next : List Json) : PendingRoutingOutcome where
  responseId := "aura_1"
  tier := "medium"
  selectedModel := "llama3.1"
  shadow := false
  createdAt := ⟨0, epoch_inRange⟩
  status := some "completed"
  feedback := none
  toolCallsCount := 1
  inputItems := some (.array [redo])
  nextInputItems := some (.array next)
  nextModel := some "llama3.1"

end Sample

/-- Outputs alone are no verdict. -/
theorem outputs_alone_none :
    (evaluate Sample.itemsEnv.letters
      (inputsFor Sample.itemsEnv (fun _ => none) (Sample.turns [Sample.output]))).nextTurn = .none := by
  have hround : ∀ i ∈ [InputItem.functionCallOutput "call_1" "done"], isRoundTrip i = true := by
    decide
  exact (tool_loop_none_iff Sample.itemsEnv (fun _ => none) (Sample.turns [Sample.output]) rfl
    (.alone [.functionCallOutput "call_1" "done"] ⟨_, List.mem_singleton_self _, rfl⟩ hround)).mpr
      (.inl hround)

/-- The history sent again is a correction: its user message opens like one. -/
theorem echoed_history_correction :
    AnswersCalls (itemsOf Sample.itemsEnv (Sample.turns [Sample.redo, Sample.call, Sample.output]).inputItems)
        (itemsOf Sample.itemsEnv
          (Sample.turns [Sample.redo, Sample.call, Sample.output]).nextInputItems)
      ∧ (evaluate Sample.itemsEnv.letters (inputsFor Sample.itemsEnv (fun _ => none)
          (Sample.turns [Sample.redo, Sample.call, Sample.output]))).nextTurn = .correction := by
  constructor
  · exact .echoed [.functionCall "call_1" "draw" "\x7b\x7d", .functionCallOutput "call_1" "done"]
      ⟨_, List.mem_cons_of_mem _ (List.mem_singleton_self _), rfl⟩ (by decide)
  · decide +kernel

end AuraGateway.Decisions
