import AuraGateway.Pricing.CostCalculator
import AuraGateway.Provider.Events
import AuraGateway.Usage.Recording

/-!
# The stream handler

The items that a provider streams go to the client one by one. On its way a terminal event is
accounted for: the request log gets an entry and the key of the caller a usage record. Each
of the three kinds of terminal events has a branch of its own; errors and all other events pass
without a trace (`handleStream_ledger`).

A stream is accounted for as it should be, with one log entry, at most one usage record, and the
calculated cost in both, exactly when it has one of these terminal events and the usage of an
incomplete response comes with its cost (`stream_accounted_iff`): only a completed response is
priced here.
-/

set_option autoImplicit false

namespace AuraGateway.Proxy

open AuraGateway.Types AuraGateway.Storage AuraGateway.Usage AuraGateway.Pricing
open AuraGateway.Provider (StreamFault StreamItem)

/-! ## What happens to a completed response -/

/-- Apply the confidence-threshold gate. -/
def applyConfidenceThresholdGate (request : CreateResponseRequest) (response : Response) :
    Response :=
  match request.validation with
  | none => response
  | some config =>
      if config.strategy ≠ .confidenceThreshold then response
      else
        match config.minConfidence with
        | none => response
        | some minConfidence =>
            -- a response that failed is not looked at again
            if response.status ≠ .completed then response
            else
              match response.validation.bind (·.confidence) with
              | none => response
              | some measured =>
                  if measured < minConfidence then
                    { response with
                      status := .incomplete
                      incompleteReason := some .lowConfidence }
                  else response

/-- The cost of a usage, if the model is priced. -/
def usageCost (calculator : CostCalculator) (model : String) (u : Usage) : Option Float :=
  calculator.calculateCost model u.inputTokens u.outputTokens u.cachedTokens u.reasoningTokens

/-- Add the cost to a usage, if the model is priced. -/
def pricedUsage (calculator : CostCalculator) (model : String) (u : Usage) : Usage :=
  match usageCost calculator model u with
  | some cost => { u with costUsd := some cost }
  | none => u

/-- Enrich a response with cost and metadata; `annotate` builds the metadata. -/
def enrichResponse (calculator : CostCalculator) (annotate : Response → Json)
    (response : Response) : Response :=
  let response :=
    { response with usage := response.usage.map (pricedUsage calculator response.model) }
  { response with metadata := some (annotate response) }

/-! ## The ledger -/

/-- A new entry of the request log, but for captured payloads. -/
structure NewRequestLog where
  responseId : String
  conversationId : Option Uuid
  providerName : String
  modelId : String
  userId : Option String
  inputTokens : Option Int
  outputTokens : Option Int
  cachedTokens : Option Int
  reasoningTokens : Option Int
  costUsd : Option Float
  latencyMs : Option Int
  status : String
  errorCode : Option String
  errorMessage : Option String
  metadata : Option Json

/-- What a stream leaves behind: rows of usage and of the request log. -/
structure Ledger where
  store : UsageStore := {}
  requestLogs : List NewRequestLog := []

/-- What the handler of a stream knows. -/
structure StreamContext where
  hasPool : Bool
  calculator : CostCalculator
  modelMap : List (String × String)
  requestId : String
  conversationId : Option Uuid
  providerName : String
  request : CreateResponseRequest
  auth : Option Auth.AuthContext
  compressionLog : Option Json

/-- What an item of the stream meets: the session of its usage record, the id of the row, the
time that has passed and the metadata of a response. -/
structure ItemTurn where
  session : Session
  rowId : Uuid
  latencyMs : Nat
  annotate : Response → Json

/-- Write a field of an object. -/
def insertField (key : String) (value : Json) : Json → Json
  | .object fields => .object ((fields.filter fun f => f.1 != key) ++ [(key, value)])
  | other => other

/-- Merge the metadata of a response with the compression log. -/
def mergeLogMetadata : Option Json → Option Json → Option Json
  | some metadata, some compressionLog => some (insertField "compression_log" compressionLog metadata)
  | some metadata, none => some metadata
  | none, some compressionLog => some (.object [("compression_log", compressionLog)])
  | none, none => none

namespace StreamContext

variable (ctx : StreamContext) (turn : ItemTurn)

/-- A log entry with a status, the usage of a response and what it failed with. -/
def newLog (status : String) (usage : Option Usage) (error : Option ResponseError)
    (metadata : Option Json) : NewRequestLog where
  responseId := ctx.requestId
  conversationId := ctx.conversationId
  providerName := ctx.providerName
  modelId := ctx.request.model
  userId := ctx.request.user
  inputTokens := usage.map fun u => asI32 u.inputTokens
  outputTokens := usage.map fun u => asI32 u.outputTokens
  cachedTokens := (usage.bind (·.cachedTokens)).map asI32
  reasoningTokens := (usage.bind (·.reasoningTokens)).map asI32
  costUsd := usage.bind (·.costUsd)
  latencyMs := some (asI32 turn.latencyMs)
  status
  errorCode := error.map (·.code)
  errorMessage := error.map (·.message)
  metadata

/-- `log_request`. -/
def logRequest (log : NewRequestLog) (ledger : Ledger) : Ledger :=
  if ctx.hasPool then { ledger with requestLogs := ledger.requestLogs ++ [log] } else ledger

/-- `record_api_key_usage`, for a caller with a key. -/
def recordUsage (response : Response) (ledger : Ledger) : Ledger :=
  match ctx.auth with
  | none => ledger
  | some auth =>
      { ledger with
        store :=
          recordApiKeyUsage { turn.session with hasPool := ctx.hasPool } turn.rowId ctx.modelMap auth
            { id := response.id
              model := response.model
              usage := response.usage.map fun u =>
                { inputTokens := u.inputTokens
                  outputTokens := u.outputTokens
                  cachedTokens := u.cachedTokens
                  reasoningTokens := u.reasoningTokens
                  costUsd := u.costUsd } }
            ctx.request.user ledger.store }

/-! ## The handler -/

/-- A completed response as it is sent. -/
def completed (response : Response) : Response :=
  applyConfidenceThresholdGate ctx.request
    (enrichResponse ctx.calculator turn.annotate response)

end StreamContext

/-- `ProviderError::to_string` of a stream's errors. -/
def faultText : StreamFault → String
  | .stream message => "Streaming error: " ++ message
  | .provider statusCode message =>
      "Provider error (" ++ Nat.repr statusCode ++ "): " ++ message

/-- `StreamError::server`. -/
def serverError (message : String) : StreamError where
  type := "server_error"
  code := "internal_error"
  message
  param := none

/-- Pass on one item of the provider's stream. -/
def handleItem (ctx : StreamContext) (turn : ItemTurn) (item : StreamItem) (ledger : Ledger) :
    StreamEvent × Ledger :=
  match item with
  | .ok (.responseCompleted response) =>
      let response := ctx.completed turn response
      let log := ctx.newLog turn "completed" response.usage none
        (mergeLogMetadata response.metadata ctx.compressionLog)
      (.responseCompleted response, ctx.logRequest log (ctx.recordUsage turn response ledger))
  | .ok (.responseFailed response) =>
      -- tokens and cost of a failed response are not logged
      let log := ctx.newLog turn "failed" none response.error response.metadata
      (.responseFailed response, ctx.logRequest log (ctx.recordUsage turn response ledger))
  | .ok (.responseIncomplete response) =>
      let log := ctx.newLog turn "incomplete" response.usage none response.metadata
      (.responseIncomplete response, ctx.logRequest log (ctx.recordUsage turn response ledger))
  | .ok event => (event, ledger)
  | .error fault => (.error (serverError (faultText fault)), ledger)

/-- Pass on a stream: the events that are sent, and the ledger after it. -/
def handleStream (ctx : StreamContext) : List (ItemTurn × StreamItem) → Ledger →
    List StreamEvent × Ledger
  | [], ledger => ([], ledger)
  | (turn, item) :: items, ledger =>
      let (event, ledger') := handleItem ctx turn item ledger
      let (events, ledger'') := handleStream ctx items ledger'
      (event :: events, ledger'')

/-! ## What a stream leaves behind -/

/-- The gate looks at the confidence and writes the status. -/
theorem usage_gate (request : CreateResponseRequest) (response : Response) :
    (applyConfidenceThresholdGate request response).usage = response.usage := by
  simp only [applyConfidenceThresholdGate]
  repeat' split
  all_goals rfl

/-- The response and the log entry that an item is accounted for with. -/
def account (ctx : StreamContext) (turn : ItemTurn) : StreamItem → Option (Response × NewRequestLog)
  | .ok (.responseCompleted response) =>
      let response := ctx.completed turn response
      some (response, ctx.newLog turn "completed" response.usage none
        (mergeLogMetadata response.metadata ctx.compressionLog))
  | .ok (.responseFailed response) =>
      some (response, ctx.newLog turn "failed" none response.error response.metadata)
  | .ok (.responseIncomplete response) =>
      some (response, ctx.newLog turn "incomplete" response.usage none response.metadata)
  | _ => none

/-- An item is accounted for, or the ledger stays as it is. -/
theorem handleItem_ledger (ctx : StreamContext) (turn : ItemTurn) (item : StreamItem)
    (ledger : Ledger) :
    (handleItem ctx turn item ledger).2 =
      match account ctx turn item with
      | some (response, log) => ctx.logRequest log (ctx.recordUsage turn response ledger)
      | none => ledger := by
  cases item with
  | error fault => rfl
  | ok event => cases event <;> rfl

theorem recordUsage_rows (ctx : StreamContext) (turn : ItemTurn) (response : Response)
    (ledger : Ledger) :
    (ctx.recordUsage turn response ledger).requestLogs = ledger.requestLogs
      ∧ ∃ rows, (ctx.recordUsage turn response ledger).store.usage = ledger.store.usage ++ rows
        ∧ rows.length ≤ 1
        ∧ ∀ row ∈ rows, row.costUsd = response.usage.bind (·.costUsd) := by
  simp only [StreamContext.recordUsage]
  split
  · exact ⟨rfl, [], (List.append_nil _).symm, Nat.zero_le 1, fun row hrow => absurd hrow List.not_mem_nil⟩
  · refine ⟨rfl, ?_⟩
    obtain ⟨rows, hgrow, hlength, hcost⟩ := recordApiKeyUsage_rows _ _ _ _ _ _ _
    refine ⟨rows, hgrow, hlength, ?_⟩
    intro row hrow
    rw [hcost row hrow]
    cases response.usage <;> rfl

theorem store_logRequest (ctx : StreamContext) (log : NewRequestLog) (ledger : Ledger) :
    (ctx.logRequest log ledger).store = ledger.store := by
  simp only [StreamContext.logRequest]
  split <;> rfl

/-- An item adds its log entry, if there is a database. -/
theorem handleItem_logs {ctx : StreamContext} {turn : ItemTurn} {item : StreamItem}
    {a : Response × NewRequestLog} (h : account ctx turn item = some a) (ledger : Ledger) :
    (handleItem ctx turn item ledger).2.requestLogs
      = ledger.requestLogs ++ (if ctx.hasPool then [a.2] else []) := by
  have hkept := (recordUsage_rows ctx turn a.1 ledger).1
  rw [handleItem_ledger, h]
  simp only [StreamContext.logRequest]
  split
  · rw [hkept]
  · rw [hkept, List.append_nil]

/-- What the items of a stream are accounted for with. -/
def accounts (ctx : StreamContext) (items : List (ItemTurn × StreamItem)) :
    List (Response × NewRequestLog) :=
  items.filterMap fun p => account ctx p.1 p.2

/-- A stream leaves a log entry for each item that is accounted for, and at most one usage
record. -/
theorem handleStream_ledger (ctx : StreamContext) (items : List (ItemTurn × StreamItem))
    (ledger : Ledger) :
    (handleStream ctx items ledger).2.requestLogs
        = ledger.requestLogs ++ (if ctx.hasPool then (accounts ctx items).map (·.2) else [])
      ∧ ∃ rows, (handleStream ctx items ledger).2.store.usage = ledger.store.usage ++ rows
        ∧ rows.length ≤ (accounts ctx items).length
        ∧ ∀ row ∈ rows, ∃ a ∈ accounts ctx items, row.costUsd = a.1.usage.bind (·.costUsd) := by
  induction items generalizing ledger with
  | nil =>
      refine ⟨?_, [], (List.append_nil _).symm, le_rfl, fun row hrow => absurd hrow List.not_mem_nil⟩
      split <;> exact (List.append_nil _).symm
  | cons p items ih =>
      obtain ⟨turn, item⟩ := p
      obtain ⟨hlogs, rows, hrows, hlength, hcost⟩ := ih (handleItem ctx turn item ledger).2
      simp only [handleStream, accounts, List.filterMap_cons] at hlogs hrows hlength hcost ⊢
      cases haccount : account ctx turn item with
      | none =>
          -- the item passes without a trace
          have hsame : (handleItem ctx turn item ledger).2 = ledger := by
            rw [handleItem_ledger, haccount]
          rw [hsame] at hlogs hrows ⊢
          exact ⟨hlogs, rows, hrows, hlength, hcost⟩
      | some a =>
          obtain ⟨-, more, hmore, hone, hmoreCost⟩ := recordUsage_rows ctx turn a.1 ledger
          have hstore : (handleItem ctx turn item ledger).2.store.usage
              = ledger.store.usage ++ more := by
            rw [← hmore, handleItem_ledger, haccount, store_logRequest]
          refine ⟨?_, more ++ rows, ?_, ?_, ?_⟩
          · rw [hlogs, handleItem_logs haccount, List.append_assoc]
            cases ctx.hasPool <;> rfl
          · rw [hrows, hstore, List.append_assoc]
          · rw [List.length_append, List.length_cons]
            omega
          · intro row hrow
            rcases List.mem_append.mp hrow with hnew | hlater
            · exact ⟨a, List.mem_cons_self, hmoreCost row hnew⟩
            · obtain ⟨a', ha', heq⟩ := hcost row hlater
              exact ⟨a', List.mem_cons_of_mem a ha', heq⟩

/-! ### One entry and the cost -/

/-- A completed or an incomplete response, as the provider sends it. -/
def billed : StreamItem → Option Response
  | .ok (.responseCompleted response) | .ok (.responseIncomplete response) => some response
  | _ => none

/-- The stream is accounted for: one log entry, at most one usage record, and the calculated cost
in both if the terminal response carries usage for a priced model. -/
def Accounted (ctx : StreamContext) (items : List (ItemTurn × StreamItem))
    (before after : Ledger) : Prop :=
  ∃ logs rows, after.requestLogs = before.requestLogs ++ logs
    ∧ after.store.usage = before.store.usage ++ rows
    ∧ logs.length = 1 ∧ rows.length ≤ 1
    ∧ ∀ response ∈ items.filterMap (fun p => billed p.2), ∀ u cost,
        response.usage = some u → usageCost ctx.calculator response.model u = some cost →
        (∀ log ∈ logs, log.costUsd = some cost) ∧ ∀ row ∈ rows, row.costUsd = some cost

/-- A terminal event that has a branch of its own. -/
def isLogged : StreamItem → Bool
  | .ok (.responseCompleted _) | .ok (.responseFailed _) | .ok (.responseIncomplete _) => true
  | _ => false

theorem isSome_account (ctx : StreamContext) (turn : ItemTurn) (item : StreamItem) :
    (account ctx turn item).isSome = isLogged item := by
  cases item with
  | error fault => rfl
  | ok event => cases event <;> rfl

theorem length_accounts (ctx : StreamContext) (items : List (ItemTurn × StreamItem)) :
    (accounts ctx items).length = (items.filter fun p => isLogged p.2).length := by
  induction items with
  | nil => rfl
  | cons p items ih =>
      have hsome := isSome_account ctx p.1 p.2
      simp only [accounts] at ih ⊢
      rw [List.filterMap_cons, List.filter_cons]
      cases haccount : account ctx p.1 p.2 with
      | none =>
          rw [haccount, Option.isSome_none] at hsome
          rw [← hsome]
          exact ih
      | some a =>
          rw [haccount, Option.isSome_some] at hsome
          rw [← hsome, if_pos rfl, List.length_cons, List.length_cons, ih]

/-- The usage of a billed response carries the cost, or the response is completed and priced
here. -/
theorem account_billed (ctx : StreamContext) (turn : ItemTurn) {item : StreamItem}
    {response : Response} (h : billed item = some response) :
    ∃ a, account ctx turn item = some a ∧ a.2.costUsd = a.1.usage.bind (·.costUsd)
      ∧ (item = .ok (.responseIncomplete response) ∧ a.1 = response
        ∨ item = .ok (.responseCompleted response)
          ∧ a.1.usage = response.usage.map (pricedUsage ctx.calculator response.model)) := by
  cases item with
  | error fault => cases h
  | ok event =>
      cases event with
      | responseCompleted r =>
          obtain rfl := Option.some.inj h
          refine ⟨_, rfl, rfl, .inr ⟨rfl, ?_⟩⟩
          exact usage_gate _ _
      | responseIncomplete r =>
          obtain rfl := Option.some.inj h
          exact ⟨_, rfl, rfl, .inl ⟨rfl, rfl⟩⟩
      | _ => cases h

/-- A stream is accounted for exactly when there is a database, it has one terminal event that is
logged, and if that is an incomplete response, its usage comes with the calculated cost. -/
theorem stream_accounted_iff (ctx : StreamContext) (items : List (ItemTurn × StreamItem))
    (ledger : Ledger) :
    Accounted ctx items ledger (handleStream ctx items ledger).2 ↔
      ctx.hasPool = true
        ∧ (items.filter fun p => isLogged p.2).length = 1
        ∧ ∀ turn response u cost, (turn, .ok (.responseIncomplete response)) ∈ items →
            response.usage = some u → usageCost ctx.calculator response.model u = some cost →
            u.costUsd = some cost := by
  obtain ⟨hlogs, rows, hrows, hlength, hcost⟩ := handleStream_ledger ctx items ledger
  rw [← length_accounts ctx]
  constructor
  · rintro ⟨logs, rows', hlogs', -, hone, -, hpriced⟩
    rw [hlogs] at hlogs'
    obtain rfl := List.append_cancel_left hlogs'
    have hpool : ctx.hasPool = true := by
      by_contra hpool
      rw [if_neg hpool] at hone
      cases hone
    rw [if_pos hpool] at hone hpriced
    rw [List.length_map] at hone
    refine ⟨hpool, hone, ?_⟩
    intro turn response u cost hmem husage hprice
    -- the log entry of the incomplete response has its cost
    have hbilled : response ∈ items.filterMap fun p => billed p.2 :=
      List.mem_filterMap.mpr ⟨_, hmem, rfl⟩
    have hentry : (response, ctx.newLog turn "incomplete" response.usage none response.metadata)
        ∈ accounts ctx items := List.mem_filterMap.mpr ⟨_, hmem, rfl⟩
    have hlogged := (hpriced response hbilled u cost husage hprice).1 _
      (List.mem_map_of_mem hentry)
    simp only [StreamContext.newLog, husage] at hlogged
    exact hlogged
  · rintro ⟨hpool, hone, hincomplete⟩
    obtain ⟨a, ha⟩ := List.length_eq_one_iff.mp hone
    rw [if_pos hpool] at hlogs
    refine ⟨_, rows, hlogs, hrows, ?_, hlength.trans hone.le, ?_⟩
    · rw [List.length_map, hone]
    · intro response hresponse u cost husage hprice
      obtain ⟨⟨turn, item⟩, hmem, hbilled⟩ := List.mem_filterMap.mp hresponse
      obtain ⟨a', haccount, hlog, hcases⟩ := account_billed ctx turn hbilled
      have heq : a' = a := by
        have hmem' : a' ∈ accounts ctx items := List.mem_filterMap.mpr ⟨_, hmem, haccount⟩
        rwa [ha, List.mem_singleton] at hmem'
      subst heq
      -- what is recorded of the only terminal event is its cost
      have hrecorded : a'.1.usage.bind (·.costUsd) = some cost := by
        rcases hcases with ⟨rfl, hsame⟩ | ⟨rfl, hpricedUsage⟩
        · rw [hsame, husage]
          exact hincomplete turn response u cost hmem husage hprice
        · rw [hpricedUsage, husage, Option.map_some, pricedUsage, hprice]
          rfl
      constructor
      · intro log hlogged
        rw [ha] at hlogged
        rw [List.mem_singleton.mp hlogged, hlog, hrecorded]
      · intro row hrow
        obtain ⟨a'', ha'', hrowCost⟩ := hcost row hrow
        rw [ha, List.mem_singleton] at ha''
        rw [hrowCost, ha'', hrecorded]

/-! ### Streams that are not accounted for -/

namespace Sample

/-- A caller without a key, on a gateway with a database and the built-in prices. -/
def streamContext : StreamContext where
  hasPool := true
  calculator := .new
  modelMap := []
  requestId := "req_1"
  conversationId := none
  providerName := "openai"
  request := { CreateResponseRequest.text "gpt-4o" "hi" with stream := true }
  auth := none
  compressionLog := none

def itemTurn : ItemTurn where
  session :=
    { engine :=
        { errorText := fun _ => ""
          collate := fun a b => decide (a ≤ b)
          textMatches := fun _ _ => false
          textRank := fun _ _ => 0 }
      now := 0
      newId := 1 }
  rowId := 1
  latencyMs := 120
  annotate := fun _ => .object []

/-- A response of `gpt-4o` that ran out of tokens. -/
def cutResponse : Response :=
  { Response.builder "resp_a" "gpt-4o" 0 with
    status := .incomplete
    incompleteReason := some .maxTokens
    usage := some (.new 10 20) }

end Sample

open Sample in
/-- A connection that breaks leaves no log entry, and an incomplete response of a priced model is
logged without a cost. -/
theorem broken_stream_not_logged :
    (handleStream streamContext [(itemTurn, .error (.stream "connection reset"))] {}).2.requestLogs
        = []
      ∧ ¬ Accounted streamContext [(itemTurn, .error (.stream "connection reset"))] {}
          (handleStream streamContext [(itemTurn, .error (.stream "connection reset"))] {}).2
      ∧ (usageCost .new "gpt-4o" (.new 10 20)).isSome = true
      ∧ (handleStream streamContext [(itemTurn, .ok (.responseIncomplete cutResponse))]
          {}).2.requestLogs.map (·.costUsd) = [none] := by
  refine ⟨rfl, ?_, by decide, rfl⟩
  rintro ⟨logs, rows, hlogs, -, hone, -⟩
  rw [show logs = [] from hlogs.symm] at hone
  cases hone

end AuraGateway.Proxy
