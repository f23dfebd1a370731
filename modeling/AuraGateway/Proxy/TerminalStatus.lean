import AuraGateway.Provider.ChatAdapters
import AuraGateway.Proxy.Replies
import AuraGateway.Proxy.StreamHandler
import AuraGateway.Validation.Fanout

/-!
# How a response is said to have ended

A client reads from the kind of the terminal event how a response ended, and from the status of
the response in it; the request log has a status of its own, and the same response would be
reported without streaming as well. For a streamed response these agree exactly when the event's
kind is the status that the provider gave, and the confidence gate does not demote the response
after the kind was fixed (`terminal_status_iff`). A stream made from the answer of a fan-out
always ends as completed, so it agrees exactly when the answer is: always for a proper fan-out
(`fanout_completed`), but a fan-out of one passes on any response.
-/

set_option autoImplicit false

namespace AuraGateway.Proxy

open AuraGateway.Types AuraGateway.Foundations.Endings AuraGateway.Provider

/-! ## The gate -/

/-- The measured confidence is below the one that is asked for. -/
def BelowThreshold (request : CreateResponseRequest) (response : Response) : Prop :=
  ∃ config minConfidence measured, request.validation = some config
    ∧ config.strategy = .confidenceThreshold ∧ config.minConfidence = some minConfidence
    ∧ response.validation.bind (·.confidence) = some measured ∧ measured < minConfidence

section Gate

variable {request : CreateResponseRequest} {response : Response}

/-- A response that completed below the threshold is demoted. -/
theorem status_gate_of_below (hcompleted : response.status = .completed)
    (hbelow : BelowThreshold request response) :
    (applyConfidenceThresholdGate request response).status = .incomplete := by
  obtain ⟨config, minConfidence, measured, hconfig, hstrategy, hmin, hmeasured, hlt⟩ := hbelow
  simp [applyConfidenceThresholdGate, hconfig, hstrategy, hmin, hcompleted, hmeasured, hlt]

/-- Every other response is left alone. -/
theorem gate_eq_self (h : response.status = .completed → ¬ BelowThreshold request response) :
    applyConfidenceThresholdGate request response = response := by
  simp only [applyConfidenceThresholdGate]
  split
  · rfl
  · rename_i config hconfig
    split
    · rfl
    · rename_i hstrategy
      split
      · rfl
      · rename_i minConfidence hmin
        split
        · rfl
        · rename_i hstatus
          split
          · rfl
          · rename_i measured hmeasured
            split
            · -- all that the gate asks for is there
              rename_i hlt
              exact absurd ⟨config, minConfidence, measured, hconfig, not_not.mp hstrategy, hmin,
                hmeasured, hlt⟩ (h (not_not.mp hstatus))
            · rfl

/-- What passes the gate as completed was completed, and not below the threshold. -/
theorem completed_of_gate
    (h : (applyConfidenceThresholdGate request response).status = .completed) :
    response.status = .completed ∧ ¬ BelowThreshold request response := by
  by_cases hcompleted : response.status = .completed
  · refine ⟨hcompleted, ?_⟩
    intro hbelow
    rw [status_gate_of_below hcompleted hbelow] at h
    cases h
  · rw [gate_eq_self fun hcompleted' => absurd hcompleted' hcompleted] at h
    exact absurd h hcompleted

end Gate

/-! ## What is reported -/

section Reports

variable (ctx : StreamContext) (turn : ItemTurn)

/-- The path without streaming: the response that is sent, and the log entry. -/
def answerDirectly (response : Response) : Response × NewRequestLog :=
  let response := ctx.completed turn response
  (response, ctx.newLog turn response.status.name response.usage none
    (mergeLogMetadata response.metadata ctx.compressionLog))

/-- All that is said about how a response ended is `kind`: by the event and the response in it, by
the log entries, and without streaming. -/
structure Agrees (response : Response) (sent : StreamEvent) (logs : List NewRequestLog)
    (kind : ResponseStatus) : Prop where
  event : terminalKind (.ok sent) = some kind
  status : ∀ final, terminalResponse (.ok sent) = some final → final.status = kind
  logged : ∀ log ∈ logs, log.status = kind.name
  direct : (answerDirectly ctx turn response).1.status = kind
  directLogged : (answerDirectly ctx turn response).2.status = kind.name

/-- An item of a stream agrees: what is sent for it and what it adds to the log. -/
def ItemAgrees (item : StreamItem) (ledger : Ledger) (response : Response) : Prop :=
  ∃ kind logs,
    (handleItem ctx turn item ledger).2.requestLogs = ledger.requestLogs ++ logs
      ∧ Agrees ctx turn response (handleItem ctx turn item ledger).1 logs kind

/-- The stream that is made from an answer agrees: it ends once, and as it is reported. -/
def SynthesizedAgrees (response : Response) : Prop :=
  ∃ init sent kind, synthesizeSseResponse (answerDirectly ctx turn response).1 = init ++ [sent]
    ∧ EndsOnce terminalKind kind
      ((synthesizeSseResponse (answerDirectly ctx turn response).1).map .ok)
    ∧ Agrees ctx turn response sent [(answerDirectly ctx turn response).2] kind

/-- The event's kind is the status of the response, and a completed response is not below the
threshold. -/
def KindKept (request : CreateResponseRequest) (item : StreamItem) (response : Response) : Prop :=
  terminalKind item = some response.status
    ∧ (response.status = .completed → ¬ BelowThreshold request response)

variable {ctx turn}

/-- The status that is reported without streaming. -/
theorem answerDirectly_status {response : Response}
    (h : response.status = .completed → ¬ BelowThreshold ctx.request response) :
    (answerDirectly ctx turn response).1.status = response.status := by
  have hsame : ctx.completed turn response
      = enrichResponse ctx.calculator turn.annotate response := gate_eq_self h
  rw [answerDirectly, hsame]
  rfl

/-- Where the event has a kind and the log entries its name, all agrees exactly when the response
has that status and keeps it. -/
theorem agrees_iff {response final : Response} {sent : StreamEvent} {logs : List NewRequestLog}
    {kind : ResponseStatus} (hevent : terminalKind (.ok sent) = some kind)
    (hfinal : terminalResponse (.ok sent) = some final)
    (hlogs : ∀ log ∈ logs, log.status = kind.name)
    (hstatus : final.status = kind ↔
      response.status = kind ∧ (kind = .completed → ¬ BelowThreshold ctx.request response)) :
    (∃ kind', Agrees ctx turn response sent logs kind') ↔
      response.status = kind ∧ (kind = .completed → ¬ BelowThreshold ctx.request response) := by
  constructor
  · rintro ⟨kind', h⟩
    obtain rfl := Option.some.inj (hevent.symm.trans h.event)
    exact hstatus.mp (h.status final hfinal)
  · intro hkept
    obtain ⟨rfl, habove⟩ := hkept
    refine ⟨_, hevent, ?_, hlogs, answerDirectly_status habove, ?_⟩
    · intro final' hfinal'
      obtain rfl := Option.some.inj (hfinal.symm.trans hfinal')
      exact hstatus.mpr ⟨rfl, habove⟩
    · exact congrArg ResponseStatus.name (answerDirectly_status habove)

/-- An item agrees if what it adds to the log does. -/
theorem itemAgrees_of_account {item : StreamItem} {a : Response × NewRequestLog}
    (h : account ctx turn item = some a) (ledger : Ledger) (response : Response) :
    ItemAgrees ctx turn item ledger response ↔
      ∃ kind, Agrees ctx turn response (handleItem ctx turn item ledger).1
        (if ctx.hasPool then [a.2] else []) kind := by
  have hlogs := handleItem_logs h ledger
  constructor
  · rintro ⟨kind, logs', hlogs', hagrees⟩
    rw [hlogs] at hlogs'
    obtain rfl := List.append_cancel_left hlogs'
    exact ⟨kind, hagrees⟩
  · rintro ⟨kind, hagrees⟩
    exact ⟨kind, _, hlogs, hagrees⟩

/-- A log entry is written only with a database. -/
theorem status_of_mem_logs {log : NewRequestLog} {kind : ResponseStatus}
    (h : log.status = kind.name) :
    ∀ log' ∈ (if ctx.hasPool then [log] else []), log'.status = kind.name := by
  intro log' hlog
  split at hlog
  · rw [List.mem_singleton.mp hlog, h]
  · exact nomatch hlog

/-- An item with a terminal event agrees exactly when its kind is kept. -/
theorem itemAgrees_iff {item : StreamItem} {response : Response} (hlogged : isLogged item = true)
    (hresponse : terminalResponse item = some response) (ledger : Ledger) :
    ItemAgrees ctx turn item ledger response ↔ KindKept ctx.request item response := by
  -- a response that is not completed is passed on as it is
  have hunchanged : ∀ kind : ResponseStatus, kind ≠ .completed →
      (response.status = kind ↔
        response.status = kind ∧ (kind = .completed → ¬ BelowThreshold ctx.request response)) := by
    intro kind hkind
    constructor
    · intro hstatus
      exact ⟨hstatus, fun h => absurd h hkind⟩
    · exact And.left
  have hkept : ∀ kind, terminalKind item = some kind →
      (KindKept ctx.request item response ↔
        response.status = kind ∧ (kind = .completed → ¬ BelowThreshold ctx.request response)) := by
    intro kind hkind
    rw [KindKept, hkind, Option.some_inj]
    constructor
    · rintro ⟨rfl, habove⟩
      exact ⟨rfl, habove⟩
    · rintro ⟨rfl, habove⟩
      exact ⟨rfl, habove⟩
  cases item with
  | error fault => cases hlogged
  | ok event =>
      cases event with
      | responseCompleted r =>
          obtain rfl := Option.some.inj hresponse
          have haccount : account ctx turn (.ok (.responseCompleted r)) = some _ := rfl
          rw [itemAgrees_of_account haccount ledger r, hkept _ rfl]
          apply agrees_iff rfl rfl (status_of_mem_logs rfl)
          constructor
          · intro hstatus
            obtain ⟨hcompleted, habove⟩ := completed_of_gate hstatus
            exact ⟨hcompleted, fun _ => habove⟩
          · rintro ⟨hcompleted, habove⟩
            have hsame : (answerDirectly ctx turn r).1.status = r.status :=
              answerDirectly_status fun _ => habove rfl
            exact hsame.trans hcompleted
      | responseFailed r =>
          obtain rfl := Option.some.inj hresponse
          have haccount : account ctx turn (.ok (.responseFailed r)) = some _ := rfl
          rw [itemAgrees_of_account haccount ledger r, hkept _ rfl]
          exact agrees_iff rfl rfl (status_of_mem_logs rfl) (hunchanged _ nofun)
      | responseIncomplete r =>
          obtain rfl := Option.some.inj hresponse
          have haccount : account ctx turn (.ok (.responseIncomplete r)) = some _ := rfl
          rw [itemAgrees_of_account haccount ledger r, hkept _ rfl]
          exact agrees_iff rfl rfl (status_of_mem_logs rfl) (hunchanged _ nofun)
      | _ => cases hlogged

/-- A stream that is made from the answer of a fan-out agrees exactly when the answer completed;
the gate does not look at fan-outs. -/
theorem synthesizedAgrees_iff (hfanout : needsFanout ctx.request = true) (response : Response) :
    SynthesizedAgrees ctx turn response ↔ response.status = .completed := by
  have habove : ¬ BelowThreshold ctx.request response := by
    rintro ⟨config, -, -, hconfig, hstrategy, -⟩
    simp only [needsFanout, hconfig, hstrategy] at hfanout
    cases hfanout
  constructor
  · rintro ⟨init, sent, kind, hsplit, -, hagrees⟩
    -- the last event is `response.completed`
    have hlast := congrArg List.getLast? hsplit
    rw [List.getLast?_concat] at hlast
    obtain rfl := Option.some.inj hlast
    obtain rfl := Option.some.inj hagrees.event
    exact (completed_of_gate (hagrees.status _ rfl)).1
  · intro hcompleted
    have hstatus : (answerDirectly ctx turn response).1.status = .completed :=
      (answerDirectly_status fun _ => habove).trans hcompleted
    have hlogged := congrArg ResponseStatus.name hstatus
    refine ⟨(synthesizeSseResponse (answerDirectly ctx turn response).1).dropLast,
      .responseCompleted (answerDirectly ctx turn response).1, .completed, rfl,
      synthesizeSseResponse_endsOnce _, rfl, ?_, ?_, hstatus, hlogged⟩
    · intro final hfinal
      obtain rfl := Option.some.inj hfinal
      exact hstatus
    · intro log hlog
      rw [List.mem_singleton.mp hlog]
      exact hlogged

/-! ## Streams -/

/-- Every terminal event of a stream agrees. -/
def StreamAgrees (ctx : StreamContext) : List (ItemTurn × StreamItem) → Ledger → Prop
  | [], _ => True
  | (turn, item) :: items, ledger =>
      (isLogged item = true → ∀ response, terminalResponse item = some response →
        ItemAgrees ctx turn item ledger response)
        ∧ StreamAgrees ctx items (handleItem ctx turn item ledger).2

theorem streamAgrees_iff (items : List (ItemTurn × StreamItem)) (ledger : Ledger) :
    StreamAgrees ctx items ledger ↔
      ∀ p ∈ items, isLogged p.2 = true → ∀ response, terminalResponse p.2 = some response →
        KindKept ctx.request p.2 response := by
  induction items generalizing ledger with
  | nil => exact iff_of_true trivial fun p hp => absurd hp List.not_mem_nil
  | cons p items ih =>
      obtain ⟨turn, item⟩ := p
      rw [StreamAgrees, ih, List.forall_mem_cons]
      apply and_congr_left'
      constructor
      · intro h hlogged response hresponse
        exact (itemAgrees_iff hlogged hresponse ledger).mp (h hlogged response hresponse)
      · intro h hlogged response hresponse
        exact (itemAgrees_iff hlogged hresponse ledger).mpr (h hlogged response hresponse)

/-- How a response ended is reported alike wherever it is reported. For a streamed response this
holds exactly when each terminal event has the kind of its response's status, and no completed
response is below the threshold that the request asks for; for a stream made from the answer of
a fan-out exactly when the answer completed. -/
theorem terminal_status_iff (ctx : StreamContext) :
    (∀ items ledger, StreamAgrees ctx items ledger ↔
        ∀ p ∈ items, isLogged p.2 = true → ∀ response, terminalResponse p.2 = some response →
          KindKept ctx.request p.2 response)
      ∧ ∀ turn response, needsFanout ctx.request = true →
          (SynthesizedAgrees ctx turn response ↔ response.status = .completed) :=
  ⟨streamAgrees_iff, fun _ response hfanout => synthesizedAgrees_iff hfanout response⟩

end Reports

/-- The answer of a proper fan-out completed. -/
theorem fanout_completed {ε : Type} {table : JsStd.CaseTable}
    {order : HashOrder (String × List Nat)} {internal : String → ε}
    {complete : Nat → CreateResponseRequest → Except ε Response} {request : CreateResponseRequest}
    {n : Nat} {selector : Validation.FanoutSelector} {response : Response} (hn : 2 ≤ n)
    (hmax : n ≤ 8)
    (h : Validation.runFanout table order internal complete request n selector
      = some (.ok response)) :
    response.status = .completed := by
  rcases Validation.runFanout_eq table order internal complete request selector hn hmax with
    ⟨index, reason, winner, -, hwinner, -, heq⟩ | ⟨-, heq⟩
  · rw [heq] at h
    obtain rfl := Except.ok.inj (Option.some.inj h)
    obtain ⟨result, -, hresult⟩ := List.mem_filterMap.mp (List.mem_of_getElem? hwinner)
    cases result with
    | error e => cases hresult
    | ok r =>
        simp only [Validation.completedResponse] at hresult
        split at hresult
        · rename_i hcompleted
          obtain rfl := Option.some.inj hresult
          exact hcompleted
        · cases hresult
  · rw [heq] at h
    cases Option.some.inj h

/-! ### An answer below the threshold -/

namespace Sample

/-- A caller that asks for a confidence of nine tenths. -/
def cautious : StreamContext :=
  { streamContext with
    request :=
      { CreateResponseRequest.text "gpt-4o" "hi" with
        stream := true
        validation := some { strategy := .confidenceThreshold, minConfidence := some 0.9 } } }

/-- An answer whose confidence was measured as one half. -/
def unsure : Response :=
  { Response.builder "resp_a" "gpt-4o" 0 with
    status := .completed
    validation := some
      { strategy := .logprobs, confidence := some 0.5, perplexity := none
        candidatesGenerated := none, selectedIndex := none, selectionReason := none
        passed := true, warning := none, logprobs := none } }

end Sample

open Sample in
/-- The gate makes an answer incomplete that is sent and logged as completed. -/
theorem demoted_sent_as_completed :
    terminalKind (.ok (handleItem cautious itemTurn (.ok (.responseCompleted unsure)) {}).1)
        = some .completed
      ∧ (terminalResponse
          (.ok (handleItem cautious itemTurn (.ok (.responseCompleted unsure)) {}).1)).map (·.status)
        = some .incomplete
      ∧ (handleItem cautious itemTurn (.ok (.responseCompleted unsure)) {}).2.requestLogs.map
          (·.status) = ["completed"]
      ∧ (answerDirectly cautious itemTurn unsure).2.status = "incomplete"
      ∧ ¬ StreamAgrees cautious [(itemTurn, .ok (.responseCompleted unsure))] {} := by
  have hbelow : BelowThreshold cautious.request unsure :=
    ⟨_, _, _, rfl, rfl, rfl, rfl, by decide +kernel⟩
  refine ⟨rfl, by decide +kernel, rfl, by decide +kernel, ?_⟩
  intro h
  have hkept := (streamAgrees_iff _ _).mp h _ List.mem_cons_self rfl unsure rfl
  exact hkept.2 rfl hbelow

end AuraGateway.Proxy
