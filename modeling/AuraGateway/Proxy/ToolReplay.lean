import AuraGateway.Proxy.Compression
import AuraGateway.Proxy.TenantIsolation
import AuraGateway.Types.StreamEvent

/-!
# Tool calls replayed before the client's input

When the input carries the output of a tool call, the calls of the stored previous response are
put in front of it, all of them and nothing else (`replayed_stored`). So every output whose call
the previous response made comes after that call. The conversation is well paired beyond that
as far as the client makes it so: a call occurs once unless the client sends it again, and
every call put in front is answered if the client answers all calls of the response
(`replay_pairing`).
-/

set_option autoImplicit false

namespace AuraGateway.Proxy

open AuraGateway.RustStd AuraGateway.Types AuraGateway.Storage

/-! ## Calls and outputs -/

/-- The input item for a function call of a response. -/
def callItem : Item → Option InputItem
  | .functionCall _ callId name arguments _ => some (.functionCall callId name arguments)
  | _ => none

/-- The ids of the function calls. -/
def callIds (items : List InputItem) : List String :=
  items.filterMap fun
    | .functionCall callId _ _ => some callId
    | _ => none

/-- The ids of the calls that have an output. -/
def outputIds (items : List InputItem) : List String :=
  items.filterMap fun
    | .functionCallOutput callId _ => some callId
    | _ => none

/-- The function calls of the previous response that are put in front of a request. -/
def priorCalls (request : CreateResponseRequest) (output : List Item) : List InputItem :=
  if hasToolOutput request then output.filterMap callItem else []

/-- A stored item is read back as the call it is. -/
theorem replayedCall_json (item : Item) : replayedCall item.json = callItem item := by
  cases item with
  | functionCall id callId name arguments status => rfl
  | message | functionCallOutput | reasoning => rfl

theorem callIds_append (items items' : List InputItem) :
    callIds (items ++ items') = callIds items ++ callIds items' :=
  List.filterMap_append

theorem mem_outputIds {items : List InputItem} {callId : String} :
    callId ∈ outputIds items ↔ ∃ output, .functionCallOutput callId output ∈ items := by
  simp only [outputIds, List.mem_filterMap]
  constructor
  · rintro ⟨item, hitem, heq⟩
    cases item with
    | functionCallOutput callId' output =>
        obtain rfl := Option.some.inj heq
        exact ⟨output, hitem⟩
    | message | functionCall => cases heq
  · rintro ⟨output, hitem⟩
    exact ⟨_, hitem, rfl⟩

/-- The function items decide about calls and outputs. -/
theorem callIds_functionItems (items : List InputItem) :
    callIds (functionItems items) = callIds items := by
  induction items with
  | nil => rfl
  | cons item items ih =>
      cases item with
      | message role content => exact ih
      | functionCall | functionCallOutput =>
          simp only [functionItems, callIds, List.filter_cons, if_true] at ih ⊢
          rw [List.filterMap_cons, List.filterMap_cons, ih]

theorem not_mem_priorCalls (request : CreateResponseRequest) (output : List Item)
    (callId result : String) : .functionCallOutput callId result ∉ priorCalls request output := by
  simp only [priorCalls]
  split
  · intro hmem
    obtain ⟨item, -, heq⟩ := List.mem_filterMap.mp hmem
    cases item with
    | functionCall => cases heq
    | message | functionCallOutput | reasoning => cases heq
  · exact List.not_mem_nil

theorem functionItems_priorCalls (request : CreateResponseRequest) (output : List Item) :
    functionItems (priorCalls request output) = priorCalls request output := by
  apply List.filter_eq_self.mpr
  intro item hitem
  simp only [priorCalls] at hitem
  split at hitem
  · obtain ⟨origin, -, heq⟩ := List.mem_filterMap.mp hitem
    cases origin with
    | functionCall =>
        obtain rfl := Option.some.inj heq
        rfl
    | message | functionCallOutput | reasoning => cases heq
  · exact nomatch hitem

/-! ## The input that is sent -/

section Replay

variable {gw : Gateway} {auth : Option AuthContext} {turn : Turn} {db : Database}
  {request : CreateResponseRequest} {prevId : String} {output : List Item} {p : Prepared}

/-- The previous response is named and stored, and replay is on. -/
structure ReplayRuns (gw : Gateway) (turn : Turn) (db : Database) (request : CreateResponseRequest)
    (output : List Item) : Prop where
  hasDatabase : gw.state.hasDatabase = true
  replayToolContext : gw.replayToolContext = true
  found : turn.fails .outputItems = false
  stored : ∃ prevId, request.previousResponseId = some prevId ∧
    ResponseRepo.findOutputItemsById prevId db = some (.array (output.map Item.json))

/-- What is put in front: the calls of the stored response, in order. -/
theorem replayed_stored (hruns : ReplayRuns gw turn db request output) :
    replayed gw turn db request = priorCalls request output := by
  obtain ⟨prevId, hprev, hstored⟩ := hruns.stored
  simp only [replayed, hruns.hasDatabase, hruns.replayToolContext, Bool.and_true, if_true,
    replayPriorToolCalls, hprev, hruns.found, Bool.or_false, priorCalls]
  cases hasToolOutput request with
  | false => rfl
  | true =>
      simp only [Bool.not_true, Bool.false_eq_true, if_false, hstored, Option.bind_some,
        Json.asArray, Option.getD_some, if_true, List.filterMap_map]
      apply List.filterMap_congr
      intro item _
      exact replayedCall_json item

/-- The calls and outputs that are sent: those put in front, then the client's. -/
theorem functionItems_sent (hruns : ReplayRuns gw turn db request output)
    (h : prepare gw auth turn db request = .ok p) :
    functionItems p.resolution.request.input
      = priorCalls request output ++ functionItems request.input := by
  simp only [prepare] at h
  rw [checked_bind_eq_ok] at h
  obtain ⟨resolution, hresolve, h⟩ := h
  injection h with h
  obtain ⟨model, routing, hres⟩ := resolveAutoModel_rewrites hresolve
  rw [← h, hres]
  show functionItems (preprocessRequest gw.preprocessor _).input = _
  rw [(preprocessRequest_frame _ _).2.1, replayed_stored hruns]
  show functionItems (priorCalls request output ++ request.input) = _
  rw [functionItems, List.filter_append]
  exact congrArg (· ++ functionItems request.input) (functionItems_priorCalls request output)

theorem hasToolOutput_of_mem {callId result : String}
    (h : .functionCallOutput callId result ∈ functionItems request.input) :
    hasToolOutput request = true := by
  apply List.any_eq_true.mpr
  exact ⟨_, (List.mem_filter.mp h).1, rfl⟩

/-- What replay does to the calls and outputs that are sent, when it runs: the calls of the
stored response come first, and before every output that belongs to one of them. No id is
called twice exactly when the response's and the client's calls have different ids, and every
call put in front has an output after it exactly when the client answers all of them. -/
theorem replay_pairing (hruns : ReplayRuns gw turn db request output)
    (h : prepare gw auth turn db request = .ok p) :
    functionItems p.resolution.request.input
        = priorCalls request output ++ functionItems request.input
      ∧ (∀ before callId result after,
          functionItems p.resolution.request.input
              = before ++ .functionCallOutput callId result :: after →
            ∀ name arguments,
              .functionCall callId name arguments ∈ output.filterMap callItem →
              .functionCall callId name arguments ∈ before)
      ∧ ((callIds p.resolution.request.input).Nodup ↔
          (callIds (priorCalls request output)).Nodup ∧ (callIds request.input).Nodup
            ∧ ∀ callId ∈ callIds (priorCalls request output), callId ∉ callIds request.input)
      ∧ ((∀ before callId name arguments after,
            priorCalls request output = before ++ .functionCall callId name arguments :: after →
            ∃ result, .functionCallOutput callId result ∈ after ++ functionItems request.input)
          ↔ ∀ callId ∈ callIds (priorCalls request output), callId ∈ outputIds request.input) := by
  have hsent := functionItems_sent hruns h
  refine ⟨hsent, ?_, ?_, ?_⟩
  · intro before callId result after heq name arguments hcall
    rw [hsent] at heq
    -- an output is the client's, so all calls are in front of it
    rcases List.append_eq_append_iff.mp heq with ⟨more, hbefore, hrest⟩ | ⟨more, hprior, hrest⟩
    · have hmem : .functionCallOutput callId result ∈ functionItems request.input := by
        rw [hrest]
        simp
      rw [hbefore]
      apply List.mem_append_left
      rw [priorCalls, if_pos (hasToolOutput_of_mem hmem)]
      exact hcall
    · cases more with
      | nil =>
          rw [List.append_nil] at hprior
          rw [List.nil_append] at hrest
          have hmem : .functionCallOutput callId result ∈ functionItems request.input := by
            rw [← hrest]
            exact List.mem_cons_self
          rw [← hprior, priorCalls, if_pos (hasToolOutput_of_mem hmem)]
          exact hcall
      | cons item more =>
          obtain ⟨rfl, -⟩ := List.cons.inj hrest
          refine absurd ?_ (not_mem_priorCalls request output callId result)
          rw [hprior]
          simp
  · rw [← callIds_functionItems p.resolution.request.input, hsent, callIds_append,
      callIds_functionItems, List.nodup_append]
    constructor
    · rintro ⟨hprior, hclient, hdisjoint⟩
      exact ⟨hprior, hclient, fun callId hcall hagain => hdisjoint callId hcall callId hagain rfl⟩
    · rintro ⟨hprior, hclient, hdisjoint⟩
      refine ⟨hprior, hclient, ?_⟩
      rintro callId hcall other hother rfl
      exact hdisjoint callId hcall hother
  · constructor
    · intro hanswered callId hcall
      obtain ⟨item, hitem, heq⟩ := List.mem_filterMap.mp hcall
      cases item with
      | functionCall callId' name arguments =>
          obtain rfl := Option.some.inj heq
          obtain ⟨before, after, hprior⟩ := List.append_of_mem hitem
          obtain ⟨result, hresult⟩ := hanswered before callId' name arguments after hprior
          rcases List.mem_append.mp hresult with hresult | hresult
          · refine absurd ?_ (not_mem_priorCalls request output callId' result)
            rw [hprior]
            simp [hresult]
          · exact mem_outputIds.mpr ⟨result, (List.mem_filter.mp hresult).1⟩
      | message | functionCallOutput => cases heq
    · intro hanswered before callId name arguments after hprior
      have hcall : callId ∈ callIds (priorCalls request output) := by
        rw [hprior, callIds_append]
        simp [callIds]
      obtain ⟨result, hresult⟩ := mem_outputIds.mp (hanswered callId hcall)
      exact ⟨result, List.mem_append_right _ (List.mem_filter.mpr ⟨hresult, rfl⟩)⟩

end Replay

/-! ### Two parallel calls -/

namespace TwoTenants

/-- The calls of `resp_b`. -/
def parallelCalls : List Item :=
  [.functionCall "fc_1" "call_1" "lookup" "\x7b\x7d" .completed,
    .functionCall "fc_2" "call_2" "lookup" "\x7b\x7d" .completed]

def parallelDb : Database :=
  { responses :=
      [{ response "resp_b" 21 with outputItems := .array (parallelCalls.map Item.json) }] }

/-- A follow-up that answers the first call only. -/
def oneAnswered : CreateResponseRequest :=
  { toolOutput with input := [.functionCallOutput "call_1" "42"] }

/-- A follow-up that repeats the first call before its output. -/
def echoed : CreateResponseRequest :=
  { toolOutput with
    input := [.functionCall "call_1" "lookup" "\x7b\x7d", .functionCallOutput "call_1" "42"] }

theorem replayRuns : ∀ request ∈ [oneAnswered, echoed],
    ReplayRuns gateway turn parallelDb request parallelCalls := by
  intro request hrequest
  constructor
  · rfl
  · rfl
  · rfl
  · refine ⟨"resp_b", ?_, rfl⟩
    rcases List.mem_pair.mp hrequest with rfl | rfl <;> rfl

/-- What is sent for a request, if it is. -/
def sent (request : CreateResponseRequest) : Option (List InputItem) :=
  match prepare gateway (some key) turn parallelDb request with
  | .ok p => some p.resolution.request.input
  | .error _ => none

end TwoTenants

open TwoTenants in
/-- A client that repeats a call has it sent twice, and a call that it leaves open is sent
without an output. -/
theorem echoed_call_sent_twice :
    (∃ input ∈ sent echoed, ¬ (callIds input).Nodup)
      ∧ ∃ input ∈ sent oneAnswered, "call_2" ∈ callIds input ∧ "call_2" ∉ outputIds input := by
  decide +kernel

open TwoTenants in
theorem replay_pairing_sample :
    ∃ p, prepare gateway (some key) turn parallelDb oneAnswered = .ok p
      ∧ ((callIds p.resolution.request.input).Nodup ↔
          (callIds (priorCalls oneAnswered parallelCalls)).Nodup
            ∧ (callIds oneAnswered.input).Nodup
            ∧ ∀ callId ∈ callIds (priorCalls oneAnswered parallelCalls),
              callId ∉ callIds oneAnswered.input) := by
  have hsome : (sent oneAnswered).isSome = true := by decide +kernel
  cases hprepare : prepare gateway (some key) turn parallelDb oneAnswered with
  | error e => simp [sent, hprepare] at hsome
  | ok p =>
      exact ⟨p, rfl, (replay_pairing (replayRuns _ List.mem_cons_self) hprepare).2.2.1⟩

end AuraGateway.Proxy
