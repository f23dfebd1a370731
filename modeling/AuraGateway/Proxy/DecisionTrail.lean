import AuraGateway.Decisions.SyntheticTraffic
import AuraGateway.Foundations.Upserts
import AuraGateway.Proxy.ActiveRequests
import AuraGateway.Proxy.Replies
import AuraGateway.Proxy.RoutingLab
import AuraGateway.Router.GoldPairs

/-!
# The trail of decisions

Where a request ends with a decision, an exit of its handler records it, some exits once and a
stream once for each terminal event; the tasks that do so run in the background, in any order, and
may be lost. A decision that is recorded again updates the row of its request.

In every such trail a row tells of one request: it is what that request recorded last, the model
in it is the one that was asked last, and it is synthetic exactly if the request was marked and may
be (`trail_honest`). When all is written, the rows are those of the requests whose exit records
them (`trail_complete`), and what the rollup sees of them are the requests that are not synthetic
(`trail_genuine`).
-/

set_option autoImplicit false

namespace AuraGateway.Proxy.DecisionTrail

open AuraGateway.RustStd AuraGateway.Types AuraGateway.Router AuraGateway.Storage
open AuraGateway.Foundations.Upserts AuraGateway.Router.Gold

/-! ## Rows -/

/-- A decision to record: its columns, with the values that are stored as JSON. -/
structure NewRoutingDecision where
  responseId : String
  providerResponseId : Option String
  organizationId : Option Uuid
  apiKeyId : Option Uuid
  conversationId : Option Uuid
  requestedModel : String
  mode : String
  classifier : String
  score : Float
  rawScore : Float
  classifiedTier : String
  tier : String
  selectedModel : String
  selectedProvider : Option String
  reason : String
  shadow : Bool
  features : RequestFeatures
  signals : BTreeMap Float
  hardFilters : List String
  candidates : List CandidateInfo
  requestedBlendedPerMillion : Option Float
  selectedBlendedPerMillion : Option Float
  decisionLatencyUs : Nat
  escalations : List Escalation
  synthetic : Bool
  boundaries : Option TierBoundaries

/-- What the columns take of a decision; a text that is too long fails the write. -/
def NewRoutingDecision.stored (n : NewRoutingDecision) : Option NewRoutingDecision := do
  return { n with
    responseId := ← column 100 n.responseId
    providerResponseId := ← n.providerResponseId.mapM (column 100)
    requestedModel := ← column 100 n.requestedModel
    mode := ← column 16 n.mode
    classifier := ← column 64 n.classifier
    classifiedTier := ← column 16 n.classifiedTier
    tier := ← column 16 n.tier
    selectedModel := ← column 100 n.selectedModel
    selectedProvider := ← n.selectedProvider.mapM (column 50) }

/-- A row of `routing_decisions`. -/
structure DecisionRow extends NewRoutingDecision where
  id : Decisions.Uuid
  createdAt : Decisions.DateTime
  selectedModelFinal : String

/-- `ON CONFLICT (response_id) DO UPDATE`. -/
def DecisionRow.merge (old new : DecisionRow) : DecisionRow :=
  { old with
    providerResponseId := new.providerResponseId.or old.providerResponseId
    conversationId := new.conversationId.or old.conversationId
    selectedModel := new.selectedModel
    selectedProvider := new.selectedProvider
    tier := new.tier
    reason := new.reason
    candidates := new.candidates
    escalations := new.escalations
    selectedModelFinal := new.selectedModelFinal
    boundaries := new.boundaries.or old.boundaries }

def DecisionRow.key (r : DecisionRow) : Option String := some r.responseId

/-- The row of a write, with the defaults of the database. -/
def NewRoutingDecision.row (n : NewRoutingDecision) (id : Decisions.Uuid)
    (now : Decisions.DateTime) : DecisionRow :=
  { n with id, createdAt := now, selectedModelFinal := n.selectedModel }

/-! ## Recording -/

/-- Persist an auto-routing decision; nothing is written without a database or a decision. -/
def recordRoutingDecision (state : AppState) (decision : Option AutoDecision) (requestId : String)
    (providerResponseId : Option String) (auth : Option Auth.AuthContext)
    (conversationId : Option Uuid) : Option NewRoutingDecision :=
  if !state.hasDatabase then none
  else
    decision.map fun d =>
      { responseId := requestId
        providerResponseId
        organizationId := auth.bind (·.tenant.organizationId)
        apiKeyId := auth.map (·.apiKey.id)
        conversationId
        requestedModel := d.requestedModel
        mode := d.mode.asStr
        classifier := d.classifier
        score := d.score
        rawScore := d.rawScore
        classifiedTier := d.classifiedTier.asStr
        tier := d.tier.asStr
        selectedModel := d.selected
        selectedProvider := d.selectedProvider
        reason := d.reason
        shadow := d.shadow
        features := d.features
        signals := d.signals
        hardFilters := d.hardFilters
        candidates := d.candidates
        requestedBlendedPerMillion :=
          if d.shadow then state.blendedCostPerMillion d.requestedModel else none
        selectedBlendedPerMillion := state.blendedCostPerMillion d.selected
        decisionLatencyUs := min d.latencyUs (2 ^ 31 - 1)
        escalations := d.escalations
        synthetic := d.synthetic
        boundaries := some d.boundaries }

/-- The response of an event that is recorded. -/
def recordedResponse : StreamEvent → Option Response
  | .responseCompleted r | .responseFailed r | .responseIncomplete r => some r
  | _ => none

/-- The calls of `record_routing_decision` on the way out: the response that each one names. -/
def recordings (fanout : Bool) (answer : ProviderAnswer) : Ending → List (Option String)
  | .refused _ => []
  | .fromCache _ _ => [none]
  | .fromProvider _ streamed sent =>
      match sent.error with
      -- a fan-out that fails is not recorded
      | some _ => if fanout then [] else [none]
      | none =>
          if streamed then
            (answer.events.filterMap recordedResponse).map fun r => some r.id
          else [some answer.response.id]

/-- The conversation that is recorded; an answer from the cache has none. -/
def recordedConversation : Ending → Option Uuid
  | .fromProvider thread _ _ => thread.map (·.id)
  | _ => none

/-! ## Requests -/

/-- What the handler reads of a key. -/
def keyContext (auth : Auth.AuthContext) : AuthContext :=
  { organizationId := auth.tenant.organizationId
    scopes := auth.apiKey.getScopes }

/-- A request that was handled, under the id it got. -/
structure Handled where
  requestId : String
  gw : Gateway
  auth : Option Auth.AuthContext
  turn : Turn
  stored : Stored
  request : CreateResponseRequest
  answer : ProviderAnswer
  observation : Observation
  handled : createResponse gw (auth.map keyContext) turn stored request = .ok observation
  short : requestId.toList.length ≤ 100

namespace Handled

variable (h : Handled)

/-- Whether the request counts as synthetic. -/
def synthetic : Bool := Proxy.synthetic h.gw (h.auth.map keyContext) h.turn h.stored.db

/-- What it writes when it names this response. -/
def written (providerResponseId : Option String) : Option NewRoutingDecision :=
  recordRoutingDecision h.gw.state h.observation.ending.decision h.requestId providerResponseId
    h.auth (recordedConversation h.observation.ending)

/-- All that it writes. -/
def writes : List NewRoutingDecision :=
  (recordings (needsFanout h.request) h.answer h.observation.ending).filterMap h.written

/-- A row tells of the request: it is what was recorded under one of the responses, and it is true.
-/
structure Tells (row : DecisionRow) : Prop where
  key : row.responseId = h.requestId
  recorded : ∃ n ∈ h.writes, n.stored = some row.toNewRoutingDecision
  final : row.selectedModelFinal = row.selectedModel
  marked : row.synthetic = h.synthetic
  asked : row.shadow = false → ∀ thread streamed sent,
    h.observation.ending = .fromProvider thread streamed sent →
      ∀ c ∈ sent.calls.getLast?, column 100 c.request.model = some row.selectedModel

end Handled

/-- Requests with ids of their own, and the rows that reached the database, in the order in which
they did. -/
structure Trail where
  served : List Handled
  unique : (served.map (·.requestId)).Nodup
  writes : List DecisionRow
  written : ∀ w ∈ writes, ∃ h ∈ served, ∃ n ∈ h.writes, ∃ s id now,
    n.stored = some s ∧ w = s.row id now

/-- The table after the writes. -/
def Trail.rows (t : Trail) : List DecisionRow :=
  upsertAll DecisionRow.key DecisionRow.merge [] t.writes

def Trail.Honest (t : Trail) : Prop := ∀ row ∈ t.rows, ∃ h ∈ t.served, h.Tells row

/-! ## The model that was asked -/

/-- A decision that was applied names the model of the request. -/
def Names (request : CreateResponseRequest) (decision : Option AutoDecision) : Prop :=
  ∀ d ∈ decision, d.shadow = false → request.model = d.selected

theorem resolveAutoModel_names {state : AppState} {env : ResolveEnv}
    {request : CreateResponseRequest} {res : Resolution} {decision : Option AutoDecision}
    (h : resolveAutoModel state env request = .ok res) (hd : res.result = .ok decision) :
    Names res.request decision := by
  rintro d hdecision hreal
  rw [Option.mem_def.mp hdecision] at hd
  obtain ⟨-, -, hno, -⟩ | ⟨_, -, _, _, -, -, hrouted⟩ := resolveAutoModel_cases h
  · exact absurd hd (hno d)
  · obtain ⟨_, -, -, -, -, hshadow, hmodel⟩ := hrouted.decided d hd
    exact hmodel (hshadow ▸ hreal)

/-- Escalations move the decision along with the request. -/
theorem sendRetrying_names {failures : List ProviderFailure} {request : CreateResponseRequest}
    {decision : Option AutoDecision} {provider : Provider} {attempt : Nat} {sent : Sent}
    (hnames : Names request decision)
    (h : sendRetrying request decision provider attempt failures = .ok sent) :
    ∀ c ∈ sent.calls.getLast?, Names c.request sent.decision := by
  induction failures generalizing request decision provider attempt sent with
  | nil =>
      obtain rfl := Except.ok.inj h
      rintro c ⟨⟩
      exact hnames
  | cons f failures ih =>
      rw [sendRetrying, checked_bind_eq_ok] at h
      obtain ⟨res, hres, h⟩ := h
      obtain ⟨hnone, -, hsame⟩ | ⟨_, -, d, sel, next, -, -, -, hrequest, hmoved, hnext⟩ :=
        escalateThrough_cases hres
      · rw [hnone] at h
        obtain rfl := Except.ok.inj h
        rintro c ⟨⟩
        rw [hsame]
        exact hnames
      · rw [hnext] at h
        dsimp only at h
        rw [checked_bind_eq_ok] at h
        obtain ⟨rest, hrest, h⟩ := h
        obtain rfl := Except.ok.inj h
        have hmovedNames : Names res.request res.decision := by
          rw [hrequest, hmoved]
          rintro d' ⟨⟩ -
          rfl
        -- the last call is that of the retries
        obtain ⟨c', calls, hcalls⟩ := List.exists_cons_of_ne_nil (sendRetrying_calls_ne_nil hrest)
        intro c hc
        refine ih hmovedNames hrest c ?_
        dsimp only at hc
        rw [hcalls] at hc ⊢
        rwa [List.getLast?_cons_cons] at hc

theorem send_names {turn : Turn} {request : CreateResponseRequest}
    {decision : Option AutoDecision} {provider : Provider} {sent : Sent}
    (hnames : Names request decision) (h : send turn request decision provider = .ok sent) :
    ∀ c ∈ sent.calls.getLast?, Names c.request sent.decision := by
  rw [send] at h
  split at h
  · obtain rfl := Except.ok.inj h
    intro c hc d hd hreal
    rw [(mem_dispatchCalls (List.mem_of_getLast? hc)).2]
    exact hnames d hd hreal
  · exact sendRetrying_names hnames h

theorem asked_last {gw : Gateway} {auth : Option AuthContext} {turn : Turn} {stored : Stored}
    {request : CreateResponseRequest} {o : Observation}
    (h : createResponse gw auth turn stored request = .ok o) {thread : Option Thread}
    {streamed : Bool} {sent : Sent} (hending : o.ending = .fromProvider thread streamed sent) :
    ∀ c ∈ sent.calls.getLast?, Names c.request sent.decision := by
  cases hscope : scopeMissing auth with
  | true =>
      rw [createResponse, if_pos hscope] at h
      obtain rfl := Except.ok.inj h
      cases hending
  | false =>
      obtain ⟨p, hp, hconclude, -⟩ := conclude_of_createResponse hscope h
      rw [prepare, checked_bind_eq_ok] at hp
      obtain ⟨res, hres, hp⟩ := hp
      obtain rfl := Except.ok.inj hp
      obtain ⟨e, he⟩ | ⟨decision, provider, hresult, -, ⟨_, -, he⟩ | ⟨_, _, -, hsent, he⟩⟩ :=
        conclude_cases hconclude
      · rw [he] at hending
        cases hending
      · rw [he] at hending
        cases hending
      · rw [he] at hending
        obtain ⟨-, -, rfl⟩ := Ending.fromProvider.inj hending
        have hnames : Names (degradeStream res.request) decision := by
          intro d hd hreal
          rw [← resolveAutoModel_names hres hresult d hd hreal, degradeStream]
          split <;> rfl
        exact send_names hnames hsent

/-! ## What is written -/

/-- The columns take a decision alike, whichever response it names. -/
theorem stored_with {n s s' : NewRoutingDecision} {p : Option String} (h : n.stored = some s)
    (h' : { n with providerResponseId := p }.stored = some s') :
    s' = { s with providerResponseId := s'.providerResponseId } := by
  simp only [NewRoutingDecision.stored, Option.bind_eq_bind, Option.pure_def,
    Option.bind_eq_some_iff, Option.some.injEq] at h h'
  obtain ⟨a, ha, b, hb, c, hc, d, hd, e, he, f, hf, g, hg, i, hi, j, hj, rfl⟩ := h
  obtain ⟨a', ha', b', hb', c', hc', d', hd', e', he', f', hf', g', hg', i', hi', j', hj', rfl⟩ := h'
  simp_all

theorem stored_columns {n s : NewRoutingDecision} (h : n.stored = some s) :
    column 100 n.responseId = some s.responseId ∧ column 100 n.selectedModel = some s.selectedModel ∧
      s.shadow = n.shadow ∧ s.synthetic = n.synthetic := by
  simp only [NewRoutingDecision.stored, Option.bind_eq_bind, Option.pure_def,
    Option.bind_eq_some_iff, Option.some.injEq] at h
  obtain ⟨a, hid, b, -, c, -, d, -, e, -, f, -, g, -, i, hmodel, j, -, rfl⟩ := h
  exact ⟨hid, hmodel, rfl, rfl⟩

namespace Handled

variable {h : Handled} {n n' : NewRoutingDecision} {p p' : Option String}

theorem mem_writes :
    n ∈ h.writes ↔ ∃ p ∈ recordings (needsFanout h.request) h.answer h.observation.ending,
      h.written p = some n := List.mem_filterMap

/-- What is written is the decision that the request ends with. -/
theorem written_decision (hn : h.written p = some n) :
    ∃ d ∈ h.observation.ending.decision,
      n.responseId = h.requestId ∧ n.providerResponseId = p ∧ n.selectedModel = d.selected ∧
        n.shadow = d.shadow ∧ n.synthetic = d.synthetic := by
  rw [written, recordRoutingDecision] at hn
  split at hn
  · cases hn
  · obtain ⟨d, hd, rfl⟩ := Option.map_eq_some_iff.mp hn
    exact ⟨d, hd, rfl, rfl, rfl, rfl, rfl⟩

/-- The writes of a request differ in the response they name. -/
theorem written_with (hn : h.written p = some n) (hn' : h.written p' = some n') :
    n' = { n with providerResponseId := p' } := by
  rw [written, recordRoutingDecision] at hn hn'
  split at hn
  · cases hn
  · next hdatabase =>
      obtain ⟨d, hd, rfl⟩ := Option.map_eq_some_iff.mp hn
      rw [if_neg hdatabase, hd] at hn'
      exact (Option.some.inj hn').symm

end Handled

/-- The exits of a request name a response in all that they record, or in none of it. -/
theorem recordings_isSome {fanout : Bool} {answer : ProviderAnswer} {ending : Ending}
    {p p' : Option String} (hp : p ∈ recordings fanout answer ending)
    (hp' : p' ∈ recordings fanout answer ending) : p.isSome = p'.isSome := by
  have hsame : ∀ l : List (Option String), (∀ q ∈ l, q = none) ∨ (∀ q ∈ l, q.isSome = true) →
      p ∈ l → p' ∈ l → p.isSome = p'.isSome := by
    rintro l (hnone | hsome) hp hp'
    · rw [hnone p hp, hnone p' hp']
    · rw [hsome p hp, hsome p' hp']
  refine hsame _ ?_ hp hp'
  cases ending with
  | refused e => exact .inl fun q hq => by cases hq
  | fromCache hit decision => exact .inl fun q hq => List.mem_singleton.mp hq
  | fromProvider thread streamed sent =>
      rw [recordings]
      split
      · split
        · exact .inl fun q hq => by cases hq
        · exact .inl fun q hq => List.mem_singleton.mp hq
      · refine .inr fun q hq => ?_
        split at hq
        · obtain ⟨r, -, rfl⟩ := List.mem_map.mp hq
          rfl
        · rw [List.mem_singleton.mp hq]
          rfl

theorem stored_isSome {n s : NewRoutingDecision} (h : n.stored = some s) :
    s.providerResponseId.isSome = n.providerResponseId.isSome := by
  simp only [NewRoutingDecision.stored, Option.bind_eq_bind, Option.pure_def,
    Option.bind_eq_some_iff, Option.some.injEq] at h
  obtain ⟨a, -, provider, hprovider, c, -, d, -, e, -, f, -, g, -, i, -, j, -, rfl⟩ := h
  cases hp : n.providerResponseId with
  | none =>
      rw [hp] at hprovider
      cases hprovider
      rfl
  | some p =>
      rw [hp, Option.mapM_some] at hprovider
      obtain ⟨q, -, rfl⟩ := Option.map_eq_some_iff.mp hprovider
      rfl

/-- A row that is recorded again is what was recorded last, but for its id and its time. -/
theorem merge_recorded {h : Handled} {n n' : NewRoutingDecision} (hn : n ∈ h.writes)
    (hn' : n' ∈ h.writes) {old new : DecisionRow} (hold : n.stored = some old.toNewRoutingDecision)
    (hnew : n'.stored = some new.toNewRoutingDecision) :
    old.merge new = { new with id := old.id, createdAt := old.createdAt } := by
  obtain ⟨p, hp, hwritten⟩ := Handled.mem_writes.mp hn
  obtain ⟨p', hp', hwritten'⟩ := Handled.mem_writes.mp hn'
  obtain rfl := Handled.written_with hwritten hwritten'
  have hsame := stored_with hold hnew
  -- a response that was named is named again
  have hnamed : new.providerResponseId.or old.providerResponseId = new.providerResponseId := by
    cases hresponse : new.providerResponseId with
    | some q => rfl
    | none =>
        have hnone : old.providerResponseId.isSome = false := by
          obtain ⟨-, -, -, hprovider, -⟩ := Handled.written_decision hwritten
          rw [stored_isSome hold, hprovider, recordings_isSome hp hp', ← stored_isSome hnew,
            hresponse]
          rfl
        rw [Option.none_or]
        exact Option.isNone_iff_eq_none.mp (Option.isSome_eq_false_iff.mp hnone)
  have hcolumns : (old.merge new).toNewRoutingDecision = new.toNewRoutingDecision := by
    simp only [DecisionRow.merge, hnamed]
    rw [hsame]
    simp only [Option.or_self]
  rw [← hcolumns]
  rfl

/-! ## Rows are true -/

theorem key_merge (old new : DecisionRow) (_ : old.key = new.key) : (old.merge new).key = old.key :=
  rfl

theorem responseId_recorded {h : Handled} {n s : NewRoutingDecision} (hn : n ∈ h.writes)
    (hs : n.stored = some s) : s.responseId = h.requestId := by
  obtain ⟨_, -, hwritten⟩ := Handled.mem_writes.mp hn
  obtain ⟨_, -, hid, -⟩ := Handled.written_decision hwritten
  have hcolumn := (stored_columns hs).1
  rw [hid] at hcolumn
  exact column_of_length_le h.short hcolumn

namespace Trail

variable (t : Trail)

theorem served_inj {h h' : Handled} (hh : h ∈ t.served) (hh' : h' ∈ t.served)
    (hid : h.requestId = h'.requestId) : h = h' :=
  List.inj_on_of_nodup_map t.unique hh hh' hid

/-- Every row is one of the records of a request. -/
def Recorded (row : DecisionRow) : Prop :=
  ∃ h ∈ t.served, ∃ n ∈ h.writes, n.stored = some row.toNewRoutingDecision ∧
    row.selectedModelFinal = row.selectedModel

theorem recorded_rows : ∀ row ∈ t.rows, t.Recorded row := by
  refine forall_mem_upsertAll (P := t.Recorded) ?_ (fun r (h : r ∈ []) => by cases h) ?_
  · rintro old new ⟨h, hh, n, hn, hold, -⟩ ⟨h', hh', n', hn', hnew, hfinal⟩ hconflict
    have hid : h.requestId = h'.requestId := by
      rw [← responseId_recorded hn hold, ← responseId_recorded hn' hnew]
      exact Option.some.inj hconflict.1
    obtain rfl := t.served_inj hh hh' hid
    rw [merge_recorded hn hn' hold hnew]
    exact ⟨h, hh, n', hn', hnew, hfinal⟩
  · intro w hw
    obtain ⟨h, hh, n, hn, s, id, now, hs, rfl⟩ := t.written w hw
    exact ⟨h, hh, n, hn, hs, rfl⟩

end Trail

/-- Every row tells of a request, in whatever order and however often decisions were recorded. -/
theorem trail_honest (t : Trail) : t.Honest := by
  intro row hrow
  obtain ⟨h, hh, n, hn, hs, hfinal⟩ := t.recorded_rows row hrow
  obtain ⟨p, -, hwritten⟩ := Handled.mem_writes.mp hn
  obtain ⟨d, hd, -, -, hmodel, hshadow, hsynthetic⟩ := Handled.written_decision hwritten
  obtain ⟨-, hselected, hrowShadow, hrowSynthetic⟩ := stored_columns hs
  refine ⟨h, hh, responseId_recorded hn hs, ⟨n, hn, hs⟩, hfinal, ?_, ?_⟩
  · rw [hrowSynthetic, hsynthetic]
    exact (synthetic_mark h.handled).1 d hd
  · intro hreal thread streamed sent hending c hc
    rw [hending] at hd
    have hnames := asked_last h.handled hending c hc d hd (hshadow ▸ hrowShadow ▸ hreal)
    rw [hnames, ← hmodel]
    exact hselected

/-! ## Rows are complete -/

/-- A trail that is all written, but for what the database does not take. -/
structure SettledTrail extends Trail where
  accepts : NewRoutingDecision → Bool
  settled : ∀ h ∈ served, ∀ n ∈ h.writes, ∀ s, n.stored = some s → accepts s = true →
    ∃ id now, s.row id now ∈ writes
  accepted : ∀ w ∈ writes, accepts w.toNewRoutingDecision = true

/-- The requests write one after the other, and nothing fails. -/
def SettledTrail.inOrder (served : List Handled) (unique : (served.map (·.requestId)).Nodup)
    (id : Decisions.Uuid) (now : Decisions.DateTime) : SettledTrail where
  served := served
  unique := unique
  writes := served.flatMap fun h => h.writes.filterMap fun n => n.stored.map fun s => s.row id now
  written := by
    intro w hw
    obtain ⟨h, hh, hw⟩ := List.mem_flatMap.mp hw
    obtain ⟨n, hn, hw⟩ := List.mem_filterMap.mp hw
    obtain ⟨s, hs, rfl⟩ := Option.map_eq_some_iff.mp hw
    exact ⟨h, hh, n, hn, s, id, now, hs, rfl⟩
  accepts := fun _ => true
  settled := by
    intro h hh n hn s hs _
    refine ⟨id, now, List.mem_flatMap.mpr ⟨h, hh, List.mem_filterMap.mpr ⟨n, hn, ?_⟩⟩⟩
    rw [hs]
    rfl
  accepted := fun _ _ => rfl

/-- Whether an exit of the request records its decision, and the columns take it. -/
def Handled.recorded (accepts : NewRoutingDecision → Bool) (h : Handled) : Bool :=
  h.writes.any fun n => n.stored.any accepts

theorem Trail.nodup_rows (t : Trail) : (t.rows.map (·.responseId)).Nodup := by
  have hkeyed : Keyed DecisionRow.key t.rows :=
    Keyed.upsertAll key_merge (show Keyed DecisionRow.key [] from List.nodup_nil) t.writes
  rwa [Keyed, show DecisionRow.key = fun r => some r.responseId from rfl,
    List.filterMap_eq_map'] at hkeyed

theorem Trail.mem_rows (t : Trail) {k : String} :
    k ∈ t.rows.map (·.responseId) ↔ k ∈ t.writes.map (·.responseId) := by
  have hmem : k ∈ t.rows.filterMap DecisionRow.key ↔ _ ∨ k ∈ t.writes.filterMap DecisionRow.key :=
    mem_keys_upsertAll key_merge
  rw [show DecisionRow.key = fun r => some r.responseId from rfl, List.filterMap_eq_map',
    List.map_nil, or_iff_right (fun h : k ∈ [] => by cases h)] at hmem
  exact hmem

theorem SettledTrail.recorded_iff (t : SettledTrail) {h : Handled} (hh : h ∈ t.served) :
    h.requestId ∈ t.rows.map (·.responseId) ↔ h.recorded t.accepts = true := by
  rw [Trail.mem_rows, List.mem_map, Handled.recorded, List.any_eq_true]
  constructor
  · rintro ⟨w, hw, hid⟩
    obtain ⟨h', hh', n, hn, s, id, now, hs, rfl⟩ := t.written w hw
    have hids : h'.requestId = h.requestId := (responseId_recorded hn hs).symm.trans hid
    obtain rfl := t.served_inj hh' hh hids
    refine ⟨n, hn, ?_⟩
    rw [hs]
    exact t.accepted _ hw
  · rintro ⟨n, hn, haccepted⟩
    obtain ⟨s, hs, haccepted⟩ := (Option.any_eq_true _ _).mp haccepted
    obtain ⟨id, now, hw⟩ := t.settled h hh n hn s hs haccepted
    exact ⟨_, hw, responseId_recorded hn hs⟩

/-- The requests that have a row are those whose exit recorded a decision, each one once. -/
theorem trail_complete (t : SettledTrail) :
    (t.rows.map (·.responseId)).Perm
      ((t.served.filter (Handled.recorded t.accepts)).map (·.requestId)) := by
  refine (List.perm_ext_iff_of_nodup t.nodup_rows ?_).mpr fun k => ?_
  · exact t.unique.sublist (List.filter_sublist.map _)
  · constructor
    · intro hk
      obtain ⟨row, hrow, rfl⟩ := List.mem_map.mp hk
      obtain ⟨h, hh, n, hn, hs, -⟩ := t.recorded_rows row hrow
      have hid : row.responseId = h.requestId := responseId_recorded hn hs
      rw [hid] at hk ⊢
      exact List.mem_map.mpr ⟨h, List.mem_filter.mpr ⟨hh, (t.recorded_iff hh).mp hk⟩, rfl⟩
    · intro hk
      obtain ⟨h, hh, rfl⟩ := List.mem_map.mp hk
      obtain ⟨hserved, hrecorded⟩ := List.mem_filter.mp hh
      exact (t.recorded_iff hserved).mpr hrecorded

/-! ## What the rollup sees -/

/-- One step of an escalation as it is stored. -/
def escalationJson (e : Escalation) : Json :=
  .object
    [("from_model", .string e.fromModel), ("from_tier", .string e.fromTier.asStr),
      ("to_model", .string e.toModel), ("to_tier", .string e.toTier.asStr),
      ("error_code", .string e.errorCode)]

/-- A row with the columns that the explorer and the rollup read. -/
def DecisionRow.decision (r : DecisionRow) : Decisions.RoutingDecision where
  id := r.id
  responseId := r.responseId
  providerResponseId := r.providerResponseId
  organizationId := r.organizationId.map (Fin.ofNat _)
  apiKeyId := r.apiKeyId.map (Fin.ofNat _)
  mode := r.mode
  classifiedTier := r.classifiedTier
  tier := r.tier
  selectedModel := r.selectedModel
  shadow := r.shadow
  synthetic := r.synthetic
  hardFilters := r.hardFilters
  escalations := .array (r.escalations.map escalationJson)
  createdAt := r.createdAt

/-- The tables with the rows of the trail. -/
def Trail.tables (t : Trail) (others : Decisions.Tables) : Decisions.Tables :=
  { others with decisions := t.rows.map DecisionRow.decision }

/-- What the rollup sees are the requests that recorded a decision and are not synthetic. -/
theorem trail_genuine (t : SettledTrail) (others : Decisions.Tables) :
    ((t.tables others).genuine.map (·.responseId)).Perm
      ((t.served.filter fun h => h.recorded t.accepts && !h.synthetic).map (·.requestId)) := by
  have hgenuine : (t.tables others).genuine.map (·.responseId)
      = (t.rows.filter fun r => !r.synthetic).map (·.responseId) := by
    rw [Decisions.Tables.genuine, Trail.tables, List.filter_map, List.map_map]
    rfl
  rw [hgenuine]
  refine (List.perm_ext_iff_of_nodup ?_ ?_).mpr fun k => ?_
  · exact t.nodup_rows.sublist (List.filter_sublist.map _)
  · exact t.unique.sublist (List.filter_sublist.map _)
  · constructor
    · intro hk
      obtain ⟨row, hrow, rfl⟩ := List.mem_map.mp hk
      obtain ⟨hrow, hsynthetic⟩ := List.mem_filter.mp hrow
      obtain ⟨h, hh, htells⟩ := trail_honest t.toTrail row hrow
      have hrecorded := (t.recorded_iff hh).mp (htells.key ▸ List.mem_map_of_mem hrow)
      refine List.mem_map.mpr ⟨h, List.mem_filter.mpr ⟨hh, ?_⟩, htells.key.symm⟩
      rw [hrecorded, ← htells.marked]
      exact hsynthetic
    · intro hk
      obtain ⟨h, hh, rfl⟩ := List.mem_map.mp hk
      obtain ⟨hserved, hboth⟩ := List.mem_filter.mp hh
      obtain ⟨hrecorded, hsynthetic⟩ := Bool.and_eq_true_iff.mp hboth
      obtain ⟨row, hrow, hid⟩ := List.mem_map.mp ((t.recorded_iff hserved).mpr hrecorded)
      obtain ⟨h', hh', htells⟩ := trail_honest t.toTrail row hrow
      obtain rfl := t.served_inj hh' hserved (htells.key.symm.trans hid)
      refine List.mem_map.mpr ⟨row, List.mem_filter.mpr ⟨hrow, ?_⟩, hid⟩
      rw [htells.marked]
      exact hsynthetic

/-! ### A lab run -/

namespace LabTrail

/-- The gateway of the sample router, with a database. -/
def gateway : Gateway :=
  { TwoTenants.gateway with state := { Sample.state with hasDatabase := true } }

/-- What a request observes that does not panic. -/
def observed : Checked Observation → Observation
  | .ok o => o
  | .error _ =>
      { replayed := [], previousModel := none, resolutionCalls := [], gold := none
        ending := .refused insufficientScope }

theorem eq_observed {r : Checked Observation} (h : Lab.routed r = true) : r = .ok (observed r) := by
  cases r with
  | ok o => rfl
  | error e => cases h

theorem handled :
    runLabRequest gateway TwoTenants.turn {} Lab.body
      = .ok (observed (runLabRequest gateway TwoTenants.turn {} Lab.body)) :=
  eq_observed (by decide +kernel)

def request : Handled where
  requestId := "aura_1"
  gw := gateway
  auth := none
  turn := TwoTenants.turn.withHeaders Lab.body.headers
  stored := {}
  request := Lab.body.rewritten
  answer := TwoTenants.providerAnswer
  observation := observed (runLabRequest gateway TwoTenants.turn {} Lab.body)
  handled := handled
  short := by decide

def now : Decisions.DateTime := ⟨0, by decide, by decide⟩

def trail : SettledTrail := .inOrder [request] (by decide) 1 now

end LabTrail

open LabTrail in
/-- A lab run leaves a row that no rollup sees. -/
example : trail.rows.length = 1 ∧ (trail.tables {}).genuine.length = 0 := by decide +kernel

end AuraGateway.Proxy.DecisionTrail
