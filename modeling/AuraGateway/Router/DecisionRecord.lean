import AuraGateway.Router.BudgetPolicy

/-!
# What a decision record says

A recorded decision names a model, its provider, its tier, its predicted cost and the
candidates that were considered, and gives a reason. Escalations move the model and
rewrite some of these fields. Two laws are settled here, over a decision followed by
any number of escalations.

* Budget honesty: a model predicted above the budget is named only when nothing that
  was searched is within it, and then the reason says so. It fails where a tool loop
  keeps the previous model and where an escalation drops the budget;
  `budget_honest_of_reach` covers every other run.
* The record describes the model it names. An escalation leaves the predicted cost of
  the first model in place, so after one the record is right exactly when the new
  model costs the same (`record_describes_iff`).
-/

set_option autoImplicit false

namespace AuraGateway.Router

open AuraGateway.RustStd AuraGateway.Types AuraGateway.Foundations.LabelledRuns

/-! ## The reason -/

/-- The reason contains the note. -/
def Says (reason note : String) : Prop := note.toList <:+: reason.toList

instance (reason note : String) : Decidable (Says reason note) :=
  inferInstanceAs (Decidable (note.toList <:+: reason.toList))

section Reason

variable {reason note : String}

theorem Says.append (h : Says reason note) (suffix : String) : Says (reason ++ suffix) note := by
  simp only [Says] at h ⊢
  rw [String.toList_append]
  exact h.trans (List.prefix_append _ _).isInfix

theorem says_append_right (pre note : String) : Says (pre ++ note) note := by
  simp only [Says]
  rw [String.toList_append]
  exact (List.suffix_append _ _).isInfix

/-- Appending notes to a reason loses nothing it says. -/
theorem Says.foldl (h : Says reason note) (notes : List String) :
    Says (notes.foldl (fun s n => s ++ "; " ++ n) reason) note := by
  -- over the notes; the reason they are appended to varies
  induction notes generalizing reason with
  | nil => exact h
  | cons n rest ih => exact ih ((h.append "; ").append n)

/-- A note appended to a reason is said by it. -/
theorem says_foldl_append_singleton (notes : List String) (reason note : String) :
    Says ((notes ++ [note]).foldl (fun s n => s ++ "; " ++ n) reason) note := by
  rw [List.foldl_append, List.foldl_cons, List.foldl_nil]
  exact says_append_right _ note

/-- An escalation appends to the reason. -/
theorem Says.applyEscalation {d : AutoDecision} (h : Says d.reason note) (sel : TierSelection)
    (errorCode : String) : Says (AutoRouter.applyEscalation d sel errorCode).reason note := by
  show Says (d.reason ++ "; escalated from " ++ d.selected ++ " after " ++ errorCode ++ ": "
    ++ sel.reason) note
  exact (((((h.append _).append _).append _).append _).append _).append _

end Reason

/-! ## Budget honesty -/

/-- A model `m` above the budget `b` is named only when no eligible model of the
searched tiers is within `b`, and the reason says that the budget was ignored. -/
def BudgetHonest (tiers : TierModels) (order : List Tier) (base : Eligibility) (b : Float)
    (m reason : String) : Prop :=
  exceeds b (base.predictedCostUsd m) = true →
    (∀ t ∈ order, ∀ c ∈ tiers.get t, base.isEligible c = .ok true →
      exceeds b (base.predictedCostUsd c) = true) ∧
    Says reason (AutoRouter.budgetIgnoredNote b)

/-- A model within the budget, or of unknown cost, is eligible in a searched tier. -/
def WithinReach (tiers : TierModels) (order : List Tier) (base : Eligibility) (b : Float) : Prop :=
  ∃ t ∈ order, ∃ c ∈ tiers.get t, base.isEligible c = .ok true ∧
    exceeds b (base.predictedCostUsd c) = false

/-- The budget of a request that sets a positive one. -/
theorem budgetOf_eq_some {options : Option RoutingOptions} {b : Float}
    (hb : options.bind (·.maxCostUsd) = some b) (hpos : 0 < b) :
    AutoRouter.budgetOf options = some b := by
  simp only [AutoRouter.budgetOf]
  rw [hb]
  exact if_pos (by simpa using hpos)

section Honesty

variable {tiers : TierModels} {order : List Tier} {base : Eligibility} {b : Float}

/-- Where the budget admits nothing, every eligible model is above it. -/
theorem exceeds_of_noneEligible (h : ∀ t ∈ order, NoneEligible tiers (budgetOracle base b) t)
    {t : Tier} (ht : t ∈ order) {c : String} (hc : c ∈ tiers.get t)
    (he : base.isEligible c = .ok true) : exceeds b (base.predictedCostUsd c) = true := by
  by_contra hx
  have hin : (budgetOracle base b).isEligible c = .ok true :=
    budgetOracle_eligible_iff.mpr ⟨by simpa using hx, he⟩
  rw [h t ht c hc] at hin
  cases hin

theorem not_noneEligible_of_reach (h : WithinReach tiers order base b) :
    ¬ ∀ t ∈ order, NoneEligible tiers (budgetOracle base b) t := by
  intro hn
  obtain ⟨t, ht, c, hc, he, hx⟩ := h
  rw [exceeds_of_noneEligible hn ht hc he] at hx
  cases hx

variable {r : AutoRouter} {env : DecisionEnv} {request : CreateResponseRequest}
  {ctx : DecisionContext} {oracle : Eligibility} {ov : Option ClassifierOverride}
  {d : AutoDecision}

/-- A decision is honest about its budget unless a tool loop keeps a model above it. -/
theorem decide_budgetHonest (hb : AutoRouter.budgetOf ctx.options = some b)
    (h : r.decideWithOverride env request ctx oracle ov = .ok (.ok d))
    (hsticky : ∀ prev t, StickyKept r request ctx ov oracle prev t →
      exceeds b (oracle.predictedCostUsd prev) = false) :
    BudgetHonest r.config.tiers (searched r request ctx ov) (filteredOracle oracle ctx.options)
      b d.selected d.reason := by
  intro hx
  rcases decide_selects h with ⟨prev, t, hk, rfl⟩ | ⟨-, sel, note, hs, rfl⟩
  -- a model that a tool loop keeps is not above the budget
  · have hcheap := hsticky prev t hk
    rw [show exceeds b (oracle.predictedCostUsd prev) = true from hx] at hcheap
    cases hcheap
  · rcases selectWithBudget_note hb hs with hcheap | ⟨hnone, rfl⟩
    · rw [show exceeds b (oracle.predictedCostUsd sel.model) = true from hx] at hcheap
      cases hcheap
    · constructor
      · intro t ht c hc he
        exact exceeds_of_noneEligible hnone ht hc he
      · exact says_foldl_append_singleton _ _ _

/-- An escalation is honest about the budget when an untried model within it is in
reach, or when the reason already says that the budget was ignored. -/
theorem escalation_budgetHonest {s : EscalationInput} {sel : TierSelection}
    (hb : AutoRouter.budgetOf s.options = some b)
    (h : r.nextCandidate s.env d s.options s.oracle s.exclude = .ok (some sel))
    (hreach : WithinReach r.config.tiers (escalationOrder d s.options)
        (untried s.oracle s.options s.exclude) b ∨
      Says d.reason (AutoRouter.budgetIgnoredNote b)) :
    BudgetHonest r.config.tiers (escalationOrder d s.options)
      (untried s.oracle s.options s.exclude) b
      (AutoRouter.applyEscalation d sel s.errorCode).selected
      (AutoRouter.applyEscalation d sel s.errorCode).reason := by
  intro hx
  obtain ⟨o, ho, hs⟩ := nextCandidate_through h
  rcases ho.void_or_limited with ⟨-, hvoid⟩ | ⟨limit, hl, rfl⟩
  -- the search dropped the budget, so nothing in reach is within it
  · have hnone := hvoid b hb
    constructor
    · intro t ht c hc he
      exact exceeds_of_noneEligible hnone ht hc he
    · rcases hreach with hin | hsaid
      · exact absurd hnone (not_noneEligible_of_reach hin)
      · exact hsaid.applyEscalation sel s.errorCode
  · -- within the budget: the model named is not above it
    rw [hb] at hl
    obtain rfl : b = limit := Option.some.inj hl
    have hcheap := (budgetOracle_eligible_iff.mp hs.eligible).1
    rw [show exceeds b ((untried s.oracle s.options s.exclude).predictedCostUsd sel.model) = true
      from hx] at hcheap
    cases hcheap

end Honesty

/-- A decision and the search that chose its model: the tiers searched, and the oracle
they were searched through before a budget was applied. -/
structure Choice where
  decision : AutoDecision
  order : List Tier
  base : Eligibility

/-- The choice of a decision. -/
def decided (r : AutoRouter) (request : CreateResponseRequest) (ctx : DecisionContext)
    (ov : Option ClassifierOverride) (oracle : Eligibility) (d : AutoDecision) : Choice :=
  { decision := d
    order := searched r request ctx ov
    base := filteredOracle oracle ctx.options }

/-- The choice of an escalation from `d`. -/
def escalated (d : AutoDecision) (s : EscalationInput) (sel : TierSelection) : Choice :=
  { decision := AutoRouter.applyEscalation d sel s.errorCode
    order := escalationOrder d s.options
    base := untried s.oracle s.options s.exclude }

/-- The choice is honest about the budget `b`. -/
def Choice.Honest (tiers : TierModels) (b : Float) (c : Choice) : Prop :=
  BudgetHonest tiers c.order c.base b c.decision.selected c.decision.reason

/-- One escalation of a request with the budget `b`, taken while an untried model within
`b` is in reach or from a decision whose reason says that the budget was ignored. -/
def EscalatesInReach (r : AutoRouter) (options : Option RoutingOptions) (b : Float)
    (c : Choice) (s : EscalationInput) (c' : Choice) : Prop :=
  s.options = options ∧
    (WithinReach r.config.tiers (escalationOrder c.decision s.options)
        (untried s.oracle s.options s.exclude) b ∨
      Says c.decision.reason (AutoRouter.budgetIgnoredNote b)) ∧
    ∃ sel, r.nextCandidate s.env c.decision s.options s.oracle s.exclude = .ok (some sel) ∧
      c' = escalated c.decision s sel

/-- A request with the budget `b`, whose tool loop, if any, keeps no model above `b`: the
decision is honest about the budget, and so is every state of a run of escalations taken
within reach of a model that fits or after the reason said that none does. -/
theorem budget_honest_of_reach (r : AutoRouter) (env : DecisionEnv)
    (request : CreateResponseRequest) (ctx : DecisionContext) (oracle : Eligibility)
    (ov : Option ClassifierOverride) (d : AutoDecision) (b : Float)
    (hb : ctx.options.bind (·.maxCostUsd) = some b) (hpos : 0 < b)
    (h : r.decideWithOverride env request ctx oracle ov = .ok (.ok d))
    (hsticky : ∀ prev t, StickyKept r request ctx ov oracle prev t →
      exceeds b (oracle.predictedCostUsd prev) = false)
    (steps : List EscalationInput) (c : Choice)
    (hrun : Run (EscalatesInReach r ctx.options b) (decided r request ctx ov oracle d) steps c) :
    c.Honest r.config.tiers b := by
  have hbudget := budgetOf_eq_some hb hpos
  refine hrun.stateInvariant (Choice.Honest r.config.tiers b) ?_ ?_
  · exact decide_budgetHonest hbudget h hsticky
  · rintro c₁ s c' - ⟨hopt, hreach, sel, hn, rfl⟩
    rw [← hopt] at hbudget
    exact escalation_budgetHonest hbudget hn hreach

namespace Sample

/-- The sample context with a budget. -/
def budgeted (b : Float) : DecisionContext :=
  { context with options := some { maxCostUsd := some b } }

/-- The model `n` has failed. -/
def afterN (options : Option RoutingOptions) : EscalationInput :=
  { env, options, oracle := priced, exclude := ["n"], errorCode := "timeout" }

/-- A request that continues a tool loop. -/
def loopRequest : CreateResponseRequest :=
  { model := "auto"
    input := [.functionCallOutput "call" "42"]
    previousResponseId := some "resp" }

end Sample

/-- With a budget of 1 the sample gateway decides for `n`; after `n` has failed it is
honest to move on, since other tiers have models that cost 0.5. -/
theorem budget_honest_sample :
    ∃ (d : AutoDecision) (c : Choice),
      Run (EscalatesInReach Sample.router (Sample.budgeted 1).options 1)
        (decided Sample.router Sample.request (Sample.budgeted 1) (Sample.forced .medium)
          Sample.priced d) [Sample.afterN (Sample.budgeted 1).options] c ∧
      c.Honest Sample.router.config.tiers 1 := by
  obtain ⟨d, hd, -, ht⟩ := exists_of_outcomeOf
    (show outcomeOf (Sample.router.decideWithOverride Sample.env Sample.request
      (Sample.budgeted 1) Sample.priced (Sample.forced .medium)) = some ("n", .medium) by decide)
  obtain ⟨sel, hsel⟩ : ∃ sel, Sample.router.nextCandidate Sample.env d
      (Sample.budgeted 1).options Sample.priced ["n"] = .ok (some sel) := by
    rw [nextCandidate_eq_of_tier (show d.tier = { d with tier := .medium }.tier from ht)]
    exact ⟨_, rfl⟩
  have hrun : Run (EscalatesInReach Sample.router (Sample.budgeted 1).options 1)
      (decided Sample.router Sample.request (Sample.budgeted 1) (Sample.forced .medium)
        Sample.priced d) [Sample.afterN (Sample.budgeted 1).options]
      (escalated d (Sample.afterN (Sample.budgeted 1).options) sel) := by
    refine Run.snoc .nil ⟨rfl, Or.inl ⟨.complex, ?_, "c", by decide, by decide, by decide⟩,
      sel, hsel, rfl⟩
    show Tier.complex ∈ escalationOrder d (Sample.budgeted 1).options
    simp only [escalationOrder, AutoRouter.escalationMaxTier, ht]
    decide
  refine ⟨d, _, hrun, ?_⟩
  refine budget_honest_of_reach Sample.router Sample.env Sample.request (Sample.budgeted 1)
    Sample.priced (Sample.forced .medium) d 1 rfl (by decide) hd ?_ _ _ hrun
  intro prev t hk
  exact absurd hk.previous (by simp [Sample.budgeted, Sample.context])

/-- With a budget of 1 a tool loop keeps `m`, which costs 2, although `n` costs 0.5, and
the reason does not mention the budget. -/
theorem budget_honest_broken :
    ∃ d, Sample.router.decideWithOverride Sample.env Sample.loopRequest
        { Sample.budgeted 1 with previousModel := some "m" } Sample.priced
        (Sample.forced .medium) = .ok (.ok d) ∧
      ¬ (decided Sample.router Sample.loopRequest
          { Sample.budgeted 1 with previousModel := some "m" } (Sample.forced .medium)
          Sample.priced d).Honest Sample.router.config.tiers 1 := by
  -- the second call in a tool loop: `m` is eligible and in the searched range
  have hkept : StickyKept Sample.router Sample.loopRequest
      { Sample.budgeted 1 with previousModel := some "m" } (Sample.forced .medium)
      Sample.priced "m" .medium := by
    refine ⟨rfl, by decide, rfl, ⟨rfl, ?_⟩, by decide, by decide, by decide⟩
    rintro opts ⟨⟩
    decide
  refine ⟨_, decide_of_sticky (Or.inl rfl) hkept, ?_⟩
  intro h
  obtain ⟨-, hsays⟩ := h (by decide)
  exact absurd hsays (by decide +kernel)

/-! ## The record and its model -/

/-- The record says about its model what the catalog and the oracle say about it: the
provider, a tier that lists it, the predicted cost, and a candidate marked eligible. -/
structure Describes (r : AutoRouter) (oracle : Eligibility) (d : AutoDecision) : Prop where
  provider : d.selectedProvider = oracle.providerOf d.selected
  tier : d.selected ∈ r.config.tiers.get d.tier
  predicted : d.predictedCostUsd = oracle.predictedCostUsd d.selected
  candidate : ∃ c ∈ d.candidates, c.model = d.selected ∧ c.tier = d.tier ∧ c.eligible = true

section Record

variable {r : AutoRouter} {env : DecisionEnv} {request : CreateResponseRequest}
  {ctx : DecisionContext} {oracle : Eligibility} {ov : Option ClassifierOverride}
  {d : AutoDecision}

theorem decide_describes (h : r.decideWithOverride env request ctx oracle ov = .ok (.ok d)) :
    Describes r oracle d := by
  have htier := decide_listed h
  rcases decide_cases h with ⟨prev, t, hk, rfl⟩ | ⟨-, sel, note, o, draws, hs, rfl⟩
  · refine ⟨rfl, htier, rfl, ?_⟩
    exact ⟨_, List.mem_singleton_self _, rfl, rfl, rfl⟩
  · refine ⟨?_, htier, rfl, select_candidate hs.select⟩
    exact hs.selected.provider.trans (hs.inForce.providerOf sel.model)

/-- A next candidate is among its own candidates, marked eligible. -/
theorem nextCandidate_candidate {options : Option RoutingOptions} {exclude : List String}
    {sel : TierSelection}
    (h : r.nextCandidate env d options oracle exclude = .ok (some sel)) :
    ∃ c ∈ sel.candidates, c.model = sel.model ∧ c.tier = sel.tier ∧ c.eligible = true := by
  simp only [AutoRouter.nextCandidate] at h
  split at h
  · exact select_candidate h
  · rw [checked_bind_eq_ok] at h
    obtain ⟨found, hf, h⟩ := h
    cases found with
    | some s =>
        obtain rfl := checked_some_inj.mp h
        exact select_candidate hf
    | none => exact select_candidate h

/-- Every field but the predicted cost follows an escalation. -/
theorem describes_applyEscalation_iff {s : EscalationInput} {sel : TierSelection}
    (h : r.nextCandidate s.env d s.options s.oracle s.exclude = .ok (some sel)) :
    Describes r s.oracle (AutoRouter.applyEscalation d sel s.errorCode) ↔
      s.oracle.predictedCostUsd sel.model = d.predictedCostUsd := by
  have hnext := nextCandidate_some h
  constructor
  · intro hd
    exact hd.predicted.symm
  · intro he
    obtain ⟨c, hc, hcand⟩ := nextCandidate_candidate h
    exact ⟨hnext.provider, hnext.listed, he.symm, c, List.mem_append_right _ hc, hcand⟩

/-- No escalation changes the predicted cost. -/
theorem Escalates.predictedCostUsd {s : EscalationInput} {d' : AutoDecision}
    (h : Escalates r d s d') : d'.predictedCostUsd = d.predictedCostUsd := by
  obtain ⟨sel, -, rfl⟩ := h
  rfl

theorem run_predictedCostUsd {steps : List EscalationInput} {d' : AutoDecision}
    (h : Run (Escalates r) d steps d') : d'.predictedCostUsd = d.predictedCostUsd := by
  refine h.stateInvariant (fun x => x.predictedCostUsd = d.predictedCostUsd) rfl ?_
  intro x s y hx hstep
  exact hstep.predictedCostUsd.trans hx

end Record

/-- The record of a decision describes the model it names. After any escalations and one
more step it does so exactly when that step's oracle predicts for the model moved to the
cost that was recorded when the request was decided. -/
theorem record_describes_iff (r : AutoRouter) (env : DecisionEnv)
    (request : CreateResponseRequest) (ctx : DecisionContext) (oracle : Eligibility)
    (ov : Option ClassifierOverride) (d : AutoDecision)
    (h : r.decideWithOverride env request ctx oracle ov = .ok (.ok d)) :
    Describes r oracle d ∧
      ∀ (steps : List EscalationInput) (d₁ : AutoDecision), Run (Escalates r) d steps d₁ →
        ∀ (s : EscalationInput) (sel : TierSelection),
          r.nextCandidate s.env d₁ s.options s.oracle s.exclude = .ok (some sel) →
          (Describes r s.oracle (AutoRouter.applyEscalation d₁ sel s.errorCode) ↔
            s.oracle.predictedCostUsd sel.model = d.predictedCostUsd) := by
  refine ⟨decide_describes h, ?_⟩
  intro steps d₁ hrun s sel hn
  rw [describes_applyEscalation_iff hn, run_predictedCostUsd hrun]

/-- Where every model costs the same, the sample gateway's record is right after `m` has
failed and it has moved to `n`. -/
theorem record_describes_sample :
    ∃ (d : AutoDecision) (sel : TierSelection),
      Sample.router.nextCandidate Sample.env d none Sample.oracle ["m"] = .ok (some sel) ∧
      Describes Sample.router Sample.oracle (AutoRouter.applyEscalation d sel "timeout") := by
  obtain ⟨d, hd, -, ht⟩ := exists_of_outcomeOf
    (show outcomeOf (Sample.router.decideWithOverride Sample.env Sample.request Sample.context
      Sample.oracle (Sample.forced .medium)) = some ("m", .medium) by decide)
  obtain ⟨sel, hsel⟩ : ∃ sel, Sample.router.nextCandidate Sample.env d none Sample.oracle ["m"]
      = .ok (some sel) := by
    rw [nextCandidate_eq_of_tier (show d.tier = { d with tier := .medium }.tier from ht)]
    exact ⟨_, rfl⟩
  obtain ⟨hdesc, hiff⟩ := record_describes_iff _ _ _ _ _ _ d hd
  refine ⟨d, sel, hsel, (hiff [] d .nil
    { env := Sample.env, options := none, oracle := Sample.oracle, exclude := ["m"],
      errorCode := "timeout" } sel hsel).mpr ?_⟩
  exact hdesc.predicted.symm ▸ rfl

/-- The record says 2, the cost of `m`, after the request has moved on to a model that
costs 0.5. -/
theorem record_describes_broken :
    ∃ (d : AutoDecision) (sel : TierSelection),
      Sample.router.decideWithOverride Sample.env Sample.request Sample.context Sample.priced
        (Sample.forced .medium) = .ok (.ok d) ∧
      Sample.router.nextCandidate Sample.env d none Sample.priced ["m"] = .ok (some sel) ∧
      ¬ Describes Sample.router Sample.priced (AutoRouter.applyEscalation d sel "timeout") := by
  obtain ⟨d, hd, hm, ht⟩ := exists_of_outcomeOf
    (show outcomeOf (Sample.router.decideWithOverride Sample.env Sample.request Sample.context
      Sample.priced (Sample.forced .medium)) = some ("m", .medium) by decide)
  obtain ⟨sel, hsel, hn⟩ : ∃ sel, Sample.router.nextCandidate Sample.env d none Sample.priced
      ["m"] = .ok (some sel) ∧ sel.model = "n" := by
    rw [nextCandidate_eq_of_tier (show d.tier = { d with tier := .medium }.tier from ht)]
    exact ⟨_, rfl, rfl⟩
  refine ⟨d, sel, hd, hsel, ?_⟩
  intro hdesc
  have hrecorded : d.predictedCostUsd = some 2 := by
    rw [(decide_describes hd).predicted, hm]
    rfl
  have hright : d.predictedCostUsd = Sample.priced.predictedCostUsd sel.model := hdesc.predicted
  rw [hrecorded, hn] at hright
  exact absurd hright (by decide)

end AuraGateway.Router
