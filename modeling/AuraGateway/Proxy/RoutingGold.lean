import AuraGateway.Proxy.Calls

/-!
# Gold-label collection

For a sampled fraction of requests the same prompt is answered in the background by
the cheapest eligible model of the lowest tier and of the highest tier, and a judge
model grades the pair. `pickPair` consults the request's allow / deny lists for the
two candidates; the judge is called without consulting them.
-/

set_option autoImplicit false

namespace AuraGateway.Proxy

open AuraGateway.RustStd AuraGateway.Types AuraGateway.Router

/-! ## Sampling -/

/-- Whether a request is a candidate for gold-label collection: plain text turns that
do not continue a stored response. -/
def isGoldEligible (request : CreateResponseRequest) (decision : AutoDecision) : Bool :=
  if decision.synthetic then false
  else if decide (0 < decision.features.toolCount) || decision.features.hasImages
      || decision.features.hasAudio || decision.features.isToolLoopTurn then false
  else if request.previousResponseId.isSome then false
  else ((lastUserText request).map fun t => !(trim t).isEmpty).getD false

/-- Decide whether to sample this request, given a uniform draw from `[0, 1)`. -/
def shouldSample (rate draw : Float) : Bool :=
  if rate ≤ 0.0 then false else if 1.0 ≤ rate then true else decide (draw < rate)

/-- A collection that was started: the request and the decision it was cloned from. -/
structure GoldTask where
  request : CreateResponseRequest
  decision : AutoDecision

/-- Sample this request if configured; `permit` says whether fewer than the maximal
number of collections are in flight. -/
def maybeCollect (state : AppState) (request : CreateResponseRequest) (decision : AutoDecision)
    (draw : Float) (permit : Bool) : Option GoldTask :=
  match state.autoRouter with
  | none => none
  | some r =>
      if decision.shadow && !r.config.goldSampleShadow then none
      else if !state.hasDatabase || !isGoldEligible request decision
          || !shouldSample r.config.goldSampleRate draw then none
      else if permit then some { request, decision }
      else none

/-! ## The pair -/

/-- Keep the elements a checked predicate accepts. -/
def filterChecked {α : Type} (p : α → Checked Bool) : List α → Checked (List α)
  | [] => .ok []
  | a :: l => do
      let keep ← p a
      let rest ← filterChecked p l
      .ok (if keep then a :: rest else rest)

/-- The request's allow / deny lists, applied to the provider the gateway would name. -/
def permittedCandidate (g : GatewayEligibility) (options : Option RoutingOptions)
    (model : String) : Checked Bool :=
  match options with
  | some o => o.permits ((g.state.providerNameForCatalogModel model).getD "") model
  | none => .ok true

/-- A model the request's options permit and the oracle accepts. -/
def permittedAndEligible (g : GatewayEligibility) (options : Option RoutingOptions)
    (model : String) : Checked Bool := do
  let permitted ← permittedCandidate g options model
  .ok (permitted && g.isEligible model)

/-- Compare two models by blended price, unpriced ones last. -/
def byBlendedCost (g : GatewayEligibility) (a b : String) : Ordering :=
  (f64PartialCmp ((g.blendedCostPerMillion a).getD f64MAX)
    ((g.blendedCostPerMillion b).getD f64MAX)).getD .eq

/-- Cheapest permitted and eligible model of a tier. -/
def cheapestIn (g : GatewayEligibility) (options : Option RoutingOptions) (tiers : TierModels)
    (tier : Tier) : Checked (Option String) := do
  let models ← filterChecked (permittedAndEligible g options) (tiers.get tier)
  .ok (minBy (byBlendedCost g) models)

/-- The first of the tiers that has a cheapest model. -/
def firstTierWith (cheapest : Tier → Checked (Option String)) :
    List Tier → Checked (Option (Tier × String))
  | [] => .ok none
  | t :: rest => do
      match ← cheapest t with
      | some m => .ok (some (t, m))
      | none => firstTierWith cheapest rest

/-- The two models to compare: one of the lowest and one of the highest tier that have
one. -/
structure GoldPair where
  tierA : Tier
  modelA : String
  tierB : Tier
  modelB : String

/-- Cheapest eligible model of the lowest and highest tiers that have one. -/
def pickPair (state : AppState) (now : Instant) (request : CreateResponseRequest) :
    Checked (Option GoldPair) :=
  match state.autoRouter with
  | none => .ok none
  | some router => do
      let g := GatewayEligibility.forRequest state now request
      let cheapest := cheapestIn g request.routing router.config.tiers
      match ← firstTierWith cheapest Tier.all with
      | none => .ok none
      | some (lowTier, low) => do
          match ← firstTierWith cheapest Tier.all.reverse with
          | none => .ok none
          | some (highTier, high) =>
              -- one model cannot be compared with itself
              if lowTier = highTier ∨ low = high then .ok none
              else .ok (some { tierA := lowTier, modelA := low, tierB := highTier, modelB := high })

/-! ## The calls of a collection -/

/-- The prompt sent to one of the two candidates. -/
def candidateRequest (model : String) (request : CreateResponseRequest) : CreateResponseRequest :=
  { request with
    model
    stream := false
    routing := none
    validation := none
    consistency := none
    compression := none }

/-- A pair that is being answered: the text to judge and the limit on quoted text. -/
structure Answering where
  userText : String
  judgeModel : String
  maxChars : Nat

/-- Start a collection: settle the pair and call both candidates. `none` when there is
nothing to compare or a provider is missing. -/
def collectGoldPair (state : AppState) (now : Instant) (task : GoldTask) :
    Checked (Option (Answering × List ProviderCall)) :=
  match state.hasDatabase, state.autoRouter, lastUserText task.request with
  | true, some router, some userText => do
      match ← pickPair state now task.request with
      | none => .ok none
      | some pair =>
          match state.getProvider pair.modelA, state.getProvider pair.modelB with
          | some providerA, some providerB =>
              .ok (some
                ({ userText
                   judgeModel := router.config.goldJudgeModel
                   maxChars := router.config.goldMaxTextChars },
                  [forward providerA (candidateRequest pair.modelA task.request),
                    forward providerB (candidateRequest pair.modelB task.request)]))
          | _, _ => .ok none
  | _, _, _ => .ok none

/-- The judge prompt up to the user text. -/
def judgePromptHead : String :=
  "You are grading two assistant answers to the same user request. Judge correctness, "
    ++ "completeness and how well each follows the request. Ignore length and style unless "
    ++ "the request asks for them.\n\nUSER REQUEST:\n\"\"\"\n"

/-- The judge prompt after the user text. -/
def judgePromptTail (answerA answerB : String) : String :=
  "\n\"\"\"\n\nANSWER A:\n\"\"\"\n" ++ answerA ++ "\n\"\"\"\n\nANSWER B:\n\"\"\"\n" ++ answerB
    ++ "\n\"\"\"\n\nReply with one line of JSON and nothing else: "
    ++ "\x7b\"verdict\":\"a\"|\"b\"|\"tie\",\"confidence\":0.0-1.0,\"rationale\":\"<=25 words\"\x7d. "
    ++ "Use \"a\" when A is at least as good as B, \"b\" when B is clearly better, \"tie\" "
    ++ "when they are equivalent."

/-- Build the judge prompt. -/
def judgePrompt (userText answerA answerB : String) (maxChars : Nat) : String :=
  judgePromptHead ++ takeChars maxChars userText
    ++ judgePromptTail (takeChars maxChars answerA) (takeChars maxChars answerB)

/-- The request the judge is sent. -/
def judgeRequest (a : Answering) (textA textB : String) : CreateResponseRequest :=
  { CreateResponseRequest.text a.judgeModel (judgePrompt a.userText textA textB a.maxChars) with
    temperature := some 0.0
    maxOutputTokens := some 120 }

/-- Ask the judge model which answer serves the user text better, when some provider
serves it. -/
def judgePair (state : AppState) (a : Answering) (textA textB : String) : List ProviderCall :=
  match state.getProvider a.judgeModel with
  | none => []
  | some judge =>
      [quoting judge (judgeRequest a textA textB) judgePromptHead (takeChars a.maxChars a.userText)
        (judgePromptTail (takeChars a.maxChars textA) (takeChars a.maxChars textB)) rfl]

/-! ## What the pair satisfies -/

section Pair

variable {g : GatewayEligibility} {options : Option RoutingOptions} {tiers : TierModels}

theorem mem_filterChecked {α : Type} {p : α → Checked Bool} {l kept : List α}
    (h : filterChecked p l = .ok kept) {a : α} (ha : a ∈ kept) : a ∈ l ∧ p a = .ok true := by
  induction l generalizing kept with
  | nil =>
      injection h with h
      rw [← h] at ha
      exact absurd ha List.not_mem_nil
  | cons x l ih =>
      simp only [filterChecked] at h
      rw [checked_bind_eq_ok] at h
      obtain ⟨keep, hkeep, h⟩ := h
      rw [checked_bind_eq_ok] at h
      obtain ⟨rest, hrest, h⟩ := h
      injection h with h
      have hin : a ∈ rest → a ∈ x :: l ∧ p a = .ok true := by
        intro hr
        have hboth := ih hrest hr
        exact ⟨List.mem_cons_of_mem x hboth.1, hboth.2⟩
      cases keep with
      | false =>
          rw [if_neg Bool.false_ne_true] at h
          rw [← h] at ha
          exact hin ha
      | true =>
          rw [if_pos rfl] at h
          rw [← h] at ha
          rcases List.mem_cons.mp ha with rfl | hr
          · exact ⟨List.mem_cons_self, hkeep⟩
          · exact hin hr

/-- The candidate of a tier is listed there, permitted and eligible. -/
theorem cheapestIn_some {tier : Tier} {m : String}
    (h : cheapestIn g options tiers tier = .ok (some m)) :
    m ∈ tiers.get tier ∧ permittedAndEligible g options m = .ok true := by
  simp only [cheapestIn] at h
  rw [checked_bind_eq_ok] at h
  obtain ⟨models, hm, h⟩ := h
  injection h with h
  exact mem_filterChecked hm (minBy_mem h)

theorem firstTierWith_some {cheapest : Tier → Checked (Option String)} {ts : List Tier}
    {t : Tier} {m : String} (h : firstTierWith cheapest ts = .ok (some (t, m))) :
    cheapest t = .ok (some m) := by
  induction ts with
  | nil => cases h
  | cons u rest ih =>
      simp only [firstTierWith] at h
      rw [checked_bind_eq_ok] at h
      obtain ⟨found, hf, h⟩ := h
      cases found with
      | none => exact ih h
      | some m' =>
          injection h with h
          injection h with h
          injection h with h₁ h₂
          rw [← h₁, ← h₂]
          exact hf

theorem permittedAndEligible_true {m : String}
    (h : permittedAndEligible g options m = .ok true) :
    (∀ o ∈ options,
      o.permits ((g.state.providerNameForCatalogModel m).getD "") m = .ok true) ∧
      g.isEligible m = true := by
  simp only [permittedAndEligible] at h
  rw [checked_bind_eq_ok] at h
  obtain ⟨permitted, hp, h⟩ := h
  injection h with h
  obtain ⟨h₁, h₂⟩ := Bool.and_eq_true_iff.mp h
  refine ⟨?_, h₂⟩
  intro o ho
  rw [Option.mem_def.mp ho, h₁] at hp
  exact hp

/-- Both models of a pair are listed in a tier of the router in force, permitted and
eligible. -/
theorem pickPair_some {state : AppState} {now : Instant} {request : CreateResponseRequest}
    {pair : GoldPair} (h : pickPair state now request = .ok (some pair)) :
    ∃ router ∈ state.autoRouter, ∀ m, m = pair.modelA ∨ m = pair.modelB →
      (∃ t, m ∈ router.config.tiers.get t) ∧
        permittedAndEligible (.forRequest state now request) request.routing m = .ok true := by
  simp only [pickPair] at h
  split at h
  · cases h
  · rename_i router hr
    refine ⟨router, hr, ?_⟩
    rw [checked_bind_eq_ok] at h
    obtain ⟨low, hlow, h⟩ := h
    cases low with
    | none => cases h
    | some low =>
        dsimp only at h
        rw [checked_bind_eq_ok] at h
        obtain ⟨high, hhigh, h⟩ := h
        cases high with
        | none => cases h
        | some high =>
            dsimp only at h
            split at h
            · cases h
            · injection h with h
              injection h with h
              have ha := cheapestIn_some (firstTierWith_some hlow)
              have hb := cheapestIn_some (firstTierWith_some hhigh)
              intro m hm
              rw [← h] at hm
              rcases hm with rfl | rfl
              · exact ⟨⟨_, ha.1⟩, ha.2⟩
              · exact ⟨⟨_, hb.1⟩, hb.2⟩

end Pair

end AuraGateway.Proxy
