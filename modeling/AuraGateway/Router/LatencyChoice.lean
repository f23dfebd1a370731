import AuraGateway.Foundations.FloatCounts
import AuraGateway.Foundations.FloatOrder
import AuraGateway.Router.HealthViews
import AuraGateway.Router.Strategy

/-!
# The endpoint with the best score

The strategy for least latency keeps the endpoint with the best success rate. An endpoint without
health data is to count as good, with the score one. The loop gives it that score only where it is
the first of all; later on it is passed over. So the selected endpoint has the best score of the
first endpoint and of those with health data (`foldl_leastLatency_spec`), and the best of all
exactly when no endpoint is passed over or one with health data reaches the default score
(`least_latency_iff`).
-/

set_option autoImplicit false

namespace AuraGateway.Router

open AuraGateway.Proxy AuraGateway.Foundations.FloatOrder AuraGateway.Foundations.FloatCounts

/-! ## Scores -/

/-- Success rate of the status that is reported. -/
def EndpointHealth.successRate (health : EndpointHealth) : Float :=
  let total := (health.successCount + health.failureCount) % 2 ^ 64
  if total = 0 then 1.0 else health.successCount.toFloat / total.toFloat

/-- The reported status and the record have the same success rate. -/
theorem successRate_getHealth (entries : HealthEntries) (id : String) (now : Instant)
    (nowMs : Nat) :
    (getHealth entries id now nowMs).map EndpointHealth.successRate
      = (entries id).map HealthEntry.successRate := by
  rw [getHealth, Option.map_map]
  rfl

/-- A success rate is a number. -/
theorem not_isNaN_successRate (entry : HealthEntry) : entry.successRate.isNaN = false := by
  simp only [HealthEntry.successRate]
  split
  · rfl
  · rename_i hne
    exact not_isNaN_div_toFloat _ (Nat.pos_of_ne_zero hne) (Nat.mod_lt _ (by decide))

namespace StrategySelector

variable (tracker : HealthTracker)

/-- The endpoint has health data. -/
def Measured (e : ProviderEndpoint) : Prop := (tracker.entries e.id).isSome = true

/-- The score of an endpoint: its success rate, or one without health data. -/
def score (e : ProviderEndpoint) : Float :=
  match tracker.entries e.id with
  | some health => health.successRate
  | none => 1.0

/-- No endpoint has a better score than the selected one. -/
def Maximises (endpoints : List ProviderEndpoint) : Prop :=
  ∀ e, selectLeastLatency tracker endpoints = some e →
    ∀ a ∈ endpoints, score tracker a ≤ score tracker e

/-- Another order of the endpoints selects an endpoint with the same score. -/
def OrderFree (endpoints : List ProviderEndpoint) : Prop :=
  ∀ endpoints' : List ProviderEndpoint, endpoints'.Perm endpoints →
    ∀ e e', selectLeastLatency tracker endpoints = some e →
      selectLeastLatency tracker endpoints' = some e' →
        score tracker e ≤ score tracker e' ∧ score tracker e' ≤ score tracker e

variable {tracker}

theorem score_of_not_measured {e : ProviderEndpoint} (h : ¬ Measured tracker e) :
    score tracker e = 1.0 := by
  rw [Measured, Bool.not_eq_true, Option.isSome_eq_false_iff, Option.isNone_iff_eq_none] at h
  rw [score, h]

theorem not_isNaN_score (e : ProviderEndpoint) : (score tracker e).isNaN = false := by
  rw [score]
  cases tracker.entries e.id with
  | none => rfl
  | some health => exact not_isNaN_successRate health

/-! ## The loop -/

/-- The first endpoint is kept with its score. -/
theorem leastLatencyStep_first (e : ProviderEndpoint) :
    leastLatencyStep tracker none e = some (e, score tracker e) := by
  rw [leastLatencyStep.eq_def, score]
  cases tracker.entries e.id with
  | none => rfl
  | some health => rfl

theorem leastLatencyStep_passed {e : ProviderEndpoint} (h : ¬ Measured tracker e)
    (b : ProviderEndpoint × Float) : leastLatencyStep tracker (some b) e = some b := by
  rw [Measured, Bool.not_eq_true, Option.isSome_eq_false_iff, Option.isNone_iff_eq_none] at h
  rw [leastLatencyStep.eq_def, h]

theorem leastLatencyStep_measured {e : ProviderEndpoint} (h : Measured tracker e)
    (b : ProviderEndpoint × Float) :
    leastLatencyStep tracker (some b) e
      = if b.2 < score tracker e then some (e, score tracker e) else some b := by
  obtain ⟨health, hhealth⟩ := Option.isSome_iff_exists.mp h
  rw [leastLatencyStep.eq_def, score, hhealth]

variable (tracker) in
/-- Behind a scored endpoint, the loop keeps the best of it and of those with health data. -/
theorem foldl_leastLatency_spec (e : ProviderEndpoint) (l : List ProviderEndpoint) :
    ∃ s, l.foldl (leastLatencyStep tracker) (some (e, score tracker e)) = some (s, score tracker s)
      ∧ (s = e ∨ Measured tracker s ∧ s ∈ l)
      ∧ score tracker e ≤ score tracker s
      ∧ ∀ a ∈ l, Measured tracker a → score tracker a ≤ score tracker s := by
  induction l generalizing e with
  | nil =>
      refine ⟨e, rfl, .inl rfl, float_le_refl (not_isNaN_score e), fun a ha => ?_⟩
      cases ha
  | cons a l ih =>
      rw [List.foldl_cons]
      by_cases hmeasured : Measured tracker a
      · rw [leastLatencyStep_measured hmeasured]
        by_cases hbetter : score tracker e < score tracker a
        · -- the endpoint takes the place of the one that was kept
          rw [if_pos hbetter]
          obtain ⟨s, hs, hfrom, hle, hall⟩ := ih a
          refine ⟨s, hs, .inr ?_, ?_, List.forall_mem_cons.mpr ⟨fun _ => hle, hall⟩⟩
          · rcases hfrom with rfl | ⟨hms, hmem⟩
            · exact ⟨hmeasured, List.mem_cons_self⟩
            · exact ⟨hms, List.mem_cons_of_mem a hmem⟩
          · exact float_le_of_lt (float_lt_of_lt_of_le hbetter hle)
        · rw [if_neg hbetter]
          obtain ⟨s, hs, hfrom, hle, hall⟩ := ih e
          have hworse : score tracker a ≤ score tracker e :=
            float_le_of_not_lt (not_isNaN_score a) (not_isNaN_score e) hbetter
          refine ⟨s, hs, hfrom.imp_right fun h => ⟨h.1, List.mem_cons_of_mem a h.2⟩, hle, ?_⟩
          exact List.forall_mem_cons.mpr ⟨fun _ => float_le_trans hworse hle, hall⟩
      · rw [leastLatencyStep_passed hmeasured]
        obtain ⟨s, hs, hfrom, hle, hall⟩ := ih e
        refine ⟨s, hs, hfrom.imp_right fun h => ⟨h.1, List.mem_cons_of_mem a h.2⟩, hle, ?_⟩
        exact List.forall_mem_cons.mpr ⟨fun h => absurd h hmeasured, hall⟩

variable (tracker) in
/-- What is selected: the first endpoint or one with health data, with the best score of these. -/
theorem selectLeastLatency_spec (e : ProviderEndpoint) (l : List ProviderEndpoint) :
    ∃ s, selectLeastLatency tracker (e :: l) = some s
      ∧ (s = e ∨ Measured tracker s ∧ s ∈ l)
      ∧ score tracker e ≤ score tracker s
      ∧ ∀ a ∈ e :: l, Measured tracker a → score tracker a ≤ score tracker s := by
  obtain ⟨s, hs, hfrom, hle, hall⟩ := foldl_leastLatency_spec tracker e l
  refine ⟨s, ?_, hfrom, hle, List.forall_mem_cons.mpr ⟨fun _ => hle, hall⟩⟩
  rw [selectLeastLatency, List.foldl_cons, leastLatencyStep_first, hs]
  rfl

variable (tracker) in
/-- An endpoint with health data has at least the default score. -/
def DefaultReached (endpoints : List ProviderEndpoint) : Prop :=
  ∃ a ∈ endpoints, Measured tracker a ∧ 1.0 ≤ score tracker a

/-- The selected endpoint is the best one exactly when the first endpoint has the default score, or
none has it, or an endpoint with health data reaches it. -/
theorem maximises_iff (endpoints : List ProviderEndpoint) :
    Maximises tracker endpoints ↔
      (∃ e ∈ endpoints.head?, ¬ Measured tracker e) ∨ (∀ e ∈ endpoints, Measured tracker e)
        ∨ DefaultReached tracker endpoints := by
  cases endpoints with
  | nil =>
      refine iff_of_true ?_ (.inr (.inl fun e he => absurd he List.not_mem_nil))
      exact fun e _ a ha => absurd ha List.not_mem_nil
  | cons e l =>
      obtain ⟨s, hs, hfrom, hle, hall⟩ := selectLeastLatency_spec tracker e l
      constructor
      · intro hmax
        by_cases hfirst : Measured tracker e
        · by_cases hmeasured : ∀ a ∈ e :: l, Measured tracker a
          · exact .inr (.inl hmeasured)
          · -- an endpoint with the default score is passed over, so the selected one reaches it
            obtain ⟨u, hu, hunmeasured⟩ := by simpa only [not_forall] using hmeasured
            have hreached := hmax s hs u hu
            rw [score_of_not_measured hunmeasured] at hreached
            refine .inr (.inr ⟨s, ?_, ?_, hreached⟩)
            · rcases hfrom with rfl | ⟨-, hmem⟩
              · exact List.mem_cons_self
              · exact List.mem_cons_of_mem e hmem
            · rcases hfrom with rfl | ⟨hms, -⟩
              · exact hfirst
              · exact hms
        · exact .inl ⟨e, rfl, hfirst⟩
      · intro hcond s' hs' a ha
        obtain rfl := Option.some.inj (hs.symm.trans hs')
        by_cases hmeasured : Measured tracker a
        · exact hall a ha hmeasured
        · rw [score_of_not_measured hmeasured]
          rcases hcond with ⟨e', he', hfirst⟩ | hnone | ⟨b, hb, hbm, hreached⟩
          · obtain rfl := Option.some.inj he'
            rw [score_of_not_measured hfirst] at hle
            exact hle
          · exact absurd (hnone a ha) hmeasured
          · exact float_le_trans hreached (hall b hb hbm)

theorem selectLeastLatency_mem {endpoints : List ProviderEndpoint} {e : ProviderEndpoint}
    (h : selectLeastLatency tracker endpoints = some e) : e ∈ endpoints := by
  cases endpoints with
  | nil => cases h
  | cons a l =>
      obtain ⟨s, hs, hfrom, -⟩ := selectLeastLatency_spec tracker a l
      obtain rfl := Option.some.inj (hs.symm.trans h)
      rcases hfrom with rfl | ⟨-, hmem⟩
      · exact List.mem_cons_self
      · exact List.mem_cons_of_mem a hmem

/-- The order of the endpoints decides exactly when endpoints with and without health data are mixed
and none with health data reaches the default score. -/
theorem orderFree_iff (endpoints : List ProviderEndpoint) :
    OrderFree tracker endpoints ↔
      (∀ e ∈ endpoints, ¬ Measured tracker e) ∨ (∀ e ∈ endpoints, Measured tracker e)
        ∨ DefaultReached tracker endpoints := by
  constructor
  · intro hfree
    by_contra hnot
    obtain ⟨hsome, hrest⟩ := not_or.mp hnot
    obtain ⟨hall, hreached⟩ := not_or.mp hrest
    obtain ⟨k, hk, hmeasured⟩ := by simpa only [not_forall, not_not] using hsome
    obtain ⟨u, hu, hunmeasured⟩ := by simpa only [not_forall] using hall
    -- the same endpoints with `k` in front, and with `u` in front
    obtain ⟨before, after, hsplit⟩ := List.append_of_mem hk
    obtain ⟨before', after', hsplit'⟩ := List.append_of_mem hu
    have hperm : (k :: (before ++ after)).Perm endpoints := hsplit ▸ List.perm_middle.symm
    have hperm' : (u :: (before' ++ after')).Perm endpoints := hsplit' ▸ List.perm_middle.symm
    obtain ⟨s, hs, hfrom, -⟩ := selectLeastLatency_spec tracker k (before ++ after)
    obtain ⟨s', hs', -, hle, -⟩ := selectLeastLatency_spec tracker u (before' ++ after')
    have hne : endpoints ≠ [] := List.ne_nil_of_mem hk
    obtain ⟨t, -, ht⟩ : ∃ t ∈ endpoints, selectLeastLatency tracker endpoints = some t :=
      picks_leastLatency hne
    have hmem : s ∈ endpoints := hperm.subset (selectLeastLatency_mem hs)
    have hms : Measured tracker s := by
      rcases hfrom with rfl | ⟨hms, -⟩
      · exact hmeasured
      · exact hms
    rw [score_of_not_measured hunmeasured] at hle
    refine hreached ⟨s, hmem, hms, ?_⟩
    have hlow := (hfree _ hperm' t s' ht hs').2
    exact float_le_trans hle (float_le_trans hlow (hfree _ hperm t s ht hs).1)
  · intro hcond endpoints' hperm e e' he he'
    have hmax : ∀ l : List ProviderEndpoint, l.Perm endpoints → Maximises tracker l := by
      intro l hl
      rw [maximises_iff]
      rcases hcond with hnone | hall | ⟨a, ha, hma, hreached⟩
      · cases l with
        | nil => exact .inr (.inl fun e he => absurd he List.not_mem_nil)
        | cons a l => exact .inl ⟨a, rfl, hnone a (hl.subset List.mem_cons_self)⟩
      · exact .inr (.inl fun e he => hall e (hl.subset he))
      · exact .inr (.inr ⟨a, hl.symm.subset ha, hma, hreached⟩)
    constructor
    · exact hmax endpoints' hperm e' he' e (hperm.symm.subset (selectLeastLatency_mem he))
    · exact hmax endpoints (List.Perm.refl _) e he e' (hperm.subset (selectLeastLatency_mem he'))

variable (tracker) in
/-- The strategy selects an endpoint with the best score exactly when the first endpoint has no
health data, or all have, or one with health data reaches the default score; and the order of the
endpoints is without influence on the score exactly when none has health data, or all have, or one
with health data reaches the default score. -/
theorem least_latency_iff (endpoints : List ProviderEndpoint) :
    (Maximises tracker endpoints ↔
      (∃ e ∈ endpoints.head?, ¬ Measured tracker e) ∨ (∀ e ∈ endpoints, Measured tracker e)
        ∨ DefaultReached tracker endpoints)
    ∧ (OrderFree tracker endpoints ↔
      (∀ e ∈ endpoints, ¬ Measured tracker e) ∨ (∀ e ∈ endpoints, Measured tracker e)
        ∨ DefaultReached tracker endpoints) :=
  ⟨maximises_iff endpoints, orderFree_iff endpoints⟩

end StrategySelector

namespace Sample

def plain (id : String) : ProviderEndpoint :=
  { id := id, provider := { name := "openai", supportsModel := fun _ => true, models := [] } }

/-- Half of the requests of the first endpoint have failed. -/
def halfFailing : HealthTracker where
  entries := fun id => if id = "used" then some { successCount := 1, failureCount := 1 } else none

end Sample

/-- The endpoint that has failed is selected before one that counts as good. -/
theorem failing_endpoint_selected :
    ((StrategySelector.selectLeastLatency Sample.halfFailing
        [Sample.plain "used", Sample.plain "new"]).map (·.id)) = some "used"
      ∧ StrategySelector.score Sample.halfFailing (Sample.plain "used") = 0.5
      ∧ StrategySelector.score Sample.halfFailing (Sample.plain "new") = 1.0
      ∧ ¬ StrategySelector.Maximises Sample.halfFailing
          [Sample.plain "used", Sample.plain "new"] := by
  refine ⟨rfl, by decide +kernel, rfl, fun h => ?_⟩
  have hle := h (Sample.plain "used") rfl (Sample.plain "new")
    (List.mem_cons_of_mem _ (List.mem_singleton_self _))
  exact absurd hle (by decide +kernel)

end AuraGateway.Router
