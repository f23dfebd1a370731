import AuraGateway.Decisions.RollupHistory

/-!
# Synthetic traffic and the rollup

Decisions of synthetic requests are recorded like all others, and rollups leave them out. What a
rollup sees of the tables are the other decisions and what joins with them: their logs, their
responses with the feedback on them, and the turns that follow. Everything else may as well not have
been written: outcomes, arm statistics and the arms in memory are the same without it
(`rollups_see`).

So a synthetic request leaves no trace in what is learned, unless it goes on from a response of a
request that is not synthetic (`Tables.seen_exchanged_iff`): then it is the turn that follows this
response.
-/

set_option autoImplicit false

namespace AuraGateway.Decisions

/-! ## What is seen -/

/-- The turn follows the response of the decision. -/
def Follows (d : RoutingDecision) (r : StoredResponse) : Prop :=
  d.providerResponseId.isSome ∧ r.previousResponseId = d.providerResponseId

instance (d : RoutingDecision) (r : StoredResponse) : Decidable (Follows d r) :=
  inferInstanceAs (Decidable (_ ∧ _))

/-- The feedback is on the response of the decision. -/
def Rates (d : RoutingDecision) (f : FeedbackSample) : Prop :=
  d.providerResponseId.isSome ∧ f.responseId = d.providerResponseId

instance (d : RoutingDecision) (f : FeedbackSample) : Decidable (Rates d f) :=
  inferInstanceAs (Decidable (_ ∧ _))

namespace Tables

/-- The decisions of requests that are not synthetic. -/
def genuine (t : Tables) : List RoutingDecision := t.decisions.filter fun d => !d.synthetic

/-- These decisions, and what joins with one of them. -/
def seen (t : Tables) : Tables where
  decisions := t.genuine
  requestLogs := t.requestLogs.filter fun rl => t.genuine.any fun d => rl.responseId = d.responseId
  outcomes := t.outcomes
  feedbackSamples := t.feedbackSamples.filter fun f => t.genuine.any fun d => Rates d f
  responses := t.responses.filter fun r =>
    t.genuine.any fun d => some r.id = d.providerResponseId ∨ Follows d r

end Tables

theorem filter_filter_any {α β : Type} {l : List α} {ds : List β} {d : β} (hd : d ∈ ds)
    {p : β → α → Bool} {q : α → Bool} (h : ∀ a, q a = true → p d a = true) :
    (l.filter fun a => ds.any fun d => p d a).filter q = l.filter q := by
  rw [List.filter_filter]
  refine List.filter_congr fun a _ => ?_
  cases hq : q a with
  | false => rfl
  | true =>
      rw [Bool.true_and]
      exact List.any_eq_true.mpr ⟨d, hd, h a hq⟩

namespace Tables

variable {t : Tables}

/-- A decision that is seen is seen with all that joins with it. -/
theorem rowsOf_seen {d : RoutingDecision} (hd : d ∈ t.genuine) : t.seen.rowsOf d = t.rowsOf d := by
  have hlogs : t.seen.logsOf d = t.logsOf d := filter_filter_any hd fun rl h => h
  have hsamples : t.seen.samplesOf d = t.samplesOf d := filter_filter_any hd fun f h => h
  have hturns : t.seen.turnsAfter d = t.turnsAfter d :=
    filter_filter_any hd fun r h => decide_eq_true (.inr (of_decide_eq_true h))
  have hcurrent : t.seen.currentOf d = t.currentOf d :=
    filter_filter_any hd fun r h => decide_eq_true (.inl (of_decide_eq_true h))
  have hpending : t.seen.pendingRow d = t.pendingRow d := by
    funext rl cur
    rw [pendingRow, pendingRow, feedbackOf, feedbackOf, hsamples, nextTurnOf, nextTurnOf, hturns]
  rw [rowsOf, rowsOf, hlogs, hcurrent, hpending]

theorem dueRows_seen (graceSecs windowDays : Int) (now : DateTime) :
    t.seen.dueRows graceSecs windowDays now = t.dueRows graceSecs windowDays now := by
  have hdue : (t.genuine.filter fun d =>
        (t.outcomesOf d).isEmpty && decide (Due graceSecs windowDays now d))
      = t.decisions.filter fun d =>
        (t.outcomesOf d).isEmpty && decide (Due graceSecs windowDays now d) := by
    rw [genuine, List.filter_filter]
    refine List.filter_congr fun d _ => ?_
    by_cases h : Due graceSecs windowDays now d
    · rw [h.1, Bool.not_false, Bool.and_true]
    · rw [decide_eq_false h, Bool.and_false, Bool.false_and]
  rw [dueRows, dueRows, ← hdue]
  exact List.flatMap_congr fun d hd => rowsOf_seen (List.mem_of_mem_filter hd)

theorem pending_seen (graceSecs windowDays : Int) (limit : Nat) (now : DateTime) :
    t.seen.pending graceSecs windowDays limit now = t.pending graceSecs windowDays limit now := by
  rw [pending, pending, dueRows_seen]

/-- The tables with one more decision, its log and its response. -/
def exchanged (t : Tables) (d : RoutingDecision) (rl : RequestLog) (r : StoredResponse) : Tables :=
  { t with
    decisions := t.decisions ++ [d]
    requestLogs := t.requestLogs ++ [rl]
    responses := t.responses ++ [r] }

/-- A synthetic request is not seen exactly when its log and its response are its own, and it does
not go on from the response of a request that is not synthetic. -/
theorem seen_exchanged_iff {d : RoutingDecision} (hd : d.synthetic = true) (rl : RequestLog)
    (r : StoredResponse) :
    (t.exchanged d rl r).seen = t.seen ↔ ∀ g ∈ t.genuine,
      rl.responseId ≠ g.responseId ∧ some r.id ≠ g.providerResponseId ∧ ¬ Follows g r := by
  have hgenuine : (t.exchanged d rl r).genuine = t.genuine := by
    rw [genuine, exchanged, List.filter_append, List.filter_cons_of_neg (by simp [hd]),
      List.filter_nil, List.append_nil]
    rfl
  have hadded : ∀ {α : Type} (l : List α) (a : α) (p : α → Bool),
      (l ++ [a]).filter p = l.filter p ↔ p a = false := by
    intro α l a p
    rw [List.filter_append, List.append_right_eq_self, List.filter_eq_nil_iff]
    simp
  simp only [seen, hgenuine, Tables.mk.injEq]
  simp only [exchanged, hadded, List.any_eq_false, decide_eq_true_eq, not_or, true_and]
  exact ⟨fun h g hg => ⟨h.1 g hg, h.2 g hg⟩, fun h => ⟨fun g hg => (h g hg).1, fun g hg => (h g hg).2⟩⟩

theorem upsertOutcome_seen (new : RoutingOutcome) :
    (t.upsertOutcome new).seen = t.seen.upsertOutcome new := rfl

end Tables

/-! ## Runs on what is seen -/

section Runs

variable {env : ScoreEnv} {run : RollupRun}

theorem scoreRows_seen (batch i : Nat) (rows : List PendingRoutingOutcome) (t : Tables) :
    (scoreRows env run batch i rows t).seen = scoreRows env run batch i rows t.seen := by
  induction rows generalizing i t with
  | nil => rfl
  | cons row rows ih =>
      rw [scoreRows, scoreRows, ih]
      split <;> rfl

theorem scoreBatches_seen (left batch : Nat) (t : Tables) :
    scoreBatches env run left batch t.seen
      = ((scoreBatches env run left batch t).1.seen, (scoreBatches env run left batch t).2) := by
  induction left generalizing batch t with
  | zero => rfl
  | succ left ih =>
      rw [scoreBatches, scoreBatches, Tables.pending_seen]
      split
      · rfl
      · dsimp only
        rw [← scoreRows_seen]
        split
        · rfl
        · exact ih (batch + 1) _

end Runs

/-- The state as rollups see it. -/
def RollupState.seen (s : RollupState) : RollupState := { s with tables := s.tables.seen }

theorem runRollup_seen (env : ScoreEnv) (run : RollupRun) (s : RollupState) :
    runRollup env run s.seen = (runRollup env run s).seen := by
  rw [runRollup, runRollup, RollupState.seen, scoreBatches_seen]
  dsimp only
  split
  · rfl
  · split
    · rfl
    · split <;> rfl

/-! ## Whole histories -/

/-- What the writers leave, as it is seen. -/
def Written.seen (w : Written) : Written :=
  let t : Tables := { w with outcomes := [] }
  { decisions := t.seen.decisions
    requestLogs := t.seen.requestLogs
    feedbackSamples := t.seen.feedbackSamples
    responses := t.seen.responses
    unique := w.unique.sublist (List.filter_sublist.map _) }

def Event.seen : Event → Event
  | .written w => .written w.seen
  | .rollup run => .rollup run

theorem after_seen (env : ScoreEnv) (history : List Event) :
    RollupState.after env (history.map Event.seen) = (RollupState.after env history).seen := by
  induction history using List.reverseRecOn with
  | nil => rfl
  | append_singleton history e ih =>
      rw [List.map_append, List.map_singleton, after_concat, after_concat, ih]
      cases e with
      | written w => rfl
      | rollup run => exact runRollup_seen env run _

/-- Whatever else was written, outcomes and arm statistics are those of the decisions that are not
synthetic and of what joins with them. -/
theorem rollups_see (env : ScoreEnv) (history : List Event) :
    let s := RollupState.after env history
    let s' := RollupState.after env (history.map Event.seen)
    s'.tables.outcomes = s.tables.outcomes ∧ s'.armStats = s.armStats ∧ s'.loaded = s.loaded := by
  intro s s'
  have h : s' = s.seen := after_seen env history
  rw [h]
  exact ⟨rfl, rfl, rfl⟩

end AuraGateway.Decisions
