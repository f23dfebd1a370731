import AuraGateway.Decisions.Rollup

/-!
# Histories of rollups

Writers and rollup runs take turns on the tables. An outcome is what the signals said to the run
that scored it (`scoredIn_after`), and no later run changes it (`outcome_kept`): feedback and
turns that arrive afterwards are not read.
-/

set_option autoImplicit false

namespace AuraGateway.Decisions

open AuraGateway.Types AuraGateway.Router AuraGateway.Foundations.KeyedFolds

/-! ## Histories -/

/-- What the writers leave in their tables; `response_id` is unique among decisions. -/
structure Written where
  decisions : List RoutingDecision
  requestLogs : List RequestLog
  feedbackSamples : List FeedbackSample
  responses : List StoredResponse
  unique : (decisions.map (·.responseId)).Nodup

/-- Decisions, logs, turns and feedback are written, and rollups run. -/
inductive Event where
  | written (w : Written)
  | rollup (run : RollupRun)

section History

variable (env : ScoreEnv)

/-- One event of a history. -/
def RollupState.step (s : RollupState) : Event → RollupState
  | .written w =>
      { s with
        tables :=
          { s.tables with
            decisions := w.decisions
            requestLogs := w.requestLogs
            feedbackSamples := w.feedbackSamples
            responses := w.responses } }
  | .rollup run => runRollup env run s

/-- The state after a history. -/
def RollupState.after (history : List Event) : RollupState :=
  history.foldl (RollupState.step env) {}

variable {env}

theorem after_concat (history : List Event) (e : Event) :
    RollupState.after env (history ++ [e]) = (RollupState.after env history).step env e :=
  List.foldl_concat ..

theorem runRollup_tables (run : RollupRun) (s : RollupState) :
    (runRollup env run s).tables = (scoreBatches env run maxBatches 0 s.tables).1 := by
  rw [runRollup]
  dsimp only
  split
  · rfl
  · split
    · rfl
    · split <;> rfl

/-- Decisions and outcomes are kept apart by their responses. -/
theorem keyed_after (history : List Event) :
    (RollupState.after env history).tables.DecisionsKeyed
      ∧ (RollupState.after env history).tables.OutcomesKeyed := by
  induction history using List.reverseRecOn with
  | nil => exact ⟨List.nodup_nil, List.nodup_nil⟩
  | append_singleton history e ih =>
      rw [after_concat]
      cases e with
      | written w => exact ⟨w.unique, ih.2⟩
      | rollup run =>
          have hprogress : Progress env run (RollupState.after env history).tables _ :=
            scoreBatches_progress ih.1 ih.2
          rw [RollupState.step, runRollup_tables]
          refine ⟨?_, hprogress.keyed⟩
          rw [Tables.DecisionsKeyed, hprogress.decisions_eq]
          exact ih.1

variable (env) in
/-- What a rollup of a history makes of the tables it finds. -/
theorem progress_rollup (history : List Event) (run : RollupRun) :
    Progress env run (RollupState.after env history).tables
      (RollupState.after env (history ++ [.rollup run])).tables := by
  rw [after_concat, RollupState.step, runRollup_tables]
  exact scoreBatches_progress (keyed_after history).1 (keyed_after history).2

/-- A run without errors whose first read is not full leaves nothing pending at that time. -/
theorem pending_rollup (history : List Event) {run : RollupRun} (hclean : run.Clean)
    (hlt : ((RollupState.after env history).tables.pending run.graceSecs run.windowDays batchSize
      (run.readClock 0)).length < batchSize) :
    (RollupState.after env (history ++ [.rollup run])).tables.pending run.graceSecs run.windowDays
      batchSize (run.readClock 0) = [] := by
  rw [after_concat, RollupState.step, runRollup_tables]
  exact pending_scoreBatches hclean _ 19 0 hlt

/-- An outcome stays as it was stored. -/
theorem outcome_kept (history later : List Event) {o : RoutingOutcome}
    (ho : o ∈ (RollupState.after env history).tables.outcomes) :
    o ∈ (RollupState.after env (history ++ later)).tables.outcomes := by
  induction later using List.reverseRecOn with
  | nil => rwa [List.append_nil]
  | append_singleton later e ih =>
      rw [← List.append_assoc]
      cases e with
      | written w =>
          rw [after_concat]
          exact ih
      | rollup run => exact (progress_rollup env (history ++ later) run).kept o ih

variable (env) in
/-- An outcome that a run of the history scored, on the tables that it found. -/
def ScoredIn (history : List Event) (o : RoutingOutcome) : Prop :=
  ∃ before run later, history = before ++ .rollup run :: later
    ∧ ScoredBy env run (RollupState.after env before).tables o
    ∧ o ∈ (RollupState.after env (before ++ [.rollup run])).tables.outcomes

theorem ScoredIn.concat {history : List Event} {o : RoutingOutcome} (h : ScoredIn env history o)
    (e : Event) : ScoredIn env (history ++ [e]) o := by
  obtain ⟨before, run, later, rfl, hscored⟩ := h
  exact ⟨before, run, later ++ [e], by simp, hscored⟩

/-- Every stored outcome was scored by a run of the history. -/
theorem scoredIn_after (history : List Event) {o : RoutingOutcome}
    (ho : o ∈ (RollupState.after env history).tables.outcomes) : ScoredIn env history o := by
  induction history using List.reverseRecOn with
  | nil => exact absurd ho List.not_mem_nil
  | append_singleton history e ih =>
      cases e with
      | written w =>
          rw [after_concat] at ho
          exact (ih ho).concat _
      | rollup run =>
          rcases (progress_rollup env history run).scored o ho with hfound | hscored
          · exact (ih hfound).concat _
          · exact ⟨history, run, [], rfl, hscored, ho⟩

/-- The outcome of a decision, where there is one. -/
theorem outcomesOf_eq_singleton {t : Tables} (hkeyed : t.OutcomesKeyed) {d : RoutingDecision}
    (hsome : t.outcomesOf d ≠ []) : ∃ o, t.outcomesOf d = [o] := by
  obtain ⟨o, rest, heq⟩ := List.exists_cons_of_ne_nil hsome
  have hnodup : ((t.outcomesOf d).map (·.responseId)).Nodup :=
    hkeyed.sublist (List.filter_sublist.map _)
  refine ⟨o, ?_⟩
  cases rest with
  | nil => exact heq
  | cons o' rest =>
      -- two outcomes of one decision
      have hid : o.responseId = d.responseId :=
        (Tables.mem_outcomesOf.mp (heq ▸ List.mem_cons_self ..)).2
      have hid' : o'.responseId = d.responseId :=
        (Tables.mem_outcomesOf.mp (heq ▸ List.mem_cons_of_mem o (List.mem_cons_self ..))).2
      rw [heq, List.map_cons, List.map_cons, List.nodup_cons] at hnodup
      exact absurd (hid.trans hid'.symm) fun h => hnodup.1 (h ▸ List.mem_cons_self ..)

/-- The arms in memory after a run without errors. -/
theorem lookup_loaded {run : RollupRun} (hclean : run.Clean) (s : RollupState) (arm : Arm) :
    (runRollup env run s).loaded.lookup arm
      = if arm ∈ (applied run.windowDays run.pruneClock
            (runRollup env run s).tables.outcomes).map (·.arm) then
          some (armStat (applied run.windowDays run.statsClock
            (runRollup env run s).tables.outcomes) arm).toArmStats
        else none := by
  rw [runRollup_tables, runRollup]
  dsimp only
  rw [hclean.scoreBatches_ok, hclean.stats, hclean.prune, hclean.load]
  simp only [Bool.not_true, Bool.or_self, Bool.false_eq_true, if_false]
  rw [lookup_map_snd (fun _ => RoutingArmStat.toArmStats), lookup_pruneArmStats run.ordered]
  split <;> rfl

/-- After a run without errors that leaves nothing pending, a due decision has one outcome, which
a run of the history scored on the signals that it found; the arms in memory are those of the
stored outcomes. -/
theorem outcomes_scored_once (history : List Event) {run : RollupRun} (hclean : run.Clean)
    (now : DateTime) {s : RollupState}
    (hs : RollupState.after env (history ++ [.rollup run]) = s)
    (hpending : s.tables.pending run.graceSecs run.windowDays batchSize now = []) :
    (∀ d ∈ s.tables.decisions, Due run.graceSecs run.windowDays now d →
      ∃ o, s.tables.outcomesOf d = [o] ∧ ScoredIn env (history ++ [.rollup run]) o)
      ∧ ∀ arm, s.loaded.lookup arm
          = if arm ∈ (applied run.windowDays run.pruneClock s.tables.outcomes).map (·.arm) then
              some (armStat (applied run.windowDays run.statsClock s.tables.outcomes) arm).toArmStats
            else none := by
  subst hs
  constructor
  · intro d hd hdue
    have hsome := (Tables.pending_eq_nil_iff (by decide)).mp hpending d hd hdue
    obtain ⟨o, ho⟩ := outcomesOf_eq_singleton (keyed_after _).2 hsome
    refine ⟨o, ho, scoredIn_after _ ?_⟩
    exact (Tables.mem_outcomesOf.mp (ho ▸ List.mem_singleton_self o)).1
  · intro arm
    rw [after_concat, RollupState.step]
    exact lookup_loaded hclean _ arm

end History

/-! ### A stronger model after the rollup -/

namespace Sample

/-- Stored items are an empty array here. -/
def rollupEnv : ScoreEnv where
  letters := ⟨.fixed, fun _ => false⟩
  parseItems
    | .array [] => some []
    | _ => none

instance neZero_day : NeZero 1440 := ⟨by decide⟩

instance neZero_ids : NeZero (2 ^ 128) := ⟨by decide⟩

theorem minutes_inRange (n : Fin 1440) :
    minMicros ≤ (n.val * 60000000 : Int) ∧ (n.val * 60000000 : Int) ≤ maxMicros := by
  unfold minMicros maxMicros
  omega

/-- Minutes of a day. -/
def minutes (n : Fin 1440) : DateTime := ⟨n.val * 60000000, minutes_inRange n⟩

def decision : RoutingDecision where
  id := 1
  responseId := "aura_1"
  providerResponseId := some "resp_1"
  organizationId := none
  apiKeyId := none
  mode := "balanced"
  classifiedTier := "medium"
  tier := "medium"
  selectedModel := "llama3.1"
  shadow := false
  synthetic := false
  hardFilters := []
  escalations := .array []
  createdAt := minutes 0

/-- The decision and its response, and the turns that followed. -/
def written (turns : List StoredResponse) (samples : List FeedbackSample) : Written where
  decisions := [decision]
  requestLogs := [⟨"aura_1", "completed", 0, none⟩]
  feedbackSamples := samples
  responses := ⟨"resp_1", none, "llama3.1", some (.array []), minutes 0⟩ :: turns
  unique := List.nodup_singleton _

/-- Continued on a stronger model, and rejected. -/
def followed : Written :=
  written [⟨"resp_2", some "resp_1", "llama3.3", some (.array []), minutes 40⟩]
    [⟨2, some "resp_1", "rejected", minutes 50⟩]

def rollupAt (n : Fin 1440) : RollupRun where
  graceSecs := 1800
  windowDays := 30
  tierOf model := if model = "llama3.3" then some .complex else some .medium
  readClock _ := minutes n
  statsClock := minutes n
  pruneClock := minutes n
  ordered := le_rfl

/-- The rollup runs before the follow-up, and again after it. -/
def rolledTwice : List Event :=
  [.written (written [] []), .rollup (rollupAt 35), .written followed, .rollup (rollupAt 60)]

/-- Before the follow-up. -/
def scoredFirst : List Event := [.written (written [] []), .rollup (rollupAt 35)]

theorem clean (n : Fin 1440) : (rollupAt n).Clean :=
  ⟨fun _ => rfl, fun _ _ => rfl, rfl, rfl, rfl⟩

theorem pending_scoredFirst :
    (RollupState.after rollupEnv scoredFirst).tables.pending 1800 30 batchSize (minutes 35) = [] := by
  refine pending_rollup [.written (written [] [])] (clean 35) ?_
  rw [Tables.pending, List.length_take, List.length_mergeSort]
  decide

/-- The decision was scored before its follow-up. -/
theorem scored_first :
    ∃ o ∈ (RollupState.after rollupEnv scoredFirst).tables.outcomesOf decision,
      o.feedback = none ∧ o.nextTurn = "none" := by
  have hprogress := progress_rollup rollupEnv [.written (written [] [])] (rollupAt 35)
  have hdecisions : (RollupState.after rollupEnv scoredFirst).tables.decisions = [decision] :=
    hprogress.decisions_eq
  have hsome := (Tables.pending_eq_nil_iff (by decide)).mp pending_scoredFirst decision
    (hdecisions ▸ List.mem_singleton_self _) (by decide)
  obtain ⟨o, ho⟩ := List.exists_mem_of_ne_nil _ hsome
  refine ⟨o, ho, ?_⟩
  rcases hprogress.scored o (Tables.mem_outcomesOf.mp ho).1 with hfound | ⟨d, hopen, row, hrow, rfl⟩
  · exact absurd hfound List.not_mem_nil
  · obtain rfl := List.mem_singleton.mp hopen.1
    obtain ⟨rl, cur, rfl⟩ := Tables.exists_of_mem_rowsOf hrow
    have hfeedback : (RollupState.after rollupEnv [.written (written [] [])]).tables.feedbackOf
        decision = none := by
      rw [Tables.feedbackOf, show Tables.samplesOf _ decision = [] from rfl, latestBy_nil]
      rfl
    have hnext : (RollupState.after rollupEnv [.written (written [] [])]).tables.nextTurnOf
        decision = none := by
      rw [Tables.nextTurnOf, show Tables.turnsAfter _ decision = [] from rfl, firstBy_nil]
    refine ⟨hfeedback, ?_⟩
    rw [outcomeOf, inputsFor, Tables.pendingRow, hnext]
    rfl

/-- What a rollup would find after the follow-up, whatever happened before. -/
theorem rowsOf_followed (s : RollupState) {row : PendingRoutingOutcome}
    (hrow : row ∈ (s.step rollupEnv (.written followed)).tables.rowsOf decision) :
    row.feedback = some "rejected"
      ∧ (outcomeOf rollupEnv (rollupAt 60).tierOf row).nextTurn = "escalation" := by
  obtain ⟨rl, cur, rfl⟩ := Tables.exists_of_mem_rowsOf hrow
  have hfeedback : (s.step rollupEnv (.written followed)).tables.feedbackOf decision
      = some "rejected" := by
    rw [Tables.feedbackOf, show Tables.samplesOf _ decision
      = [⟨2, some "resp_1", "rejected", minutes 50⟩] from rfl, latestBy_singleton]
    rfl
  have hnext : (s.step rollupEnv (.written followed)).tables.nextTurnOf decision
      = some ⟨"resp_2", some "resp_1", "llama3.3", some (.array []), minutes 40⟩ := by
    rw [Tables.nextTurnOf, show Tables.turnsAfter _ decision
      = [⟨"resp_2", some "resp_1", "llama3.3", some (.array []), minutes 40⟩] from rfl,
      firstBy_singleton]
  refine ⟨hfeedback, ?_⟩
  have htier : Tier.parse decision.tier = some .medium := by decide +kernel
  have hclass : classifyNextTurn rollupEnv.letters
      (inputsFor rollupEnv (rollupAt 60).tierOf
        ((s.step rollupEnv (.written followed)).tables.pendingRow decision rl cur)) = .escalation := by
    simp only [classifyNextTurn, inputsFor, Tables.pendingRow, hnext, htier, Option.map_some]
    rfl
  rw [outcomeOf, evaluate, hclass]
  rfl

end Sample

open Sample in
/-- The first outcome is still there after the second run: the rejection and the turn on a
stronger model were not read. -/
theorem followup_not_read :
    (RollupState.after rollupEnv rolledTwice).tables.pending 1800 30 batchSize (minutes 60) = []
      ∧ ∃ d ∈ (RollupState.after rollupEnv rolledTwice).tables.decisions,
        Due 1800 30 (minutes 60) d
          ∧ ∃ o ∈ (RollupState.after rollupEnv rolledTwice).tables.outcomesOf d,
            o.feedback = none ∧ o.nextTurn = "none"
              ∧ ∀ row ∈ (RollupState.after rollupEnv rolledTwice).tables.rowsOf d,
                row.feedback = some "rejected"
                  ∧ (outcomeOf rollupEnv (rollupAt 60).tierOf row).nextTurn = "escalation" := by
  have hprogress := progress_rollup rollupEnv (scoredFirst ++ [.written followed]) (rollupAt 60)
  have hsplit : rolledTwice = scoredFirst ++ [.written followed] ++ [.rollup (rollupAt 60)] := rfl
  rw [hsplit]
  have hdecisions : (RollupState.after rollupEnv (scoredFirst ++ [.written followed]
      ++ [.rollup (rollupAt 60)])).tables.decisions = [decision] := by
    rw [hprogress.decisions_eq, after_concat]
    rfl
  obtain ⟨o, ho, hfeedback, hturn⟩ := scored_first
  have hkept : o ∈ (RollupState.after rollupEnv (scoredFirst ++ [.written followed]
      ++ [.rollup (rollupAt 60)])).tables.outcomesOf decision := by
    obtain ⟨hmem, hid⟩ := Tables.mem_outcomesOf.mp ho
    refine Tables.mem_outcomesOf.mpr ⟨?_, hid⟩
    rw [List.append_assoc]
    exact outcome_kept scoredFirst _ hmem
  rw [Tables.pending_eq_nil_iff (by decide), hdecisions]
  constructor
  · intro d hd _
    obtain rfl := List.mem_singleton.mp hd
    exact List.ne_nil_of_mem hkept
  · refine ⟨decision, List.mem_singleton_self _, by decide, o, hkept, hfeedback, hturn, ?_⟩
    intro row hrow
    rw [hprogress.rowsOf_eq, after_concat] at hrow
    exact rowsOf_followed _ hrow

open Sample in
theorem outcomes_scored_once_sample :
    (∀ d ∈ (RollupState.after rollupEnv scoredFirst).tables.decisions, Due 1800 30 (minutes 35) d →
      ∃ o, (RollupState.after rollupEnv scoredFirst).tables.outcomesOf d = [o]
        ∧ ScoredIn rollupEnv scoredFirst o)
      ∧ ∀ arm, (RollupState.after rollupEnv scoredFirst).loaded.lookup arm
          = if arm ∈ (applied 30 (minutes 35)
              (RollupState.after rollupEnv scoredFirst).tables.outcomes).map (·.arm) then
              some (armStat (applied 30 (minutes 35)
                (RollupState.after rollupEnv scoredFirst).tables.outcomes) arm).toArmStats
            else none :=
  outcomes_scored_once [.written (written [] [])] (clean 35) (minutes 35) rfl pending_scoredFirst

end AuraGateway.Decisions
