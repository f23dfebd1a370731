import AuraGateway.Decisions.RollupHistory
import AuraGateway.Foundations.BatchedQueue
import AuraGateway.Foundations.KeysetPages

/-!
# The report of a rollup

A run reports how many decisions it scored and how often it saw each signal. The signal of a row
is counted before its outcome is written, and a row whose write fails is read again by the next
batch. The report adds up, and every other row is scored, exactly when no write fails
(`rollup_accounted_iff`). The others are scored once each as long as the batches have room for the
rows that fail (`others_written_of_room`); a whole batch of them at the head of the queue stops
the run (`none_written_of_stuck`).
-/

set_option autoImplicit false

namespace AuraGateway.Decisions

open AuraGateway.Types AuraGateway.Router AuraGateway.Foundations AuraGateway.Foundations.KeyedFolds
open AuraGateway.Foundations.BatchedQueue AuraGateway.Foundations.KeysetPages

/-! ## A run with its report -/

/-- Summary of one rollup run. -/
structure RollupReport where
  scored : Nat := 0
  byNextTurn : List (String × Nat) := []
  arms : Nat := 0

/-- What a run has done so far: its tables, its report, and the outcomes it wrote, in order. -/
structure Scoring where
  tables : Tables
  report : RollupReport := {}
  written : List RoutingOutcome := []

/-- How a run ends; there is no report when a statement between the batches failed. -/
structure RollupResult where
  state : RollupState
  written : List RoutingOutcome
  report : Option RollupReport

section Run

variable (env : ScoreEnv) (run : RollupRun)

/-- Score one row: its signal is counted, and its outcome is written unless the upsert fails. -/
def Scoring.row (s : Scoring) (failed : Bool) (row : PendingRoutingOutcome) : Scoring :=
  let outcome := outcomeOf env run.tierOf row
  let counted : RollupReport :=
    { s.report with byNextTurn := amend 0 outcome.nextTurn (· + 1) s.report.byNextTurn }
  if failed then { s with report := counted }
  else
    { tables := s.tables.upsertOutcome outcome
      report := { counted with scored := counted.scored + 1 }
      written := s.written ++ [outcome] }

/-- Score the rows of a batch, from the `i`-th on. -/
def Scoring.rows (fails : Nat → PendingRoutingOutcome → Bool) :
    Nat → List PendingRoutingOutcome → Scoring → Scoring
  | _, [], s => s
  | i, row :: rows, s => Scoring.rows fails (i + 1) rows (s.row env run (fails i row) row)

/-- Score batches until one is not full. The flag is false when a read failed. -/
def Scoring.batches (fails : Nat → Nat → PendingRoutingOutcome → Bool) :
    Nat → Nat → Scoring → Scoring × Bool
  | 0, _, s => (s, true)
  | left + 1, batch, s =>
      if run.readFails batch then (s, false)
      else
        let pending := s.tables.pending run.graceSecs run.windowDays batchSize (run.readClock batch)
        let s' := Scoring.rows env run (fails batch) 0 pending s
        if pending.length < batchSize then (s', true)
        else Scoring.batches fails left (batch + 1) s'

/-- `run_rollup` with its report; `fails` are the upserts that fail. -/
def rollupResult (fails : Nat → Nat → PendingRoutingOutcome → Bool) (s : RollupState) :
    RollupResult :=
  let (scoring, ok) := Scoring.batches env run fails maxBatches 0 { tables := s.tables }
  let tables := scoring.tables
  let upserted := upsertArmStats run.windowDays run.statsClock tables.outcomes s.armStats
  let pruned := pruneArmStats run.windowDays run.pruneClock tables.outcomes upserted
  if !ok || run.statsFails then { state := { s with tables }, written := scoring.written, report := none }
  else if run.pruneFails then
    { state := { s with tables, armStats := upserted }, written := scoring.written, report := none }
  else if run.loadFails then
    { state := { s with tables, armStats := pruned }, written := scoring.written, report := none }
  else
    { state := { tables, armStats := pruned, loaded := pruned.map fun s => (s.1, s.2.toArmStats) }
      written := scoring.written
      report := some { scoring.report with arms := pruned.length } }

variable {env run}

/-! ## The run without its report -/

theorem rows_tables (batch i : Nat) (rows : List PendingRoutingOutcome) (s : Scoring) :
    (Scoring.rows env run (fun i _ => run.upsertFails batch i) i rows s).tables
      = scoreRows env run batch i rows s.tables := by
  induction rows generalizing i s with
  | nil => rfl
  | cons row rows ih =>
      rw [Scoring.rows, scoreRows, ih, Scoring.row]
      split <;> rfl

variable (env run) in
theorem batches_tables (left batch : Nat) (s : Scoring) :
    ((Scoring.batches env run (fun batch i _ => run.upsertFails batch i) left batch s).1.tables,
        (Scoring.batches env run (fun batch i _ => run.upsertFails batch i) left batch s).2)
      = scoreBatches env run left batch s.tables := by
  induction left generalizing batch s with
  | zero => rfl
  | succ left ih =>
      rw [Scoring.batches, scoreBatches]
      split
      · rfl
      · dsimp only
        rw [← rows_tables]
        split
        · rfl
        · exact ih (batch + 1) _

/-- The state after a run is that of `runRollup`. -/
theorem rollupResult_state (s : RollupState) :
    (rollupResult env run (fun batch i _ => run.upsertFails batch i) s).state
      = runRollup env run s := by
  have hbatches := batches_tables env run maxBatches 0 { tables := s.tables }
  rw [rollupResult, runRollup]
  dsimp only at hbatches
  rw [← hbatches]
  generalize Scoring.batches env run (fun batch i _ => run.upsertFails batch i) maxBatches 0
    { tables := s.tables } = scoring
  dsimp only
  split
  · rfl
  · split
    · rfl
    · split <;> rfl

end Run

/-! ## Pending decisions of a run -/

section Pending

variable (run : RollupRun) (t : Tables)

/-- The rows that are pending when the run starts. -/
def Tables.pendingRows : List PendingRoutingOutcome :=
  t.dueRows run.graceSecs run.windowDays (run.readClock 0)

/-- The pending rows, oldest first. -/
def Tables.queue : List PendingRoutingOutcome :=
  newestFirst (fun row => OrderDual.toDual row.createdAt.val) (t.pendingRows run)

/-- The pending decisions of a run are one set, with distinct ids and creation times, and no more
than its batches hold. -/
structure PendingSet : Prop where
  ids : ((t.pendingRows run).map (·.responseId)).Nodup
  times : ((t.pendingRows run).map (·.createdAt)).Nodup
  few : (t.pendingRows run).length ≤ batchSize * maxBatches
  same : ∀ batch, t.dueRows run.graceSecs run.windowDays (run.readClock batch) = t.pendingRows run

variable {run t} {env : ScoreEnv}

theorem Tables.queue_perm : (t.queue run).Perm (t.pendingRows run) := newestFirst_perm _ _

theorem PendingSet.nodup_queue (h : PendingSet run t) :
    ((t.queue run).map (·.responseId)).Nodup :=
  (Tables.queue_perm.map _).nodup_iff.mpr h.ids

/-- A pending decision has no outcome. -/
theorem not_mem_scoredIds {row : PendingRoutingOutcome} (h : row ∈ t.pendingRows run) :
    row.responseId ∉ t.scoredIds := by
  obtain ⟨d, -, hnone, -, hrow⟩ := Tables.mem_dueRows.mp h
  rw [responseId_of_mem_rowsOf hrow, ← Tables.outcomesOf_ne_nil_iff, not_not]
  exact hnone

/-- A condition on what a list is made of can be asked of its parts. -/
theorem flatMap_filter_and {α β : Type} {g : α → List β} {p q : α → Bool} {r : β → Bool}
    {l : List α} (h : ∀ a ∈ l, ∀ b ∈ g a, r b = q a) :
    (l.filter fun a => p a && q a).flatMap g = ((l.filter p).flatMap g).filter r := by
  induction l with
  | nil => rfl
  | cons a l ih =>
      obtain ⟨ha, hl⟩ := List.forall_mem_cons.mp h
      rw [List.filter_cons, List.filter_cons]
      by_cases hp : p a = true
      · by_cases hq : q a = true
        · have hall : (g a).filter r = g a :=
            List.filter_eq_self.mpr fun b hb => (ha b hb).trans hq
          rw [if_pos (by rw [hp, hq]; rfl), if_pos hp, List.flatMap_cons, List.flatMap_cons,
            List.filter_append, ih hl, hall]
        · have hnone : (g a).filter r = [] :=
            List.filter_eq_nil_iff.mpr fun b hb hr => hq ((ha b hb).symm.trans hr)
          rw [if_neg (by simp [hq]), if_pos hp, List.flatMap_cons, List.filter_append, ih hl, hnone,
            List.nil_append]
      · rw [if_neg (by simp [hp]), if_neg hp, ih hl]

/-- Outcomes that are added take the rows of their decisions out of those that are due. -/
theorem dueRows_append (t : Tables) (written : List RoutingOutcome) (graceSecs windowDays : Int)
    (now : DateTime) :
    Tables.dueRows { t with outcomes := t.outcomes ++ written } graceSecs windowDays now
      = (t.dueRows graceSecs windowDays now).filter fun row =>
        decide (row.responseId ∉ written.map (·.responseId)) := by
  have hopen : ∀ d : RoutingDecision,
      ((Tables.outcomesOf { t with outcomes := t.outcomes ++ written } d).isEmpty
          && decide (Due graceSecs windowDays now d))
        = (((t.outcomesOf d).isEmpty && decide (Due graceSecs windowDays now d))
          && decide (d.responseId ∉ written.map (·.responseId))) := by
    intro d
    have hnone : (written.filter fun o => decide (o.responseId = d.responseId)).isEmpty
        = decide (d.responseId ∉ written.map (·.responseId)) := by
      rw [Bool.eq_iff_iff, List.isEmpty_iff, List.filter_eq_nil_iff, decide_eq_true_eq,
        List.mem_map, not_exists]
      simp
    have happend : ∀ l m : List RoutingOutcome, (l ++ m).isEmpty = (l.isEmpty && m.isEmpty) := by
      intro l m
      cases l <;> rfl
    rw [Tables.outcomesOf, Tables.outcomesOf, List.filter_append, happend, hnone,
      Bool.and_right_comm]
  have hfilter : t.decisions.filter (fun d =>
        (Tables.outcomesOf { t with outcomes := t.outcomes ++ written } d).isEmpty
          && decide (Due graceSecs windowDays now d))
      = t.decisions.filter fun d =>
        ((t.outcomesOf d).isEmpty && decide (Due graceSecs windowDays now d))
          && decide (d.responseId ∉ written.map (·.responseId)) :=
    List.filter_congr fun d _ => hopen d
  rw [Tables.dueRows, hfilter]
  refine flatMap_filter_and fun d _ row hrow => ?_
  rw [responseId_of_mem_rowsOf (t := { t with outcomes := t.outcomes ++ written }) hrow]

end Pending

/-! ## What a run makes of its queue -/

section Worked

variable {env : ScoreEnv} {run : RollupRun} {failing : String → Bool} {t : Tables}
  {attempts : List PendingRoutingOutcome} {s : Scoring}

/-- The decisions whose upsert always fails. -/
def failsById (failing : String → Bool) (row : PendingRoutingOutcome) : Bool :=
  failing row.responseId

/-- The outcomes of the attempts that do not fail. -/
def outcomesWritten (env : ScoreEnv) (run : RollupRun) (failing : String → Bool)
    (attempts : List PendingRoutingOutcome) : List RoutingOutcome :=
  (attempts.filter fun row => !failsById failing row).map (outcomeOf env run.tierOf)

theorem outcomesWritten_append (rows : List PendingRoutingOutcome) :
    outcomesWritten env run failing (attempts ++ rows)
      = outcomesWritten env run failing attempts ++ outcomesWritten env run failing rows := by
  rw [outcomesWritten, List.filter_append, List.map_append]
  rfl

theorem outcomesWritten_ids :
    (outcomesWritten env run failing attempts).map (·.responseId)
      = (attempts.filter fun row => !failsById failing row).map (·.responseId) := by
  rw [outcomesWritten, List.map_map]
  rfl

/-- What a run has done after some attempts: the signals of all are counted, and the outcomes of
those that do not fail are written. -/
structure Worked (env : ScoreEnv) (run : RollupRun) (failing : String → Bool) (t : Tables)
    (attempts : List PendingRoutingOutcome) (s : Scoring) : Prop where
  tables : s.tables = { t with outcomes := t.outcomes ++ s.written }
  written : s.written = outcomesWritten env run failing attempts
  counted : (s.report.byNextTurn.map Prod.snd).sum = attempts.length
  scored : s.report.scored = s.written.length

theorem Worked.start : Worked env run failing t [] { tables := t } where
  tables := by rw [List.append_nil]
  written := rfl
  counted := rfl
  scored := rfl

theorem sum_amend_succ (k : String) (counts : List (String × Nat)) :
    ((amend 0 k (· + 1) counts).map Prod.snd).sum = (counts.map Prod.snd).sum + 1 := by
  induction counts with
  | nil => rfl
  | cons e counts ih =>
      rw [amend]
      split
      · rw [List.map_cons, List.map_cons, List.sum_cons, List.sum_cons]
        omega
      · rw [List.map_cons, List.map_cons, List.sum_cons, List.sum_cons, ih]
        omega

theorem upsertOutcome_of_fresh {new : RoutingOutcome} (h : new.responseId ∉ t.scoredIds) :
    t.upsertOutcome new = { t with outcomes := t.outcomes ++ [new] } := by
  have hnone : ¬ (t.outcomes.any fun o => decide (o.responseId = new.responseId)) = true := by
    intro hany
    obtain ⟨o, ho, heq⟩ := List.any_eq_true.mp hany
    exact h (List.mem_map.mpr ⟨o, ho, of_decide_eq_true heq⟩)
  rw [Tables.upsertOutcome, if_neg hnone]

/-- One attempt. -/
theorem Worked.row (h : Worked env run failing t attempts s) {row : PendingRoutingOutcome}
    (hfresh : row.responseId ∉ s.tables.scoredIds) :
    Worked env run failing t (attempts ++ [row]) (s.row env run (failsById failing row) row) := by
  have hcount : ((amend 0 (outcomeOf env run.tierOf row).nextTurn (· + 1)
      s.report.byNextTurn).map Prod.snd).sum = (attempts ++ [row]).length := by
    rw [sum_amend_succ, h.counted, List.length_append, List.length_singleton]
  rw [Scoring.row]
  by_cases hfails : failsById failing row = true
  · have hnone : outcomesWritten env run failing [row] = [] := by
      rw [outcomesWritten, List.filter_cons_of_neg (by rw [hfails]; decide)]
      rfl
    rw [if_pos hfails]
    refine ⟨h.tables, ?_, hcount, h.scored⟩
    rw [outcomesWritten_append, hnone, List.append_nil]
    exact h.written
  · have hone : outcomesWritten env run failing [row] = [outcomeOf env run.tierOf row] := by
      rw [outcomesWritten, List.filter_cons_of_pos (by simpa using hfails)]
      rfl
    rw [if_neg hfails]
    refine ⟨?_, ?_, hcount, ?_⟩
    · dsimp only
      rw [upsertOutcome_of_fresh hfresh, h.tables, List.append_assoc]
    · rw [outcomesWritten_append, hone, h.written]
    · rw [List.length_append, List.length_singleton, h.scored]

theorem Worked.scoredIds (h : Worked env run failing t attempts s) :
    s.tables.scoredIds = t.scoredIds ++ s.written.map (·.responseId) := by
  rw [Tables.scoredIds, h.tables, List.map_append]
  rfl

/-- An attempt adds no outcome but that of its own decision. -/
theorem not_mem_scoredIds_row {row : PendingRoutingOutcome} {failed : Bool} {id : String}
    (h : id ∉ s.tables.scoredIds) (hne : id ≠ row.responseId) :
    id ∉ (s.row env run failed row).tables.scoredIds := by
  rw [Scoring.row]
  split
  · exact h
  · rw [Tables.mem_scoredIds_upsertOutcome]
    rintro (hid | hid)
    · exact h hid
    · exact hne hid

/-- The attempts of a batch. -/
theorem Worked.rows (h : Worked env run failing t attempts s) {rows : List PendingRoutingOutcome}
    (hids : (rows.map (·.responseId)).Nodup)
    (hfresh : ∀ row ∈ rows, row.responseId ∉ s.tables.scoredIds) (i : Nat) :
    Worked env run failing t (attempts ++ rows)
      (Scoring.rows env run (fun _ => failsById failing) i rows s) := by
  induction rows generalizing attempts s i with
  | nil =>
      rw [List.append_nil]
      exact h
  | cons row rows ih =>
      obtain ⟨hrow, hrows⟩ := List.forall_mem_cons.mp hfresh
      obtain ⟨hnew, hids⟩ := List.nodup_cons.mp hids
      rw [Scoring.rows, List.append_cons]
      refine ih (h.row hrow) hids (fun row' hmem => ?_) (i + 1)
      refine not_mem_scoredIds_row (hrows row' hmem) fun heq => hnew ?_
      exact List.mem_map.mpr ⟨row', hmem, heq⟩

/-- The rows that are still pending. -/
def remaining (run : RollupRun) (t : Tables) (written : List RoutingOutcome) :
    List PendingRoutingOutcome :=
  (t.queue run).filter fun row => decide (row.responseId ∉ written.map (·.responseId))

theorem nodup_remaining (hset : PendingSet run t) (written : List RoutingOutcome) :
    ((remaining run t written).map (·.responseId)).Nodup :=
  hset.nodup_queue.sublist (List.filter_sublist.map _)

/-- A batch reads the first of the rows that are still pending. -/
theorem Worked.pending_eq (hset : PendingSet run t) (h : Worked env run failing t attempts s)
    (batch : Nat) :
    s.tables.pending run.graceSecs run.windowDays batchSize (run.readClock batch)
      = (remaining run t s.written).take batchSize := by
  have htimes : ((t.pendingRows run).map fun row => OrderDual.toDual row.createdAt.val).Nodup := by
    have hvals := hset.times.map (f := fun time : DateTime => OrderDual.toDual time.val)
      fun a b hab => Subtype.ext hab
    rwa [List.map_map] at hvals
  have hdue : s.tables.dueRows run.graceSecs run.windowDays (run.readClock batch)
      = (t.pendingRows run).filter fun row =>
        decide (row.responseId ∉ s.written.map (·.responseId)) := by
    rw [h.tables, dueRows_append, hset.same]
  have hsorted : newestFirst (fun row => OrderDual.toDual row.createdAt.val)
      (s.tables.dueRows run.graceSecs run.windowDays (run.readClock batch))
        = remaining run t s.written := by
    rw [hdue, newestFirst_filter htimes]
    rfl
  rw [← hsorted]
  rfl

/-- A batch leaves the rows that fail where they are. -/
theorem Worked.remaining_eq (hset : PendingSet run t) (h : Worked env run failing t attempts s)
    {s' : Scoring} (h' : Worked env run failing t
      (attempts ++ (remaining run t s.written).take batchSize) s') :
    remaining run t s'.written
      = afterBatch batchSize (failsById failing) (remaining run t s.written) := by
  have hids : s'.written.map (·.responseId) = s.written.map (·.responseId)
      ++ (((remaining run t s.written).take batchSize).filter fun row =>
        !failsById failing row).map (·.responseId) := by
    rw [h'.written, outcomesWritten_append, ← h.written, List.map_append, outcomesWritten_ids]
  rw [afterBatch_eq_filter (nodup_remaining hset s.written), remaining, hids]
  conv_rhs => rw [remaining, List.filter_filter]
  refine List.filter_congr fun row _ => ?_
  rw [Bool.eq_iff_iff, Bool.and_eq_true, decide_eq_true_eq, decide_eq_true_eq, decide_eq_true_eq,
    List.mem_append, not_or, and_comm]
  rfl

/-- The attempts of the batches are those of a queue that is worked off. -/
theorem Worked.batches (hset : PendingSet run t) (hread : ∀ batch, run.readFails batch = false)
    (h : Worked env run failing t attempts s) (left batch : Nat) :
    (Scoring.batches env run (fun _ _ => failsById failing) left batch s).2 = true
      ∧ Worked env run failing t
        (attempts ++ drain batchSize (failsById failing) left (remaining run t s.written))
        (Scoring.batches env run (fun _ _ => failsById failing) left batch s).1 := by
  induction left generalizing attempts s batch with
  | zero =>
      rw [drain, List.append_nil]
      exact ⟨rfl, h⟩
  | succ left ih =>
      rw [Scoring.batches, hread, if_neg Bool.false_ne_true]
      dsimp only
      rw [h.pending_eq hset batch]
      have hfresh : ∀ row ∈ (remaining run t s.written).take batchSize,
          row.responseId ∉ s.tables.scoredIds := by
        intro row hrow
        obtain ⟨hqueue, hleft⟩ := List.mem_filter.mp (List.mem_of_mem_take hrow)
        rw [h.scoredIds, List.mem_append, not_or]
        exact ⟨not_mem_scoredIds (Tables.queue_perm.subset hqueue), of_decide_eq_true hleft⟩
      have hids : (((remaining run t s.written).take batchSize).map (·.responseId)).Nodup :=
        (nodup_remaining hset s.written).sublist ((List.take_sublist _ _).map _)
      have hrows := h.rows hids hfresh 0
      rw [List.length_take]
      rcases Nat.lt_or_ge (remaining run t s.written).length batchSize with hshort | hfull
      · rw [if_pos (by omega), drain_succ_of_short left hshort]
        rw [List.take_of_length_le hshort.le] at hrows ⊢
        exact ⟨rfl, hrows⟩
      · rw [if_neg (by omega), drain_succ_of_full left hfull, ← List.append_assoc,
          ← h.remaining_eq hset hrows]
        exact ih hrows (batch + 1)

end Worked

/-! ## The account of a run -/

section Account

variable {env : ScoreEnv} {run : RollupRun} {s : RollupState}

/-- What a run is to do with its pending decisions when the upserts of some always fail: write
the outcome of each other one once, and report as many signals as decisions scored. -/
structure Accounted (env : ScoreEnv) (run : RollupRun) (failing : String → Bool) (t : Tables)
    (result : RollupResult) : Prop where
  once : result.written.Perm (outcomesWritten env run failing (t.pendingRows run))
  stored : result.state.tables.outcomes = t.outcomes ++ result.written
  added : ∃ report, result.report = some report
    ∧ (report.byNextTurn.map Prod.snd).sum = report.scored

theorem remaining_nil (t : Tables) : remaining run t [] = t.queue run := by
  rw [remaining, List.filter_eq_self]
  intro row _
  rfl

/-- A run without other errors has done what it makes of its queue. -/
theorem rollupResult_worked (failing : String → Bool) (hset : PendingSet run s.tables)
    (hclean : run.Clean) {result : RollupResult}
    (hresult : rollupResult env run (fun _ _ => failsById failing) s = result) :
    ∃ worked report, Worked env run failing s.tables
        (drain batchSize (failsById failing) maxBatches (s.tables.queue run)) worked
      ∧ result.written = worked.written ∧ result.state.tables = worked.tables
      ∧ result.report = some report ∧ report.scored = worked.report.scored
      ∧ report.byNextTurn = worked.report.byNextTurn := by
  have hstart : Worked env run failing s.tables [] { tables := s.tables } := .start
  obtain ⟨hok, hworked⟩ := hstart.batches hset hclean.read maxBatches 0
  rw [remaining_nil, List.nil_append] at hworked
  subst hresult
  rw [rollupResult]
  dsimp only
  rw [hok, hclean.stats, hclean.prune, hclean.load]
  exact ⟨_, _, hworked, rfl, rfl, rfl, rfl, rfl⟩

/-- A run accounts for its pending decisions exactly when no upsert of theirs fails. -/
theorem rollup_accounted_iff (env : ScoreEnv) (run : RollupRun) (failing : String → Bool)
    (s : RollupState) (hset : PendingSet run s.tables) (hclean : run.Clean) :
    Accounted env run failing s.tables (rollupResult env run (fun _ _ => failsById failing) s)
      ↔ ∀ row ∈ s.tables.pendingRows run, failing row.responseId = false := by
  obtain ⟨worked, report, hworked, hwritten, htables, hreport, hscored, hcounts⟩ :=
    rollupResult_worked failing hset hclean rfl
  have hfew : (s.tables.queue run).length ≤ batchSize * maxBatches := by
    rw [Tables.queue_perm.length_eq]
    exact hset.few
  constructor
  · intro haccount row hrow
    by_contra hfails
    obtain ⟨report', hsome, hadded⟩ := haccount.added
    rw [hreport] at hsome
    obtain rfl := Option.some.inj hsome
    have hfails : failsById failing row = true := by
      rw [failsById]
      simpa using hfails
    -- an attempt that fails is counted and not scored
    obtain ⟨b, hb, hfb⟩ :=
      exists_failing_mem_drain hfew (Tables.queue_perm.symm.subset hrow) hfails
    have hlt : ((drain batchSize (failsById failing) maxBatches (s.tables.queue run)).filter
        fun row => !failsById failing row).length
          < (drain batchSize (failsById failing) maxBatches (s.tables.queue run)).length := by
      rw [List.length_filter_lt_length_iff_exists]
      exact ⟨b, hb, by rw [hfb]; decide⟩
    rw [hscored, hcounts, hworked.counted, hworked.scored, hworked.written, outcomesWritten,
      List.length_map] at hadded
    omega
  · intro hnone
    have hqueue : ∀ row ∈ s.tables.queue run, failsById failing row = false := fun row hrow =>
      hnone row (Tables.queue_perm.subset hrow)
    rw [drain_of_none_fails hqueue hfew] at hworked
    refine ⟨?_, ?_, _, hreport, ?_⟩
    · rw [hwritten, hworked.written]
      exact (Tables.queue_perm.filter _).map _
    · rw [htables, hworked.tables, hwritten]
    · have hall : (s.tables.queue run).filter (fun row => !failsById failing row)
          = s.tables.queue run :=
        List.filter_eq_self.mpr fun row hrow => by rw [hqueue row hrow]; rfl
      rw [hscored, hcounts, hworked.counted, hworked.scored, hworked.written, outcomesWritten, hall,
        List.length_map]

/-- The other decisions are scored once each when the batches have room for those that fail. -/
theorem others_written_of_room (failing : String → Bool) (hset : PendingSet run s.tables)
    (hclean : run.Clean)
    (hroom : (outcomesWritten env run failing (s.tables.pendingRows run)).length
      ≤ (batchSize - (s.tables.pendingRows run).countP (failsById failing)) * maxBatches) :
    (rollupResult env run (fun _ _ => failsById failing) s).written.Perm
      (outcomesWritten env run failing (s.tables.pendingRows run)) := by
  obtain ⟨worked, -, hworked, hwritten, -⟩ := rollupResult_worked failing hset hclean rfl
  have hqueue : (s.tables.queue run).Perm (s.tables.pendingRows run) := Tables.queue_perm
  have hothers := hqueue.filter fun row => !failsById failing row
  rw [outcomesWritten, List.length_map, ← hothers.length_eq,
    ← hqueue.countP_eq] at hroom
  rw [hwritten, hworked.written, outcomesWritten, filter_drain_of_room hroom]
  exact hothers.map _

/-- Nothing is scored when the upserts of a whole batch of the oldest decisions fail. -/
theorem none_written_of_stuck (failing : String → Bool) (hset : PendingSet run s.tables)
    (hclean : run.Clean) (hfull : batchSize ≤ (s.tables.pendingRows run).length)
    (hstuck : ∀ row ∈ (s.tables.queue run).take batchSize, failing row.responseId = true) :
    (rollupResult env run (fun _ _ => failsById failing) s).written = [] := by
  obtain ⟨worked, -, hworked, hwritten, -⟩ := rollupResult_worked failing hset hclean rfl
  rw [← Tables.queue_perm.length_eq] at hfull
  have hall : ∀ row ∈ drain batchSize (failsById failing) maxBatches (s.tables.queue run),
      failsById failing row = true := drain_of_stuck hfull hstuck
  rw [hwritten, hworked.written, outcomesWritten, List.filter_eq_nil_iff.mpr, List.map_nil]
  intro row hrow
  rw [hall row hrow]
  decide

end Account

/-! ### One pending decision -/

namespace Sample

/-- A decision that is due, without a follow-up. -/
def oneDue : RollupState := RollupState.after rollupEnv [.written (written [] [])]

theorem pendingRows_oneDue : oneDue.tables.pendingRows (rollupAt 35)
    = [oneDue.tables.pendingRow decision (some ⟨"aura_1", "completed", 0, none⟩)
        (some ⟨"resp_1", none, "llama3.1", some (.array []), minutes 0⟩)] := by
  rfl

theorem pendingSet_oneDue : PendingSet (rollupAt 35) oneDue.tables where
  ids := by
    rw [pendingRows_oneDue]
    exact List.nodup_singleton _
  times := by
    rw [pendingRows_oneDue]
    exact List.nodup_singleton _
  few := by
    rw [pendingRows_oneDue]
    decide
  same := fun _ => rfl

end Sample

open Sample in
theorem rollup_accounted_sample :
    Accounted rollupEnv (rollupAt 35) (fun _ => false) oneDue.tables
      (rollupResult rollupEnv (rollupAt 35) (fun _ _ => failsById fun _ => false) oneDue) :=
  (rollup_accounted_iff rollupEnv (rollupAt 35) (fun _ => false) oneDue pendingSet_oneDue
    (clean 35)).mpr fun _ _ => rfl

open Sample in
/-- The signal of a decision whose upsert fails is reported, and the decision is not scored. -/
theorem failed_upsert_counted :
    ¬ Accounted rollupEnv (rollupAt 35) (fun id => id = "aura_1") oneDue.tables
      (rollupResult rollupEnv (rollupAt 35) (fun _ _ => failsById fun id => id = "aura_1")
        oneDue) := by
  obtain ⟨worked, report, hworked, -, -, hreport, hscored, hcounts⟩ :=
    rollupResult_worked (fun id => id = "aura_1") pendingSet_oneDue (clean 35)
      (rfl : rollupResult rollupEnv (rollupAt 35) _ oneDue = _)
  rintro ⟨-, -, report', hsome, hadded⟩
  rw [hreport] at hsome
  obtain rfl := Option.some.inj hsome
  have hqueue : oneDue.tables.queue (rollupAt 35) = oneDue.tables.pendingRows (rollupAt 35) := by
    rw [Tables.queue, pendingRows_oneDue]
    exact List.mergeSort_singleton _
  rw [hscored, hcounts, hworked.counted, hworked.scored, hworked.written, outcomesWritten, hqueue,
    pendingRows_oneDue, maxBatches, drain_succ_of_short 19 (by decide)] at hadded
  revert hadded
  decide

end AuraGateway.Decisions
