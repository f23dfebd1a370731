import AuraGateway.Decisions.Outcomes
import AuraGateway.Decisions.Tables
import AuraGateway.Foundations.KeyedFolds
import AuraGateway.Router.TierCatalog

/-!
# The outcome rollup

A rollup run reads the decisions that are old enough and have no outcome yet, scores them on
the signals that are stored, and writes an outcome for each. `Progress` is what a run has made
of its tables at any moment: the outcomes it found are still there, and the others are those of
rows that it found. Afterwards the statistics of the arms are those of the stored outcomes,
whatever they were before (`lookup_recompute`).
-/

set_option autoImplicit false

namespace AuraGateway.Decisions

open AuraGateway.Types AuraGateway.Router AuraGateway.Foundations.KeyedFolds

/-! ## Pending decisions -/

/-- A decision without an outcome, with the inputs needed to score it. -/
structure PendingRoutingOutcome where
  responseId : String
  tier : String
  selectedModel : String
  shadow : Bool
  createdAt : DateTime
  status : Option String
  feedback : Option String
  toolCallsCount : Int
  inputItems : Option Json
  nextInputItems : Option Json
  nextModel : Option String

namespace Tables

variable (t : Tables)

/-- The row of a decision with one of its request logs and its response. -/
def pendingRow (d : RoutingDecision) (rl : Option RequestLog) (cur : Option StoredResponse) :
    PendingRoutingOutcome where
  responseId := d.responseId
  tier := d.tier
  selectedModel := d.selectedModel
  shadow := d.shadow
  createdAt := d.createdAt
  status := rl.map (·.status)
  feedback := t.feedbackOf d
  toolCallsCount := (rl.map (·.toolCallsCount)).getD 0
  inputItems := cur.bind (·.inputItems)
  nextInputItems := (t.nextTurnOf d).bind (·.inputItems)
  nextModel := (t.nextTurnOf d).map (·.modelId)

/-- The rows that the joins give for a decision. -/
def rowsOf (d : RoutingDecision) : List PendingRoutingOutcome :=
  (leftJoin (t.logsOf d)).flatMap fun rl => (leftJoin (t.currentOf d)).map (t.pendingRow d rl)

end Tables

/-- Not synthetic, older than the grace period and inside the window. -/
def Due (graceSecs windowDays : Int) (now : DateTime) (d : RoutingDecision) : Prop :=
  d.synthetic = false ∧ d.createdAt.val < now.val - graceSecs * 1000000
    ∧ now.val - windowDays * 86400000000 ≤ d.createdAt.val

instance (graceSecs windowDays : Int) (now : DateTime) (d : RoutingDecision) :
    Decidable (Due graceSecs windowDays now d) :=
  inferInstanceAs (Decidable (_ ∧ _ ∧ _))

/-- The row that a conflicting upsert leaves: the columns of the decision stay. -/
def RoutingOutcome.replaced (o new : RoutingOutcome) : RoutingOutcome :=
  { o with
    status := new.status
    feedback := new.feedback
    nextTurn := new.nextTurn
    nextModel := new.nextModel
    reward := new.reward }

namespace Tables

variable (t : Tables)

/-- The rows of the due decisions that have no outcome. -/
def dueRows (graceSecs windowDays : Int) (now : DateTime) : List PendingRoutingOutcome :=
  (t.decisions.filter fun d =>
    (t.outcomesOf d).isEmpty && decide (Due graceSecs windowDays now d)).flatMap t.rowsOf

/-- `RoutingOutcomeRepo::pending`, oldest first. -/
def pending (graceSecs windowDays : Int) (limit : Nat) (now : DateTime) :
    List PendingRoutingOutcome :=
  ((t.dueRows graceSecs windowDays now).mergeSort fun a b =>
    decide (a.createdAt.val ≤ b.createdAt.val)).take limit

/-- `RoutingOutcomeRepo::upsert`: insert or replace an outcome row. -/
def upsertOutcome (new : RoutingOutcome) : Tables :=
  { t with
    outcomes :=
      if t.outcomes.any fun o => o.responseId = new.responseId then
        t.outcomes.map fun o => if o.responseId = new.responseId then o.replaced new else o
      else t.outcomes ++ [new] }

end Tables

/-! ## Scoring a row -/

/-- What scoring takes from outside: the letter tables, and the parser of stored items. -/
structure ScoreEnv where
  letters : LetterTables
  parseItems : Json → Option (List InputItem)

def textOf : InputContent → String
  | .text t => t
  | .parts parts => " ".intercalate (parts.filterMap fun
      | .text t => some t
      | _ => none)

/-- Parse stored input items; malformed rows yield none. -/
def itemsOf (env : ScoreEnv) (value : Option Json) : List InputItem :=
  (value.bind env.parseItems).getD []

/-- Last user message text in a turn's input. -/
def lastUserText (items : List InputItem) : Option String :=
  items.reverse.findSome? fun
    | .message .user content => some (textOf content)
    | _ => none

/-- Build the scorer inputs for one pending row; `tierOf` is the current catalog. -/
def inputsFor (env : ScoreEnv) (tierOf : String → Option Tier) (row : PendingRoutingOutcome) :
    OutcomeInputs where
  status := row.status
  feedback := row.feedback
  toolCalls := row.toolCallsCount
  userText := lastUserText (itemsOf env row.inputItems)
  tier := (Tier.parse row.tier).getD .medium
  selectedModel := row.selectedModel
  next := row.nextModel.map fun nextModel =>
    let nextItems := itemsOf env row.nextInputItems
    let hasOutputs := nextItems.any fun
      | .functionCallOutput _ _ => true
      | _ => false
    { userText := lastUserText nextItems
      model := nextModel
      modelTier := tierOf nextModel
      isToolContinuation := hasOutputs && (lastUserText nextItems).isNone }

/-- The outcome that is written for a pending row. -/
def outcomeOf (env : ScoreEnv) (tierOf : String → Option Tier) (row : PendingRoutingOutcome) :
    RoutingOutcome :=
  let outcome := evaluate env.letters (inputsFor env tierOf row)
  { responseId := row.responseId
    tier := row.tier
    selectedModel := row.selectedModel
    shadow := row.shadow
    status := row.status
    feedback := row.feedback
    nextTurn := outcome.nextTurn.asStr
    nextModel := if outcome.nextTurn = .none then none else row.nextModel
    reward := outcome.reward
    decidedAt := row.createdAt }

/-! ## A run -/

/-- Rows scored per database round trip. -/
def batchSize : Nat := 500

/-- Upper bound on batches per run. -/
def maxBatches : Nat := 20

/-- A rollup run: its configuration and catalog, the times of its statements, and the
statements that fail. -/
structure RollupRun where
  graceSecs : Int
  windowDays : Int
  tierOf : String → Option Tier
  readClock : Nat → DateTime
  statsClock : DateTime
  pruneClock : DateTime
  ordered : statsClock.val ≤ pruneClock.val
  readFails : Nat → Bool := fun _ => false
  upsertFails : Nat → Nat → Bool := fun _ _ => false
  statsFails : Bool := false
  pruneFails : Bool := false
  loadFails : Bool := false

/-- A run without errors. -/
structure RollupRun.Clean (run : RollupRun) : Prop where
  read : ∀ batch, run.readFails batch = false
  upsert : ∀ batch i, run.upsertFails batch i = false
  stats : run.statsFails = false
  prune : run.pruneFails = false
  load : run.loadFails = false

section Run

variable (env : ScoreEnv) (run : RollupRun)

/-- Write the outcomes of the rows of a batch, from the `i`-th on; a failed upsert is skipped. -/
def scoreRows (batch : Nat) : Nat → List PendingRoutingOutcome → Tables → Tables
  | _, [], t => t
  | i, row :: rows, t =>
      scoreRows batch (i + 1) rows
        (if run.upsertFails batch i then t else t.upsertOutcome (outcomeOf env run.tierOf row))

/-- Score batches until one is not full. The flag is false when a read failed. -/
def scoreBatches : Nat → Nat → Tables → Tables × Bool
  | 0, _, t => (t, true)
  | left + 1, batch, t =>
      if run.readFails batch then (t, false)
      else
        let pending := t.pending run.graceSecs run.windowDays batchSize (run.readClock batch)
        let t' := scoreRows env run batch 0 pending t
        if pending.length < batchSize then (t', true) else scoreBatches left (batch + 1) t'

end Run

/-! ## Arm statistics -/

/-- The key of `routing_arm_stats`. -/
structure Arm where
  tier : String
  model : String
  deriving DecidableEq

/-- A row of `routing_arm_stats`, without its key. -/
structure RoutingArmStat where
  alpha : Float
  beta : Float
  observations : Nat

/-- What the Thompson strategy reads of a row. -/
def RoutingArmStat.toArmStats (s : RoutingArmStat) : ArmStats := ⟨s.alpha, s.beta⟩

/-- The arm of an outcome. -/
def RoutingOutcome.arm (o : RoutingOutcome) : Arm := ⟨o.tier, o.selectedModel⟩

/-- The outcomes that count: applied ones inside the window. -/
def applied (windowDays : Int) (now : DateTime) (outcomes : List RoutingOutcome) :
    List RoutingOutcome :=
  outcomes.filter fun o =>
    !o.shadow && decide (now.val - windowDays * 86400000000 ≤ o.decidedAt.val)

/-- The statistics of an arm. -/
def armStat (outcomes : List RoutingOutcome) (arm : Arm) : RoutingArmStat :=
  let rewards := (outcomes.filter fun o => o.arm = arm).map (·.reward)
  { alpha := 1.0 + (rewards.filter fun r => decide (0 < r)).foldl (· + ·) 0
    beta := 1.0 + ((rewards.filter fun r => decide (r < 0)).map fun r => -r).foldl (· + ·) 0
    observations := rewards.length }

/-- Upsert the statistics of the arms that have an outcome. -/
def upsertArmStats (windowDays : Int) (now : DateTime) (outcomes : List RoutingOutcome)
    (stats : List (Arm × RoutingArmStat)) : List (Arm × RoutingArmStat) :=
  let rows := applied windowDays now outcomes
  amendAll ⟨1.0, 1.0, 0⟩ id (fun arm _ => armStat rows arm) stats (rows.map (·.arm)).dedup

/-- Arms without an outcome inside the window are deleted. -/
def pruneArmStats (windowDays : Int) (now : DateTime) (outcomes : List RoutingOutcome)
    (stats : List (Arm × RoutingArmStat)) : List (Arm × RoutingArmStat) :=
  stats.filter fun s => s.1 ∈ (applied windowDays now outcomes).map (·.arm)

/-- The tables, the arm statistics, and their copy in memory. -/
structure RollupState where
  tables : Tables := {}
  armStats : List (Arm × RoutingArmStat) := []
  loaded : List (Arm × ArmStats) := []

/-- Score pending decisions, recompute arm statistics and refresh the copy in memory. An error
ends the run with what was written until then. -/
def runRollup (env : ScoreEnv) (run : RollupRun) (s : RollupState) : RollupState :=
  let (tables, ok) := scoreBatches env run maxBatches 0 s.tables
  let upserted := upsertArmStats run.windowDays run.statsClock tables.outcomes s.armStats
  let pruned := pruneArmStats run.windowDays run.pruneClock tables.outcomes upserted
  if !ok || run.statsFails then { s with tables }
  else if run.pruneFails then { s with tables, armStats := upserted }
  else if run.loadFails then { s with tables, armStats := pruned }
  else { tables, armStats := pruned, loaded := pruned.map fun s => (s.1, s.2.toArmStats) }

/-! ## Rows -/

namespace Tables

variable {t : Tables} {graceSecs windowDays : Int} {limit : Nat} {now : DateTime}

theorem leftJoin_ne_nil {α : Type} (rows : List α) : leftJoin rows ≠ [] := by
  rw [leftJoin]
  cases rows with
  | nil => exact List.cons_ne_nil none []
  | cons a rows => exact List.cons_ne_nil (some a) (rows.map some)

theorem rowsOf_ne_nil (d : RoutingDecision) : t.rowsOf d ≠ [] := by
  obtain ⟨rl, hrl⟩ := List.exists_mem_of_ne_nil _ (leftJoin_ne_nil (t.logsOf d))
  obtain ⟨cur, hcur⟩ := List.exists_mem_of_ne_nil _ (leftJoin_ne_nil (t.currentOf d))
  refine List.ne_nil_of_mem (a := t.pendingRow d rl cur) ?_
  exact List.mem_flatMap.mpr ⟨rl, hrl, List.mem_map_of_mem hcur⟩

theorem exists_of_mem_rowsOf {d : RoutingDecision} {row : PendingRoutingOutcome}
    (h : row ∈ t.rowsOf d) : ∃ rl cur, row = t.pendingRow d rl cur := by
  obtain ⟨rl, -, hrow⟩ := List.mem_flatMap.mp h
  obtain ⟨cur, -, rfl⟩ := List.mem_map.mp hrow
  exact ⟨rl, cur, rfl⟩

theorem mem_dueRows {row : PendingRoutingOutcome} :
    row ∈ t.dueRows graceSecs windowDays now
      ↔ ∃ d ∈ t.decisions, t.outcomesOf d = [] ∧ Due graceSecs windowDays now d
        ∧ row ∈ t.rowsOf d := by
  simp only [dueRows, List.mem_flatMap, List.mem_filter, Bool.and_eq_true, List.isEmpty_iff,
    decide_eq_true_eq, and_assoc]

/-- A pending row is that of a due decision without an outcome. -/
theorem exists_of_mem_pending {row : PendingRoutingOutcome}
    (h : row ∈ t.pending graceSecs windowDays limit now) :
    ∃ d ∈ t.decisions, t.outcomesOf d = [] ∧ Due graceSecs windowDays now d ∧ row ∈ t.rowsOf d :=
  mem_dueRows.mp (List.mem_mergeSort.mp (List.mem_of_mem_take h))

/-- A read that does not reach its limit gives every row. -/
theorem mem_pending (hlt : (t.pending graceSecs windowDays limit now).length < limit)
    {row : PendingRoutingOutcome} (hrow : row ∈ t.dueRows graceSecs windowDays now) :
    row ∈ t.pending graceSecs windowDays limit now := by
  rw [pending, List.length_take] at hlt
  rw [pending, List.take_of_length_le (by omega)]
  exact List.mem_mergeSort.mpr hrow

/-- Nothing is pending when the due decisions have outcomes. -/
theorem pending_eq_nil_iff (hlimit : 0 < limit) :
    t.pending graceSecs windowDays limit now = []
      ↔ ∀ d ∈ t.decisions, Due graceSecs windowDays now d → t.outcomesOf d ≠ [] := by
  constructor
  · intro h d hd hdue hnone
    obtain ⟨row, hrow⟩ := List.exists_mem_of_ne_nil _ (rowsOf_ne_nil (t := t) d)
    have hmem := mem_pending (by rwa [h]) (mem_dueRows.mpr ⟨d, hd, hnone, hdue, hrow⟩)
    rw [h] at hmem
    exact absurd hmem List.not_mem_nil
  · intro h
    rw [List.eq_nil_iff_forall_not_mem]
    intro row hrow
    obtain ⟨d, hd, hnone, hdue, -⟩ := exists_of_mem_pending hrow
    exact h d hd hdue hnone

theorem mem_outcomesOf {d : RoutingDecision} {o : RoutingOutcome} :
    o ∈ t.outcomesOf d ↔ o ∈ t.outcomes ∧ o.responseId = d.responseId := by
  rw [outcomesOf, List.mem_filter, decide_eq_true_eq]

/-! ### Upserts -/

/-- The responses with an outcome. -/
def scoredIds (t : Tables) : List String := t.outcomes.map (·.responseId)

theorem outcomesOf_ne_nil_iff {d : RoutingDecision} :
    t.outcomesOf d ≠ [] ↔ d.responseId ∈ t.scoredIds := by
  rw [scoredIds, List.mem_map]
  constructor
  · intro h
    obtain ⟨o, ho⟩ := List.exists_mem_of_ne_nil _ h
    exact ⟨o, mem_outcomesOf.mp ho⟩
  · rintro ⟨o, ho⟩
    exact List.ne_nil_of_mem (mem_outcomesOf.mpr ho)

theorem scoredIds_upsertOutcome (t : Tables) (new : RoutingOutcome) :
    (t.upsertOutcome new).scoredIds
      = if new.responseId ∈ t.scoredIds then t.scoredIds else t.scoredIds ++ [new.responseId] := by
  have hany : (t.outcomes.any fun o => o.responseId = new.responseId) = true
      ↔ new.responseId ∈ t.scoredIds := by
    simp [scoredIds]
  have hids : (fun o : RoutingOutcome => o.responseId)
      ∘ (fun o => if o.responseId = new.responseId then o.replaced new else o)
        = fun o => o.responseId := by
    funext o
    rw [Function.comp_apply]
    split <;> rfl
  by_cases h : new.responseId ∈ t.scoredIds
  · rw [if_pos h, scoredIds, upsertOutcome]
    dsimp only
    rw [if_pos (hany.mpr h), List.map_map, hids]
    rfl
  · rw [if_neg h, scoredIds, upsertOutcome]
    dsimp only
    rw [if_neg (mt hany.mp h), List.map_append, List.map_singleton]
    rfl

theorem mem_scoredIds_upsertOutcome {new : RoutingOutcome} {id : String} :
    id ∈ (t.upsertOutcome new).scoredIds ↔ id ∈ t.scoredIds ∨ id = new.responseId := by
  rw [scoredIds_upsertOutcome]
  split
  · rename_i h
    constructor
    · exact .inl
    · rintro (hid | rfl)
      · exact hid
      · exact h
  · rw [List.mem_append, List.mem_singleton]

/-- Outcomes are kept apart by their response. -/
def OutcomesKeyed (t : Tables) : Prop := t.scoredIds.Nodup

theorem OutcomesKeyed.upsertOutcome (h : t.OutcomesKeyed) (new : RoutingOutcome) :
    (t.upsertOutcome new).OutcomesKeyed := by
  rw [OutcomesKeyed, scoredIds_upsertOutcome]
  split
  · exact h
  · rename_i hnew
    exact List.nodup_append_comm.mp (List.nodup_cons.mpr ⟨hnew, h⟩)

/-- After an upsert there are the new outcome and those of the other responses, if the columns
that a conflict keeps are those of the new outcome. -/
theorem mem_upsertOutcome {new o : RoutingOutcome}
    (hsame : ∀ o ∈ t.outcomes, o.responseId = new.responseId → o.replaced new = new) :
    o ∈ (t.upsertOutcome new).outcomes
      ↔ o = new ∨ (o ∈ t.outcomes ∧ o.responseId ≠ new.responseId) := by
  simp only [upsertOutcome]
  split
  · rename_i hany
    obtain ⟨old, hold, heq⟩ := List.any_eq_true.mp hany
    have hid := of_decide_eq_true heq
    constructor
    · intro ho
      obtain ⟨o', ho', rfl⟩ := List.mem_map.mp ho
      by_cases hid : o'.responseId = new.responseId
      · rw [if_pos hid]
        exact .inl (hsame o' ho' hid)
      · rw [if_neg hid]
        exact .inr ⟨ho', hid⟩
    · rintro (rfl | ⟨ho, hne⟩)
      · exact List.mem_map.mpr ⟨old, hold, by rw [if_pos hid, hsame old hold hid]⟩
      · exact List.mem_map.mpr ⟨o, ho, if_neg hne⟩
  · rename_i hnew
    rw [List.mem_append, List.mem_singleton, or_comm]
    refine or_congr_right (iff_self_and.mpr ?_)
    intro ho hid
    exact hnew (List.any_eq_true.mpr ⟨o, ho, decide_eq_true hid⟩)

end Tables

/-! ## What a run makes of its tables -/

section Progress

variable {env : ScoreEnv} {run : RollupRun} {t₀ t : Tables}

/-- A decision that a run may score: due at one of its reads, and without an outcome. -/
def Open (run : RollupRun) (t : Tables) (d : RoutingDecision) : Prop :=
  d ∈ t.decisions ∧ t.outcomesOf d = []
    ∧ ∃ batch, Due run.graceSecs run.windowDays (run.readClock batch) d

/-- An outcome is that of a row of an open decision. -/
def ScoredBy (env : ScoreEnv) (run : RollupRun) (t : Tables) (o : RoutingOutcome) : Prop :=
  ∃ d, Open run t d ∧ ∃ row ∈ t.rowsOf d, o = outcomeOf env run.tierOf row

/-- `response_id` is unique among decisions. -/
def Tables.DecisionsKeyed (t : Tables) : Prop := (t.decisions.map (·.responseId)).Nodup

/-- The tables of a run: only outcomes are written, those it found are kept, and the others
are scored from what it found. -/
structure Progress (env : ScoreEnv) (run : RollupRun) (t₀ t : Tables) : Prop where
  same : t = { t₀ with outcomes := t.outcomes }
  kept : ∀ o ∈ t₀.outcomes, o ∈ t.outcomes
  scored : ∀ o ∈ t.outcomes, o ∈ t₀.outcomes ∨ ScoredBy env run t₀ o
  keyed : t.OutcomesKeyed

theorem Progress.refl (h : t₀.OutcomesKeyed) : Progress env run t₀ t₀ :=
  ⟨rfl, fun _ ho => ho, fun _ ho => .inl ho, h⟩

theorem Progress.decisions_eq (h : Progress env run t₀ t) : t.decisions = t₀.decisions := by
  rw [h.same]

theorem Progress.rowsOf_eq (h : Progress env run t₀ t) (d : RoutingDecision) :
    t.rowsOf d = t₀.rowsOf d := by
  rw [h.same]
  rfl

theorem responseId_of_mem_rowsOf {d : RoutingDecision} {row : PendingRoutingOutcome}
    (h : row ∈ t.rowsOf d) : row.responseId = d.responseId := by
  obtain ⟨rl, cur, rfl⟩ := Tables.exists_of_mem_rowsOf h
  rfl

/-- The rows of a decision agree on the columns that a conflict keeps. -/
theorem replaced_outcomeOf {d : RoutingDecision} {row row' : PendingRoutingOutcome}
    (h : row ∈ t.rowsOf d) (h' : row' ∈ t.rowsOf d) (tierOf : String → Option Tier) :
    (outcomeOf env tierOf row).replaced (outcomeOf env tierOf row') = outcomeOf env tierOf row' := by
  obtain ⟨rl, cur, rfl⟩ := Tables.exists_of_mem_rowsOf h
  obtain ⟨rl', cur', rfl⟩ := Tables.exists_of_mem_rowsOf h'
  rfl

/-- Writing the outcome of a row of an open decision. -/
theorem Progress.upsert (h : Progress env run t₀ t) (hkeyed : t₀.DecisionsKeyed)
    {d : RoutingDecision} (hopen : Open run t₀ d) {row : PendingRoutingOutcome}
    (hrow : row ∈ t₀.rowsOf d) :
    Progress env run t₀ (t.upsertOutcome (outcomeOf env run.tierOf row)) := by
  have hid : (outcomeOf env run.tierOf row).responseId = d.responseId :=
    responseId_of_mem_rowsOf hrow
  have hother : ∀ o ∈ t₀.outcomes, o.responseId ≠ (outcomeOf env run.tierOf row).responseId := by
    intro o ho heq
    have hmem : o ∈ t₀.outcomesOf d := Tables.mem_outcomesOf.mpr ⟨ho, heq.trans hid⟩
    rw [hopen.2.1] at hmem
    exact absurd hmem List.not_mem_nil
  -- an outcome in the way is one that this run wrote, of the same decision
  have hsame : ∀ o ∈ t.outcomes, o.responseId = (outcomeOf env run.tierOf row).responseId →
      o.replaced (outcomeOf env run.tierOf row) = outcomeOf env run.tierOf row := by
    intro o ho heq
    rcases h.scored o ho with hfound | ⟨d', hopen', row', hrow', rfl⟩
    · exact absurd heq (hother o hfound)
    · have hids : d'.responseId = d.responseId := by
        rw [← responseId_of_mem_rowsOf hrow', ← hid]
        exact heq
      obtain rfl := List.inj_on_of_nodup_map hkeyed hopen'.1 hopen.1 hids
      exact replaced_outcomeOf hrow' hrow run.tierOf
  refine ⟨?_, ?_, ?_, h.keyed.upsertOutcome _⟩
  · rw [h.same]
    rfl
  · intro o ho
    exact (Tables.mem_upsertOutcome hsame).mpr (.inr ⟨h.kept o ho, hother o ho⟩)
  · intro o ho
    rcases (Tables.mem_upsertOutcome hsame).mp ho with rfl | ⟨ho, -⟩
    · exact .inr ⟨d, hopen, row, hrow, rfl⟩
    · exact h.scored o ho

/-- The rows of a batch are written one after another. -/
theorem Progress.scoreRows (hkeyed : t₀.DecisionsKeyed) (batch : Nat)
    {rows : List PendingRoutingOutcome}
    (hrows : ∀ row ∈ rows, ∃ d, Open run t₀ d ∧ row ∈ t₀.rowsOf d) (i : Nat)
    (h : Progress env run t₀ t) :
    Progress env run t₀ (Decisions.scoreRows env run batch i rows t) := by
  induction rows generalizing i t with
  | nil => exact h
  | cons row rows ih =>
      rw [Decisions.scoreRows]
      refine ih (fun row' hrow' => hrows row' (List.mem_cons_of_mem row hrow')) (i + 1) ?_
      obtain ⟨d, hopen, hrow⟩ := hrows row (List.mem_cons_self ..)
      split
      · exact h
      · exact h.upsert hkeyed hopen hrow

theorem Progress.outcomesOf_eq_nil (h : Progress env run t₀ t) {d : RoutingDecision}
    (hnone : t.outcomesOf d = []) : t₀.outcomesOf d = [] := by
  rw [List.eq_nil_iff_forall_not_mem] at hnone ⊢
  intro o ho
  obtain ⟨hmem, hid⟩ := Tables.mem_outcomesOf.mp ho
  exact hnone o (Tables.mem_outcomesOf.mpr ⟨h.kept o hmem, hid⟩)

/-- Batches are scored one after another. -/
theorem Progress.scoreBatches (hkeyed : t₀.DecisionsKeyed) (left batch : Nat)
    (h : Progress env run t₀ t) :
    Progress env run t₀ (Decisions.scoreBatches env run left batch t).1 := by
  induction left generalizing batch t with
  | zero => exact h
  | succ left ih =>
      rw [Decisions.scoreBatches]
      split
      · exact h
      · have hnext : Progress env run t₀ (Decisions.scoreRows env run batch 0
            (t.pending run.graceSecs run.windowDays batchSize (run.readClock batch)) t) := by
          refine Progress.scoreRows hkeyed batch ?_ 0 h
          intro row hrow
          obtain ⟨d, hd, hnone, hdue, hrow⟩ := Tables.exists_of_mem_pending hrow
          rw [h.decisions_eq] at hd
          rw [h.rowsOf_eq] at hrow
          exact ⟨d, ⟨hd, h.outcomesOf_eq_nil hnone, batch, hdue⟩, hrow⟩
        dsimp only
        split
        · exact hnext
        · exact ih (batch + 1) hnext

theorem scoreBatches_progress (hkeyed : t₀.DecisionsKeyed) (houtcomes : t₀.OutcomesKeyed) :
    Progress env run t₀ (scoreBatches env run maxBatches 0 t₀).1 :=
  Progress.scoreBatches hkeyed maxBatches 0 (.refl houtcomes)

/-- Rows that are written have an outcome. -/
theorem mem_scoredIds_scoreRows (hclean : run.Clean) (batch : Nat)
    (rows : List PendingRoutingOutcome) (i : Nat) (t : Tables) (id : String) :
    id ∈ (scoreRows env run batch i rows t).scoredIds
      ↔ id ∈ t.scoredIds ∨ id ∈ rows.map (·.responseId) := by
  induction rows generalizing i t with
  | nil => simp [scoreRows]
  | cons row rows ih =>
      rw [scoreRows, hclean.upsert, if_neg Bool.false_ne_true, ih,
        Tables.mem_scoredIds_upsertOutcome, List.map_cons, List.mem_cons, or_assoc]
      rfl

theorem scoreRows_decisions (batch i : Nat) (rows : List PendingRoutingOutcome) (t : Tables) :
    (scoreRows env run batch i rows t).decisions = t.decisions := by
  induction rows generalizing i t with
  | nil => rfl
  | cons row rows ih =>
      rw [scoreRows, ih]
      split <;> rfl

/-- A run without errors whose first read is not full leaves nothing pending behind. -/
theorem pending_scoreBatches (hclean : run.Clean) (t : Tables) (left batch : Nat)
    (hlt : (t.pending run.graceSecs run.windowDays batchSize (run.readClock batch)).length
      < batchSize) :
    (scoreBatches env run (left + 1) batch t).1.pending run.graceSecs run.windowDays batchSize
      (run.readClock batch) = [] := by
  rw [scoreBatches, hclean.read, if_neg Bool.false_ne_true, if_pos hlt,
    Tables.pending_eq_nil_iff (by decide)]
  intro d hd hdue
  rw [scoreRows_decisions] at hd
  rw [Tables.outcomesOf_ne_nil_iff, mem_scoredIds_scoreRows hclean]
  by_cases hnone : t.outcomesOf d = []
  · obtain ⟨row, hrow⟩ := List.exists_mem_of_ne_nil _ (Tables.rowsOf_ne_nil (t := t) d)
    have hmem := Tables.mem_pending hlt (Tables.mem_dueRows.mpr ⟨d, hd, hnone, hdue, hrow⟩)
    exact .inr (List.mem_map.mpr ⟨row, hmem, responseId_of_mem_rowsOf hrow⟩)
  · exact .inl (Tables.outcomesOf_ne_nil_iff.mp hnone)

/-- A run without errors reads every batch. -/
theorem RollupRun.Clean.scoreBatches_ok (hclean : run.Clean) (left batch : Nat) (t : Tables) :
    (scoreBatches env run left batch t).2 = true := by
  induction left generalizing batch t with
  | zero => rfl
  | succ left ih =>
      rw [scoreBatches, hclean.read batch, if_neg Bool.false_ne_true]
      dsimp only
      split
      · rfl
      · exact ih (batch + 1) _

end Progress

/-! ## What a run makes of the arms -/

theorem applied_subset {windowDays : Int} {now later : DateTime} (h : now.val ≤ later.val)
    (outcomes : List RoutingOutcome) :
    applied windowDays later outcomes ⊆ applied windowDays now outcomes := by
  intro o ho
  obtain ⟨hmem, ho⟩ := List.mem_filter.mp ho
  simp only [Bool.and_eq_true, decide_eq_true_eq] at ho
  refine List.mem_filter.mpr ⟨hmem, ?_⟩
  simp only [Bool.and_eq_true, decide_eq_true_eq]
  exact ⟨ho.1, by omega⟩

/-- Recomputed statistics are those of the outcomes, whatever they were before. -/
theorem lookup_pruneArmStats {windowDays : Int} {now later : DateTime} (h : now.val ≤ later.val)
    (outcomes : List RoutingOutcome) (stats : List (Arm × RoutingArmStat))
    (arm : Arm) :
    (pruneArmStats windowDays later outcomes
        (upsertArmStats windowDays now outcomes stats)).lookup arm
      = if arm ∈ (applied windowDays later outcomes).map (·.arm)
        then some (armStat (applied windowDays now outcomes) arm) else none := by
  have hfilter := lookup_filter_key
    (fun arm => decide (arm ∈ (applied windowDays later outcomes).map (·.arm)))
    (upsertArmStats windowDays now outcomes stats) arm
  rw [pruneArmStats, hfilter]
  simp only [decide_eq_true_eq]
  split
  · rename_i hmem
    rw [upsertArmStats, lookup_amendAll_const, if_pos]
    rw [List.mem_dedup]
    exact List.map_subset _ (applied_subset h outcomes) hmem
  · rfl

end AuraGateway.Decisions
