import AuraGateway.Foundations.EventLog
import AuraGateway.Proxy.State

/-!
# The circuit breaker as a function of the event log

The gateway keeps two things per model: the instants of recent failures, pruned at every
failure and cleared when the breaker opens, and the instant until which the breaker is
open. `breaker_open_iff` says that this summary gives the answer that the whole log of
failures and successes gives.

A failure opens the breaker when it is at least the threshold-th one counted since the
last success or opening and inside the window (`Opening`); the opening stands until a
success of the model. The stored list stays below the threshold, so its length fits the
32-bit counter that the source compares.
-/

set_option autoImplicit false

namespace AuraGateway.Proxy

open AuraGateway.Router AuraGateway.Foundations.EventLog

/-! ## Events -/

/-- How a provider call for a model ended. -/
inductive CallOutcome where
  | failed
  | succeeded
  deriving DecidableEq, Repr

/-- A call recorded by the breaker. -/
structure BreakerEvent where
  time : Instant
  model : String
  outcome : CallOutcome
  deriving DecidableEq, Repr

/-- Record one call. -/
def AppState.record (state : AppState) (e : BreakerEvent) : AppState :=
  match e.outcome with
  | .failed => state.recordModelFailure e.time e.model
  | .succeeded => state.recordModelSuccess e.model

/-- Record the calls of a log, starting from an empty breaker map. -/
def AppState.recordAll (state : AppState) (log : List BreakerEvent) : AppState :=
  log.foldl AppState.record { state with modelBreaker := [] }

/-! ## What the log says -/

/-- Threshold, window and cooldown of a breaker. -/
structure BreakerRule where
  threshold : Nat
  window : Nat
  cooldown : Nat
  deriving DecidableEq, Repr

/-- The rule of a configuration; every number is at least one. -/
def ruleOf (cfg : EscalationConfig) : BreakerRule :=
  { threshold := max cfg.breakerFailures 1
    window := fromSecs (max cfg.breakerWindowSecs 1)
    cooldown := fromSecs (max cfg.breakerCooldownSecs 1) }

section Log

variable (rule : BreakerRule) (m : String)

/-- A failure at `now`, after the failures `ts`, is at least the threshold-th one in the
window. -/
def Opens (ts : List Instant) (now : Instant) : Prop :=
  rule.threshold ≤ (within rule.window now ts).length + 1

instance (ts : List Instant) (now : Instant) : Decidable (Opens rule ts now) :=
  inferInstanceAs (Decidable (_ ≤ _))

/-- Count one event: a success and an opening start the count anew. -/
def count (ts : List Instant) (e : BreakerEvent) : List Instant :=
  if e.model = m then
    match e.outcome with
    | .succeeded => []
    | .failed => if Opens rule ts e.time then [] else ts ++ [e.time]
  else ts

/-- The failures of `m` since the later of its last success and its last opening. -/
def counted (log : List BreakerEvent) : List Instant := log.foldl (count rule m) []

/-- After `older`, the event is a failure of `m` that opens its breaker. -/
def Opening (older : List BreakerEvent) (e : BreakerEvent) : Prop :=
  e.model = m ∧ e.outcome = .failed ∧ Opens rule (counted rule m older) e.time

/-- The event is a success of `m`. -/
def Closes (e : BreakerEvent) : Prop := e.model = m ∧ e.outcome = .succeeded

/-- At `t` some opening of the breaker of `m` has not run out and no success followed. -/
def OpenAt (log : List BreakerEvent) (t : Instant) : Prop :=
  ∃ e, Standing (Opening rule m) (Closes m) log e ∧ t < e.time + rule.cooldown

variable {rule m}

theorem counted_snoc (log : List BreakerEvent) (e : BreakerEvent) :
    counted rule m (log ++ [e]) = count rule m (counted rule m log) e := by
  simp only [counted]
  rw [List.foldl_append]
  rfl

/-- The counted failures are those of `m` after the last event that reset the count:
a success of `m` or an opening of its breaker. -/
theorem counted_eq_since_reset (log : List BreakerEvent) :
    ∃ older newer, log = older ++ newer ∧
      counted rule m log
        = (newer.filter fun e => e.model = m ∧ e.outcome = .failed).map BreakerEvent.time ∧
      (∀ pre e post, newer = pre ++ e :: post →
        ¬ Closes m e ∧ ¬ Opening rule m (older ++ pre) e) ∧
      (older = [] ∨ ∃ pre e, older = pre ++ [e] ∧ (Closes m e ∨ Opening rule m pre e)) := by
  induction log using List.reverseRecOn with
  | nil => exact ⟨[], [], rfl, rfl, by simp, Or.inl rfl⟩
  | append_singleton log e ih =>
      obtain ⟨older, newer, rfl, hcount, hquiet, hreset⟩ := ih
      by_cases hr : Closes m e ∨ Opening rule m (older ++ newer) e
      · -- the count starts anew after `e`
        refine ⟨older ++ newer ++ [e], [], by simp, ?_, by simp, Or.inr ⟨_, e, rfl, hr⟩⟩
        rw [counted_snoc]
        rcases hr with ⟨hm, ho⟩ | ⟨hm, ho, hopen⟩
        · simp [count, hm, ho]
        · simp [count, hm, ho, hopen]
      · refine ⟨older, newer ++ [e], by simp, ?_, ?_, hreset⟩
        · rw [counted_snoc, List.filter_append, List.map_append, ← hcount]
          by_cases hm : e.model = m
          · cases ho : e.outcome with
            | succeeded => exact absurd (Or.inl ⟨hm, ho⟩) hr
            | failed =>
                have hno : ¬ Opens rule (counted rule m (older ++ newer)) e.time :=
                  fun h => hr (Or.inr ⟨hm, ho, h⟩)
                simp [count, hm, ho, hno]
          · simp [count, hm]
        · intro pre x post hx
          rcases snoc_eq_append_cons hx with ⟨rfl, rfl, rfl⟩ | ⟨post', rfl, rfl⟩
          · exact not_or.mp hr
          · exact hquiet pre x post' rfl

end Log

/-! ## What the gateway stores -/

/-- The breaker state of a model; absent entries are closed. -/
def AppState.breakerOf (state : AppState) (m : String) : BreakerState :=
  (state.modelBreaker.lookup m).getD {}

/-- A failure at `now` in the breaker state of its model. -/
def BreakerState.fail (rule : BreakerRule) (now : Instant) (b : BreakerState) : BreakerState :=
  let failures := within rule.window now b.failures ++ [now]
  if rule.threshold ≤ failures.length then
    { failures := [], openUntil := some (now + rule.cooldown) }
  else { b with failures }

section Stored

variable (state : AppState)

theorem breakerOf_recordModelFailure (now : Instant) (model m : String) :
    (state.recordModelFailure now model).breakerOf m
      = if m = model then (state.breakerOf model).fail (ruleOf state.escalation) now
        else state.breakerOf m := by
  simp only [AppState.recordModelFailure, AppState.breakerOf, lookup_assocInsert]
  by_cases h : m = model
  · rw [if_pos h, if_pos h]
    rfl
  · rw [if_neg h, if_neg h]

theorem breakerOf_recordModelSuccess (model m : String) :
    (state.recordModelSuccess model).breakerOf m
      = if m = model then {} else state.breakerOf m := by
  simp only [AppState.recordModelSuccess, AppState.breakerOf, lookup_filter_ne]
  by_cases h : m = model <;> simp [h]

theorem isModelBreakerOpen_iff (now : Instant) (m : String) :
    state.isModelBreakerOpen now m = true ↔ ∃ u ∈ (state.breakerOf m).openUntil, now < u := by
  simp only [AppState.isModelBreakerOpen, AppState.breakerOf]
  cases hb : state.modelBreaker.lookup m with
  | none => simp
  | some b => cases hu : b.openUntil <;> simp [hu]

/-- Recording a call does not change the configuration. -/
theorem record_escalation (e : BreakerEvent) : (state.record e).escalation = state.escalation := by
  cases ho : e.outcome <;> simp [AppState.record, ho, AppState.recordModelFailure,
    AppState.recordModelSuccess]

theorem recordAll_snoc (log : List BreakerEvent) (e : BreakerEvent) :
    state.recordAll (log ++ [e]) = (state.recordAll log).record e := by
  simp only [AppState.recordAll]
  rw [List.foldl_append]
  rfl

theorem recordAll_escalation (log : List BreakerEvent) :
    (state.recordAll log).escalation = state.escalation := by
  -- over the log, from its start
  induction log using List.reverseRecOn with
  | nil => rfl
  | append_singleton log e ih => rw [recordAll_snoc, record_escalation, ih]

end Stored

/-! ## The summary determines the answer -/

/-- The stored state of a model, judged by the log: the list is short, it holds what the
count needs from now on, and `openUntil` is the end of the last opening that stands. -/
structure Summarizes (rule : BreakerRule) (m : String) (log : List BreakerEvent)
    (b : BreakerState) : Prop where
  short : b.failures.length < rule.threshold
  agrees : ∀ now, (∀ e ∈ log, e.time ≤ now) →
    within rule.window now b.failures = within rule.window now (counted rule m log)
  opened : ∀ u ∈ b.openUntil, ∃ e, Standing (Opening rule m) (Closes m) log e ∧
    u = e.time + rule.cooldown
  lasting : ∀ e, Standing (Opening rule m) (Closes m) log e →
    ∃ u ∈ b.openUntil, e.time + rule.cooldown ≤ u

section Summary

variable {rule : BreakerRule} {m : String} {log : List BreakerEvent} {b : BreakerState}
  {e : BreakerEvent}

theorem Summarizes.start (h : 0 < rule.threshold) : Summarizes rule m [] {} where
  short := h
  agrees := fun _ _ => rfl
  opened := by simp
  lasting := fun _ he => absurd he not_standing_nil

/-- After an event that neither opens nor closes the breaker, only the list of failures
needs a look. -/
theorem Summarizes.neutral {b' : BreakerState} (h : Summarizes rule m log b)
    (hkeep : ¬ Closes m e) (hopen : ¬ Opening rule m log e) (hu : b'.openUntil = b.openUntil)
    (hshort : b'.failures.length < rule.threshold)
    (hagrees : ∀ now, (∀ x ∈ log ++ [e], x.time ≤ now) →
      within rule.window now b'.failures = within rule.window now (counted rule m (log ++ [e]))) :
    Summarizes rule m (log ++ [e]) b' where
  short := hshort
  agrees := hagrees
  opened := by
    intro u hmem
    rw [hu] at hmem
    obtain ⟨x, hx, rfl⟩ := h.opened u hmem
    exact ⟨x, (standing_snoc_of_neutral hkeep hopen).mpr hx, rfl⟩
  lasting := by
    intro x hx
    rw [hu]
    exact h.lasting x ((standing_snoc_of_neutral hkeep hopen).mp hx)

/-- An event of another model changes nothing. -/
theorem Summarizes.other (h : Summarizes rule m log b) (hm : e.model ≠ m) :
    Summarizes rule m (log ++ [e]) b := by
  refine h.neutral (fun hc => hm hc.1) (fun ho => hm ho.1) rfl h.short ?_
  intro now hnow
  rw [counted_snoc, count, if_neg hm]
  exact h.agrees now fun x hx => hnow x (List.mem_append_left _ hx)

/-- A success starts afresh. -/
theorem Summarizes.success (h : Summarizes rule m log b) (he : Closes m e) :
    Summarizes rule m (log ++ [e]) {} where
  short := (Nat.zero_le _).trans_lt h.short
  agrees := by
    intro now _
    rw [counted_snoc, count, if_pos he.1, he.2]
  opened := by simp
  lasting := by
    intro x hx
    rcases standing_snoc.mp hx with ⟨-, hn⟩ | ⟨rfl, ho⟩
    · exact absurd he hn
    · obtain ⟨-, hf, -⟩ := ho
      rw [he.2] at hf
      cases hf

/-- A failure opens the breaker in the stored state exactly when it does in the log. -/
theorem Summarizes.opens_iff (h : Summarizes rule m log b) (hlate : ∀ x ∈ log, x.time ≤ e.time) :
    rule.threshold ≤ (within rule.window e.time b.failures ++ [e.time]).length ↔
      Opens rule (counted rule m log) e.time := by
  rw [List.length_append, List.length_singleton, h.agrees e.time hlate]
  exact Iff.rfl

/-- A failure that opens the breaker clears the list, and its opening ends last. -/
theorem Summarizes.opens (h : Summarizes rule m log b) (hm : e.model = m)
    (ho : e.outcome = .failed) (hlate : ∀ x ∈ log, x.time ≤ e.time)
    (hopen : Opens rule (counted rule m log) e.time) :
    Summarizes rule m (log ++ [e])
      { failures := [], openUntil := some (e.time + rule.cooldown) } where
  short := (Nat.zero_le _).trans_lt h.short
  agrees := by
    intro now _
    rw [counted_snoc, count, if_pos hm, ho]
    simp only [if_pos hopen]
  opened := by
    intro u hu
    obtain rfl : e.time + rule.cooldown = u := by simpa using hu
    exact ⟨e, standing_snoc.mpr (Or.inr ⟨rfl, hm, ho, hopen⟩), rfl⟩
  lasting := by
    intro x hx
    refine ⟨_, rfl, Nat.add_le_add_right ?_ _⟩
    rcases standing_snoc.mp hx with ⟨hx, -⟩ | ⟨rfl, -⟩
    · exact hlate x hx.mem
    · exact le_rfl

/-- A failure that does not open the breaker is added to the pruned list. -/
theorem Summarizes.counts (h : Summarizes rule m log b) (hm : e.model = m)
    (ho : e.outcome = .failed) (hlate : ∀ x ∈ log, x.time ≤ e.time)
    (hopen : ¬ Opens rule (counted rule m log) e.time) :
    Summarizes rule m (log ++ [e])
      { b with failures := within rule.window e.time b.failures ++ [e.time] } := by
  have hkeep : ¬ Closes m e := by
    rintro ⟨-, hc⟩
    rw [ho] at hc
    cases hc
  refine h.neutral hkeep (fun hx => hopen hx.2.2) rfl ?_ ?_
  · exact not_le.mp (mt (h.opens_iff hlate).mp hopen)
  · intro now hnow
    -- what was pruned at the failure would be pruned now as well
    have hlater : e.time ≤ now := hnow e (by simp)
    have hcount : counted rule m (log ++ [e]) = counted rule m log ++ [e.time] := by
      rw [counted_snoc, count, if_pos hm, ho]
      exact if_neg hopen
    rw [hcount, within_append, within_append, within_within hlater,
      h.agrees now fun x hx => hnow x (List.mem_append_left _ hx)]

theorem Summarizes.failure (h : Summarizes rule m log b) (hm : e.model = m)
    (ho : e.outcome = .failed) (hlate : ∀ x ∈ log, x.time ≤ e.time) :
    Summarizes rule m (log ++ [e]) (b.fail rule e.time) := by
  by_cases hopen : Opens rule (counted rule m log) e.time
  · rw [show b.fail rule e.time
      = { failures := [], openUntil := some (e.time + rule.cooldown) } from
        if_pos ((h.opens_iff hlate).mpr hopen)]
    exact h.opens hm ho hlate hopen
  · rw [show b.fail rule e.time
      = { b with failures := within rule.window e.time b.failures ++ [e.time] } from
        if_neg (mt (h.opens_iff hlate).mp hopen)]
    exact h.counts hm ho hlate hopen

end Summary

theorem breakerOf_record (state : AppState) (e : BreakerEvent) (m : String) :
    (state.record e).breakerOf m
      = if e.model = m then
          match e.outcome with
          | .failed => (state.breakerOf m).fail (ruleOf state.escalation) e.time
          | .succeeded => {}
        else state.breakerOf m := by
  by_cases h : e.model = m
  · subst h
    cases ho : e.outcome with
    | failed => simp [AppState.record, ho, breakerOf_recordModelFailure]
    | succeeded => simp [AppState.record, ho, breakerOf_recordModelSuccess]
  · have h' : ¬ m = e.model := Ne.symm h
    cases ho : e.outcome with
    | failed => simp [AppState.record, ho, breakerOf_recordModelFailure, h, h']
    | succeeded => simp [AppState.record, ho, breakerOf_recordModelSuccess, h, h']

/-- One recorded call keeps the summary. -/
theorem Summarizes.record {state : AppState} {m : String} {log : List BreakerEvent}
    {e : BreakerEvent} (h : Summarizes (ruleOf state.escalation) m log (state.breakerOf m))
    (hlate : ∀ x ∈ log, x.time ≤ e.time) :
    Summarizes (ruleOf state.escalation) m (log ++ [e]) ((state.record e).breakerOf m) := by
  rw [breakerOf_record]
  by_cases hm : e.model = m
  · rw [if_pos hm]
    cases ho : e.outcome with
    | failed => exact h.failure hm ho hlate
    | succeeded => exact h.success ⟨hm, ho⟩
  · rw [if_neg hm]
    exact h.other hm

theorem recordAll_summarizes (state : AppState) (m : String) {log : List BreakerEvent}
    (hmono : log.Pairwise fun a b => a.time ≤ b.time) :
    Summarizes (ruleOf state.escalation) m log ((state.recordAll log).breakerOf m) := by
  induction log using List.reverseRecOn with
  | nil => exact Summarizes.start (Nat.lt_of_lt_of_le Nat.zero_lt_one (le_max_right _ _))
  | append_singleton log e ih =>
      obtain ⟨hlog, -, hlate⟩ := List.pairwise_append.mp hmono
      have hsum := ih hlog
      rw [← recordAll_escalation state log] at hsum ⊢
      rw [recordAll_snoc]
      exact hsum.record fun x hx => hlate x hx e (by simp)

/-- For every log with non-decreasing instants the breaker of `m` is open at `t` exactly
when some opening in the log has not run out and no success of `m` followed it; and the
stored list is shorter than the threshold. -/
theorem breaker_open_iff (state : AppState) (log : List BreakerEvent)
    (hmono : log.Pairwise fun a b => a.time ≤ b.time) (m : String) (t : Instant) :
    ((state.recordAll log).isModelBreakerOpen t m = true ↔
        OpenAt (ruleOf state.escalation) m log t) ∧
      ((state.recordAll log).breakerOf m).failures.length
        < max state.escalation.breakerFailures 1 := by
  have h := recordAll_summarizes state m hmono
  refine ⟨?_, h.short⟩
  rw [isModelBreakerOpen_iff]
  constructor
  · rintro ⟨u, hu, hlt⟩
    obtain ⟨e, he, rfl⟩ := h.opened u hu
    exact ⟨e, he, hlt⟩
  · rintro ⟨e, he, hlt⟩
    obtain ⟨u, hu, hle⟩ := h.lasting e he
    exact ⟨u, hu, hlt.trans_le hle⟩

namespace BreakerSample

def failedAt (time : Instant) : BreakerEvent := ⟨time, "llama3.2", .failed⟩

/-- A gateway without providers. -/
def state (escalation : EscalationConfig) : AppState :=
  { registry := .empty, escalation }

end BreakerSample

/-- With the default configuration the third failure opens the breaker. -/
theorem breaker_open_sample :
    OpenAt (ruleOf {}) "llama3.2"
        [BreakerSample.failedAt 0, BreakerSample.failedAt 1, BreakerSample.failedAt 2] 3 ∧
      (((BreakerSample.state {}).recordAll [BreakerSample.failedAt 0, BreakerSample.failedAt 1,
        BreakerSample.failedAt 2]).breakerOf "llama3.2").failures.length < max 3 1 := by
  obtain ⟨hiff, hshort⟩ := breaker_open_iff (BreakerSample.state {})
    [BreakerSample.failedAt 0, BreakerSample.failedAt 1, BreakerSample.failedAt 2] (by decide)
    "llama3.2" 3
  exact ⟨hiff.mp (by decide), hshort⟩

/-- A window of zero seconds counts as one second: two failures a nanosecond apart open the
breaker, although no failure lies strictly within zero seconds before the second. -/
theorem breaker_zero_window :
    ((BreakerSample.state { breakerFailures := 2, breakerWindowSecs := 0 }).recordAll
        [BreakerSample.failedAt 0, BreakerSample.failedAt 1]).isModelBreakerOpen 2 "llama3.2"
      = true ∧
    ¬ OpenAt { threshold := max 2 1, window := fromSecs 0, cooldown := fromSecs (max 30 1) }
      "llama3.2" [BreakerSample.failedAt 0, BreakerSample.failedAt 1] 2 := by
  refine ⟨by decide, ?_⟩
  rintro ⟨e, he, -⟩
  have hlog : Standing _ _ (([] ++ [BreakerSample.failedAt 0]) ++ [BreakerSample.failedAt 1]) e := he
  rcases standing_snoc.mp hlog with ⟨hfirst, -⟩ | ⟨rfl, -, -, hopen⟩
  · rcases standing_snoc.mp hfirst with ⟨hnil, -⟩ | ⟨rfl, -, -, hopen⟩
    · exact not_standing_nil hnil
    · exact absurd hopen (by decide)
  · exact absurd hopen (by decide)

end AuraGateway.Proxy
