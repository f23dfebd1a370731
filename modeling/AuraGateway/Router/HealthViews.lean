import AuraGateway.Router.HealthTracker

/-!
# Two views of an endpoint's health

The router asks whether an endpoint is healthy; an operator, and the strategy that looks at success
rates, read the status that the tracker reports. The first view lets an endpoint be tried again once
its recovery timeout is over, as a half-open circuit would. The second repeats the stored state, and
no operation stores the half-open one.

A circuit has an instant at which it was opened exactly while its endpoint is unhealthy
(`opened_iff_unhealthy`). So the views agree exactly as long as no circuit of the endpoint has been
open for the recovery timeout (`views_agree_iff`).
-/

set_option autoImplicit false

namespace AuraGateway.Router

open AuraGateway.Proxy

/-! ## The status that is reported -/

/-- Health statistics for an endpoint; the instants are milliseconds of the Unix epoch. -/
structure EndpointHealth where
  state : HealthState
  successCount : Nat
  failureCount : Nat
  consecutiveFailures : Nat
  lastFailureMs : Option Nat
  lastSuccessMs : Option Nat
  lastError : Option String
  circuitOpenedMs : Option Nat
  deriving DecidableEq, Repr

/-- Check if endpoint is available for requests. -/
def EndpointHealth.isAvailable (health : EndpointHealth) : Bool :=
  match health.state with
  | .healthy | .halfOpen => true
  | .unhealthy => false

/-- An instant in milliseconds, by the time that has elapsed since then. -/
def unixMs (now : Instant) (nowMs : Nat) (i : Instant) : Nat :=
  nowMs - (now - i) / 1000000 % 2 ^ 64

/-- Get health status for an endpoint, at an instant of both clocks. -/
def getHealth (entries : HealthEntries) (endpointId : String) (now : Instant) (nowMs : Nat) :
    Option EndpointHealth :=
  (entries endpointId).map fun entry =>
    { state := entry.state
      successCount := entry.successCount
      failureCount := entry.failureCount
      consecutiveFailures := entry.consecutiveFailures % 2 ^ 32
      lastFailureMs := entry.lastFailure.map (unixMs now nowMs)
      lastSuccessMs := entry.lastSuccess.map (unixMs now nowMs)
      lastError := entry.lastError
      circuitOpenedMs := entry.circuitOpened.map (unixMs now nowMs) }

/-- An endpoint is healthy exactly when the status that is reported for it is available; an endpoint
without a status is assumed to be. -/
def HealthConfig.ViewsAgree (config : HealthConfig) (entries : HealthEntries) (endpointId : String)
    (now : Instant) (nowMs : Nat) : Prop :=
  config.isHealthy entries endpointId now = true ↔
    ∀ health ∈ getHealth entries endpointId now nowMs, health.isAvailable = true

/-! ## Circuits and states -/

section Circuit

variable {config : HealthConfig}

/-- The instant of the circuit is there exactly while the endpoint is unhealthy. -/
def HealthEntry.CircuitKept (entry : HealthEntry) : Prop :=
  entry.circuitOpened.isSome = true ↔ entry.state = .unhealthy

theorem circuitKept_of_closed {entry : HealthEntry} (hopened : entry.circuitOpened = none)
    (hstate : entry.state ≠ .unhealthy) : entry.CircuitKept := by
  rw [HealthEntry.CircuitKept, hopened]
  exact iff_of_false Bool.false_ne_true hstate

theorem circuitKept_of_opened {entry : HealthEntry} {now : Instant}
    (hopened : entry.circuitOpened = some now) (hstate : entry.state = .unhealthy) :
    entry.CircuitKept := by
  rw [HealthEntry.CircuitKept, hopened]
  exact iff_of_true rfl hstate

theorem circuitKept_kept : Kept config HealthEntry.CircuitKept where
  default := circuitKept_of_closed rfl (fun h => by cases h)
  recordSuccess now entry hentry := by
    simp only [HealthEntry.recordSuccess]
    cases hstate : entry.state with
    | halfOpen => exact circuitKept_of_closed rfl (fun h => by cases h)
    | unhealthy => exact circuitKept_of_closed rfl (fun h => by cases h)
    | healthy =>
        -- a success of a healthy endpoint leaves its circuit alone
        rw [HealthEntry.CircuitKept, hstate] at hentry
        exact hentry
  recordFailure now text entry hentry := by
    simp only [HealthEntry.recordFailure]
    cases hstate : entry.state with
    | halfOpen => exact circuitKept_of_opened rfl rfl
    | unhealthy => exact circuitKept_of_opened rfl rfl
    | healthy =>
        by_cases hopens : config.failureThreshold ≤ fetchAdd entry.consecutiveFailures
        · rw [if_pos hopens]
          exact circuitKept_of_opened rfl rfl
        · rw [if_neg hopens]
          rw [HealthEntry.CircuitKept, hstate] at hentry
          exact hentry
  markHealthy entry _ := circuitKept_of_closed rfl (fun h => by cases h)
  markUnhealthy now entry _ := circuitKept_of_opened rfl rfl

/-- After every run, a circuit is open exactly while its endpoint is unhealthy. -/
theorem opened_iff_unhealthy (config : HealthConfig) (events : List HealthEvent) :
    Every HealthEntry.CircuitKept (config.run events) :=
  every_run circuitKept_kept events

/-- One view of a record with an open circuit: the timeout is over. -/
theorem isHealthy_of_opened {entries : HealthEntries} {id : String} {entry : HealthEntry}
    {opened : Instant} (hentry : entries id = some entry) (hstate : entry.state = .unhealthy)
    (hopened : entry.circuitOpened = some opened) (now : Instant) :
    config.isHealthy entries id now = true ↔ config.recoveryTimeout ≤ now - opened := by
  simp only [HealthConfig.isHealthy, hentry, hstate, hopened, decide_eq_true_eq]

/-- The other view of a record: the stored state is not the unhealthy one. -/
theorem available_iff {entries : HealthEntries} {id : String} {entry : HealthEntry}
    (hentry : entries id = some entry) (now : Instant) (nowMs : Nat) :
    (∀ health ∈ getHealth entries id now nowMs, health.isAvailable = true) ↔
      entry.state ≠ .unhealthy := by
  simp only [getHealth, hentry, Option.map_some, Option.mem_some_iff, forall_eq',
    EndpointHealth.isAvailable]
  cases entry.state with
  | healthy => exact iff_of_true rfl nofun
  | halfOpen => exact iff_of_true rfl nofun
  | unhealthy => exact iff_of_false Bool.false_ne_true (fun h => h rfl)

end Circuit

/-- After every run and at every instant, the two views of an endpoint agree exactly when no circuit
of the endpoint has been open for the recovery timeout. -/
theorem views_agree_iff (config : HealthConfig) (events : List HealthEvent) (id : String)
    (now : Instant) (nowMs : Nat) :
    config.ViewsAgree (config.run events) id now nowMs ↔
      ∀ entry opened, config.run events id = some entry → entry.circuitOpened = some opened →
        now - opened < config.recoveryTimeout := by
  rw [HealthConfig.ViewsAgree]
  cases hentry : config.run events id with
  | none =>
      have hhealthy : config.isHealthy (config.run events) id now = true := by
        simp only [HealthConfig.isHealthy, hentry]
      have hnone : getHealth (config.run events) id now nowMs = none := by
        rw [getHealth, hentry, Option.map_none]
      rw [hnone]
      refine iff_of_true (iff_of_true hhealthy fun health h => ?_) fun entry opened h => ?_
      · cases h
      · cases h
  | some entry =>
      have hcircuit := opened_iff_unhealthy config events id entry hentry
      rw [available_iff hentry]
      cases hopened : entry.circuitOpened with
      | none =>
          -- the circuit is closed, so the endpoint is healthy in both views
          have hstate : entry.state ≠ .unhealthy := by
            rw [HealthEntry.CircuitKept, hopened] at hcircuit
            exact fun h => Bool.false_ne_true (hcircuit.mpr h)
          have hhealthy : config.isHealthy (config.run events) id now = true := by
            simp only [HealthConfig.isHealthy, hentry]
            cases hs : entry.state with
            | healthy => rfl
            | halfOpen => rfl
            | unhealthy => exact absurd hs hstate
          refine iff_of_true (iff_of_true hhealthy hstate) fun entry' opened hentry' h => ?_
          obtain rfl := Option.some.inj hentry'
          rw [hopened] at h
          cases h
      | some opened =>
          have hstate : entry.state = .unhealthy := by
            rw [HealthEntry.CircuitKept, hopened] at hcircuit
            exact hcircuit.mp rfl
          rw [isHealthy_of_opened hentry hstate hopened]
          constructor
          · intro hagree entry' opened' hentry' hopened'
            obtain rfl := Option.some.inj hentry'
            obtain rfl := Option.some.inj (hopened.symm.trans hopened')
            exact Nat.lt_of_not_le fun hover => hagree.mp hover hstate
          · intro hrecent
            have hlt := hrecent entry opened rfl hopened
            exact iff_of_false (Nat.not_le_of_lt hlt) fun h => h hstate

namespace Sample

/-- The recovery timeout of a circuit that was opened at instant 50. -/
def afterTimeout : Instant := 50 + fromSecs 30

end Sample

/-- Thirty seconds after its circuit opened, the endpoint is healthy and reported as unavailable. -/
theorem views_differ_after_timeout :
    Sample.healthConfig.isHealthy (Sample.healthConfig.run Sample.threeFailures) "ep-1"
        Sample.afterTimeout = true
      ∧ (getHealth (Sample.healthConfig.run Sample.threeFailures) "ep-1" Sample.afterTimeout
          1000000).map (fun health => (health.state, health.isAvailable))
        = some (.unhealthy, false)
      ∧ ¬ Sample.healthConfig.ViewsAgree (Sample.healthConfig.run Sample.threeFailures) "ep-1"
          Sample.afterTimeout 1000000 := by
  refine ⟨by decide, by decide, ?_⟩
  rw [HealthConfig.ViewsAgree]
  decide

end AuraGateway.Router
