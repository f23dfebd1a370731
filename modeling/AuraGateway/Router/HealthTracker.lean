import AuraGateway.Proxy.AutoRouting

/-!
# Health of provider endpoints

The tracker keeps one record per endpoint: a state, counters of successes and failures, and
the instant at which the circuit was opened. Enough failures in a row open the circuit of a
healthy endpoint, a success closes it, and an operator may set or reset it by hand.

The four fields that the operations update in different combinations stay in step
(`HealthEntry.Sound`): what every operation on a record keeps holds of every record after
every run (`every_run`), and an operation leaves the other records alone (`apply_other`).
No operation writes the half-open state (`halfOpen_unreached`), so an endpoint is available
exactly when it is unknown, healthy or its recovery timeout is over (`isHealthy_iff`).
-/

set_option autoImplicit false

namespace AuraGateway.Router

open AuraGateway.Proxy

/-- Health state of an endpoint. -/
inductive HealthState where
  | healthy
  | unhealthy
  | halfOpen
  deriving DecidableEq, Repr

/-- The record of an endpoint; the counters are `u64`. -/
structure HealthEntry where
  state : HealthState := .healthy
  successCount : Nat := 0
  failureCount : Nat := 0
  consecutiveFailures : Nat := 0
  lastFailure : Option Instant := none
  lastSuccess : Option Instant := none
  lastError : Option String := none
  circuitOpened : Option Instant := none
  deriving DecidableEq, Repr

/-- Configuration for health tracking. -/
structure HealthConfig where
  failureThreshold : Nat := 5
  recoveryTimeout : Nat := fromSecs 30
  successThreshold : Nat := 2
  rateLimitIsFailure : Bool := false
  deriving DecidableEq, Repr

/-- The records by endpoint. -/
abbrev HealthEntries := String → Option HealthEntry

/-- `fetch_add(1)` on a `u64`. -/
def fetchAdd (n : Nat) : Nat := (n + 1) % 2 ^ 64

namespace HealthEntry

/-- A successful request; a circuit that is not closed is closed. -/
def recordSuccess (now : Instant) (entry : HealthEntry) : HealthEntry :=
  let counted :=
    { entry with
      successCount := fetchAdd entry.successCount
      consecutiveFailures := 0
      lastSuccess := some now }
  match entry.state with
  | .halfOpen | .unhealthy => { counted with state := .healthy, circuitOpened := none }
  | .healthy => counted

/-- A failed request; the circuit opens at the threshold and is reopened by every failure
after that. -/
def recordFailure (config : HealthConfig) (now : Instant) (text : String) (entry : HealthEntry) :
    HealthEntry :=
  let consecutive := fetchAdd entry.consecutiveFailures
  let counted :=
    { entry with
      failureCount := fetchAdd entry.failureCount
      consecutiveFailures := consecutive
      lastFailure := some now
      lastError := some text }
  match entry.state with
  | .healthy =>
      if config.failureThreshold ≤ consecutive then
        { counted with state := .unhealthy, circuitOpened := some now }
      else counted
  | .halfOpen => { counted with state := .unhealthy, circuitOpened := some now }
  | .unhealthy => { counted with circuitOpened := some now }

def markHealthy (entry : HealthEntry) : HealthEntry :=
  { entry with state := .healthy, consecutiveFailures := 0, circuitOpened := none }

def markUnhealthy (now : Instant) (entry : HealthEntry) : HealthEntry :=
  { entry with state := .unhealthy, circuitOpened := some now }

def reset (_ : HealthEntry) : HealthEntry := {}

end HealthEntry

/-! ## The tracker -/

/-- An operation on an endpoint; a failure comes with the error and its text. -/
inductive HealthAction where
  | registerEndpoint
  | recordSuccess
  | recordFailure (error : ProviderError) (text : String)
  | markHealthy
  | markUnhealthy
  | reset
  deriving DecidableEq, Repr

/-- An operation at an instant. -/
structure HealthEvent where
  endpointId : String
  now : Instant
  action : HealthAction
  deriving DecidableEq, Repr

/-- `entry(id).or_default()`, then an update of the record. -/
def updateOrDefault (entries : HealthEntries) (endpointId : String)
    (f : HealthEntry → HealthEntry) : HealthEntries :=
  fun id => if id = endpointId then some (f ((entries endpointId).getD {})) else entries id

/-- An update of a record that is there. -/
def updateExisting (entries : HealthEntries) (endpointId : String)
    (f : HealthEntry → HealthEntry) : HealthEntries :=
  fun id => if id = endpointId then (entries endpointId).map f else entries id

/-- Rate limit errors are no failures unless the configuration says so. -/
def HealthConfig.skips (config : HealthConfig) (error : ProviderError) : Bool :=
  !config.rateLimitIsFailure && error == .rateLimit

def HealthConfig.apply (config : HealthConfig) (entries : HealthEntries) (e : HealthEvent) :
    HealthEntries :=
  match e.action with
  | .registerEndpoint => updateOrDefault entries e.endpointId id
  | .recordSuccess => updateOrDefault entries e.endpointId (HealthEntry.recordSuccess e.now)
  | .recordFailure error text =>
      if config.skips error then entries
      else updateOrDefault entries e.endpointId (HealthEntry.recordFailure config e.now text)
  | .markHealthy => updateExisting entries e.endpointId HealthEntry.markHealthy
  | .markUnhealthy => updateExisting entries e.endpointId (HealthEntry.markUnhealthy e.now)
  | .reset => updateExisting entries e.endpointId HealthEntry.reset

/-- The records after a run, from a new tracker. -/
def HealthConfig.run (config : HealthConfig) (events : List HealthEvent) : HealthEntries :=
  events.foldl config.apply fun _ => none

/-- Check if an endpoint is available for requests; an unknown one is. -/
def HealthConfig.isHealthy (config : HealthConfig) (entries : HealthEntries)
    (endpointId : String) (now : Instant) : Bool :=
  match entries endpointId with
  | none => true
  | some entry =>
      match entry.state with
      | .healthy | .halfOpen => true
      | .unhealthy =>
          match entry.circuitOpened with
          | some opened => decide (config.recoveryTimeout ≤ now - opened)
          | none => false

/-! ## Invariants of the records -/

/-- The property holds of every record. -/
def Every (P : HealthEntry → Prop) (entries : HealthEntries) : Prop :=
  ∀ id entry, entries id = some entry → P entry

/-- A new record has the property, and every operation on a record keeps it. -/
structure Kept (config : HealthConfig) (P : HealthEntry → Prop) : Prop where
  default : P {}
  recordSuccess : ∀ now entry, P entry → P (entry.recordSuccess now)
  recordFailure : ∀ now text entry, P entry → P (entry.recordFailure config now text)
  markHealthy : ∀ entry, P entry → P entry.markHealthy
  markUnhealthy : ∀ now entry, P entry → P (entry.markUnhealthy now)

section Invariant

variable {config : HealthConfig} {P : HealthEntry → Prop} {entries : HealthEntries}

theorem every_updateOrDefault {f : HealthEntry → HealthEntry} (endpointId : String)
    (hdefault : P {}) (hf : ∀ entry, P entry → P (f entry)) (hall : Every P entries) :
    Every P (updateOrDefault entries endpointId f) := by
  intro id entry hentry
  simp only [updateOrDefault] at hentry
  split at hentry
  · obtain rfl := Option.some.inj hentry
    apply hf
    cases hold : entries endpointId with
    | none => exact hdefault
    | some old => exact hall endpointId old hold
  · exact hall id entry hentry

theorem every_updateExisting {f : HealthEntry → HealthEntry} (endpointId : String)
    (hf : ∀ entry, P entry → P (f entry)) (hall : Every P entries) :
    Every P (updateExisting entries endpointId f) := by
  intro id entry hentry
  simp only [updateExisting] at hentry
  split at hentry
  · obtain ⟨old, hold, rfl⟩ := Option.map_eq_some_iff.mp hentry
    apply hf
    exact hall endpointId old hold
  · exact hall id entry hentry

/-- What the operations on a record keep, the operations of the tracker keep. -/
theorem every_apply (hP : Kept config P) (e : HealthEvent) (hall : Every P entries) :
    Every P (config.apply entries e) := by
  simp only [HealthConfig.apply]
  cases e.action with
  | registerEndpoint => exact every_updateOrDefault _ hP.default (fun _ => id) hall
  | recordSuccess => exact every_updateOrDefault _ hP.default (hP.recordSuccess e.now) hall
  | recordFailure error text =>
      by_cases hskip : config.skips error
      · simpa only [hskip, if_true] using hall
      · simp only [hskip, Bool.false_eq_true, if_false]
        exact every_updateOrDefault _ hP.default (hP.recordFailure e.now text) hall
  | markHealthy => exact every_updateExisting _ hP.markHealthy hall
  | markUnhealthy => exact every_updateExisting _ (hP.markUnhealthy e.now) hall
  | reset => exact every_updateExisting _ (fun _ _ => hP.default) hall

theorem run_snoc (config : HealthConfig) (events : List HealthEvent) (e : HealthEvent) :
    config.run (events ++ [e]) = config.apply (config.run events) e := by
  simp only [HealthConfig.run, List.foldl_append, List.foldl_cons, List.foldl_nil]

/-- What the operations on a record keep holds of every record after every run. -/
theorem every_run (hP : Kept config P) (events : List HealthEvent) :
    Every P (config.run events) := by
  induction events using List.reverseRecOn with
  | nil =>
      intro id entry hentry
      exact nomatch hentry
  | append_singleton events e ih =>
      rw [run_snoc]
      exact every_apply hP e ih

/-- One operation leaves the records of the other endpoints alone. -/
theorem apply_other (config : HealthConfig) (entries : HealthEntries) (e : HealthEvent)
    {id : String} (hid : id ≠ e.endpointId) : config.apply entries e id = entries id := by
  simp only [HealthConfig.apply]
  cases e.action with
  | recordFailure error text =>
      by_cases hskip : config.skips error
      · simp only [hskip, if_true]
      · simp only [hskip, Bool.false_eq_true, if_false, updateOrDefault, hid]
  | registerEndpoint | recordSuccess => simp only [updateOrDefault, hid, if_false]
  | markHealthy | markUnhealthy | reset => simp only [updateExisting, hid, if_false]

end Invariant

/-! ## State, failures and circuit -/

/-- The state of a record agrees with its count of failures and its circuit. -/
structure HealthEntry.Sound (config : HealthConfig) (entry : HealthEntry) : Prop where
  belowThreshold : entry.state = .healthy → entry.consecutiveFailures < config.failureThreshold
  closed : entry.state = .healthy → entry.circuitOpened = none
  opened : entry.state = .unhealthy → entry.circuitOpened.isSome

section Sound

variable {config : HealthConfig} {entry : HealthEntry}

theorem sound_recordSuccess (h : 1 ≤ config.failureThreshold) (now : Instant)
    (hentry : entry.Sound config) : (entry.recordSuccess now).Sound config := by
  simp only [HealthEntry.recordSuccess]
  cases hstate : entry.state with
  | healthy =>
      constructor
      · intro _
        exact h
      · intro _
        exact hentry.closed hstate
      · intro hunhealthy
        cases hunhealthy
  | unhealthy => exact ⟨fun _ => h, fun _ => rfl, nofun⟩
  | halfOpen => exact ⟨fun _ => h, fun _ => rfl, nofun⟩

theorem sound_recordFailure (now : Instant) (text : String) (hentry : entry.Sound config) :
    (entry.recordFailure config now text).Sound config := by
  simp only [HealthEntry.recordFailure]
  cases hstate : entry.state with
  | healthy =>
      -- below the threshold the circuit stays closed
      by_cases hopens : config.failureThreshold ≤ fetchAdd entry.consecutiveFailures
      · rw [if_pos hopens]
        exact ⟨nofun, nofun, fun _ => rfl⟩
      · rw [if_neg hopens]
        constructor
        · intro _
          exact Nat.lt_of_not_le hopens
        · intro _
          exact hentry.closed hstate
        · intro hunhealthy
          cases hunhealthy
  | unhealthy => exact ⟨nofun, nofun, fun _ => rfl⟩
  | halfOpen => exact ⟨nofun, nofun, fun _ => rfl⟩

theorem sound_kept (h : 1 ≤ config.failureThreshold) : Kept config (·.Sound config) where
  default := ⟨fun _ => h, fun _ => rfl, nofun⟩
  recordSuccess now _ := sound_recordSuccess h now
  recordFailure now text _ := sound_recordFailure now text
  markHealthy _ _ := ⟨fun _ => h, fun _ => rfl, nofun⟩
  markUnhealthy _ _ _ := ⟨nofun, nofun, fun _ => rfl⟩

/-- After every run, a healthy endpoint has fewer failures in a row than the threshold and a
closed circuit, an unhealthy one has the instant at which its circuit opened, and the next
operation changes the record of its own endpoint only. -/
theorem health_invariant (config : HealthConfig) (h : 1 ≤ config.failureThreshold)
    (events : List HealthEvent) :
    (∀ id entry, config.run events id = some entry →
        (entry.state = .healthy →
          entry.consecutiveFailures < config.failureThreshold ∧ entry.circuitOpened = none)
        ∧ (entry.state = .unhealthy → ∃ opened, entry.circuitOpened = some opened))
      ∧ ∀ e id, id ≠ e.endpointId → config.run (events ++ [e]) id = config.run events id := by
  constructor
  · intro id entry hentry
    have hsound := every_run (sound_kept h) events id entry hentry
    constructor
    · intro hhealthy
      exact ⟨hsound.belowThreshold hhealthy, hsound.closed hhealthy⟩
    · intro hunhealthy
      exact Option.isSome_iff_exists.mp (hsound.opened hunhealthy)
  · intro e id hid
    rw [run_snoc]
    exact apply_other config _ e hid

end Sound

namespace Sample

def healthConfig : HealthConfig := { failureThreshold := 3 }

def threeFailures : List HealthEvent :=
  [⟨"ep-1", 10, .registerEndpoint⟩, ⟨"ep-1", 20, .recordFailure .internal "Test error"⟩,
    ⟨"ep-1", 30, .recordFailure .internal "Test error"⟩,
    ⟨"ep-2", 40, .recordSuccess⟩, ⟨"ep-1", 50, .recordFailure .internal "Test error"⟩]

/-- The third failure opens the circuit. -/
example : ((healthConfig.run threeFailures "ep-1").map fun e =>
      (e.state, e.consecutiveFailures, e.circuitOpened)) = some (.unhealthy, 3, some 50)
    ∧ (healthConfig.run threeFailures "ep-2").map (·.state) = some .healthy := by decide

end Sample

theorem health_invariant_sample :
    (∀ id entry, Sample.healthConfig.run Sample.threeFailures id = some entry →
        (entry.state = .healthy → entry.consecutiveFailures < Sample.healthConfig.failureThreshold
          ∧ entry.circuitOpened = none)
        ∧ (entry.state = .unhealthy → ∃ opened, entry.circuitOpened = some opened))
      ∧ ∀ e id, id ≠ e.endpointId → Sample.healthConfig.run (Sample.threeFailures ++ [e]) id
          = Sample.healthConfig.run Sample.threeFailures id :=
  health_invariant Sample.healthConfig (by decide) Sample.threeFailures

/-! ## The half-open state -/

section HalfOpen

variable {config : HealthConfig}

theorem notHalfOpen_kept : Kept config (·.state ≠ .halfOpen) where
  default := nofun
  recordSuccess now entry hentry := by
    simp only [HealthEntry.recordSuccess]
    cases hstate : entry.state with
    | halfOpen => exact absurd hstate hentry
    | healthy | unhealthy => exact nofun
  recordFailure now text entry hentry := by
    simp only [HealthEntry.recordFailure]
    cases hstate : entry.state with
    | halfOpen => exact absurd hstate hentry
    | unhealthy => exact nofun
    | healthy =>
        by_cases hopens : config.failureThreshold ≤ fetchAdd entry.consecutiveFailures
        · rw [if_pos hopens]
          exact nofun
        · rw [if_neg hopens]
          exact nofun
  markHealthy _ _ := nofun
  markUnhealthy _ _ _ := nofun

/-- No run reaches the half-open state. -/
theorem halfOpen_unreached (config : HealthConfig) (events : List HealthEvent) :
    Every (·.state ≠ .halfOpen) (config.run events) :=
  every_run notHalfOpen_kept events

/-- After every run, an endpoint is available when it is unknown or healthy, or when its
circuit has been open for the recovery timeout. -/
theorem isHealthy_iff (h : 1 ≤ config.failureThreshold) (events : List HealthEvent)
    (id : String) (now : Instant) :
    config.isHealthy (config.run events) id now = true ↔
      ∀ entry, config.run events id = some entry → entry.state = .healthy
        ∨ ∃ opened, entry.circuitOpened = some opened
            ∧ config.recoveryTimeout ≤ now - opened := by
  simp only [HealthConfig.isHealthy]
  cases hentry : config.run events id with
  | none => simp
  | some entry =>
      simp only [Option.some.injEq, forall_eq']
      cases hstate : entry.state with
      | healthy => simp
      | unhealthy =>
          have hsound := every_run (sound_kept h) events id entry hentry
          obtain ⟨opened, hopened⟩ := Option.isSome_iff_exists.mp (hsound.opened hstate)
          simp [hopened]
      | halfOpen => exact absurd hstate (halfOpen_unreached config events id entry hentry)

end HalfOpen

end AuraGateway.Router
