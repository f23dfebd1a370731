import AuraGateway.Router.HealthTracker

/-!
# Recovery of a circuit

After an open circuit's timeout an endpoint is to be tested in the half-open state, and a number
of successes there is to close the circuit. The tracker never enters that state: a success closes
an open circuit at once, whenever it comes. So a run recovers as described exactly when no
success is recorded while a circuit is open (`run_recovers_iff`); where no successes are
required, a success after the timeout does as well.
-/

set_option autoImplicit false

namespace AuraGateway.Router

open AuraGateway.Proxy

section Recovery

variable (config : HealthConfig)

/-- The operations on an endpoint, each with the state that it found. -/
def HealthConfig.traceFrom (endpointId : String) :
    HealthEntries → List HealthEvent → List (HealthEvent × Option HealthState)
  | _, [] => []
  | entries, e :: events =>
      let rest := HealthConfig.traceFrom endpointId (config.apply entries e) events
      if e.endpointId = endpointId then (e, (entries endpointId).map (·.state)) :: rest else rest

def HealthConfig.trace (endpointId : String) (events : List HealthEvent) :
    List (HealthEvent × Option HealthState) :=
  config.traceFrom endpointId (fun _ => none) events

/-- A success recorded in the half-open state, once the recovery timeout is over. -/
def HealthConfig.TestPassed (opened : Instant) (x : HealthEvent × Option HealthState) : Prop :=
  x.1.action = .recordSuccess ∧ x.2 = some .halfOpen ∧ opened + config.recoveryTimeout ≤ x.1.now

/-- After a run, an operation leaves an open circuit open, or it closes the circuit by hand, or
the timeout is over and the last operations on the endpoint are enough successes in a row in the
half-open state. -/
def HealthConfig.Recovers (before : List HealthEvent) (e : HealthEvent) : Prop :=
  ∀ entry opened, config.run before e.endpointId = some entry → entry.state = .unhealthy →
    entry.circuitOpened = some opened →
      ∀ entry', config.run (before ++ [e]) e.endpointId = some entry' → entry'.state = .healthy →
        e.action = .markHealthy ∨ e.action = .reset
          ∨ opened + config.recoveryTimeout ≤ e.now
            ∧ ∃ tests, tests <:+ config.trace e.endpointId (before ++ [e])
              ∧ tests.length = config.successThreshold
              ∧ ∀ x ∈ tests, config.TestPassed opened x

/-- An operation that records no success while the circuit is open. Where no tests are required,
it may come after the timeout. -/
def HealthConfig.NotPremature (before : List HealthEvent) (e : HealthEvent) : Prop :=
  ∀ entry opened, config.run before e.endpointId = some entry → entry.state = .unhealthy →
    entry.circuitOpened = some opened → e.action = .recordSuccess →
      config.successThreshold = 0 ∧ opened + config.recoveryTimeout ≤ e.now

variable {config}

theorem traceFrom_not_halfOpen (endpointId : String) {entries : HealthEntries}
    (hentries : Every (·.state ≠ .halfOpen) entries) (events : List HealthEvent) :
    ∀ x ∈ config.traceFrom endpointId entries events, x.2 ≠ some .halfOpen := by
  induction events generalizing entries with
  | nil => exact fun x hx => absurd hx List.not_mem_nil
  | cons e events ih =>
      have hnext : Every (·.state ≠ .halfOpen) (config.apply entries e) :=
        every_apply notHalfOpen_kept e hentries
      have hrest := ih hnext
      intro x hx
      simp only [HealthConfig.traceFrom] at hx
      split at hx
      · rcases List.mem_cons.mp hx with rfl | hx
        · intro hstate
          obtain ⟨entry, hentry, hhalf⟩ := Option.map_eq_some_iff.mp hstate
          exact hentries _ entry hentry hhalf
        · exact hrest x hx
      · exact hrest x hx

/-- No operation of a run finds the half-open state. -/
theorem trace_not_halfOpen (endpointId : String) (events : List HealthEvent) :
    ∀ x ∈ config.trace endpointId events, x.2 ≠ some .halfOpen := by
  refine traceFrom_not_halfOpen endpointId ?_ events
  intro id entry hentry
  cases hentry

/-- So tests pass only where none are required. -/
theorem tests_eq_nil {endpointId : String} {events : List HealthEvent} {opened : Instant}
    {tests : List (HealthEvent × Option HealthState)}
    (hsuffix : tests <:+ config.trace endpointId events)
    (hpassed : ∀ x ∈ tests, config.TestPassed opened x) : tests = [] := by
  rw [List.eq_nil_iff_forall_not_mem]
  intro x hx
  exact trace_not_halfOpen endpointId events x (hsuffix.subset hx) (hpassed x hx).2.1

/-- What an operation makes of an open circuit: only a success and an operation by hand close it. -/
theorem apply_unhealthy {entries : HealthEntries} {e : HealthEvent} {entry entry' : HealthEntry}
    (hentry : entries e.endpointId = some entry) (hstate : entry.state = .unhealthy)
    (hentry' : config.apply entries e e.endpointId = some entry')
    (hstate' : entry'.state = .healthy) :
    e.action = .recordSuccess ∨ e.action = .markHealthy ∨ e.action = .reset := by
  simp only [HealthConfig.apply] at hentry'
  cases haction : e.action with
  | recordSuccess => exact .inl rfl
  | markHealthy => exact .inr (.inl rfl)
  | reset => exact .inr (.inr rfl)
  | registerEndpoint =>
      simp only [haction, updateOrDefault, hentry, if_true, Option.getD_some, id,
        Option.some.injEq] at hentry'
      subst hentry'
      rw [hstate] at hstate'
      cases hstate'
  | markUnhealthy =>
      simp only [haction, updateExisting, hentry, if_true, Option.map_some,
        Option.some.injEq] at hentry'
      subst hentry'
      cases hstate'
  | recordFailure error text =>
      simp only [haction] at hentry'
      split at hentry'
      · obtain rfl := Option.some.inj (hentry.symm.trans hentry')
        rw [hstate] at hstate'
        cases hstate'
      · simp only [updateOrDefault, hentry, if_true, Option.getD_some,
          HealthEntry.recordFailure, hstate, Option.some.injEq] at hentry'
        subst hentry'
        cases hstate'

/-- A success closes an open circuit. -/
theorem apply_recordSuccess {entries : HealthEntries} {e : HealthEvent} {entry : HealthEntry}
    (hentry : entries e.endpointId = some entry) (hstate : entry.state = .unhealthy)
    (haction : e.action = .recordSuccess) :
    ∃ entry', config.apply entries e e.endpointId = some entry' ∧ entry'.state = .healthy := by
  simp only [HealthConfig.apply, haction, updateOrDefault, hentry, if_true, Option.getD_some,
    HealthEntry.recordSuccess, hstate]
  exact ⟨_, rfl, rfl⟩

/-- An operation recovers a circuit as described exactly when it is not premature. -/
theorem recovers_iff (before : List HealthEvent) (e : HealthEvent) :
    config.Recovers before e ↔ config.NotPremature before e := by
  constructor
  · intro hrecovers entry opened hentry hstate hopened haction
    obtain ⟨entry', hentry', hstate'⟩ := apply_recordSuccess hentry hstate haction
    rw [← run_snoc] at hentry'
    rcases hrecovers entry opened hentry hstate hopened entry' hentry' hstate' with
      hmark | hreset | ⟨htimeout, tests, hsuffix, hlength, hpassed⟩
    · rw [haction] at hmark
      cases hmark
    · rw [haction] at hreset
      cases hreset
    · rw [tests_eq_nil hsuffix hpassed] at hlength
      exact ⟨hlength.symm, htimeout⟩
  · intro hpremature entry opened hentry hstate hopened entry' hentry' hstate'
    rw [run_snoc] at hentry'
    rcases apply_unhealthy hentry hstate hentry' hstate' with haction | haction
    · obtain ⟨hzero, htimeout⟩ := hpremature entry opened hentry hstate hopened haction
      refine .inr (.inr ⟨htimeout, [], List.nil_suffix, hzero.symm, ?_⟩)
      exact fun x hx => absurd hx List.not_mem_nil
    · exact haction.imp_right .inl

/-- A run recovers its circuits as described, step by step, exactly when none of its steps
records a success while the circuit is open (or, where no tests are required, before the timeout
is over). -/
theorem run_recovers_iff (config : HealthConfig) (events : List HealthEvent) :
    (∀ before e later, events = before ++ e :: later → config.Recovers before e)
      ↔ ∀ before e later, events = before ++ e :: later → config.NotPremature before e := by
  simp only [recovers_iff]

end Recovery

namespace Sample

/-- The third failure opens the circuit; the success of an earlier request comes right after. -/
def lateSuccess : List HealthEvent := threeFailures ++ [⟨"ep-1", 60, .recordSuccess⟩]

end Sample

/-- The endpoint is healthy again ten nanoseconds after its circuit opened, with no test. -/
theorem late_success_closes :
    (Sample.healthConfig.run Sample.threeFailures "ep-1").map (fun e => (e.state, e.circuitOpened))
        = some (.unhealthy, some 50)
      ∧ (Sample.healthConfig.run Sample.lateSuccess "ep-1").map (·.state) = some .healthy
      ∧ ¬ Sample.healthConfig.Recovers Sample.threeFailures ⟨"ep-1", 60, .recordSuccess⟩ := by
  refine ⟨by decide, by decide, ?_⟩
  rw [recovers_iff]
  intro hpremature
  have hentry : ∃ entry, Sample.healthConfig.run Sample.threeFailures "ep-1" = some entry
      ∧ entry.state = .unhealthy ∧ entry.circuitOpened = some 50 := ⟨_, rfl, rfl, rfl⟩
  obtain ⟨entry, hentry, hstate, hopened⟩ := hentry
  exact absurd (hpremature entry 50 hentry hstate hopened rfl).1 (by decide)

end AuraGateway.Router
