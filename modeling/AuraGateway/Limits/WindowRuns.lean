import AuraGateway.Foundations.FixedWindow
import AuraGateway.Limits.RateLimit

/-!
# Runs of the limiter

The script of both limits is a fixed-window counter (`countBelow_cell`), so a run of calls
admits the first calls of every window, up to the limit.

The windows of the requests are 60 seconds long: no 60 seconds hold more than the limit exactly
when no burst straddles two windows (`check_sixty_seconds_iff`). The windows of the messages
end with the day, cut to whole seconds: a day holds no more than the limit exactly when the
counter lasts until its last call, or there are no more calls than the limit
(`daily_quota_iff`). A counter that does not last is gone in the last second of its day
(`last_second_of_expired`).
-/

set_option autoImplicit false

namespace AuraGateway.Limits

open AuraGateway.Types AuraGateway.Storage AuraGateway.Foundations.FixedWindow

/-- A counter that expires. -/
def expiring (c : Cell) : Counter := ⟨c.count, some c.ends⟩

section Script

variable {redis : Redis} {key : LimitKey} {cell : Option Cell}

theorem value_eq_live (now : Timestamp) (h : redis key = cell.map expiring) :
    ((redis.get key now).map (·.value)).getD 0 = live now cell := by
  rw [Redis.get, h]
  cases cell with
  | none => rfl
  | some c =>
      simp only [Option.map_some, Option.filter, expiring, Option.all_some, live]
      by_cases hends : now < c.ends
      · simp [hends]
      · simp [hends]

theorem get_of_live {now : Timestamp} (h : redis key = cell.map expiring)
    (hlive : live now cell ≠ 0) : redis.get key now = redis key := by
  rw [Redis.get, h]
  cases cell with
  | none => rfl
  | some c =>
      have hends : now < c.ends := by
        by_contra hends
        exact hlive (if_neg hends)
      simp [expiring, hends]

/-- The script counts as a fixed-window counter does, and leaves the other counters alone. -/
theorem countBelow_cell (limit window : Nat) (now : Timestamp)
    (h : redis key = cell.map expiring) :
    (countBelow redis key limit window now).1.allowed
        = (admitCall limit (window * 1000000) now cell).1
      ∧ (countBelow redis key limit window now).2 key
          = (admitCall limit (window * 1000000) now cell).2.map expiring
      ∧ ∀ k, k ≠ key → (countBelow redis key limit window now).2 k = redis k := by
  simp only [countBelow, admitCall, value_eq_live now h]
  by_cases hlimit : limit ≤ live now cell
  · simp only [if_pos hlimit]
    exact ⟨trivial, h, fun _ _ => trivial⟩
  · simp only [if_neg hlimit]
    by_cases hzero : live now cell = 0
    · simp only [if_pos hzero, if_true]
      refine ⟨trivial, rfl, ?_⟩
      intro k hk
      rw [if_neg hk]
    · simp only [if_neg hzero, if_true, get_of_live h hzero, h]
      refine ⟨trivial, ?_, ?_⟩
      · cases cell with
        | none => exact absurd rfl hzero
        | some c =>
            have hends : now < c.ends := by
              by_contra hends
              exact hzero (if_neg hends)
            simp [expiring, live, hends]
      · intro k hk
        rw [if_neg hk]

end Script

/-! ## Runs -/

/-- The instants of the calls that are admitted, one call after the other. -/
def admittedRun (call : Redis → Timestamp → Bool × Redis) : Redis → List Timestamp → List Timestamp
  | _, [] => []
  | redis, now :: nows =>
      let (allowed, redis') := call redis now
      if allowed then now :: admittedRun call redis' nows else admittedRun call redis' nows

def checkCall (key : Uuid) (limit : Nat) (redis : Redis) (now : Timestamp) : Bool × Redis :=
  let (result, redis') := check redis key limit now
  (result.allowed, redis')

def dailyCall (key : Uuid) (limit : Nat) (redis : Redis) (now : Timestamp) : Bool × Redis :=
  let (result, redis') := checkDailyMessages redis key limit now
  (result.allowed, redis')

/-! ## Requests in 60 seconds -/

/-- The life of a counter of requests. -/
def requestWindow : Nat := 60 * 1000000

section Requests

variable {redis : Redis} {key : Uuid} {limit : Nat}

theorem admittedRun_check (nows : List Timestamp) (cell : Option Cell) (redis : Redis)
    (h : redis (.requests key) = cell.map expiring) :
    admittedRun (checkCall key limit) redis nows
      = admitted limit (fun _ => requestWindow) cell nows := by
  induction nows generalizing cell redis with
  | nil => rfl
  | cons now nows ih =>
      obtain ⟨hallowed, hcell, -⟩ := countBelow_cell limit 60 now h
      simp only [admittedRun, checkCall, check, admitted, hallowed]
      rw [ih _ _ hcell]
      rfl

/-- From a fresh counter, the calls admitted in any 60 seconds are at most the limit exactly when
no burst straddles two windows that follow each other. -/
theorem check_sixty_seconds_iff (hfresh : redis (.requests key) = none) {nows : List Timestamp}
    (hnows : nows.Pairwise (· ≤ ·)) :
    (∀ start, (inInterval requestWindow start
        (admittedRun (checkCall key limit) redis nows)).length ≤ limit)
      ↔ (windows (fun _ => requestWindow) nows).IsChain (NoBurst requestWindow limit) := by
  rw [admittedRun_check nows none redis hfresh]
  exact admitted_interval_iff (by decide) hnows

end Requests

namespace Sample

/-- Two calls late in a window and two early in the next one. -/
def straddling : List Timestamp := [0, 59000000, 60000000, 61000000]

/-- Two calls in every window, a minute apart. -/
def steady : List Timestamp := [0, 1000000, 60000000, 61000000]

end Sample

/-- With a limit of two, three calls are admitted within 60 seconds. -/
theorem straddling_exceeds :
    Sample.straddling.Pairwise (· ≤ ·)
      ∧ ¬ ∀ start, (inInterval requestWindow start
          (admittedRun (checkCall 7 2) (fun _ => none) Sample.straddling)).length ≤ 2 := by
  refine ⟨by decide, ?_⟩
  intro h
  exact absurd (h 59000000) (by decide)

theorem check_sixty_seconds_sample :
    (∀ start, (inInterval requestWindow start
        (admittedRun (checkCall 7 2) (fun _ => none) Sample.steady)).length ≤ 2)
      ↔ (windows (fun _ => requestWindow) Sample.steady).IsChain (NoBurst requestWindow 2) :=
  check_sixty_seconds_iff rfl (by decide)

/-! ## Messages of a day -/

/-- The calls of a day. -/
def callsOn (day : Nat) (nows : List Timestamp) : List Timestamp :=
  nows.filter fun now => decide (now / microsPerDay = day)

/-- The life of the counter that a call opens: the whole seconds left of the day, a minute at
least. -/
def dailyLife (now : Timestamp) : Nat :=
  max ((microsPerDay - now % microsPerDay) / 1000000) 60 * 1000000

/-- At most the limit is admitted on every day, a rejected call leaves the counters unchanged,
and a call depends on the counter of its own day only. -/
structure DailyQuota (redis : Redis) (key : Uuid) (limit : Nat) (nows : List Timestamp) : Prop where
  bounded : ∀ day, (callsOn day (admittedRun (dailyCall key limit) redis nows)).length ≤ limit
  rejected : ∀ redis now, (checkDailyMessages redis key limit now).1.allowed = false →
    (checkDailyMessages redis key limit now).2 = redis
  ownDay : ∀ redis redis' now,
    redis (.dailyMessages key (now / microsPerDay))
        = redis' (.dailyMessages key (now / microsPerDay)) →
      (checkDailyMessages redis key limit now).1 = (checkDailyMessages redis' key limit now).1

/-- There are no more calls than the limit, or the counter that the first one opens lasts until
the last one. -/
def CounterLasts (limit : Nat) (calls : List Timestamp) : Prop :=
  limit = 0 ∨ calls.length ≤ limit
    ∨ ∀ first rest, calls = first :: rest → ∀ now ∈ rest, now < first + dailyLife first

section Messages

variable {redis : Redis} {key : Uuid} {limit : Nat}

theorem callsOn_cons (day : Nat) (now : Timestamp) (nows : List Timestamp) :
    callsOn day (now :: nows)
      = if now / microsPerDay = day then now :: callsOn day nows else callsOn day nows := by
  simp only [callsOn, List.filter_cons, decide_eq_true_eq]

/-- The calls of a day are admitted as by a counter of their own. -/
theorem callsOn_admittedRun (day : Nat) (nows : List Timestamp) (cell : Option Cell)
    (redis : Redis) (h : redis (.dailyMessages key day) = cell.map expiring) :
    callsOn day (admittedRun (dailyCall key limit) redis nows)
      = admitted limit dailyLife cell (callsOn day nows) := by
  induction nows generalizing cell redis with
  | nil => rfl
  | cons now nows ih =>
      rw [callsOn_cons]
      by_cases hday : now / microsPerDay = day
      · subst hday
        obtain ⟨hallowed, hcell, -⟩ := countBelow_cell limit
          (max ((microsPerDay - now % microsPerDay) / 1000000) 60) now h
        have hlife : max ((microsPerDay - now % microsPerDay) / 1000000) 60 * 1000000
            = dailyLife now := rfl
        rw [hlife] at hallowed hcell
        rw [if_pos rfl]
        simp only [admittedRun, dailyCall, checkDailyMessages, admitted, hallowed]
        split
        · rw [callsOn_cons, if_pos rfl, ih _ _ hcell]
        · rw [ih _ _ hcell]
      · -- a call of another day leaves the counter of this one alone
        rw [if_neg hday]
        have hkey : LimitKey.dailyMessages key day
            ≠ LimitKey.dailyMessages key (now / microsPerDay) := by
          intro heq
          injection heq with _ heq
          exact hday heq.symm
        have hother : (dailyCall key limit redis now).2 (.dailyMessages key day)
            = redis (.dailyMessages key day) := by
          simp only [dailyCall, checkDailyMessages, countBelow]
          split
          · rfl
          · simp only [hkey, if_false]
        have hrest := ih cell (dailyCall key limit redis now).2 (hother.trans h)
        simp only [admittedRun]
        split
        · rw [callsOn_cons, if_neg hday, hrest]
        · exact hrest

theorem checkDaily_rejected (redis : Redis) (now : Timestamp)
    (h : (checkDailyMessages redis key limit now).1.allowed = false) :
    (checkDailyMessages redis key limit now).2 = redis := by
  simp only [checkDailyMessages, countBelow] at h ⊢
  split
  · rfl
  · rename_i hlimit
    rw [if_neg hlimit] at h
    cases h

theorem checkDaily_congr {redis redis' : Redis} {now : Timestamp}
    (h : redis (.dailyMessages key (now / microsPerDay))
      = redis' (.dailyMessages key (now / microsPerDay))) :
    (checkDailyMessages redis key limit now).1 = (checkDailyMessages redis' key limit now).1 := by
  have hget : redis.get (.dailyMessages key (now / microsPerDay)) now
      = redis'.get (.dailyMessages key (now / microsPerDay)) now := by
    rw [Redis.get, Redis.get, h]
  simp only [checkDailyMessages, countBelow, hget]
  split
  · rfl
  · rfl

theorem counterLasts_iff (calls : List Timestamp) :
    (admitted limit dailyLife none calls).length ≤ limit ↔ CounterLasts limit calls := by
  rw [admitted_eq, sum_take_le_iff limit _ (ne_nil_of_mem_windows calls), flatten_windows,
    CounterLasts]
  cases calls with
  | nil => simp
  | cons first rest =>
      rw [length_windows_le_one]
      simp

/-- From fresh counters, the quota of every day is kept exactly when there are no more calls
than the limit on it, or none of them comes after the counter of the first one has expired. -/
theorem daily_quota_iff (hfresh : ∀ day, redis (.dailyMessages key day) = none)
    (nows : List Timestamp) :
    DailyQuota redis key limit nows ↔ ∀ day, CounterLasts limit (callsOn day nows) := by
  have hday : ∀ day, (callsOn day (admittedRun (dailyCall key limit) redis nows)).length ≤ limit
      ↔ CounterLasts limit (callsOn day nows) := by
    intro day
    rw [callsOn_admittedRun day nows none redis (hfresh day)]
    exact counterLasts_iff _
  constructor
  · intro h day
    exact (hday day).mp (h.bounded day)
  · intro h
    exact
      { bounded := fun day => (hday day).mpr (h day)
        rejected := checkDaily_rejected
        ownDay := fun _ _ _ => checkDaily_congr }

end Messages

/-- A call that comes after the counter of its day has expired comes in the last second of the
day. -/
theorem last_second_of_expired {first now : Nat}
    (hday : first / microsPerDay = now / microsPerDay) (h : first + dailyLife first ≤ now) :
    microsPerDay - now % microsPerDay < 1000000 := by
  have hlife : (microsPerDay - first % microsPerDay) / 1000000 * 1000000 ≤ dailyLife first :=
    Nat.mul_le_mul_right _ (Nat.le_max_left _ _)
  have hleft := (Nat.add_le_add_left hlife first).trans h
  clear h hlife
  simp only [microsPerDay] at *
  omega

namespace Sample

/-- A call half a second into the day, and one half a second before its end. -/
def lateCall : List Timestamp := [500000, 86399700000]

/-- A call at the start of the day, and one half a second before its end. -/
def wholeSecond : List Timestamp := [0, 86399700000]

end Sample

/-- With a quota of one, two calls are admitted on the first day. -/
theorem late_call_exceeds :
    Sample.lateCall.Pairwise (· ≤ ·)
      ∧ ¬ DailyQuota (fun _ => none) 7 1 Sample.lateCall := by
  refine ⟨by decide, ?_⟩
  intro h
  exact absurd (h.bounded 0) (by decide)

theorem daily_quota_sample :
    DailyQuota (fun _ => none) 7 1 Sample.wholeSecond
      ↔ ∀ day, CounterLasts 1 (callsOn day Sample.wholeSecond) :=
  daily_quota_iff (fun _ => rfl) Sample.wholeSecond

end AuraGateway.Limits
