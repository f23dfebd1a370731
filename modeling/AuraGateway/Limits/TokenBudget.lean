import AuraGateway.Foundations.LabelledRuns
import AuraGateway.Limits.RateLimit

/-!
# The monthly token budget

A check of the budget takes up to four Redis commands: it reads the counter of the month, adds
its tokens when they fit, and gives a new counter a time to live. Every command is atomic, the
check is not: the calls of a key interleave between any two commands (`TokenBudget.step`).

The counter always holds the tokens of the calls that were let through (`counted_run`), and a
rejected call never changes it. A run stays within the budget exactly when every call that adds
its tokens finds room for them still, that is, when what others have added since it read the
counter fits into the room it saw (`token_budget_iff`). Two calls that both read before either
adds exceed it (`racing_calls_exceed`).
-/

set_option autoImplicit false

namespace AuraGateway.Limits

open AuraGateway.Storage AuraGateway.Foundations.LabelledRuns

/-! ## Redis -/

/-- The range of an `i64`. -/
def InI64 (n : Int) : Prop := -2 ^ 63 ≤ n ∧ n < 2 ^ 63

instance (n : Int) : Decidable (InI64 n) := inferInstanceAs (Decidable (_ ∧ _))

/-- An `i64` sum that overflows wraps around. -/
def wrapI64 (n : Int) : Int := (n + 2 ^ 63) % 2 ^ 64 - 2 ^ 63

/-- The tokens counted in a month, and the instant at which the counter expires, if it does. -/
structure TokenCounter where
  value : Int
  expiresAt : Option Timestamp
  deriving DecidableEq, Repr

/-- The counter, unless it has expired. -/
def liveCounter (now : Timestamp) (counter : Option TokenCounter) : Option TokenCounter :=
  counter.filter fun c => c.expiresAt.all fun t => decide (now < t)

inductive TokenCommand where
  | get
  | incrBy (tokens : Int)
  | ttl
  | expire (seconds : Nat)
  deriving DecidableEq, Repr

inductive Reply where
  | number (n : Int)
  | nil
  | error
  deriving DecidableEq, Repr

/-- A reply read as a number. -/
def Reply.number? : Reply → Option Int
  | .number n => some n
  | _ => none

/-- The effect of a command. `INCRBY` refuses to overflow; `TTL` is -2 without a counter and -1
for one that does not expire. -/
def TokenCommand.exec (now : Timestamp) (counter : Option TokenCounter) :
    TokenCommand → Reply × Option TokenCounter
  | .get =>
      match liveCounter now counter with
      | some c => (.number c.value, counter)
      | none => (.nil, counter)
  | .incrBy tokens =>
      let value := ((liveCounter now counter).map (·.value)).getD 0 + tokens
      if InI64 value then
        (.number value, some ⟨value, (liveCounter now counter).bind (·.expiresAt)⟩)
      else (.error, counter)
  | .ttl =>
      match liveCounter now counter with
      | some ⟨_, some t⟩ => (.number ((t - now + 500000) / 1000000 : Nat), counter)
      | some ⟨_, none⟩ => (.number (-1), counter)
      | none => (.number (-2), counter)
  | .expire seconds =>
      match liveCounter now counter with
      | some c => (.number 1, some { c with expiresAt := some (now + seconds * 1000000) })
      | none => (.number 0, counter)

/-! ## The check -/

/-- Where a check stands: at one of its commands, or done; no result stands for an error. -/
inductive TokenPhase where
  | reading
  | adding (current : Int)
  | asking
  | expiring
  | done (result : Option Bool)
  deriving DecidableEq, Repr

namespace TokenPhase

/-- The next command; the counter lives for 35 days. -/
def command (tokens : Int) : TokenPhase → Option TokenCommand
  | .reading => some .get
  | .adding _ => some (.incrBy tokens)
  | .asking => some .ttl
  | .expiring => some (.expire (35 * 24 * 60 * 60))
  | .done _ => none

/-- How the check goes on with the reply. -/
def next (limit tokens : Int) (reply : Reply) : TokenPhase → TokenPhase
  | .reading =>
      let current := reply.number?.getD 0
      if limit < wrapI64 (current + tokens) then .done (some false) else .adding current
  | .adding _ => if reply = .error then .done none else .asking
  | .asking => if reply.number?.getD (-1) < 0 then .expiring else .done (some true)
  | .expiring => if reply = .error then .done none else .done (some true)
  | .done result => .done result

/-- The reply lets the call through: its tokens are added. -/
def admits (reply : Reply) : TokenPhase → Bool
  | .adding _ => reply != .error
  | _ => false

end TokenPhase

/-! ## Concurrent checks -/

/-- The checks of a key in a month: its limit, the tokens of each call, and the month's start. -/
structure TokenBudget where
  limit : Int
  tokens : Nat → Int
  monthStart : Timestamp

/-- The counter, where each call stands, and the calls that were let through. -/
structure BudgetState where
  counter : Option TokenCounter := none
  phase : Nat → TokenPhase := fun _ => .reading
  admitted : List Nat := []

/-- A call executes its next command at an instant. -/
structure BudgetStep where
  call : Nat
  now : Timestamp
  deriving DecidableEq, Repr

/-- A month has 31 days at most. -/
def monthMicros : Nat := 31 * microsPerDay

namespace TokenBudget

variable (b : TokenBudget)

def inMonth (now : Timestamp) : Bool :=
  decide (b.monthStart ≤ now) && decide (now < b.monthStart + monthMicros)

/-- The state after a call has executed a command. -/
def exec (s : BudgetState) (l : BudgetStep) (command : TokenCommand) : BudgetState :=
  let (reply, counter) := command.exec l.now s.counter
  { counter
    phase := Function.update s.phase l.call ((s.phase l.call).next b.limit (b.tokens l.call) reply)
    admitted := if (s.phase l.call).admits reply then s.admitted ++ [l.call] else s.admitted }

/-- One step: a call that is not done executes its next command, within the month. -/
def step (s : BudgetState) (l : BudgetStep) : Option BudgetState :=
  if b.inMonth l.now then
    ((s.phase l.call).command (b.tokens l.call)).map (b.exec s l)
  else none

/-- A step as a relation. -/
def Steps (s : BudgetState) (l : BudgetStep) (s' : BudgetState) : Prop := b.step s l = some s'

/-- The tokens of the calls that were let through. -/
def total (s : BudgetState) : Int := (s.admitted.map b.tokens).sum

end TokenBudget

/-- The tokens in the counter. -/
def BudgetState.value (s : BudgetState) : Int := (s.counter.map (·.value)).getD 0

namespace TokenBudget

variable (b : TokenBudget)

/-- The calls that were let through, if any, are within the limit. -/
def WithinBudget (s : BudgetState) : Prop := s.admitted ≠ [] → b.total s ≤ b.limit

/-- What the budget promises of a step: it leads to a state within the budget, and if it rejects
its call, then the counter is as before and the call has added nothing to it. -/
structure Safe (s : BudgetState) (l : BudgetStep) (s' : BudgetState) : Prop where
  within : b.WithinBudget s'
  rejected : s'.phase l.call = .done (some false) → s'.counter = s.counter ∧ l.call ∉ s'.admitted

/-- A call about to add its tokens finds room: what others have added since it read the counter
fits into the room that it saw beside its own tokens. An `INCRBY` that overflows adds none. -/
def FindsRoom (s : BudgetState) (l : BudgetStep) : Prop :=
  ∀ current, s.phase l.call = .adding current → InI64 (s.value + b.tokens l.call) →
    s.value - current ≤ b.limit - (current + b.tokens l.call)

/-! ### The invariant -/

/-- The counter holds the tokens of the calls that were let through and outlives the month; a
call that has not added its tokens yet was not let through. -/
structure Counted (s : BudgetState) : Prop where
  value : s.value = b.total s
  lasts : ∀ c, s.counter = some c → ∀ t, c.expiresAt = some t → b.monthStart + monthMicros ≤ t
  pending : ∀ call, s.phase call = .reading ∨ (∃ current, s.phase call = .adding current) →
    call ∉ s.admitted

section Step

variable {b} {s s' : BudgetState} {l : BudgetStep}

theorem liveCounter_of_counted (hs : b.Counted s) (hnow : b.inMonth l.now = true) :
    liveCounter l.now s.counter = s.counter := by
  cases hcounter : s.counter with
  | none => rfl
  | some c =>
      apply Option.filter_eq_some_iff.mpr
      refine ⟨rfl, ?_⟩
      rw [Option.all_eq_true]
      intro t ht
      have hlasts := hs.lasts c hcounter t ht
      simp only [inMonth, Bool.and_eq_true, decide_eq_true_eq] at hnow
      exact decide_eq_true (hnow.2.trans_le hlasts)

/-- What a step can do: read, add, fail to add, ask for the time to live, or set it. -/
inductive Does (b : TokenBudget) (s : BudgetState) (l : BudgetStep) : BudgetState → Prop where
  | rejects (h : s.phase l.call = .reading) :
      Does b s l { s with phase := Function.update s.phase l.call (.done (some false)) }
  | reads (h : s.phase l.call = .reading) (current : Int) :
      Does b s l { s with phase := Function.update s.phase l.call (.adding current) }
  | adds {current : Int} (h : s.phase l.call = .adding current)
      (hin : InI64 (s.value + b.tokens l.call)) :
      Does b s l
        { counter := some ⟨s.value + b.tokens l.call, s.counter.bind (·.expiresAt)⟩
          phase := Function.update s.phase l.call .asking
          admitted := s.admitted ++ [l.call] }
  | overflows {current : Int} (h : s.phase l.call = .adding current)
      (hout : ¬ InI64 (s.value + b.tokens l.call)) :
      Does b s l { s with phase := Function.update s.phase l.call (.done none) }
  | asks {p : TokenPhase} (h : s.phase l.call = .asking) (hp : p = .expiring ∨ p = .done (some true)) :
      Does b s l { s with phase := Function.update s.phase l.call p }
  | prolongs (h : s.phase l.call = .expiring) :
      Does b s l
        { s with
          counter := s.counter.map fun c =>
            { c with expiresAt := some (l.now + 35 * 24 * 60 * 60 * 1000000) }
          phase := Function.update s.phase l.call (.done (some true)) }

theorem does_of_step (hs : b.Counted s) (h : b.step s l = some s') :
    b.inMonth l.now = true ∧ Does b s l s' := by
  simp only [step] at h
  split at h
  case isFalse => cases h
  case isTrue hnow =>
    refine ⟨hnow, ?_⟩
    have hlive := liveCounter_of_counted hs hnow
    obtain ⟨command, hcommand, rfl⟩ := Option.map_eq_some_iff.mp h
    cases hphase : s.phase l.call with
    | reading =>
        rw [hphase] at hcommand
        obtain rfl := Option.some.inj hcommand
        have hget : (TokenCommand.get.exec l.now s.counter).2 = s.counter := by
          simp only [TokenCommand.exec]
          split <;> rfl
        simp only [exec, hphase, TokenPhase.next, TokenPhase.admits, hget]
        split
        · exact .rejects hphase
        · exact .reads hphase _
    | adding current =>
        rw [hphase] at hcommand
        obtain rfl := Option.some.inj hcommand
        have hvalue : (s.counter.map (·.value)).getD 0 = s.value := rfl
        simp only [exec, hphase, TokenCommand.exec, hlive, hvalue, TokenPhase.next,
          TokenPhase.admits]
        by_cases hin : InI64 (s.value + b.tokens l.call)
        · simp only [if_pos hin]
          exact .adds hphase hin
        · simp only [if_neg hin]
          exact .overflows hphase hin
    | asking =>
        rw [hphase] at hcommand
        obtain rfl := Option.some.inj hcommand
        have httl : (TokenCommand.ttl.exec l.now s.counter).2 = s.counter := by
          simp only [TokenCommand.exec]
          split <;> rfl
        simp only [exec, hphase, TokenPhase.next, TokenPhase.admits, httl]
        split
        · exact .asks hphase (.inl rfl)
        · exact .asks hphase (.inr rfl)
    | expiring =>
        rw [hphase] at hcommand
        obtain rfl := Option.some.inj hcommand
        simp only [exec, hphase, TokenCommand.exec, hlive, TokenPhase.next, TokenPhase.admits]
        cases hcounter : s.counter with
        | none =>
            have hdoes := Does.prolongs (b := b) hphase
            rw [hcounter] at hdoes
            exact hdoes
        | some c =>
            have hdoes := Does.prolongs (b := b) hphase
            rw [hcounter] at hdoes
            exact hdoes
    | done result =>
        rw [hphase] at hcommand
        cases hcommand

theorem total_append (s : BudgetState) (call : Nat) (counter : Option TokenCounter)
    (phase : Nat → TokenPhase) :
    b.total ⟨counter, phase, s.admitted ++ [call]⟩ = b.total s + b.tokens call := by
  simp [total]

/-- A call other than the one that takes a step stays where it is. -/
theorem pending_update {p : TokenPhase} {call : Nat} (hs : b.Counted s)
    (hp : l.call ∉ s.admitted ∨ p ≠ .reading ∧ ∀ current, p ≠ .adding current)
    (h : Function.update s.phase l.call p call = .reading
      ∨ ∃ current, Function.update s.phase l.call p call = .adding current) :
    call ∉ s.admitted := by
  by_cases hcall : call = l.call
  · subst hcall
    rw [Function.update_self] at h
    rcases hp with hp | ⟨hreading, hadding⟩
    · exact hp
    · rcases h with h | ⟨current, h⟩
      · exact absurd h hreading
      · exact absurd h (hadding current)
  · rw [Function.update_of_ne hcall] at h
    exact hs.pending call h

/-- One step keeps the invariant. -/
theorem counted_step (hs : b.Counted s) (h : b.step s l = some s') : b.Counted s' := by
  obtain ⟨hnow, hdoes⟩ := does_of_step hs h
  cases hdoes with
  | rejects hphase =>
      exact ⟨hs.value, hs.lasts, fun call => pending_update hs (.inr ⟨nofun, nofun⟩)⟩
  | reads hphase current =>
      exact ⟨hs.value, hs.lasts,
        fun call => pending_update hs (.inl (hs.pending l.call (.inl hphase)))⟩
  | @adds current hphase hin =>
      constructor
      · rw [total_append, ← hs.value]
        rfl
      · rintro c hc t ht
        obtain rfl := Option.some.inj hc
        obtain ⟨old, hold, hexpires⟩ := Option.bind_eq_some_iff.mp ht
        exact hs.lasts old hold t hexpires
      · intro call hcall
        dsimp only at hcall ⊢
        by_cases heq : call = l.call
        · subst heq
          rw [Function.update_self] at hcall
          rcases hcall with hcall | ⟨_, hcall⟩
          · cases hcall
          · cases hcall
        · rw [Function.update_of_ne heq] at hcall
          rw [List.mem_append, List.mem_singleton]
          exact not_or.mpr ⟨hs.pending call hcall, heq⟩
  | overflows hphase hout =>
      exact ⟨hs.value, hs.lasts, fun call => pending_update hs (.inr ⟨nofun, nofun⟩)⟩
  | asks hphase hp =>
      refine ⟨hs.value, hs.lasts, fun call => pending_update hs (.inr ?_)⟩
      rcases hp with rfl | rfl
      · exact ⟨nofun, nofun⟩
      · exact ⟨nofun, nofun⟩
  | prolongs hphase =>
      constructor
      · rw [BudgetState.value, Option.map_map]
        exact hs.value
      · intro c hc t ht
        obtain ⟨old, -, rfl⟩ := Option.map_eq_some_iff.mp hc
        obtain rfl := Option.some.inj ht
        simp only [inMonth, Bool.and_eq_true, decide_eq_true_eq] at hnow
        have hmonth : monthMicros ≤ 35 * 24 * 60 * 60 * 1000000 := by decide
        exact Nat.add_le_add hnow.1 hmonth
      · intro call
        exact pending_update hs (.inr ⟨nofun, nofun⟩)

theorem counted_start : b.Counted {} where
  value := rfl
  lasts _ hc := nomatch hc
  pending _ _ := List.not_mem_nil

/-- After every run the counter holds the tokens of the calls that were let through. -/
theorem counted_run {ls : List BudgetStep} (h : Run b.Steps {} ls s) : b.Counted s :=
  h.stateInvariant b.Counted counted_start fun _ _ _ hs hstep => counted_step hs hstep

/-- A step to a state within the budget is safe. -/
theorem safe_of_within (hs : b.Counted s) (h : b.step s l = some s')
    (hwithin : b.WithinBudget s') : b.Safe s l s' := by
  refine ⟨hwithin, ?_⟩
  obtain ⟨-, hdoes⟩ := does_of_step hs h
  cases hdoes with
  | rejects hphase =>
      intro _
      exact ⟨rfl, hs.pending l.call (.inl hphase)⟩
  | reads | adds | overflows | prolongs =>
      intro hrejected
      dsimp only at hrejected
      rw [Function.update_self] at hrejected
      cases hrejected
  | asks hphase hp =>
      intro hrejected
      dsimp only at hrejected
      rw [Function.update_self] at hrejected
      rcases hp with rfl | rfl
      · cases hrejected
      · cases hrejected

/-- From a state within the budget, a step leads to one exactly when its call finds room. -/
theorem within_step_iff (hs : b.Counted s) (h : b.step s l = some s')
    (hwithin : b.WithinBudget s) : b.WithinBudget s' ↔ b.FindsRoom s l := by
  obtain ⟨-, hdoes⟩ := does_of_step hs h
  cases hdoes with
  | @adds current hphase hin =>
      have htotal := total_append (b := b) s l.call
        (some ⟨s.value + b.tokens l.call, s.counter.bind (·.expiresAt)⟩)
        (Function.update s.phase l.call .asking)
      simp only [WithinBudget, FindsRoom, htotal, ← hs.value]
      constructor
      · intro hle current' _ _
        have hle' := hle (by simp)
        omega
      · intro hroom _
        have hroom' := hroom current hphase hin
        omega
  | overflows hphase hout =>
      refine iff_of_true hwithin ?_
      intro _ _ hin
      exact absurd hin hout
  | rejects hphase | reads hphase | asks hphase | prolongs hphase =>
      refine iff_of_true hwithin ?_
      intro current hadding
      cases hphase.symm.trans hadding

end Step

/-- A run is safe in every step exactly when every call that adds its tokens finds room. -/
theorem token_budget_iff (b : TokenBudget) (ls : List BudgetStep) (s : BudgetState) :
    Run (fun t l u => b.Steps t l u ∧ b.Safe t l u) {} ls s
      ↔ Run (fun t l u => b.Steps t l u ∧ b.FindsRoom t l) {} ls s := by
  constructor
  · intro h
    have hkept : b.WithinBudget s ∧ Run (fun t l u => b.Steps t l u ∧ b.FindsRoom t l) {} ls s := by
      induction h with
      | nil => exact ⟨fun hnil => absurd rfl hnil, .nil⟩
      | snoc hrun hs ih =>
          have hcounted := counted_run (hrun.mono fun _ _ _ hstep => hstep.1)
          exact ⟨hs.2.within,
            ih.2.snoc ⟨hs.1, (within_step_iff hcounted hs.1 ih.1).mp hs.2.within⟩⟩
    exact hkept.2
  · intro h
    have hkept : b.WithinBudget s ∧ Run (fun t l u => b.Steps t l u ∧ b.Safe t l u) {} ls s := by
      induction h with
      | nil => exact ⟨fun hnil => absurd rfl hnil, .nil⟩
      | snoc hrun hs ih =>
          have hcounted := counted_run (hrun.mono fun _ _ _ hstep => hstep.1)
          have hwithin := (within_step_iff hcounted hs.1 ih.1).mpr hs.2
          exact ⟨hwithin, ih.2.snoc ⟨hs.1, safe_of_within hcounted hs.1 hwithin⟩⟩
    exact hkept.2

/-- A run computed step by step. -/
theorem run_of_foldlM {b : TokenBudget} {ls : List BudgetStep} {s s' : BudgetState}
    (h : ls.foldlM b.step s = some s') : Run b.Steps s ls s' := by
  induction ls generalizing s with
  | nil =>
      obtain rfl := Option.some.inj h
      exact .nil
  | cons l ls ih =>
      rw [List.foldlM_cons] at h
      obtain ⟨t, ht, hrest⟩ := Option.bind_eq_some_iff.mp h
      exact Run.cons ht (ih hrest)

/-! ### Two calls at the limit -/

/-- Calls of 60 tokens each, with a limit of 100. -/
def sixtyOfHundred : TokenBudget := ⟨100, fun _ => 60, 0⟩

/-- Both calls read the counter before either adds its tokens. -/
def racing : List BudgetStep := [⟨0, 10⟩, ⟨1, 20⟩, ⟨0, 30⟩, ⟨1, 40⟩]

/-- Both calls are let through: 120 tokens. -/
theorem racing_calls_exceed :
    ¬ ∀ s, Run sixtyOfHundred.Steps {} racing s → sixtyOfHundred.WithinBudget s := by
  intro h
  have hrun : Run sixtyOfHundred.Steps {} racing _ := run_of_foldlM rfl
  exact absurd (h _ hrun (by decide)) (by decide)

end TokenBudget

end AuraGateway.Limits
