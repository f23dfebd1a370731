import AuraGateway.Usage.Recording

/-!
# Counters of end users

An end user carries the sums over its rows of the usage log, for its lifetime and for the
current month. The trigger advances them with every row and never starts a month again
(`lifetime_of_insertAll`), so the monthly counter is right exactly as long as the rows of
earlier months have no tokens (`end_user_counters_iff`). The recording function that the
trigger replaced did start it again (`monthly_of_recordAll`).
-/

set_option autoImplicit false

namespace AuraGateway.Usage

open AuraGateway.RustStd AuraGateway.Storage

/-! ## Sums over usage rows -/

def inputSum (rows : List ApiKeyUsage) : Int := (rows.map (·.inputTokens)).sum

def outputSum (rows : List ApiKeyUsage) : Int := (rows.map (·.outputTokens)).sum

/-- Input and output tokens of all rows. -/
def tokenSum (rows : List ApiKeyUsage) : Int := (rows.map ApiKeyUsage.tokens).sum

/-- The costs, added in the order of the rows. -/
def costSum (rows : List ApiKeyUsage) : Float :=
  rows.foldl (fun total r => total + r.costUsd.getD 0.0) 0.0

/-- The rows of an end user. -/
def rowsOf (userId : Uuid) (store : UsageStore) : List ApiKeyUsage :=
  store.usage.filter fun r => r.endUserId == some userId

section Sums

variable (month : Timestamp → String) (m : String) (rows : List ApiKeyUsage) (r : ApiKeyUsage)

theorem inputSum_snoc : inputSum (rows ++ [r]) = inputSum rows + r.inputTokens := by
  simp [inputSum]

theorem outputSum_snoc : outputSum (rows ++ [r]) = outputSum rows + r.outputTokens := by
  simp [outputSum]

theorem tokenSum_snoc : tokenSum (rows ++ [r]) = tokenSum rows + r.tokens := by
  simp [tokenSum]

theorem costSum_snoc : costSum (rows ++ [r]) = costSum rows + r.costUsd.getD 0.0 := by
  simp [costSum]

/-- The rows created in a month. -/
def inMonth : List ApiKeyUsage := rows.filter fun r => month r.createdAt == m

/-- The rows created in other months. -/
def outOfMonth : List ApiKeyUsage := rows.filter fun r => !(month r.createdAt == m)

theorem tokenSum_inMonth_add_outOfMonth :
    tokenSum (inMonth month m rows) + tokenSum (outOfMonth month m rows) = tokenSum rows := by
  induction rows with
  | nil => rfl
  | cons r rows ih =>
      simp only [tokenSum, inMonth, outOfMonth] at ih ⊢
      -- the row is counted on one of the two sides
      cases hr : (month r.createdAt == m) with
      | true =>
          simp only [List.filter_cons, hr, if_true, Bool.not_true, Bool.false_eq_true, if_false,
            List.map_cons, List.sum_cons]
          omega
      | false =>
          simp only [List.filter_cons, hr, Bool.not_false, if_true, Bool.false_eq_true, if_false,
            List.map_cons, List.sum_cons]
          omega

end Sums

/-! ## What the counters should be -/

/-- The lifetime counters are the sums and the number of the rows. -/
structure LifetimeRight (rows : List ApiKeyUsage) (u : EndUser) : Prop where
  input : u.totalInputTokens = inputSum rows
  output : u.totalOutputTokens = outputSum rows
  cost : u.totalCostUsd = costSum rows
  count : u.requestCount = rows.length

/-- All counters are right: the monthly one sums the month of the last row. -/
structure CountersRight (month : Timestamp → String) (rows : List ApiKeyUsage) (u : EndUser) :
    Prop extends LifetimeRight rows u where
  monthly : ∀ last, rows.getLast? = some last →
    u.currentMonthTokens = tokenSum (inMonth month (month last.createdAt) rows)

/-! ## The trigger -/

section Trigger

variable {now : Timestamp} {rows : List ApiKeyUsage} {r : ApiKeyUsage} {u u' : EndUser} {a b c : Int}

theorem bigintAdd_ok (h : bigintAdd a b = .ok c) : c = a + b := by
  simp only [bigintAdd, except_guard_eq_ok] at h
  exact (Except.ok.inj h.2).symm

theorem intAdd_ok (h : intAdd a b = .ok c) : c = a + b := by
  simp only [intAdd, except_guard_eq_ok] at h
  exact (Except.ok.inj h.2).symm

theorem float8Add_ok {x y z : Float} (h : float8Add x y = .ok z) : z = x + y := by
  simp only [float8Add, except_guard_eq_ok] at h
  exact (Except.ok.inj h.2).symm

/-- The trigger keeps the lifetime counters right, and advances the monthly counter by the
tokens of the row. -/
theorem LifetimeRight.trigger (h : LifetimeRight rows u)
    (htrigger : updateEndUserAggregatedUsage now r u = .ok u') :
    LifetimeRight (rows ++ [r]) u' ∧ u'.currentMonthTokens = u.currentMonthTokens + r.tokens := by
  simp only [updateEndUserAggregatedUsage, except_bind_eq_ok] at htrigger
  obtain ⟨input, hinput, output, houtput, cost, hcost, count, hcount, withInput, hwith, tokens,
    htokens, htrigger⟩ := htrigger
  obtain rfl := Except.ok.inj htrigger
  have hmonth : tokens = u.currentMonthTokens + r.tokens := by
    rw [bigintAdd_ok htokens, bigintAdd_ok hwith, ApiKeyUsage.tokens]
    omega
  refine ⟨?_, hmonth⟩
  exact
    { input := by rw [inputSum_snoc, ← h.input]; exact bigintAdd_ok hinput
      output := by rw [outputSum_snoc, ← h.output]; exact bigintAdd_ok houtput
      cost := by rw [costSum_snoc, ← h.cost]; exact float8Add_ok hcost
      count := by
        rw [List.length_append, Nat.cast_add, ← h.count]
        exact bigintAdd_ok hcount }

end Trigger

/-! ## Runs of inserts -/

/-- An insert into the usage log, with its failure, if it fails before the trigger. -/
structure UsageInsert where
  now : Timestamp
  id : Uuid
  new : NewApiKeyUsage
  failure : Option DbError := none

/-- The store after an insert. One that fails leaves nothing. -/
def insertOne (store : UsageStore) (i : UsageInsert) : UsageStore :=
  match i.failure, ApiKeyUsageRepo.create i.now i.id i.new store with
  | none, .ok (_, store') => store'
  | _, _ => store

def insertAll (store : UsageStore) (inserts : List UsageInsert) : UsageStore :=
  inserts.foldl insertOne store

/-- An end user that has just been created, of which the log has no row. -/
structure StartsFresh (userId : Uuid) (store : UsageStore) : Prop where
  noRows : rowsOf userId store = []
  zero : ∃ u, EndUserRepo.findById userId store.db = some u ∧ u.totalInputTokens = 0 ∧
    u.totalOutputTokens = 0 ∧ u.totalCostUsd = 0.0 ∧ u.requestCount = 0 ∧ u.currentMonthTokens = 0

/-- What the trigger keeps: lifetime sums, and the lifetime tokens as the monthly counter. -/
def CountersKept (userId : Uuid) (store : UsageStore) : Prop :=
  ∃ u, EndUserRepo.findById userId store.db = some u ∧ LifetimeRight (rowsOf userId store) u ∧
    u.currentMonthTokens = tokenSum (rowsOf userId store)

section Runs

variable {userId : Uuid} {store : UsageStore}

theorem StartsFresh.countersKept (h : StartsFresh userId store) : CountersKept userId store := by
  obtain ⟨u, hu, hinput, houtput, hcost, hcount, hmonth⟩ := h.zero
  refine ⟨u, hu, ?_, ?_⟩
  · rw [h.noRows]
    exact { input := hinput, output := houtput, cost := hcost, count := hcount }
  · rw [h.noRows]
    exact hmonth

/-- An insert fails and changes nothing, or stores its row. -/
theorem insertOne_cases (store : UsageStore) (i : UsageInsert) :
    insertOne store i = store ∨
      ∃ row, ApiKeyUsageRepo.create i.now i.id i.new store = .ok (row, insertOne store i) := by
  simp only [insertOne]
  split
  · rename_i row store' _ hcreate
    exact Or.inr ⟨row, hcreate⟩
  · exact Or.inl rfl

/-- An insert leaves the rows of an end user as they are, or adds its own. -/
theorem rowsOf_create {now : Timestamp} {id : Uuid} {new : NewApiKeyUsage} {store' : UsageStore}
    {row : ApiKeyUsage} (h : ApiKeyUsageRepo.create now id new store = .ok (row, store')) :
    rowsOf userId store'
      = rowsOf userId store ++ if new.endUserId = some userId then [row] else [] := by
  obtain ⟨hrow, husage, -⟩ := create_ok h
  have huser : row.endUserId = new.endUserId := by rw [hrow]
  rw [rowsOf, husage, List.filter_append, List.filter_singleton, huser]
  by_cases hid : new.endUserId = some userId
  · rw [if_pos hid, hid, BEq.rfl]
    rfl
  · have hne : (new.endUserId == some userId) = false := by simpa using hid
    rw [if_neg hid, hne]
    rfl

theorem rowsOf_insertOne (userId : Uuid) (store : UsageStore) (i : UsageInsert) :
    rowsOf userId (insertOne store i) = rowsOf userId store ∨
      ∃ r, rowsOf userId (insertOne store i) = rowsOf userId store ++ [r] := by
  rcases insertOne_cases store i with h | ⟨row, hcreate⟩
  · rw [h]
    exact Or.inl rfl
  · rw [rowsOf_create hcreate]
    split
    · exact Or.inr ⟨row, rfl⟩
    · exact Or.inl (List.append_nil _)

/-- One insert keeps the counters, whomever it is for. -/
theorem CountersKept.insertOne (h : CountersKept userId store) (i : UsageInsert) :
    CountersKept userId (insertOne store i) := by
  obtain ⟨u, hu, hlifetime, hmonth⟩ := h
  rcases insertOne_cases store i with hsame | ⟨row, hcreate⟩
  · rw [hsame]
    exact ⟨u, hu, hlifetime, hmonth⟩
  · obtain ⟨u', hu', hother, hsame⟩ := findById_create hcreate hu
    refine ⟨u', hu', ?_⟩
    rw [rowsOf_create hcreate]
    by_cases hid : i.new.endUserId = some userId
    · rw [if_pos hid, tokenSum_snoc, ← hmonth]
      exact hlifetime.trigger (hsame hid)
    · rw [if_neg hid, List.append_nil, hother hid]
      exact ⟨hlifetime, hmonth⟩

/-- After any inserts the lifetime counters are right, and the monthly counter is the
lifetime's tokens. -/
theorem lifetime_of_insertAll (h : StartsFresh userId store) (inserts : List UsageInsert) :
    CountersKept userId (insertAll store inserts) := by
  induction inserts using List.reverseRecOn with
  | nil => exact h.countersKept
  | append_singleton inserts i ih =>
      rw [insertAll, List.foldl_append]
      exact ih.insertOne i

/-- Every initial part of a user's rows was all of them after some of the inserts. -/
theorem exists_prefix_rows (h : StartsFresh userId store) (inserts : List UsageInsert)
    {rows : List ApiKeyUsage} (hrows : rows <+: rowsOf userId (insertAll store inserts)) :
    ∃ pre, pre <+: inserts ∧ rowsOf userId (insertAll store pre) = rows := by
  induction inserts using List.reverseRecOn with
  | nil =>
      refine ⟨[], List.prefix_rfl, ?_⟩
      rw [insertAll, List.foldl_nil, h.noRows] at hrows ⊢
      exact (List.prefix_nil.mp hrows).symm
  | append_singleton inserts i ih =>
      have hsplit : insertAll store (inserts ++ [i]) = insertOne (insertAll store inserts) i := by
        rw [insertAll, List.foldl_append]
        rfl
      -- the rows are an initial part of those before the last insert, or all of them
      have hcases : rows <+: rowsOf userId (insertAll store inserts) ∨
          rows = rowsOf userId (insertAll store (inserts ++ [i])) := by
        rw [hsplit] at hrows ⊢
        rcases rowsOf_insertOne userId (insertAll store inserts) i with hs | ⟨r, hs⟩
        · rw [hs] at hrows
          exact Or.inl hrows
        · rw [hs] at hrows ⊢
          exact (List.prefix_concat_iff.mp hrows).symm
      rcases hcases with hle | heq
      · obtain ⟨pre, hpre, heq⟩ := ih hle
        exact ⟨pre, hpre.trans (List.prefix_append _ _), heq⟩
      · exact ⟨inserts ++ [i], List.prefix_rfl, heq.symm⟩

theorem rowsOf_insertAll_prefix (userId : Uuid) (store : UsageStore) {pre inserts : List UsageInsert}
    (hpre : pre <+: inserts) :
    rowsOf userId (insertAll store pre) <+: rowsOf userId (insertAll store inserts) := by
  obtain ⟨rest, rfl⟩ := hpre
  induction rest using List.reverseRecOn with
  | nil => rw [List.append_nil]
  | append_singleton rest i ih =>
      have hsplit : insertAll store (pre ++ (rest ++ [i])) = insertOne (insertAll store (pre ++ rest)) i := by
        rw [← List.append_assoc, insertAll, List.foldl_append]
        rfl
      rw [hsplit]
      rcases rowsOf_insertOne userId (insertAll store (pre ++ rest)) i with hs | ⟨r, hs⟩
      · rw [hs]
        exact ih
      · rw [hs]
        exact ih.trans (List.prefix_append _ _)

end Runs

/-- For every end user and every sequence of inserts into the usage log: after each insert
all counters of the user are right, if and only if whenever a row of the user was inserted,
the rows inserted for it in other months before had no tokens. -/
theorem end_user_counters_iff (month : Timestamp → String) (userId : Uuid) (store : UsageStore)
    (hfresh : StartsFresh userId store) (inserts : List UsageInsert) :
    (∀ pre, pre <+: inserts →
      ∃ u, EndUserRepo.findById userId (insertAll store pre).db = some u ∧
        CountersRight month (rowsOf userId (insertAll store pre)) u) ↔
    ∀ rows last, rows ++ [last] <+: rowsOf userId (insertAll store inserts) →
      tokenSum (outOfMonth month (month last.createdAt) rows) = 0 := by
  -- the last row is in its own month
  have hlast : ∀ rows last, outOfMonth month (month last.createdAt) (rows ++ [last])
      = outOfMonth month (month last.createdAt) rows := by
    intro rows last
    simp [outOfMonth]
  constructor
  · intro hright rows last hrows
    obtain ⟨pre, hpre, heq⟩ := exists_prefix_rows hfresh inserts hrows
    obtain ⟨u, hu, hcounters⟩ := hright pre hpre
    obtain ⟨u', hu', -, hmonth⟩ := lifetime_of_insertAll hfresh pre
    obtain rfl := Option.some.inj (hu.symm.trans hu')
    have hmonthly := hcounters.monthly last (by rw [heq, List.getLast?_concat])
    rw [heq] at hmonth hmonthly
    have hsplit := tokenSum_inMonth_add_outOfMonth month (month last.createdAt) (rows ++ [last])
    rw [hlast] at hsplit
    omega
  · intro hzero pre hpre
    obtain ⟨u, hu, hlifetime, hmonth⟩ := lifetime_of_insertAll hfresh pre
    refine ⟨u, hu, { hlifetime with monthly := ?_ }⟩
    intro last hl
    obtain ⟨rows, heq⟩ := List.getLast?_eq_some_iff.mp hl
    have hprefix := rowsOf_insertAll_prefix userId store hpre
    rw [heq] at hprefix hmonth ⊢
    have hsplit := tokenSum_inMonth_add_outOfMonth month (month last.createdAt) (rows ++ [last])
    rw [hlast, hzero rows last hprefix] at hsplit
    omega

/-! ## The recording function the trigger replaced -/

/-- A call of the recording function. -/
structure UsageRecord where
  now : Timestamp
  inputTokens : Int
  outputTokens : Int
  costUsd : Option Float := none

/-- The end user after a list of calls that all succeed. -/
def recordAll (month : Timestamp → String) (u : EndUser) (records : List UsageRecord) :
    Except DbError EndUser :=
  records.foldlM (fun u r => recordEndUserUsage month r.now r.inputTokens r.outputTokens r.costUsd u)
    u

/-- The tokens recorded in a month. -/
def recordedIn (month : Timestamp → String) (m : String) (records : List UsageRecord) : Int :=
  ((records.filter fun r => month r.now == m).map fun r => r.inputTokens + r.outputTokens).sum

section Record

variable {month : Timestamp → String} {u u' : EndUser} {r : UsageRecord}

/-- One call notes its month, and advances the monthly counter if that is the noted one, or
starts it again. -/
theorem recordEndUserUsage_ok
    (h : recordEndUserUsage month r.now r.inputTokens r.outputTokens r.costUsd u = .ok u') :
    u'.usageResetMonth = some (month r.now) ∧
      u'.currentMonthTokens =
        (if u.usageResetMonth = some (month r.now) then u.currentMonthTokens else 0)
          + (r.inputTokens + r.outputTokens) := by
  simp only [recordEndUserUsage, except_bind_eq_ok] at h
  obtain ⟨_, -, _, -, _, -, _, -, tokens, htokens, h⟩ := h
  obtain rfl := Except.ok.inj h
  refine ⟨rfl, ?_⟩
  show tokens = _
  by_cases hmonth : u.usageResetMonth = some (month r.now)
  · rw [if_pos hmonth] at htokens ⊢
    rw [except_bind_eq_ok] at htokens
    obtain ⟨withInput, hwith, htokens⟩ := htokens
    rw [bigintAdd_ok htokens, bigintAdd_ok hwith]
    omega
  · rw [if_neg hmonth] at htokens ⊢
    rw [intAdd_ok htokens]
    omega

theorem recordedIn_snoc (m : String) (records : List UsageRecord) :
    recordedIn month m (records ++ [r])
      = recordedIn month m records + if month r.now = m then r.inputTokens + r.outputTokens else 0 := by
  by_cases hr : month r.now = m
  · simp [recordedIn, hr]
  · simp [recordedIn, hr]

/-- When time only passes and months are intervals, calls of the recording function leave
the tokens of the last call's month in the monthly counter. -/
theorem monthly_of_recordAll
    (hmonth : ∀ a b c, a ≤ b → b ≤ c → month a = month c → month a = month b)
    (hfresh : u.usageResetMonth = none) {records : List UsageRecord}
    (htimes : records.Pairwise fun r r' => r.now ≤ r'.now)
    (h : recordAll month u records = .ok u') {last : UsageRecord}
    (hlast : records.getLast? = some last) :
    u'.usageResetMonth = some (month last.now) ∧
      u'.currentMonthTokens = recordedIn month (month last.now) records := by
  induction records using List.reverseRecOn generalizing u' last with
  | nil => cases hlast
  | append_singleton records r ih =>
      obtain rfl : r = last := by simpa using hlast
      rw [recordAll, List.foldlM_append, except_bind_eq_ok] at h
      obtain ⟨before, hbefore, h⟩ := h
      have hstep : recordEndUserUsage month r.now r.inputTokens r.outputTokens r.costUsd before
          = .ok u' := by simpa using h
      obtain ⟨hreset, htokens⟩ := recordEndUserUsage_ok hstep
      refine ⟨hreset, ?_⟩
      rw [htokens, recordedIn_snoc, if_pos rfl]
      obtain ⟨hsorted, -, hle⟩ := List.pairwise_append.mp htimes
      rcases List.eq_nil_or_concat' records with rfl | ⟨older, prev, rfl⟩
      · -- the first call of all
        obtain rfl : u = before := Except.ok.inj hbefore
        rw [hfresh, if_neg (by simp)]
        rfl
      · obtain ⟨hnoted, hcounter⟩ := ih hsorted hbefore (List.getLast?_concat)
        rw [hnoted]
        by_cases hsame : month prev.now = month r.now
        · rw [if_pos (congrArg some hsame), hcounter, hsame]
        · rw [if_neg (fun heq => hsame (Option.some.inj heq))]
          -- no earlier call is in the month of this one, as the previous call is between them
          have hnone : recordedIn month (month r.now) (older ++ [prev]) = 0 := by
            have hempty : ((older ++ [prev]).filter fun r' => month r'.now == month r.now) = [] := by
              rw [List.filter_eq_nil_iff]
              intro r' hr' heq
              have heq := eq_of_beq heq
              have hprev : r'.now ≤ prev.now := by
                rcases List.mem_append.mp hr' with holder | hr'
                · exact (List.pairwise_append.mp hsorted).2.2 r' holder prev (List.mem_singleton_self _)
                · rw [List.mem_singleton.mp hr']
              have hnow : prev.now ≤ r.now :=
                hle prev (List.mem_append_right _ (List.mem_singleton_self _)) r
                  (List.mem_singleton_self _)
              exact hsame ((hmonth r'.now prev.now r.now hprev hnow heq).symm.trans heq)
            rw [recordedIn, hempty]
            rfl
          rw [hnone]

end Record

namespace Sample

/-- The first two months of the calendar of instants. -/
def month (t : Timestamp) : String := if t / 86400000000 < 31 then "1970-01" else "1970-02"

/-- A store with one end user, of which nothing has been recorded. -/
def store : UsageStore where
  db :=
    { endUsers :=
        [{ id := 1, organizationId := 1, externalId := "customer", name := none, email := none,
           totalInputTokens := 0, totalOutputTokens := 0, totalCostUsd := 0.0, requestCount := 0,
           rateLimitRpm := none, monthlyTokenLimit := none, currentMonthTokens := 0,
           usageResetMonth := none, isBlocked := false, metadata := none, firstSeenAt := 0,
           lastSeenAt := 0, createdAt := 0, updatedAt := 0 }] }

/-- A row of 100 input and 20 output tokens for the end user. -/
def insertAt (now : Timestamp) (id : Uuid) : UsageInsert where
  now
  id
  new :=
    { apiKeyId := 9, requestId := "resp", modelId := "m", providerName := "p", inputTokens := 100,
      outputTokens := 20, cachedTokens := none, reasoningTokens := none, costUsd := some 0.5,
      endUserId := some 1, endUserExternalId := some "customer" }

/-- Two rows on the first of January. -/
def oneMonth : List UsageInsert := [insertAt 0 1, insertAt 5 2]

/-- A row on the first of January and one on the first of February. -/
def twoMonths : UsageStore := insertAll store [insertAt 0 1, insertAt (31 * 86400000000) 2]

theorem startsFresh : StartsFresh 1 store where
  noRows := rfl
  zero := ⟨_, rfl, rfl, rfl, rfl, rfl, rfl⟩

end Sample

/-- Two rows in one month leave all counters right. -/
theorem end_user_counters_sample :
    ∃ u, EndUserRepo.findById 1 (insertAll Sample.store Sample.oneMonth).db = some u ∧
      CountersRight Sample.month (rowsOf 1 (insertAll Sample.store Sample.oneMonth)) u := by
  refine (end_user_counters_iff Sample.month 1 Sample.store Sample.startsFresh Sample.oneMonth).mpr ?_
    Sample.oneMonth List.prefix_rfl
  intro rows last hrows
  have hall : ∀ r ∈ rowsOf 1 (insertAll Sample.store Sample.oneMonth),
      Sample.month r.createdAt = "1970-01" := by
    decide +kernel
  have hmem : ∀ r ∈ rows ++ [last], Sample.month r.createdAt = "1970-01" := by
    intro r hr
    exact hall r (hrows.subset hr)
  have hlast : Sample.month last.createdAt = "1970-01" :=
    hmem last (List.mem_append_right _ (List.mem_singleton_self _))
  have hempty : outOfMonth Sample.month (Sample.month last.createdAt) rows = [] := by
    rw [outOfMonth, List.filter_eq_nil_iff]
    intro r hr
    simp [hlast, hmem r (List.mem_append_left _ hr)]
  rw [hempty]
  rfl

/-- A row of each of two months: the monthly counter has the tokens of both. -/
theorem monthly_counter_not_reset :
    ∃ u last, EndUserRepo.findById 1 Sample.twoMonths.db = some u ∧
      (rowsOf 1 Sample.twoMonths).getLast? = some last ∧ u.currentMonthTokens = 240 ∧
      tokenSum (inMonth Sample.month (Sample.month last.createdAt) (rowsOf 1 Sample.twoMonths)) = 120 ∧
      ¬ CountersRight Sample.month (rowsOf 1 Sample.twoMonths) u := by
  have hcounter : (EndUserRepo.findById 1 Sample.twoMonths.db).map (·.currentMonthTokens)
      = some 240 := by
    decide +kernel
  have hsum : ((rowsOf 1 Sample.twoMonths).getLast?.map fun last =>
      tokenSum (inMonth Sample.month (Sample.month last.createdAt) (rowsOf 1 Sample.twoMonths))) = some 120 := by
    decide +kernel
  obtain ⟨u, hu, h240⟩ := Option.map_eq_some_iff.mp hcounter
  obtain ⟨last, hlast, h120⟩ := Option.map_eq_some_iff.mp hsum
  refine ⟨u, last, hu, hlast, h240, h120, ?_⟩
  intro hright
  have hmonthly := hright.monthly last hlast
  omega

end AuraGateway.Usage
