import AuraGateway.Decisions.Listing

/-!
# The pages of a listing

A listing is the page of its filter, cut off the matching rows below its cursor
(`fetch_after`); its cursor is read back from the query (`parseListQuery_cursor`). Following
the cursors gives every matching decision once, newest first (`decision_listing_complete`).
-/

set_option autoImplicit false

namespace AuraGateway.Decisions

open AuraGateway.Foundations AuraGateway.RustStd

/-! ## Rows -/

namespace Tables

variable (t : Tables)

/-- A decision with the log and the outcome that join it. -/
def row (d : RoutingDecision) : JoinedDecision where
  decision := d
  log := (t.logsOf d).head?
  outcome := (t.outcomesOf d).head?
  feedback := t.feedbackOf d

/-- Each decision joins at most one log and one outcome. -/
structure JoinsOnce : Prop where
  logs : ∀ d ∈ t.decisions, (t.logsOf d).length ≤ 1
  outcomes : ∀ d ∈ t.decisions, (t.outcomesOf d).length ≤ 1

theorem joined_eq (h : t.JoinsOnce) : t.joined = t.decisions.map t.row := by
  rw [joined, List.map_eq_flatMap]
  refine List.flatMap_congr fun d hd => ?_
  rw [leftJoin_of_length_le_one (h.logs d hd), leftJoin_of_length_le_one (h.outcomes d hd)]
  rfl

/-- The rows that match a filter. -/
def matching (f : RoutingDecisionFilter) : List JoinedDecision :=
  (t.decisions.map t.row).filter f.matchesRow

/-- The items that match a filter, newest first. -/
def listed (f : RoutingDecisionFilter) : List RoutingDecisionListItem :=
  (KeysetPages.newestFirst (fun j : JoinedDecision => j.decision.key) (t.matching f)).map
    JoinedDecision.item

end Tables

theorem nodup_keys {t : Tables} (h : (t.decisions.map (·.id)).Nodup) :
    ((t.decisions.map t.row).map fun j => j.decision.key).Nodup := by
  rw [List.map_map]
  refine List.Nodup.of_map (fun k : DateTime ×ₗ Uuid => (ofLex k).2) ?_
  rw [List.map_map]
  exact h

section Listed

variable {t : Tables} (f : RoutingDecisionFilter)

theorem descending_listed (h : (t.decisions.map (·.id)).Nodup) :
    KeysetPages.Descending RoutingDecisionListItem.key (t.listed f) := by
  have hkeys : ((t.matching f).map fun j => j.decision.key).Nodup :=
    (nodup_keys h).sublist (List.filter_sublist.map _)
  exact List.pairwise_map.mpr (KeysetPages.descending_newestFirst hkeys)

theorem listed_perm : (t.listed f).Perm ((t.matching f).map JoinedDecision.item) :=
  (KeysetPages.newestFirst_perm _ _).map _

/-- A listing is cut off the items below the cursor. -/
theorem list_eq (h : (t.decisions.map (·.id)).Nodup) (hjoins : t.JoinsOnce) (limit : Nat) :
    RoutingDecisionRepo.list t f limit
      = ((t.listed f).filter fun i => f.before.all fun k => i.key < toLex k).take limit := by
  have hkeys : ((t.matching f).map fun j => j.decision.key).Nodup :=
    (nodup_keys h).sublist (List.filter_sublist.map _)
  have hfilter : (t.decisions.map t.row).filter (fun j => f.matchesRow j && f.isBefore j.decision)
      = (t.matching f).filter fun j => f.isBefore j.decision := by
    rw [Tables.matching, List.filter_filter]
    refine List.filter_congr fun j _ => ?_
    rw [Bool.and_comm]
  rw [RoutingDecisionRepo.list, t.joined_eq hjoins, hfilter,
    KeysetPages.newestFirst_filter hkeys, List.map_take, Tables.listed, List.filter_map]
  rfl

end Listed

/-! ## Requests -/

theorem except_ok_bind {ε α β : Type} (a : α) (f : α → Except ε β) :
    ((.ok a : Except ε α) >>= f) = f a := rfl

/-- The cursor of a key. -/
def cursorOf (k : DateTime ×ₗ Uuid) : String := encodeCursor (ofLex k).1 (ofLex k).2

theorem parseLimit_pos {v : Option String} {limit : Nat} (h : parseLimit v = .ok limit) :
    0 < limit := by
  rw [parseLimit] at h
  split at h
  · cases h
    decide
  · split at h
    · cases h
      omega
    · cases h

/-- A parsed query has a page size, and without a cursor no key to start below. -/
theorem parseListQuery_ok {p : QueryParsers} {q : DecisionListQuery} {now : DateTime}
    {f : RoutingDecisionFilter} {limit : Nat} (h : parseListQuery p q now = .ok (f, limit)) :
    0 < limit ∧ parseCursor p q.cursor = .ok f.before := by
  simp only [parseListQuery, except_bind_eq_ok] at h
  obtain ⟨fromTime, -, toTime, -, -, -, synthetic, -, minReward, -, maxReward, -, -, -, minCost, -,
    maxCost, -, -, -, before, hbefore, limit', hlimit, mode, -, tier, -, classifiedTier, -,
    tierChanged, -, selectedModel, -, shadow, -, escalated, -, sticky, -, status, -, outcome, -,
    feedback, -, organizationId, -, apiKeyId, -, heq⟩ := h
  cases heq
  exact ⟨parseLimit_pos hlimit, hbefore⟩

theorem parseCursor_cursorOf {p : QueryParsers} (huuid : ∀ id : Uuid, p.uuid id.toText = some id)
    (k : DateTime ×ₗ Uuid) : parseCursor p (some (cursorOf k)) = .ok (some (ofLex k)) := by
  have htrim : trim (cursorOf k) = cursorOf k := by
    rw [trim, cursorOf, trimChars_encodeCursor, String.ofList_toList]
  have hnonempty : (cursorOf k).isEmpty = false := by
    rw [Bool.eq_false_iff]
    intro hempty
    have hdecode := decode_encode huuid (ofLex k).1 (ofLex k).2
    rw [← cursorOf, String.isEmpty_iff.mp hempty] at hdecode
    cases hdecode
  have hopt : opt (some (cursorOf k)) = some (cursorOf k) := by
    simp [opt, htrim, hnonempty]
  rw [parseCursor, hopt]
  simp only [cursorOf, decode_encode huuid]

/-- A cursor in the query is read back into the filter, and changes nothing else. -/
theorem parseListQuery_cursor {p : QueryParsers} (huuid : ∀ id : Uuid, p.uuid id.toText = some id)
    {q : DecisionListQuery} {now : DateTime} {f : RoutingDecisionFilter} {limit : Nat}
    (h : parseListQuery p { q with cursor := none } now = .ok (f, limit)) (k : DateTime ×ₗ Uuid) :
    parseListQuery p { q with cursor := some (cursorOf k) } now
      = .ok ({ f with before := some (ofLex k) }, limit) := by
  have hnone : parseCursor p none = .ok none := rfl
  have hfrom : ∀ cursor, parseFrom p { q with cursor := cursor } now = parseFrom p q now :=
    fun _ => rfl
  have hmap : parseListQuery p { q with cursor := some (cursorOf k) } now
      = (fun r : RoutingDecisionFilter × Nat => ({ r.1 with before := some (ofLex k) }, r.2))
        <$> parseListQuery p { q with cursor := none } now := by
    simp only [parseListQuery, parseCursor_cursorOf huuid, hnone, hfrom, map_bind, map_pure,
      except_ok_bind]
  rw [hmap, h]
  rfl

/-- The requests of a client that follows the cursors. -/
def requests (p : QueryParsers) (t : Tables) (q : DecisionListQuery) (clock : Nat → DateTime)
    (i : Nat) (cursor : Option String) :
    Except ApiError (List RoutingDecisionListItem × Option String) :=
  (listRoutingDecisions p (some t) { q with cursor := cursor } (clock i)).map fun r =>
    (r.decisions, r.nextCursor)

/-- A request gives the page that is cut off its listing. -/
theorem requests_eq {p : QueryParsers} {t : Tables} {q : DecisionListQuery}
    {clock : Nat → DateTime} {i : Nat} {cursor : Option String} {f : RoutingDecisionFilter}
    {limit : Nat} (h : parseListQuery p { q with cursor := cursor } (clock i) = .ok (f, limit)) :
    requests p t q clock i cursor
      = .ok (KeysetPages.page (cursorOf ∘ RoutingDecisionListItem.key) limit
          (RoutingDecisionRepo.list t f (limit + 1))) := by
  rw [requests, listRoutingDecisions, h, except_ok_bind, KeysetPages.page]
  dsimp only
  split
  · rfl
  · rfl

/-! ## All pages -/

/-- Following the cursors ends, and gives every decision that matches once, in descending
order; and decoding a cursor undoes encoding. -/
theorem decision_listing_complete (t : Tables) (hids : (t.decisions.map (·.id)).Nodup)
    (hjoins : t.JoinsOnce) (p : QueryParsers) (huuid : ∀ id : Uuid, p.uuid id.toText = some id)
    (q : DecisionListQuery) (clock : Nat → DateTime) (f : RoutingDecisionFilter) (limit : Nat)
    (hfixed : ∀ i, parseListQuery p { q with cursor := none } (clock i) = .ok (f, limit)) :
    (∃ pages, KeysetPages.Walk (requests p t q clock) 0 none pages)
      ∧ (∀ pages, KeysetPages.Walk (requests p t q clock) 0 none pages →
        KeysetPages.Descending RoutingDecisionListItem.key pages.flatten
          ∧ pages.flatten.Perm ((t.matching f).map JoinedDecision.item))
      ∧ ∀ createdAt id, decodeCursor p.uuid (encodeCursor createdAt id) = some (createdAt, id) := by
  obtain ⟨hlimit, hbefore⟩ := parseListQuery_ok (hfixed 0)
  have hnone : f.before = none := (Except.ok.inj hbefore).symm
  have hdescending := descending_listed f hids
  have hstart : requests p t q clock 0 none
      = .ok (KeysetPages.page (cursorOf ∘ RoutingDecisionListItem.key) limit
          ((t.listed f).take (limit + 1))) := by
    rw [requests_eq (hfixed 0), list_eq f hids hjoins, hnone]
    simp
  have hafter : ∀ i k, requests p t q clock i (some (cursorOf k))
      = .ok (KeysetPages.page (cursorOf ∘ RoutingDecisionListItem.key) limit
          (((t.listed f).filter fun a => a.key < k).take (limit + 1))) := by
    intro i k
    rw [requests_eq (parseListQuery_cursor huuid (hfixed i) k), list_eq _ hids hjoins]
    rfl
  obtain ⟨pages, hwalk, hflatten⟩ := KeysetPages.exists_walk hlimit hdescending hstart hafter
  refine ⟨⟨pages, hwalk⟩, fun pages' hwalk' => ?_, decode_encode huuid⟩
  rw [hwalk'.unique hwalk, hflatten]
  exact ⟨hdescending, listed_perm f⟩

/-! ### Three decisions on two pages -/

def hexValue (c : Char) : Nat := if c.isDigit then c.toNat - 48 else c.toNat - 87

/-- The number of a row of hexadecimal digits. -/
def ofHex (cs : List Char) : Nat := cs.foldl (fun n c => 16 * n + hexValue c) 0

theorem ofHex_hexChars (width n : Nat) : ofHex (hexChars width n) = n % 16 ^ width := by
  induction width generalizing n with
  | zero => simp [hexChars, ofHex, Nat.mod_one]
  | succ width ih =>
      have hdigit : hexValue (Nat.digitChar (n % 16)) = n % 16 := by
        have hlt : n % 16 < 16 := Nat.mod_lt _ (by decide)
        revert hlt
        generalize n % 16 = d
        intro hlt
        interval_cases d <;> decide
      have hfold : ofHex (hexChars (width + 1) n) = 16 * ofHex (hexChars width (n / 16)) + n % 16 := by
        rw [hexChars, ofHex, List.foldl_append, ofHex, List.foldl_cons, List.foldl_nil, hdigit]
      rw [hfold, ih, Nat.pow_succ', Nat.mod_mul, Nat.add_comm]

theorem length_hexChars (width n : Nat) : (hexChars width n).length = width := by
  induction width generalizing n with
  | zero => rfl
  | succ width ih => rw [hexChars, List.length_append, ih, List.length_singleton]

theorem hexChars_no_dash (width n : Nat) : ∀ c ∈ hexChars width n, c ≠ '-' := by
  induction width generalizing n with
  | zero => exact fun c hc => absurd hc List.not_mem_nil
  | succ width ih =>
      intro c hc
      rcases List.mem_append.mp hc with hc | hc
      · exact ih _ c hc
      · rw [List.mem_singleton.mp hc]
        have hlt : n % 16 < 16 := Nat.mod_lt _ (by decide)
        revert hlt
        generalize n % 16 = d
        intro hlt
        interval_cases d <;> decide

/-- A parser of the hyphenated form in lowercase. -/
def parseHyphenated (s : String) : Option Uuid :=
  let id : Uuid := Fin.ofNat _ (ofHex (s.toList.filter (· ≠ '-')))
  if id.toText = s then some id else none

theorem parseHyphenated_toText (id : Uuid) : parseHyphenated id.toText = some id := by
  have hdigits : id.toText.toList.filter (· ≠ '-') = hexChars 32 id.val := by
    have hno := hexChars_no_dash 32 id.val
    have hself : ∀ l : List Char, (∀ c ∈ l, c ∈ hexChars 32 id.val) →
        l.filter (fun c => decide (c ≠ '-')) = l := fun l hl =>
      List.filter_eq_self.mpr fun c hc => decide_eq_true (hno c (hl c hc))
    have hdash : decide ('-' ≠ '-') = false := by decide
    rw [Uuid.toText, String.toList_ofList]
    simp only [List.filter_append, List.filter_cons, hdash, Bool.false_eq_true, if_false]
    rw [hself _ fun c hc => List.mem_of_mem_take hc,
      hself _ fun c hc => List.mem_of_mem_drop (List.mem_of_mem_take hc),
      hself _ fun c hc => List.mem_of_mem_drop (List.mem_of_mem_take hc),
      hself _ fun c hc => List.mem_of_mem_drop (List.mem_of_mem_take hc),
      hself _ fun c hc => List.mem_of_mem_drop hc]
    generalize hexChars 32 id.val = h
    have hsplit : ∀ n, (h.drop n).take 4 ++ h.drop (n + 4) = h.drop n := by
      intro n
      rw [← List.drop_drop]
      exact List.take_append_drop 4 (h.drop n)
    rw [hsplit 16, hsplit 12, hsplit 8, List.take_append_drop]
  have hid : Fin.ofNat (2 ^ 128) (hexChars 32 id.val |> ofHex) = id := by
    refine Fin.ext ?_
    rw [Fin.val_ofNat, ofHex_hexChars]
    have hlt := id.isLt
    omega
  rw [parseHyphenated, hdigits]
  simp only [hid, if_true]

/-- A decision at a time. -/
def sampleDecision (id : Uuid) (responseId : String) (createdAt : DateTime) : RoutingDecision where
  id := id
  responseId := responseId
  providerResponseId := none
  organizationId := none
  apiKeyId := none
  mode := "balanced"
  classifiedTier := "simple"
  tier := "simple"
  selectedModel := "gpt-4o-mini"
  shadow := false
  synthetic := false
  hardFilters := []
  escalations := .array []
  createdAt := createdAt

theorem natCast_inMicros (n : Nat) (h : (n : Int) ≤ maxMicros) :
    minMicros ≤ (n : Int) ∧ (n : Int) ≤ maxMicros := by
  refine ⟨?_, h⟩
  simp only [minMicros]
  omega

def atMicros (n : Nat) (h : (n : Int) ≤ maxMicros := by decide) : DateTime :=
  ⟨n, natCast_inMicros n h⟩

def sampleTables : Tables where
  decisions :=
    [sampleDecision 1 "aura_1" (atMicros 10), sampleDecision 2 "aura_2" (atMicros 20),
      sampleDecision 3 "aura_3" (atMicros 20)]
  requestLogs := [⟨"aura_2", "completed", 0, none⟩]

def sampleParsers : QueryParsers where
  rfc3339 _ := none
  uuid := parseHyphenated
  f64 _ := none

theorem sampleParsers_uuid (id : Uuid) : sampleParsers.uuid id.toText = some id := by
  simp only [sampleParsers, parseHyphenated_toText]

/-- The filter of a query that asks for nothing. -/
def sampleFilter : RoutingDecisionFilter where
  fromTime := none
  toTime := none
  mode := none
  tier := none
  classifiedTier := none
  tierChanged := none
  selectedModel := none
  shadow := none
  synthetic := .exclude
  escalated := none
  sticky := none
  status := none
  outcome := none
  feedback := none
  minReward := none
  maxReward := none
  organizationId := none
  apiKeyId := none
  minCostUsd := none
  maxCostUsd := none
  before := none

/-- A query for pages of two. -/
def sampleQuery : DecisionListQuery where
  limit := some "2"

theorem parseListQuery_sampleQuery (now : DateTime) :
    parseListQuery sampleParsers { sampleQuery with cursor := none } now
      = .ok (sampleFilter, 2) := by
  have hopt : opt none = none := rfl
  have hlimit : parseLimit (some "2") = .ok 2 := by decide +kernel
  simp only [parseListQuery, parseFrom, parseTime, periodStart, parseSynthetic, parseF64,
    parseCursor, parseEnum, parseBool, parseText, parseUuid, checkBounds, sampleQuery, hopt,
    hlimit, except_ok_bind]
  rfl

theorem decision_listing_complete_sample :
    (∃ pages, KeysetPages.Walk
        (requests sampleParsers sampleTables sampleQuery fun _ => atMicros 30) 0 none pages)
      ∧ (∀ pages, KeysetPages.Walk
          (requests sampleParsers sampleTables sampleQuery fun _ => atMicros 30) 0 none pages →
        KeysetPages.Descending RoutingDecisionListItem.key pages.flatten
          ∧ pages.flatten.Perm ((sampleTables.matching sampleFilter).map JoinedDecision.item))
      ∧ ∀ createdAt id, decodeCursor sampleParsers.uuid (encodeCursor createdAt id)
          = some (createdAt, id) :=
  decision_listing_complete sampleTables (by decide) ⟨by decide, by decide⟩ sampleParsers
    sampleParsers_uuid sampleQuery (fun _ => atMicros 30) sampleFilter 2 fun _ =>
      parseListQuery_sampleQuery _

end AuraGateway.Decisions
