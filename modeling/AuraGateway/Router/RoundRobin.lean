import AuraGateway.Foundations.Rotation
import AuraGateway.Router.TierChoice

/-!
# Turns of a round robin

One counter serves all tiers of a catalog: each selection reads it and moves it on. A tier's
turns therefore depend on the selections of the other tiers between them. They are fair exactly
when the counter, as the tier's own selections find it, points to different models in each round
(`round_robin_fair_iff`). It does when one tier is alone (`counterSpreads_of_one_tier`);
selections that alternate between tiers may choose the same model each time
(`round_robin_starves`).
-/

set_option autoImplicit false

namespace AuraGateway.Router

open AuraGateway.RustStd AuraGateway.Types AuraGateway.Foundations

/-- One call of `select`: the tier it asks for, its bounds, and the samples it would draw. -/
structure SelectCall where
  tier : Tier
  minTier : Tier
  maxTier : Tier
  betaSample : Nat → ArmStats → Float

/-- `AtomicUsize::fetch_add` of one: the counter wraps. -/
def fetchAddOne (counter : Nat) : Nat := (counter + 1) % 2 ^ 64

/-- A selection with the counter it leaves; the counter moves when a round robin picks. -/
def TierCatalog.selectNext (cat : TierCatalog) (oracle : Eligibility) (counter : Nat)
    (call : SelectCall) : Checked (Nat × Option TierSelection) := do
  let draws : Draws := { rrCounter := counter, betaSample := call.betaSample }
  let found ← cat.select draws call.tier call.minTier call.maxTier oracle
  let picked := cat.strategy = .roundRobin ∧ found.isSome
  .ok (if picked then fetchAddOne counter else counter, found)

/-- The selections of some calls, one after another. -/
def TierCatalog.selectAll (cat : TierCatalog) (oracle : Eligibility) :
    Nat → List SelectCall → Checked (List TierSelection)
  | _, [] => .ok []
  | counter, call :: calls => do
      let (counter', found) ← cat.selectNext oracle counter call
      let rest ← cat.selectAll oracle counter' calls
      .ok (found.toList ++ rest)

/-- How often a model has been chosen when its tier was selected. -/
def chosenCount (selections : List TierSelection) (tier : Tier) (model : String) : Nat :=
  selections.countP fun s => s.tier = tier ∧ s.model = model

section Counter

variable (cat : TierCatalog) (eligible : String → Bool)

/-- Eligible models of a tier, in configured order. -/
def TierCatalog.eligibleIn (tier : Tier) : List String := (cat.tiers.get tier).filter eligible

/-- Whether a tier has an eligible model. -/
def TierCatalog.serves (tier : Tier) : Bool := (cat.tiers.get tier).any eligible

/-- The tier that serves a call: the first of its search order with an eligible model. -/
def TierCatalog.servedTier (call : SelectCall) : Option Tier :=
  (searchOrder call.tier call.minTier call.maxTier).find? (cat.serves eligible)

/-- The counter as the calls that a tier serves find it. -/
def TierCatalog.readings (tier : Tier) : Nat → List SelectCall → List Nat
  | _, [] => []
  | counter, call :: calls =>
      match cat.servedTier eligible call with
      | none => TierCatalog.readings tier counter calls
      | some t =>
          (if t = tier then [counter] else [])
            ++ TierCatalog.readings tier (fetchAddOne counter) calls

/-- The models of a tier in the order of its turns. -/
def TierCatalog.turns (tier : Tier) (counter : Nat) (calls : List SelectCall) : List String :=
  (cat.readings eligible tier counter calls).filterMap
    (Rotation.pointed (cat.eligibleIn eligible tier))

/-- No eligible model of a tier has been chosen more than once more often than another. -/
def Fair (selections : List TierSelection) : Prop :=
  ∀ tier, Rotation.Even (cat.eligibleIn eligible tier).toFinset (chosenCount selections tier)

/-- In each round of a tier the counter points to different models. -/
def CounterSpreads (calls : List SelectCall) : Prop :=
  ∀ tier, Rotation.Spread (cat.eligibleIn eligible tier).toFinset.card []
    (cat.turns eligible tier 0 calls)

end Counter

/-! ## One selection -/

section Selection

variable {oracle : Eligibility} {eligible : String → Bool} {cat : TierCatalog} {draws : Draws}

/-- A round robin picks the entry that the counter points to. -/
theorem pointed_of_pick {tier : Tier} {models : List String} {model why : String}
    (h : pick .roundRobin draws oracle tier (eligibleOf oracle eligible tier models)
      = some (model, why)) : Rotation.pointed (models.filter eligible) draws.rrCounter = some model := by
  have hmodels : (eligibleOf oracle eligible tier models).map (·.1.model) = models.filter eligible :=
    map_eligible tier models 0
  rw [← hmodels, Rotation.pointed, List.length_map, List.getElem?_map]
  cases heq : eligibleOf oracle eligible tier models with
  | nil =>
      rw [heq] at h
      cases h
  | cons head rest =>
      rw [heq, pick] at h
      obtain ⟨hmodel, -⟩ := Prod.mk.inj (Option.some.inj h)
      have hlt : draws.rrCounter % (head :: rest).length < (head :: rest).length :=
        Nat.mod_lt _ (Nat.succ_pos _)
      rw [List.getElem?_eq_getElem hlt, Option.getD_some] at hmodel
      rw [List.getElem?_eq_getElem hlt, Option.map_some, hmodel]

/-- A tier serves a call unless all of its models are turned down. -/
theorem serves_eq_false_iff {t : Tier} :
    cat.serves eligible t = false ↔ AllIneligible eligible cat.tiers t := by
  rw [TierCatalog.serves, List.any_eq_false]
  exact forall₂_congr fun m _ => Bool.not_eq_true _ ▸ Iff.rfl

theorem find?_serves_eq_none {order : List Tier}
    (h : ∀ t ∈ order, AllIneligible eligible cat.tiers t) :
    order.find? (cat.serves eligible) = none := by
  rw [List.find?_eq_none]
  intro t ht
  rw [serves_eq_false_iff.mpr (h t ht)]
  exact Bool.false_ne_true

/-- The search ends at the first tier with an eligible model. -/
theorem EndsAt.find? {order : List Tier} {seen : List CandidateInfo} {sel : TierSelection}
    (h : EndsAt oracle eligible cat draws order seen sel) :
    order.find? (cat.serves eligible) = some sel.tier := by
  obtain ⟨passed, rest, rfl, hpassed, -⟩ := h.first
  have hserves : cat.serves eligible sel.tier = true :=
    List.any_eq_true.mpr ⟨sel.model, h.chosen.listed, h.chosen.accepted⟩
  rw [List.find?_append, find?_serves_eq_none hpassed, List.find?_cons_of_pos hserves,
    Option.none_or]

/-- A call selects from the tier that serves it, the model that the counter points to. -/
theorem selectNext_spec (hanswers : ∀ m, oracle.isEligible m = .ok (eligible m))
    (hstrategy : cat.strategy = .roundRobin) (counter : Nat) (call : SelectCall) :
    ∃ found, cat.selectNext oracle counter call
        = .ok (if found.isSome then fetchAddOne counter else counter, found)
      ∧ cat.servedTier eligible call = found.map (·.tier)
      ∧ ∀ sel ∈ found, Rotation.pointed (cat.eligibleIn eligible sel.tier) counter = some sel.model := by
  have hspec := searchTiers_spec cat { rrCounter := counter, betaSample := call.betaSample } hanswers
    call.tier (searchOrder call.tier call.minTier call.maxTier) []
  rcases hspec with ⟨hnone, hall⟩ | ⟨sel, hsel, hends⟩
  · refine ⟨none, ?_, find?_serves_eq_none hall, fun _ h => nomatch h⟩
    rw [TierCatalog.selectNext, TierCatalog.select, hnone]
    simp [bind, Except.bind]
  · refine ⟨some sel, ?_, hends.find?, ?_⟩
    · rw [TierCatalog.selectNext, TierCatalog.select, hsel, hstrategy]
      simp [bind, Except.bind]
    · rintro _ ⟨⟩
      obtain ⟨why, hpick⟩ := hends.picked
      rw [hstrategy] at hpick
      exact pointed_of_pick hpick

/-! ## A run of selections -/

theorem readings_cons_none {tier : Tier} {counter : Nat} {call : SelectCall}
    {calls : List SelectCall} (h : cat.servedTier eligible call = none) :
    cat.readings eligible tier counter (call :: calls) = cat.readings eligible tier counter calls := by
  rw [TierCatalog.readings, h]

theorem readings_cons_some {tier t : Tier} {counter : Nat} {call : SelectCall}
    {calls : List SelectCall} (h : cat.servedTier eligible call = some t) :
    cat.readings eligible tier counter (call :: calls) = (if t = tier then [counter] else [])
      ++ cat.readings eligible tier (fetchAddOne counter) calls := by
  rw [TierCatalog.readings, h]

/-- Every call returns, and the selections of a tier are its turns. -/
theorem selectAll_spec (hanswers : ∀ m, oracle.isEligible m = .ok (eligible m))
    (hstrategy : cat.strategy = .roundRobin) (counter : Nat) (calls : List SelectCall) :
    ∃ selections, cat.selectAll oracle counter calls = .ok selections
      ∧ ∀ tier, (selections.filter fun s => s.tier = tier).map (·.model)
          = cat.turns eligible tier counter calls := by
  induction calls generalizing counter with
  | nil => exact ⟨[], rfl, fun _ => rfl⟩
  | cons call calls ih =>
      obtain ⟨found, hnext, hserved, hpointed⟩ := selectNext_spec hanswers hstrategy counter call
      obtain ⟨rest, hrest, hturns⟩ := ih (if found.isSome then fetchAddOne counter else counter)
      refine ⟨found.toList ++ rest, ?_, fun tier => ?_⟩
      · rw [TierCatalog.selectAll, hnext]
        simp only [bind, Except.bind]
        rw [hrest]
      · rw [TierCatalog.turns]
        cases found with
        | none =>
            rw [readings_cons_none hserved]
            exact hturns tier
        | some sel =>
            rw [readings_cons_some hserved, List.filterMap_append, Option.toList_some,
              List.singleton_append, List.filter_cons]
            have hmodel := hpointed sel rfl
            by_cases htier : sel.tier = tier
            · subst htier
              rw [if_pos (decide_eq_true rfl), if_pos rfl, List.map_cons, hturns]
              simp [hmodel, TierCatalog.turns]
            · rw [if_neg (by simpa using htier), if_neg htier, hturns]
              rfl

/-- A call adds at most one turn, and the rest are turns of the calls after it. -/
theorem turns_cons (cat : TierCatalog) (eligible : String → Bool) (tier : Tier) (counter : Nat)
    (call : SelectCall) :
    ∃ (turn : Option String) (next : Nat), ∀ calls, cat.turns eligible tier counter (call :: calls)
      = turn.toList ++ cat.turns eligible tier next calls := by
  cases hserved : cat.servedTier eligible call with
  | none =>
      refine ⟨none, counter, fun calls => ?_⟩
      rw [TierCatalog.turns, readings_cons_none hserved]
      rfl
  | some t =>
      by_cases htier : t = tier
      · refine ⟨Rotation.pointed (cat.eligibleIn eligible tier) counter, fetchAddOne counter, fun calls => ?_⟩
        rw [TierCatalog.turns, readings_cons_some hserved, if_pos htier, List.filterMap_append]
        cases hturn : Rotation.pointed (cat.eligibleIn eligible tier) counter with
        | none => rw [List.filterMap_cons_none hturn]; rfl
        | some m => rw [List.filterMap_cons_some hturn]; rfl
      · refine ⟨none, fetchAddOne counter, fun calls => ?_⟩
        rw [TierCatalog.turns, readings_cons_some hserved, if_neg htier]
        rfl

/-- Turns of some calls begin with those of the calls before. -/
theorem turns_mono {tier : Tier} {counter : Nat} {earlier calls : List SelectCall}
    (h : earlier <+: calls) :
    cat.turns eligible tier counter earlier <+: cat.turns eligible tier counter calls := by
  induction calls generalizing counter earlier with
  | nil => rw [List.prefix_nil.mp h]
  | cons call calls ih =>
      rcases List.prefix_cons_iff.mp h with rfl | ⟨rest, rfl, hrest⟩
      · exact List.nil_prefix
      · obtain ⟨turn, next, hturns⟩ := turns_cons cat eligible tier counter call
        rw [hturns, hturns]
        exact (List.prefix_append_right_inj _).mpr (ih hrest)

/-- Any first turns are the turns of some first calls. -/
theorem exists_turns_eq {tier : Tier} {counter : Nat} {calls : List SelectCall}
    {taken : List String} (h : taken <+: cat.turns eligible tier counter calls) :
    ∃ earlier, earlier <+: calls ∧ cat.turns eligible tier counter earlier = taken := by
  induction calls generalizing counter taken with
  | nil => exact ⟨[], List.nil_prefix, (List.prefix_nil.mp h).symm⟩
  | cons call calls ih =>
      obtain ⟨turn, next, hturns⟩ := turns_cons cat eligible tier counter call
      rw [hturns] at h
      -- either the turns end before this call, or they go on after it
      have hcases : taken = [] ∨ ∃ rest, taken = turn.toList ++ rest
          ∧ rest <+: cat.turns eligible tier next calls := by
        cases turn with
        | none => exact .inr ⟨taken, rfl, h⟩
        | some m => exact List.prefix_cons_iff.mp h
      rcases hcases with rfl | ⟨rest, rfl, hrest⟩
      · exact ⟨[], List.nil_prefix, rfl⟩
      · obtain ⟨earlier, hearlier, rfl⟩ := ih hrest
        exact ⟨call :: earlier, List.cons_prefix_cons.mpr ⟨rfl, hearlier⟩, hturns earlier⟩

/-- A tier that serves every call finds consecutive values, until the counter wraps. -/
theorem readings_of_one_tier {tier : Tier} {calls : List SelectCall} {counter : Nat}
    (hserved : ∀ call ∈ calls, cat.servedTier eligible call = some tier)
    (hfew : counter + calls.length ≤ 2 ^ 64) :
    cat.readings eligible tier counter calls = List.range' counter calls.length := by
  induction calls generalizing counter with
  | nil => rfl
  | cons call calls ih =>
      obtain ⟨hcall, hcalls⟩ := List.forall_mem_cons.mp hserved
      rw [List.length_cons] at hfew
      rw [readings_cons_some hcall, if_pos rfl, List.length_cons, List.range'_succ]
      cases calls with
      | nil => rfl
      | cons next calls =>
          rw [List.length_cons] at hfew
          have hnext : fetchAddOne counter = counter + 1 := Nat.mod_eq_of_lt (by omega)
          rw [hnext, ih hcalls (by rw [List.length_cons]; omega)]
          rfl

theorem readings_of_other_tier {tier other : Tier} (hother : tier ≠ other) {calls : List SelectCall}
    (hserved : ∀ call ∈ calls, cat.servedTier eligible call = some tier) (counter : Nat) :
    cat.readings eligible other counter calls = [] := by
  induction calls generalizing counter with
  | nil => rfl
  | cons call calls ih =>
      obtain ⟨hcall, hcalls⟩ := List.forall_mem_cons.mp hserved
      rw [readings_cons_some hcall, if_neg hother, ih hcalls]
      rfl

/-- Selections of one tier alone are spread. -/
theorem counterSpreads_of_one_tier {tier : Tier} {calls : List SelectCall}
    (hserved : ∀ call ∈ calls, cat.servedTier eligible call = some tier)
    (hnodup : (cat.eligibleIn eligible tier).Nodup) (hfew : calls.length ≤ 2 ^ 64) :
    CounterSpreads cat eligible calls := by
  intro other
  by_cases hother : tier = other
  · subst hother
    have hcycle := Rotation.spread_cycle hnodup 0 calls.length
    rw [Nat.zero_mod, List.take_zero, List.reverse_nil] at hcycle
    rw [TierCatalog.turns, readings_of_one_tier hserved (by omega),
      List.toFinset_card_of_nodup hnodup]
    exact hcycle
  · rw [TierCatalog.turns, readings_of_other_tier hother hserved]
    trivial

theorem mem_of_mem_turns {tier : Tier} {counter : Nat} {calls : List SelectCall} {m : String}
    (h : m ∈ cat.turns eligible tier counter calls) :
    m ∈ (cat.eligibleIn eligible tier).toFinset := by
  obtain ⟨n, -, hn⟩ := List.mem_filterMap.mp h
  exact List.mem_toFinset.mpr (List.mem_of_getElem? hn)

/-- A model is chosen as often as it has a turn. -/
theorem chosenCount_eq_count {selections : List TierSelection} {tier : Tier} {turns : List String}
    (h : (selections.filter fun s => s.tier = tier).map (·.model) = turns) :
    chosenCount selections tier = fun m => turns.count m := by
  funext m
  rw [← h, chosenCount, List.count, List.countP_map, List.countP_filter]
  refine List.countP_congr fun s _ => ?_
  simp [and_comm]

/-- Selections after some calls are fair exactly when the turns of every tier are even. -/
theorem fair_iff (hanswers : ∀ m, oracle.isEligible m = .ok (eligible m))
    (hstrategy : cat.strategy = .roundRobin) (calls : List SelectCall) :
    (∃ selections, cat.selectAll oracle 0 calls = .ok selections ∧ Fair cat eligible selections)
      ↔ ∀ tier, Rotation.Even (cat.eligibleIn eligible tier).toFinset
          fun m => (cat.turns eligible tier 0 calls).count m := by
  obtain ⟨selections, hrun, hturns⟩ := selectAll_spec hanswers hstrategy 0 calls
  constructor
  · rintro ⟨s, hs, hfair⟩ tier
    rw [hrun] at hs
    obtain rfl := Except.ok.inj hs
    rw [← chosenCount_eq_count (hturns tier)]
    exact hfair tier
  · intro heven
    refine ⟨selections, hrun, fun tier => ?_⟩
    rw [chosenCount_eq_count (hturns tier)]
    exact heven tier

/-- Selections stay fair over a run exactly when the counter points to different models in each
round of each tier. -/
theorem round_robin_fair_iff (cat : TierCatalog) (oracle : Eligibility) (eligible : String → Bool)
    (hanswers : ∀ m, oracle.isEligible m = .ok (eligible m)) (hstrategy : cat.strategy = .roundRobin)
    (calls : List SelectCall) :
    (∀ earlier, earlier <+: calls → ∃ selections,
        cat.selectAll oracle 0 earlier = .ok selections ∧ Fair cat eligible selections)
      ↔ CounterSpreads cat eligible calls := by
  have hspread : CounterSpreads cat eligible calls ↔ ∀ tier taken,
      taken <+: cat.turns eligible tier 0 calls →
        Rotation.Even (cat.eligibleIn eligible tier).toFinset fun m => taken.count m :=
    forall_congr' fun tier => (Rotation.even_prefixes_iff fun _ => mem_of_mem_turns).symm
  rw [hspread]
  constructor
  · intro hfair tier taken htaken
    obtain ⟨earlier, hearlier, rfl⟩ := exists_turns_eq htaken
    exact (fair_iff hanswers hstrategy earlier).mp (hfair earlier hearlier) tier
  · intro heven earlier hearlier
    exact (fair_iff hanswers hstrategy earlier).mpr fun tier =>
      heven tier _ (turns_mono hearlier)

end Selection

/-! ## Alternating tiers -/

namespace Sample

/-- Two models in each of the two lower tiers. -/
def twoTiers : TierCatalog where
  tiers := { simple := ["a", "b"], medium := ["c", "d"], complex := [], reasoning := [] }
  strategy := .roundRobin

/-- Every model is eligible. -/
def openOracle : Eligibility where
  isEligible := fun _ => .ok true
  blendedCostPerMillion := fun _ => none
  providerOf := fun _ => none

/-- A call for one tier only. -/
def callFor (tier : Tier) : SelectCall where
  tier := tier
  minTier := tier
  maxTier := tier
  betaSample := fun _ _ => 0

end Sample

open Sample in
theorem round_robin_fair_iff_sample : ∃ selections,
    twoTiers.selectAll openOracle 0 ([.simple, .simple, .medium, .medium, .simple].map callFor)
        = .ok selections
      ∧ Fair twoTiers (fun _ => true) selections := by
  have hspreads : CounterSpreads twoTiers (fun _ => true)
      ([.simple, .simple, .medium, .medium, .simple].map callFor) := by
    intro tier
    cases tier <;> decide
  exact (round_robin_fair_iff twoTiers openOracle (fun _ => true) (fun _ => rfl) rfl _).mpr hspreads
    _ List.prefix_rfl

open Sample in
/-- Calls that alternate between two tiers find the first model of the lower one each time. -/
theorem round_robin_starves : ∃ selections,
    twoTiers.selectAll openOracle 0 ([.simple, .medium, .simple].map callFor) = .ok selections
      ∧ ¬ Fair twoTiers (fun _ => true) selections := by
  refine ⟨_, rfl, fun hfair => ?_⟩
  have hle := hfair .simple "a" (by decide) "b" (by decide)
  exact absurd hle (by decide)

end AuraGateway.Router
