import AuraGateway.Router.TierCatalog

/-!
# What a tier selection chooses

`TierCatalog.select` for an oracle that answers: the first tier of the search order with an
eligible model, the candidates of the tiers searched, and the model that the strategy picks.
A pick by price is a first minimum (`minBy_le`). Prices that are not `NaN` are compared by
their ranks and then by position, so that the pick is the earliest of the cheapest
(`cheapestBy_spec`).
-/

set_option autoImplicit false

namespace AuraGateway.Router

open AuraGateway.RustStd AuraGateway.Types AuraGateway.Foundations.FloatOrder

/-! ## First minima -/

/-- A comparison that agrees with the order of keys finds a least key. -/
theorem minBy_le {α κ : Type} [LinearOrder κ] {cmp : α → α → Ordering} (key : α → κ) {l : List α}
    (hcmp : ∀ a ∈ l, ∀ b ∈ l, cmp a b = compare (key a) (key b)) {a : α}
    (h : minBy cmp l = some a) : ∀ x ∈ l, key a ≤ key x := by
  have hfold : ∀ (l : List α) (b : α),
      (∀ a ∈ b :: l, ∀ c ∈ b :: l, cmp a c = compare (key a) (key c)) →
        ∀ x ∈ b :: l, key (l.foldl (fun best x => if cmp best x = .gt then x else best) b) ≤ key x := by
    intro l
    induction l with
    | nil =>
        intro b _ x hx
        rw [List.mem_singleton.mp hx]
        exact le_rfl
    | cons c l ih =>
        intro b hcmp x hx
        rw [List.foldl_cons]
        have hbc := hcmp b List.mem_cons_self c (List.mem_cons_of_mem b List.mem_cons_self)
        by_cases hgt : cmp b c = .gt
        · rw [if_pos hgt]
          have hlt : key c < key b := compare_gt_iff_gt.mp (hbc.symm.trans hgt)
          have hrest := ih c fun a ha d hd =>
            hcmp a (List.mem_cons_of_mem b ha) d (List.mem_cons_of_mem b hd)
          rcases List.mem_cons.mp hx with rfl | hx
          · exact (hrest c List.mem_cons_self).trans hlt.le
          · exact hrest x hx
        · rw [if_neg hgt]
          have hle : key b ≤ key c := by
            rw [hbc] at hgt
            exact compare_le_iff_le.mp hgt
          have hsub : b :: l ⊆ b :: c :: l := List.cons_subset_cons b (List.subset_cons_self c l)
          have hrest := ih b fun a ha d hd => hcmp a (hsub ha) d (hsub hd)
          rcases List.mem_cons.mp hx with rfl | hx
          · exact hrest x List.mem_cons_self
          · rcases List.mem_cons.mp hx with rfl | hx
            · exact (hrest b List.mem_cons_self).trans hle
            · exact hrest x (List.mem_cons_of_mem b hx)
  cases l with
  | nil => cases h
  | cons b l =>
      obtain rfl := Option.some.inj h
      exact hfold l b hcmp

theorem minBy_eq_none_iff {α : Type} {cmp : α → α → Ordering} {l : List α} :
    minBy cmp l = none ↔ l = [] := by
  cases l with
  | nil => exact iff_of_true rfl rfl
  | cons a l => exact iff_of_false (Option.some_ne_none _) (List.cons_ne_nil a l)

/-! ## Picks by price -/

/-- Rank of a price that is not `NaN`. -/
def priceRank (p : Float) : Rank := (rank p).getD (toLex (0, toLex (0, 0)))

theorem rank_eq_priceRank {p : Float} (hp : p.isNaN = false) : rank p = some (priceRank p) := by
  cases hr : rank p with
  | none =>
      rw [(isNaN_iff_rank p).mpr hr] at hp
      cases hp
  | some r => rw [priceRank, hr, Option.getD_some]

theorem priceRank_le_iff {p q : Float} (hp : p.isNaN = false) (hq : q.isNaN = false) :
    priceRank p ≤ priceRank q ↔ p ≤ q := by
  rw [le_iff_rank, rank_eq_priceRank hp, rank_eq_priceRank hq]
  simp

theorem priceRank_lt_iff {p q : Float} (hp : p.isNaN = false) (hq : q.isNaN = false) :
    priceRank p < priceRank q ↔ p < q := by
  rw [lt_iff_rank, rank_eq_priceRank hp, rank_eq_priceRank hq]
  simp

/-- Price and position of a candidate. -/
def priceKey (a : CandidateInfo × Nat × Float) : Rank ×ₗ Nat := toLex (priceRank a.2.2, a.2.1)

theorem byPrice_eq_compare {a b : CandidateInfo × Nat × Float} (ha : a.2.2.isNaN = false)
    (hb : b.2.2.isNaN = false) : byPrice a b = compare (priceKey a) (priceKey b) := by
  have hcompare : f64PartialCmp a.2.2 b.2.2
      = some (compare (priceRank a.2.2) (priceRank b.2.2)) := by
    have hranks : f64PartialCmp a.2.2 b.2.2 = compareRank (rank a.2.2) (rank b.2.2) :=
      unpacked_compare_eq a.2.2.toModel.unpack b.2.2.toModel.unpack
    rw [hranks, rank_eq_priceRank ha, rank_eq_priceRank hb]
    rfl
  rw [byPrice, hcompare, priceKey, priceKey, compare_toLex, Option.getD_some]

/-- Candidates with their prices, those that have one. -/
def priced (price : CandidateInfo → Option Float) (eligible : List (CandidateInfo × Nat)) :
    List (CandidateInfo × Nat × Float) :=
  eligible.filterMap fun e => (price e.1).map fun c => (e.1, e.2, c)

theorem mem_priced {price : CandidateInfo → Option Float} {eligible : List (CandidateInfo × Nat)}
    {c : CandidateInfo} {i : Nat} {p : Float} :
    (c, i, p) ∈ priced price eligible ↔ (c, i) ∈ eligible ∧ price c = some p := by
  rw [priced, List.mem_filterMap]
  constructor
  · rintro ⟨e, he, hp⟩
    obtain ⟨q, hq, heq⟩ := Option.map_eq_some_iff.mp hp
    obtain ⟨rfl, hrest⟩ := Prod.mk.inj heq
    obtain ⟨rfl, rfl⟩ := Prod.mk.inj hrest
    exact ⟨he, hq⟩
  · rintro ⟨he, hp⟩
    exact ⟨(c, i), he, Option.map_eq_some_iff.mpr ⟨p, hp, rfl⟩⟩

/-- The earliest of the cheapest candidates. -/
theorem cheapestBy_spec {price : CandidateInfo → Option Float}
    {eligible : List (CandidateInfo × Nat)}
    (hnum : ∀ c i p, (c, i) ∈ eligible → price c = some p → p.isNaN = false) {c : CandidateInfo}
    {i : Nat} {p : Float} (h : cheapestBy price eligible = some (c, i, p)) :
    (c, i) ∈ eligible ∧ price c = some p
      ∧ ∀ c' j p', (c', j) ∈ eligible → price c' = some p' → p ≤ p' ∧ (j < i → p < p') := by
  have hmin : minBy byPrice (priced price eligible) = some (c, i, p) := h
  have hnan : ∀ x ∈ priced price eligible, x.2.2.isNaN = false := by
    rintro ⟨d, j, q⟩ hx
    obtain ⟨he, hq⟩ := mem_priced.mp hx
    exact hnum d j q he hq
  have hleast : ∀ x ∈ priced price eligible, priceKey (c, i, p) ≤ priceKey x :=
    minBy_le priceKey (fun a ha b hb => byPrice_eq_compare (hnan a ha) (hnan b hb)) hmin
  obtain ⟨hin, hprice⟩ := mem_priced.mp (minBy_mem hmin)
  refine ⟨hin, hprice, fun c' j p' he' hp' => ?_⟩
  have hp : p.isNaN = false := hnum c i p hin hprice
  have hp'' : p'.isNaN = false := hnum c' j p' he' hp'
  have hle := hleast (c', j, p') (mem_priced.mpr ⟨he', hp'⟩)
  rcases Prod.Lex.toLex_le_toLex.mp hle with hlt | ⟨heq, hij⟩
  · exact ⟨(priceRank_le_iff hp hp'').mp hlt.le, fun _ => (priceRank_lt_iff hp hp'').mp hlt⟩
  · exact ⟨(priceRank_le_iff hp hp'').mp heq.le, fun hji => absurd hij (not_le.mpr hji)⟩

theorem cheapestBy_eq_none_iff {price : CandidateInfo → Option Float}
    {eligible : List (CandidateInfo × Nat)} :
    cheapestBy price eligible = none ↔ ∀ e ∈ eligible, price e.1 = none := by
  rw [cheapestBy, minBy_eq_none_iff, List.filterMap_eq_nil_iff]
  simp

/-! ## Candidates of a tier -/

section Answers

variable (oracle : Eligibility) (eligible : String → Bool)

/-- What is recorded of a listed model. -/
def candidateOf (tier : Tier) (model : String) : CandidateInfo where
  model := model
  provider := oracle.providerOf model
  tier := tier
  costPerMillion := oracle.blendedCostPerMillion model
  predictedCostUsd := oracle.predictedCostUsd model
  eligible := eligible model

/-- The candidates of a tier, in configured order. -/
def candidatesOf (tiers : TierModels) (tier : Tier) : List CandidateInfo :=
  (tiers.get tier).map (candidateOf oracle eligible tier)

/-- No model listed in the tier is eligible. -/
def AllIneligible (tiers : TierModels) (tier : Tier) : Prop :=
  ∀ m ∈ tiers.get tier, eligible m = false

/-- A listed, eligible model has the least known price of its tier, and is the earliest one
with it. -/
def LeastPriced (price : String → Option Float) (models : List String) (model : String) : Prop :=
  ∃ i p, models[i]? = some model ∧ eligible model = true ∧ price model = some p
    ∧ ∀ (j : Nat) (other : String) (q : Float), models[j]? = some other → eligible other = true →
        price other = some q → p ≤ q ∧ (j < i → p < q)

/-- No eligible model has a known price. -/
def Unpriced (price : String → Option Float) (models : List String) : Prop :=
  ∀ m ∈ models, eligible m = true → price m = none

/-- Prices of eligible models can be compared. -/
def Comparable (price : String → Option Float) (models : List String) : Prop :=
  ∀ m ∈ models, eligible m = true → ∀ p ∈ price m, p.isNaN = false

variable {oracle eligible}

theorem mem_eligible {tier : Tier} {models : List String} {c : CandidateInfo} {i : Nat} :
    (c, i) ∈ ((models.map (candidateOf oracle eligible tier)).zipIdx.filter fun e => e.1.eligible)
      ↔ ∃ m, models[i]? = some m ∧ eligible m = true ∧ c = candidateOf oracle eligible tier m := by
  rw [List.mem_filter, List.mem_zipIdx_iff_getElem?, List.getElem?_map, Option.map_eq_some_iff]
  constructor
  · rintro ⟨⟨m, hm, rfl⟩, he⟩
    exact ⟨m, hm, he, rfl⟩
  · rintro ⟨m, hm, he, rfl⟩
    exact ⟨⟨m, hm, rfl⟩, he⟩

/-- The eligible candidates are those of the eligible models. -/
theorem map_eligible (tier : Tier) (models : List String) (k : Nat) :
    (((models.map (candidateOf oracle eligible tier)).zipIdx k).filter
        fun e => e.1.eligible).map (·.1.model) = models.filter eligible := by
  induction models generalizing k with
  | nil => rfl
  | cons m models ih =>
      rw [List.map_cons, List.zipIdx_cons, List.filter_cons, List.filter_cons]
      by_cases hm : eligible m = true
      · rw [if_pos hm, if_pos (show (candidateOf oracle eligible tier m).eligible = true from hm),
          List.map_cons, ih]
        rfl
      · rw [if_neg hm, if_neg (show ¬ (candidateOf oracle eligible tier m).eligible = true from hm), ih]

section ByPrice

variable {price : String → Option Float} {field : CandidateInfo → Option Float} {tier : Tier}
  {models : List String}

/-- The eligible candidates of some models, with their positions. -/
def eligibleOf (oracle : Eligibility) (eligible : String → Bool) (tier : Tier)
    (models : List String) : List (CandidateInfo × Nat) :=
  (models.map (candidateOf oracle eligible tier)).zipIdx.filter fun e => e.1.eligible

/-- A pick by a price of the models is the earliest of the cheapest. -/
theorem leastPriced_of_cheapestBy
    (hfield : ∀ m, field (candidateOf oracle eligible tier m) = price m)
    (hnum : Comparable eligible price models) {best : CandidateInfo × Nat × Float}
    (h : cheapestBy field (eligibleOf oracle eligible tier models) = some best) :
    LeastPriced eligible price models best.1.model := by
  obtain ⟨c, i, p⟩ := best
  have hcomparable : ∀ c i p, (c, i) ∈ eligibleOf oracle eligible tier models →
      field c = some p → p.isNaN = false := by
    intro c i p he hp
    obtain ⟨m, hm, hok, rfl⟩ := mem_eligible.mp he
    rw [hfield] at hp
    exact hnum m (List.mem_of_getElem? hm) hok p hp
  obtain ⟨hmem, hprice, hleast⟩ := cheapestBy_spec hcomparable h
  obtain ⟨m, hm, hok, rfl⟩ := mem_eligible.mp hmem
  rw [hfield] at hprice
  refine ⟨i, p, hm, hok, hprice, fun j other q hj hother hq => ?_⟩
  exact hleast _ j q (mem_eligible.mpr ⟨other, hj, hother, rfl⟩) ((hfield other).trans hq)

theorem unpriced_of_cheapestBy
    (hfield : ∀ m, field (candidateOf oracle eligible tier m) = price m)
    (h : cheapestBy field (eligibleOf oracle eligible tier models) = none) :
    Unpriced eligible price models := by
  intro m hm hok
  obtain ⟨i, hi⟩ := List.mem_iff_getElem?.mp hm
  rw [← hfield m]
  exact cheapestBy_eq_none_iff.mp h _ (mem_eligible.mpr ⟨m, hi, hok, rfl⟩)

theorem find?_of_eligibleOf {head : CandidateInfo × Nat} {rest : List (CandidateInfo × Nat)}
    (h : eligibleOf oracle eligible tier models = head :: rest) :
    models.find? eligible = some head.1.model := by
  have hmodels : (eligibleOf oracle eligible tier models).map (·.1.model) = models.filter eligible :=
    map_eligible tier models 0
  rw [h, List.map_cons] at hmodels
  rw [← List.head?_filter, ← hmodels]
  rfl

/-- The model that list prices choose: the cheapest, or the first one without them. -/
theorem leastPriced_or_first {head : CandidateInfo × Nat} {rest : List (CandidateInfo × Nat)}
    (heq : eligibleOf oracle eligible tier models = head :: rest)
    (hnum : Comparable eligible oracle.blendedCostPerMillion models) :
    LeastPriced eligible oracle.blendedCostPerMillion models
        (((cheapestBy (·.costPerMillion) (head :: rest)).map fun b => b.1.model).getD head.1.model)
      ∨ Unpriced eligible oracle.blendedCostPerMillion models
        ∧ models.find? eligible = some
          (((cheapestBy (·.costPerMillion) (head :: rest)).map fun b => b.1.model).getD
            head.1.model) := by
  have hfield : ∀ m, (candidateOf oracle eligible tier m).costPerMillion
      = oracle.blendedCostPerMillion m := fun m => rfl
  cases hbest : cheapestBy (·.costPerMillion) (head :: rest) with
  | none =>
      rw [← heq] at hbest
      exact .inr ⟨unpriced_of_cheapestBy hfield hbest, find?_of_eligibleOf heq⟩
  | some best =>
      rw [← heq] at hbest
      exact .inl (leastPriced_of_cheapestBy hfield hnum hbest)

end ByPrice

/-! ## The pick of a strategy -/

/-- What each strategy by price promises of its model: the least known price, or else the first
eligible model; predictions come before prices. -/
structure PricedChoice (oracle : Eligibility) (eligible : String → Bool)
    (strategy : WithinTierStrategy) (models : List String) (model : String) : Prop where
  cheapest : strategy = .cheapest → Comparable eligible oracle.blendedCostPerMillion models →
    LeastPriced eligible oracle.blendedCostPerMillion models model
      ∨ Unpriced eligible oracle.blendedCostPerMillion models ∧ models.find? eligible = some model
  predictedCost : strategy = .predictedCost →
    Comparable eligible oracle.predictedCostUsd models →
    Comparable eligible oracle.blendedCostPerMillion models →
    LeastPriced eligible oracle.predictedCostUsd models model
      ∨ Unpriced eligible oracle.predictedCostUsd models
        ∧ (LeastPriced eligible oracle.blendedCostPerMillion models model
          ∨ Unpriced eligible oracle.blendedCostPerMillion models
            ∧ models.find? eligible = some model)

section Pick

variable {strategy : WithinTierStrategy} {draws : Draws} {tier : Tier} {models : List String}

theorem pick_cheapest (head : CandidateInfo × Nat) (rest : List (CandidateInfo × Nat)) :
    (pick .cheapest draws oracle tier (head :: rest)).map Prod.fst = some
      (((cheapestBy (·.costPerMillion) (head :: rest)).map fun b => b.1.model).getD head.1.model) := by
  rw [pick]
  cases cheapestBy (·.costPerMillion) (head :: rest) with
  | none => rfl
  | some best => rfl

/-- Without predictions list prices decide. -/
theorem pick_predictedCost (head : CandidateInfo × Nat) (rest : List (CandidateInfo × Nat)) :
    (pick .predictedCost draws oracle tier (head :: rest)).map Prod.fst = some
      (((cheapestBy (·.predictedCostUsd) (head :: rest)).map fun b => b.1.model).getD
        (((cheapestBy (·.costPerMillion) (head :: rest)).map fun b => b.1.model).getD
          head.1.model)) := by
  rw [pick]
  cases cheapestBy (·.predictedCostUsd) (head :: rest) with
  | none => rfl
  | some best => rfl

theorem pricedChoice_of_pick {model why : String}
    (h : pick strategy draws oracle tier (eligibleOf oracle eligible tier models)
      = some (model, why)) : PricedChoice oracle eligible strategy models model := by
  cases heq : eligibleOf oracle eligible tier models with
  | nil =>
      rw [heq] at h
      cases h
  | cons head rest =>
      have hmodel : (pick strategy draws oracle tier (head :: rest)).map Prod.fst = some model := by
        rw [← heq, h]
        rfl
      constructor
      · rintro rfl hnum
        rw [pick_cheapest] at hmodel
        rw [← Option.some.inj hmodel]
        exact leastPriced_or_first heq hnum
      · rintro rfl hpred hnum
        have hfield : ∀ m, (candidateOf oracle eligible tier m).predictedCostUsd
            = oracle.predictedCostUsd m := fun m => rfl
        rw [pick_predictedCost] at hmodel
        rw [← Option.some.inj hmodel]
        cases hbest : cheapestBy (·.predictedCostUsd) (head :: rest) with
        | none =>
            rw [← heq] at hbest
            exact .inr ⟨unpriced_of_cheapestBy hfield hbest, leastPriced_or_first heq hnum⟩
        | some best =>
            rw [← heq] at hbest
            exact .inl (leastPriced_of_cheapestBy hfield hpred hbest)

end Pick

/-! ## The search -/

section Search

variable {cat : TierCatalog} {draws : Draws}

theorem lookAtAll_of_answers (hanswers : ∀ m, oracle.isEligible m = .ok (eligible m)) (tier : Tier)
    (models : List String) :
    lookAtAll oracle tier models = .ok (models.map (candidateOf oracle eligible tier)) := by
  induction models with
  | nil => rfl
  | cons m models ih =>
      rw [lookAtAll, lookAt, hanswers, ih]
      rfl

theorem selectWithin_of_answers_eq (hanswers : ∀ m, oracle.isEligible m = .ok (eligible m))
    (tier : Tier) : cat.selectWithin draws tier oracle =
      .ok (candidatesOf oracle eligible cat.tiers tier,
        pick cat.strategy draws oracle tier (eligibleOf oracle eligible tier (cat.tiers.get tier))) := by
  rw [TierCatalog.selectWithin, lookAtAll_of_answers hanswers]
  rfl

theorem eligibleOf_eq_nil_iff {tier : Tier} {models : List String} :
    eligibleOf oracle eligible tier models = [] ↔ ∀ m ∈ models, eligible m = false := by
  rw [eligibleOf, ← List.map_eq_nil_iff (f := fun e : CandidateInfo × Nat => e.1.model), map_eligible,
    List.filter_eq_nil_iff]
  exact forall₂_congr fun m _ => Bool.not_eq_true _ ▸ Iff.rfl

/-- What a selection is: its tier is the first of the order with an eligible model, its
candidates are those of the tiers up to it, and its model is one the strategy may choose. -/
structure Chosen (oracle : Eligibility) (eligible : String → Bool) (cat : TierCatalog)
    (order : List Tier) (seen : List CandidateInfo) (sel : TierSelection) : Prop where
  first : ∃ passed rest, order = passed ++ sel.tier :: rest
    ∧ (∀ t ∈ passed, AllIneligible eligible cat.tiers t)
    ∧ sel.candidates
      = seen ++ (passed ++ [sel.tier]).flatMap (candidatesOf oracle eligible cat.tiers)
  listed : sel.model ∈ cat.tiers.get sel.tier
  accepted : eligible sel.model = true
  priced : PricedChoice oracle eligible cat.strategy (cat.tiers.get sel.tier) sel.model

/-- Where the search ends: the tiers before were passed, and a model of the tier was picked. -/
structure EndsAt (oracle : Eligibility) (eligible : String → Bool) (cat : TierCatalog)
    (draws : Draws) (order : List Tier) (seen : List CandidateInfo) (sel : TierSelection) : Prop where
  first : ∃ passed rest, order = passed ++ sel.tier :: rest
    ∧ (∀ t ∈ passed, AllIneligible eligible cat.tiers t)
    ∧ sel.candidates
      = seen ++ (passed ++ [sel.tier]).flatMap (candidatesOf oracle eligible cat.tiers)
  picked : ∃ why, pick cat.strategy draws oracle sel.tier
    (eligibleOf oracle eligible sel.tier (cat.tiers.get sel.tier)) = some (sel.model, why)

theorem EndsAt.chosen {order : List Tier} {seen : List CandidateInfo} {sel : TierSelection}
    (h : EndsAt oracle eligible cat draws order seen sel) :
    Chosen oracle eligible cat order seen sel := by
  obtain ⟨why, hpick⟩ := h.picked
  obtain ⟨⟨c, i⟩, he, hmodel⟩ := pick_mem hpick
  obtain ⟨m, hm, hok, rfl⟩ := mem_eligible.mp he
  have hmodel : m = sel.model := hmodel
  subst hmodel
  exact ⟨h.first, List.mem_of_getElem? hm, hok, pricedChoice_of_pick hpick⟩

/-- The search over an order of tiers. -/
theorem searchTiers_spec (cat : TierCatalog) (draws : Draws)
    (hanswers : ∀ m, oracle.isEligible m = .ok (eligible m)) (tier : Tier) (order : List Tier)
    (seen : List CandidateInfo) :
    (cat.searchTiers draws oracle tier order seen = .ok none
        ∧ ∀ t ∈ order, AllIneligible eligible cat.tiers t)
      ∨ ∃ sel, cat.searchTiers draws oracle tier order seen = .ok (some sel)
        ∧ EndsAt oracle eligible cat draws order seen sel := by
  induction order generalizing seen with
  | nil => exact .inl ⟨rfl, fun t ht => absurd ht List.not_mem_nil⟩
  | cons t order ih =>
      rw [TierCatalog.searchTiers, selectWithin_of_answers_eq hanswers]
      cases hpick : pick cat.strategy draws oracle t
          (eligibleOf oracle eligible t (cat.tiers.get t)) with
      | none =>
          -- the tier is passed, and its candidates are kept
          have hpassed : AllIneligible eligible cat.tiers t :=
            eligibleOf_eq_nil_iff.mp (pick_eq_none_iff.mp hpick)
          rcases ih (seen ++ candidatesOf oracle eligible cat.tiers t) with ⟨hnone, hall⟩ | ⟨sel, hsel, h⟩
          · exact .inl ⟨hnone, List.forall_mem_cons.mpr ⟨hpassed, hall⟩⟩
          · obtain ⟨passed, rest, rfl, hrejected, hcandidates⟩ := h.first
            refine .inr ⟨sel, hsel, ⟨⟨t :: passed, rest, rfl, ?_, ?_⟩, h.picked⟩⟩
            · exact List.forall_mem_cons.mpr ⟨hpassed, hrejected⟩
            · rw [hcandidates, List.cons_append, List.flatMap_cons, List.append_assoc]
      | some found =>
          refine .inr ⟨_, rfl, ⟨⟨[], order, rfl, ?_, ?_⟩, found.2, hpick⟩⟩
          · exact fun t ht => absurd ht List.not_mem_nil
          · rw [List.nil_append, List.flatMap_singleton]

end Search

/-- The order of the search: the tier, those above it up to `maxTier` ascending, and those below
it down to `minTier` descending. -/
def tierOrder (tier minTier maxTier : Tier) : List Tier :=
  tier :: (Tier.all.filter (fun t => decide (tier < t ∧ t ≤ maxTier))
    ++ Tier.all.reverse.filter fun t => decide (minTier ≤ t ∧ t < tier))

theorem searchOrder_eq_tierOrder (tier minTier maxTier : Tier) :
    searchOrder tier minTier maxTier = tierOrder tier minTier maxTier := by
  cases tier <;> cases minTier <;> cases maxTier <;> decide

theorem mem_tierOrder {tier minTier maxTier : Tier} (hmin : minTier ≤ tier) (hmax : tier ≤ maxTier)
    {t : Tier} : t ∈ tierOrder tier minTier maxTier ↔ minTier ≤ t ∧ t ≤ maxTier := by
  rw [← searchOrder_eq_tierOrder, mem_searchOrder]
  constructor
  · rintro (rfl | ⟨hlt, hle⟩ | ⟨hlt, hle⟩)
    · exact ⟨hmin, hmax⟩
    · exact ⟨hmin.trans hlt.le, hle⟩
    · exact ⟨hle, hlt.le.trans hmax⟩
  · rintro ⟨hlo, hhi⟩
    rcases lt_trichotomy t tier with hlt | rfl | hlt
    · exact .inr (.inr ⟨hlt, hlo⟩)
    · exact .inl rfl
    · exact .inr (.inl ⟨hlt, hhi⟩)

/-- What `select` gives, for an oracle that answers: nothing exactly when no model between the
bounds is eligible, and otherwise a model of the first tier of the order that has one. -/
theorem select_spec (cat : TierCatalog) (draws : Draws) (oracle : Eligibility)
    (eligible : String → Bool) (hanswers : ∀ m, oracle.isEligible m = .ok (eligible m))
    {tier minTier maxTier : Tier} (hmin : minTier ≤ tier) (hmax : tier ≤ maxTier) :
    (cat.select draws tier minTier maxTier oracle = .ok none ↔
        ∀ t, minTier ≤ t → t ≤ maxTier → AllIneligible eligible cat.tiers t)
    ∧ ((∃ t, minTier ≤ t ∧ t ≤ maxTier ∧ ¬ AllIneligible eligible cat.tiers t) →
        ∃ sel, cat.select draws tier minTier maxTier oracle = .ok (some sel)
          ∧ Chosen oracle eligible cat (tierOrder tier minTier maxTier) [] sel) := by
  have hspec := searchTiers_spec cat draws hanswers tier (searchOrder tier minTier maxTier) []
  have hrange : (∀ t ∈ searchOrder tier minTier maxTier, AllIneligible eligible cat.tiers t) ↔
      ∀ t, minTier ≤ t → t ≤ maxTier → AllIneligible eligible cat.tiers t := by
    rw [searchOrder_eq_tierOrder]
    constructor
    · exact fun h t hlo hhi => h t ((mem_tierOrder hmin hmax).mpr ⟨hlo, hhi⟩)
    · intro h t ht
      obtain ⟨hlo, hhi⟩ := (mem_tierOrder hmin hmax).mp ht
      exact h t hlo hhi
  rcases hspec with ⟨hnone, hall⟩ | ⟨sel, hsel, hends⟩
  · refine ⟨iff_of_true hnone (hrange.mp hall), ?_⟩
    rintro ⟨t, hlo, hhi, hsome⟩
    exact absurd (hrange.mp hall t hlo hhi) hsome
  · have hchosen := hends.chosen
    rw [searchOrder_eq_tierOrder] at hchosen
    have hmem : sel.tier ∈ tierOrder tier minTier maxTier := by
      obtain ⟨passed, rest, horder, -⟩ := hchosen.first
      rw [horder]
      exact List.mem_append_right passed List.mem_cons_self
    obtain ⟨hlo, hhi⟩ := (mem_tierOrder hmin hmax).mp hmem
    refine ⟨iff_of_false ?_ fun h => ?_, fun _ => ⟨sel, hsel, hchosen⟩⟩
    · intro hnone
      have hboth : (Except.ok none : Checked (Option TierSelection)) = .ok (some sel) :=
        hnone.symm.trans hsel
      cases hboth
    · have hno := h sel.tier hlo hhi sel.model hchosen.listed
      rw [hchosen.accepted] at hno
      cases hno

end Answers

namespace Sample

/-- One model is turned down, and one has a price. -/
def pricedOracle : Eligibility where
  isEligible m := .ok (m != "claude-haiku-4-5")
  blendedCostPerMillion m := if m = "gpt-5.4-mini" then some 1.0 else none
  providerOf _ := none

def cheapestCatalog : TierCatalog := ⟨{}, .cheapest⟩

end Sample

theorem select_spec_sample :
    ∃ sel, Sample.cheapestCatalog.select ⟨0, fun _ _ => 0⟩ .medium .simple .reasoning
        Sample.pricedOracle = .ok (some sel)
      ∧ Chosen Sample.pricedOracle (fun m => m != "claude-haiku-4-5") Sample.cheapestCatalog
        (tierOrder .medium .simple .reasoning) [] sel := by
  refine (select_spec Sample.cheapestCatalog ⟨0, fun _ _ => 0⟩ Sample.pricedOracle
    (fun m => m != "claude-haiku-4-5") (fun _ => rfl) (by decide) (by decide)).2
      ⟨.medium, by decide, by decide, fun h => ?_⟩
  exact absurd (h "gpt-5.4-mini" (by decide)) (by decide)

end AuraGateway.Router
