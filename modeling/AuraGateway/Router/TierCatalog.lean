import AuraGateway.Foundations.FirstMatch
import AuraGateway.Router.Config

/-!
# Tier catalog and within-tier selection

The catalog knows which models belong to which tier. `TierCatalog.select` asks an
eligibility oracle about the models of the requested tier, then of the tiers
above it, then of those below, and stops at the first tier with an eligible
model. `select_eq_some`, `select_candidate` and `select_eq_none_iff` are the only facts
about it that the rest of the development uses.

The round-robin counter and the Beta samples are inputs (`Draws`): the counter is
shared between requests, so a call may read any value of it.
-/

set_option autoImplicit false

namespace AuraGateway.Router

open AuraGateway.RustStd AuraGateway.Types AuraGateway.Foundations.FirstMatch

/-- Beta-distribution arm statistics; the default is the uniform prior. -/
structure ArmStats where
  alpha : Float := 1.0
  beta : Float := 1.0

/-- Mean of the Beta distribution. -/
def ArmStats.mean (s : ArmStats) : Float := s.alpha / (s.alpha + s.beta)

/-- Answers questions about a candidate model on behalf of the caller. -/
structure Eligibility where
  isEligible : String → Checked Bool
  blendedCostPerMillion : String → Option Float
  providerOf : String → Option String
  armStats : Tier → String → Option ArmStats := fun _ _ => none
  predictedCostUsd : String → Option Float := fun _ => none

/-- A candidate that was considered for a decision. -/
structure CandidateInfo where
  model : String
  provider : Option String
  tier : Tier
  costPerMillion : Option Float
  predictedCostUsd : Option Float
  eligible : Bool
  deriving DecidableEq

/-- Outcome of tier selection. -/
structure TierSelection where
  tier : Tier
  model : String
  provider : Option String
  candidates : List CandidateInfo
  reason : String
  deriving DecidableEq

/-- Values one selection reads from shared or random sources: the round-robin
counter, and the Beta sample of the `i`-th eligible arm. -/
structure Draws where
  rrCounter : Nat
  betaSample : Nat → ArmStats → Float

/-- Tier catalog with a selection strategy. -/
structure TierCatalog where
  tiers : TierModels
  strategy : WithinTierStrategy

/-- Highest tier a model is listed in. -/
def TierCatalog.tierOf (c : TierCatalog) (model : String) : Option Tier := c.tiers.tierOf model

/-- Every distinct model in the catalog. -/
def TierCatalog.allModels (c : TierCatalog) : List String :=
  Tier.all.foldl
    (fun out t => (c.tiers.get t).foldl (fun out m => if out.contains m then out else out ++ [m]) out)
    []

/-! ## Within one tier -/

/-- `f64::partial_cmp`, undefined on `NaN`. -/
def f64PartialCmp (a b : Float) : Option Ordering := a.toModel.compare b.toModel

/-- `Iterator::min_by`: the first of the least elements. -/
def minBy {α : Type} (cmp : α → α → Ordering) : List α → Option α
  | [] => none
  | a :: l => some (l.foldl (fun best x => if cmp best x = .gt then x else best) a)

/-- Compare by price, then by configured position. -/
def byPrice (a b : CandidateInfo × Nat × Float) : Ordering :=
  ((f64PartialCmp a.2.2 b.2.2).getD .eq).then (compare a.2.1 b.2.1)

/-- The eligible candidate with the least known price; unpriced ones are passed over. -/
def cheapestBy (price : CandidateInfo → Option Float) (eligible : List (CandidateInfo × Nat)) :
    Option (CandidateInfo × Nat × Float) :=
  minBy byPrice (eligible.filterMap fun e => (price e.1).map fun c => (e.1, e.2, c))

/-- Draw a sample for one arm and keep the arm with the higher sample, the earlier
one on a tie. -/
def keepHigher (draws : Draws) (oracle : Eligibility) (tier : Tier)
    (best : Option (CandidateInfo × Float × ArmStats)) (arm : (CandidateInfo × Nat) × Nat) :
    Option (CandidateInfo × Float × ArmStats) :=
  let stats := (oracle.armStats tier arm.1.1.model).getD {}
  let sample := draws.betaSample arm.2 stats
  match best with
  | none => some (arm.1.1, sample, stats)
  | some b => if b.2.1 < sample then some (arm.1.1, sample, stats) else some b

/-- Thompson sampling: one Beta sample per eligible arm, the highest wins. -/
def thompsonBest (draws : Draws) (oracle : Eligibility) (tier : Tier)
    (eligible : List (CandidateInfo × Nat)) : Option (CandidateInfo × Float × ArmStats) :=
  eligible.zipIdx.foldl (keepHigher draws oracle tier) none

/-- Pick among the eligible candidates of a tier (with their configured
positions): the model and why it won. -/
def pick (strategy : WithinTierStrategy) (draws : Draws) (oracle : Eligibility) (tier : Tier)
    (eligible : List (CandidateInfo × Nat)) : Option (String × String) :=
  match eligible with
  | [] => none
  | head :: _ =>
      match strategy with
      | .predictedCost =>
          match cheapestBy (·.predictedCostUsd) eligible with
          | some (c, _, p) =>
              some (c.model, "lowest predicted cost in " ++ tier.asStr ++ " ($" ++ formatFixed 5 p ++ ")")
          | none =>
              let best := (cheapestBy (·.costPerMillion) eligible).map fun b => b.1.model
              some (best.getD head.1.model, "no cost prediction; cheapest by list price in " ++ tier.asStr)
      | .configOrder => some (head.1.model, "first eligible candidate in " ++ tier.asStr)
      | .roundRobin =>
          -- the counter wraps in the source; only its remainder is used
          let chosen := (eligible[draws.rrCounter % eligible.length]?).getD head
          some (chosen.1.model, "round-robin over " ++ Nat.repr eligible.length ++ " eligible in "
            ++ tier.asStr)
      | .thompson =>
          (thompsonBest draws oracle tier eligible).map fun (c, sample, stats) =>
            (c.model, "thompson sample " ++ formatFixed 2 sample ++ " (mean "
              ++ formatFixed 2 stats.mean ++ ", n=" ++ formatFixed 0 (stats.alpha + stats.beta - 2.0)
              ++ ") over " ++ Nat.repr eligible.length ++ " eligible in " ++ tier.asStr)
      | .cheapest =>
          match cheapestBy (·.costPerMillion) eligible with
          | some (c, _, p) =>
              some (c.model, "cheapest eligible in " ++ tier.asStr ++ " ($" ++ formatFixed 2 p
                ++ "/1M blended)")
          | none => some (head.1.model, "first eligible in " ++ tier.asStr ++ " (no price known)")

/-- Ask the oracle about one listed model. -/
def lookAt (oracle : Eligibility) (tier : Tier) (model : String) : Checked CandidateInfo := do
  let ok ← oracle.isEligible model
  .ok { model
        provider := oracle.providerOf model
        tier
        costPerMillion := oracle.blendedCostPerMillion model
        predictedCostUsd := oracle.predictedCostUsd model
        eligible := ok }

/-- Ask the oracle about every listed model of a tier, in configured order. -/
def lookAtAll (oracle : Eligibility) (tier : Tier) : List String → Checked (List CandidateInfo)
  | [] => .ok []
  | m :: ms => do
      let c ← lookAt oracle tier m
      let cs ← lookAtAll oracle tier ms
      .ok (c :: cs)

/-- The candidates looked at in a tier, and the pick if one is eligible. -/
def TierCatalog.selectWithin (cat : TierCatalog) (draws : Draws) (tier : Tier)
    (oracle : Eligibility) : Checked (List CandidateInfo × Option (String × String)) := do
  let looked ← lookAtAll oracle tier (cat.tiers.get tier)
  let eligible := looked.zipIdx.filter fun e => e.1.eligible
  .ok (looked, pick cat.strategy draws oracle tier eligible)

/-! ## Search over tiers -/

/-- Tiers reached from `t` by `next`, nearest first. Four steps leave no tier out. -/
def tiersFrom (next : Tier → Option Tier) : Nat → Tier → List Tier
  | 0, _ => []
  | fuel + 1, t =>
      match next t with
      | none => []
      | some u => u :: tiersFrom next fuel u

/-- Tiers above `t`, ascending. -/
def tiersAbove (t : Tier) : List Tier := tiersFrom Tier.up Tier.all.length t

/-- Tiers below `t`, descending. -/
def tiersBelow (t : Tier) : List Tier := tiersFrom Tier.down Tier.all.length t

/-- Search order: the requested tier, the tiers above it up to `maxTier`, then
the tiers below it down to `minTier`. -/
def searchOrder (tier minTier maxTier : Tier) : List Tier :=
  -- the requested tier is searched even when it lies outside the bounds
  tier :: ((tiersAbove tier).filter (· ≤ maxTier) ++ (tiersBelow tier).filter (minTier ≤ ·))

/-- Why a model of tier `t` was taken for a request of tier `tier`. -/
def searchReason (tier t : Tier) (why : String) : String :=
  if t = tier then why
  else if tier < t then "escalated from " ++ tier.asStr ++ " (no eligible candidate); " ++ why
  else "fell back to " ++ t.asStr ++ " (no eligible candidate at or above " ++ tier.asStr ++ "); "
    ++ why

/-- The search loop of `select`; `seen` collects the candidates of the tiers passed. -/
def TierCatalog.searchTiers (cat : TierCatalog) (draws : Draws) (oracle : Eligibility)
    (tier : Tier) : List Tier → List CandidateInfo → Checked (Option TierSelection)
  | [], _ => .ok none
  | t :: rest, seen => do
      let found ← cat.selectWithin draws t oracle
      match found.2 with
      | some (model, why) =>
          .ok (some
            { tier := t
              model
              provider := oracle.providerOf model
              candidates := seen ++ found.1
              reason := searchReason tier t why })
      | none => cat.searchTiers draws oracle tier rest (seen ++ found.1)

/-- Pick a model for `tier`, escalating outward when needed. -/
def TierCatalog.select (cat : TierCatalog) (draws : Draws) (tier minTier maxTier : Tier)
    (oracle : Eligibility) : Checked (Option TierSelection) :=
  cat.searchTiers draws oracle tier (searchOrder tier minTier maxTier) []

/-! ## What a selection returns -/

theorem mem_tiersAbove {t u : Tier} : u ∈ tiersAbove t ↔ t < u := by
  rw [Tier.lt_iff_ordinal]
  cases t <;> cases u <;> decide

theorem mem_tiersBelow {t u : Tier} : u ∈ tiersBelow t ↔ u < t := by
  rw [Tier.lt_iff_ordinal]
  cases t <;> cases u <;> decide

/-- The tiers a search may reach. -/
theorem mem_searchOrder {tier minTier maxTier u : Tier} :
    u ∈ searchOrder tier minTier maxTier ↔
      u = tier ∨ (tier < u ∧ u ≤ maxTier) ∨ (u < tier ∧ minTier ≤ u) := by
  simp [searchOrder, mem_tiersAbove, mem_tiersBelow]

section Pick

variable (draws : Draws) (oracle : Eligibility) (tier : Tier)

theorem minBy_mem {α : Type} {cmp : α → α → Ordering} {l : List α} {a : α}
    (h : minBy cmp l = some a) : a ∈ l := by
  cases l with
  | nil => simp [minBy] at h
  | cons b l =>
      have key : ∀ (l : List α) (b : α),
          l.foldl (fun best x => if cmp best x = .gt then x else best) b ∈ b :: l := by
        intro l
        induction l with
        | nil => intro b; simp
        | cons c l ih =>
            intro b
            rw [List.foldl_cons]
            split
            · exact List.mem_cons_of_mem b (ih c)
            · rcases List.mem_cons.mp (ih b) with e | e
              · rw [e]
                exact List.mem_cons_self
              · exact List.mem_cons_of_mem b (List.mem_cons_of_mem c e)
      have e : l.foldl (fun best x => if cmp best x = .gt then x else best) b = a :=
        Option.some.inj h
      rw [← e]
      exact key l b

theorem cheapestBy_mem {price : CandidateInfo → Option Float}
    {eligible : List (CandidateInfo × Nat)} {c : CandidateInfo} {i : Nat} {p : Float}
    (h : cheapestBy price eligible = some (c, i, p)) : (c, i) ∈ eligible := by
  have hm := minBy_mem h
  rw [List.mem_filterMap] at hm
  obtain ⟨⟨c', i'⟩, he, hp⟩ := hm
  rw [Option.map_eq_some_iff] at hp
  obtain ⟨_, -, e⟩ := hp
  injection e with e₁ e₂
  injection e₂ with e₂ e₃
  subst e₁ e₂
  exact he

/-- The cheapest candidate, or the first one when no price is known, is in the list. -/
theorem cheapestModel_mem (price : CandidateInfo → Option Float) (head : CandidateInfo × Nat)
    (rest : List (CandidateInfo × Nat)) :
    ∃ e ∈ head :: rest,
      e.1.model = ((cheapestBy price (head :: rest)).map fun b => b.1.model).getD head.1.model := by
  cases hb : cheapestBy price (head :: rest) with
  | none => exact ⟨head, List.mem_cons_self, rfl⟩
  | some b => exact ⟨(b.1, b.2.1), cheapestBy_mem hb, rfl⟩

/-- Once an arm is held, the fold keeps holding an arm of the list. -/
theorem foldl_keepHigher_mem (l : List ((CandidateInfo × Nat) × Nat))
    (b : CandidateInfo × Float × ArmStats) :
    ∃ b', l.foldl (keepHigher draws oracle tier) (some b) = some b' ∧
      (b'.1 = b.1 ∨ ∃ e ∈ l, e.1.1 = b'.1) := by
  induction l generalizing b with
  | nil => exact ⟨b, rfl, Or.inl rfl⟩
  | cons e l ih =>
      rw [List.foldl_cons]
      by_cases hlt : b.2.1 < draws.betaSample e.2 ((oracle.armStats tier e.1.1.model).getD {})
      · have step : keepHigher draws oracle tier (some b) e
            = some (e.1.1, draws.betaSample e.2 ((oracle.armStats tier e.1.1.model).getD {}),
                (oracle.armStats tier e.1.1.model).getD {}) := if_pos hlt
        obtain ⟨b', hb', hor⟩ := ih _
        rw [step]
        refine ⟨b', hb', Or.inr ?_⟩
        rcases hor with he | ⟨x, hx, hxb⟩
        · exact ⟨e, List.mem_cons_self, he.symm⟩
        · exact ⟨x, List.mem_cons_of_mem e hx, hxb⟩
      · have step : keepHigher draws oracle tier (some b) e = some b := if_neg hlt
        obtain ⟨b', hb', hor⟩ := ih b
        rw [step]
        refine ⟨b', hb', ?_⟩
        rcases hor with he | ⟨x, hx, hxb⟩
        · exact Or.inl he
        · exact Or.inr ⟨x, List.mem_cons_of_mem e hx, hxb⟩

/-- Thompson sampling over a non-empty list picks one of its arms. -/
theorem thompsonBest_mem (e₀ : CandidateInfo × Nat) (l : List (CandidateInfo × Nat)) :
    ∃ b, thompsonBest draws oracle tier (e₀ :: l) = some b ∧ ∃ e ∈ e₀ :: l, e.1 = b.1 := by
  simp only [thompsonBest]
  rw [List.zipIdx_cons, List.foldl_cons]
  obtain ⟨b, hb, hor⟩ := foldl_keepHigher_mem draws oracle tier
    (l.zipIdx (0 + 1)) (e₀.1, draws.betaSample 0 ((oracle.armStats tier e₀.1.model).getD {}),
      (oracle.armStats tier e₀.1.model).getD {})
  refine ⟨b, hb, ?_⟩
  rcases hor with he | ⟨x, hx, hxb⟩
  · exact ⟨e₀, List.mem_cons_self, he.symm⟩
  · exact ⟨x.1, List.mem_cons_of_mem e₀ (List.fst_mem_of_mem_zipIdx hx), hxb⟩

variable {draws oracle tier}

/-- A pick is one of the eligible candidates. -/
theorem pick_mem {strategy : WithinTierStrategy} {eligible : List (CandidateInfo × Nat)}
    {m why : String} (h : pick strategy draws oracle tier eligible = some (m, why)) :
    ∃ e ∈ eligible, e.1.model = m := by
  cases eligible with
  | nil => exact absurd h (by simp [pick])
  | cons head rest =>
      cases strategy with
      | cheapest =>
          simp only [pick] at h
          cases hb : cheapestBy (·.costPerMillion) (head :: rest) with
          | none =>
              simp only [hb, Option.some.injEq, Prod.mk.injEq] at h
              exact ⟨head, List.mem_cons_self, h.1⟩
          | some b =>
              simp only [hb, Option.some.injEq, Prod.mk.injEq] at h
              exact ⟨(b.1, b.2.1), cheapestBy_mem hb, h.1⟩
      | configOrder =>
          simp only [pick] at h
          injection h with h
          injection h with h₁ h₂
          exact ⟨head, List.mem_cons_self, h₁⟩
      | roundRobin =>
          simp only [pick] at h
          injection h with h
          injection h with h₁ h₂
          have hlt : draws.rrCounter % (head :: rest).length < (head :: rest).length :=
            Nat.mod_lt _ (Nat.succ_pos _)
          rw [List.getElem?_eq_getElem hlt, Option.getD_some] at h₁
          exact ⟨_, List.getElem_mem hlt, h₁⟩
      | thompson =>
          simp only [pick] at h
          obtain ⟨b, hb, e, he, heb⟩ := thompsonBest_mem draws oracle tier head rest
          simp only [hb, Option.map_some, Option.some.injEq, Prod.mk.injEq] at h
          exact ⟨e, he, by rw [heb]; exact h.1⟩
      | predictedCost =>
          simp only [pick] at h
          cases hb : cheapestBy (·.predictedCostUsd) (head :: rest) with
          | none =>
              simp only [hb, Option.some.injEq, Prod.mk.injEq] at h
              -- no candidate has a prediction: the source falls back to list prices
              obtain ⟨e, he, hem⟩ := cheapestModel_mem (·.costPerMillion) head rest
              exact ⟨e, he, hem.trans h.1⟩
          | some b =>
              simp only [hb, Option.some.injEq, Prod.mk.injEq] at h
              exact ⟨(b.1, b.2.1), cheapestBy_mem hb, h.1⟩

/-- Every strategy picks something when a candidate is eligible. -/
theorem pick_eq_none_iff {strategy : WithinTierStrategy}
    {eligible : List (CandidateInfo × Nat)} :
    pick strategy draws oracle tier eligible = none ↔ eligible = [] := by
  cases eligible with
  | nil => simp [pick]
  | cons head rest =>
      refine iff_of_false ?_ (List.cons_ne_nil head rest)
      cases strategy with
      | cheapest => cases hb : cheapestBy (·.costPerMillion) (head :: rest) <;> simp [pick, hb]
      | configOrder => simp [pick]
      | roundRobin => simp [pick]
      | thompson =>
          obtain ⟨b, hb, -⟩ := thompsonBest_mem draws oracle tier head rest
          simp [pick, hb]
      | predictedCost =>
          cases hb : cheapestBy (·.predictedCostUsd) (head :: rest) <;> simp [pick, hb]

end Pick

/-! ### One tier -/

/-- The oracle turns down every model of the tier. -/
def NoneEligible (tiers : TierModels) (oracle : Eligibility) (t : Tier) : Prop :=
  ∀ m ∈ tiers.get t, oracle.isEligible m = .ok false

/-- The oracle answers for every model of the tier and accepts one. -/
def SomeEligible (tiers : TierModels) (oracle : Eligibility) (t : Tier) : Prop :=
  (∀ m ∈ tiers.get t, ∃ b, oracle.isEligible m = .ok b) ∧
    ∃ m ∈ tiers.get t, oracle.isEligible m = .ok true

theorem not_noneEligible_of_someEligible {tiers : TierModels} {oracle : Eligibility} {t : Tier}
    (h : SomeEligible tiers oracle t) : ¬ NoneEligible tiers oracle t := by
  intro hn
  obtain ⟨-, m, hm, he⟩ := h
  rw [hn m hm] at he
  cases he

section Within

variable {oracle : Eligibility} {t : Tier}

/-- The recorded candidates are the listed models with the oracle's answers. -/
theorem lookAtAll_eq_ok {ms : List String} {cs : List CandidateInfo}
    (h : lookAtAll oracle t ms = .ok cs) :
    (∀ c ∈ cs, c.model ∈ ms ∧ oracle.isEligible c.model = .ok c.eligible ∧ c.tier = t ∧
      c.provider = oracle.providerOf c.model) ∧
    ∀ m ∈ ms, ∃ c ∈ cs, c.model = m := by
  induction ms generalizing cs with
  | nil =>
      injection h with h
      subst h
      simp
  | cons m ms ih =>
      simp only [lookAtAll, lookAt] at h
      rw [checked_bind_eq_ok] at h
      obtain ⟨c, hc, h⟩ := h
      rw [checked_bind_eq_ok] at hc h
      obtain ⟨b, hb, hc⟩ := hc
      obtain ⟨cs', hcs', h⟩ := h
      injection hc with hc
      injection h with h
      subst hc h
      obtain ⟨h₁, h₂⟩ := ih hcs'
      constructor
      · intro c hc
        rcases List.mem_cons.mp hc with rfl | hc
        · exact ⟨List.mem_cons_self, hb, rfl, rfl⟩
        · exact ⟨List.mem_cons_of_mem m (h₁ c hc).1, (h₁ c hc).2⟩
      · intro x hx
        rcases List.mem_cons.mp hx with rfl | hx
        · exact ⟨_, List.mem_cons_self, rfl⟩
        · obtain ⟨c, hc, e⟩ := h₂ x hx
          exact ⟨c, List.mem_cons_of_mem _ hc, e⟩

theorem exists_lookAtAll {ms : List String}
    (h : ∀ m ∈ ms, ∃ b, oracle.isEligible m = .ok b) : ∃ cs, lookAtAll oracle t ms = .ok cs := by
  induction ms with
  | nil => exact ⟨[], rfl⟩
  | cons m ms ih =>
      obtain ⟨b, hb⟩ := h m List.mem_cons_self
      obtain ⟨cs, hcs⟩ := ih fun x hx => h x (List.mem_cons_of_mem m hx)
      simp only [lookAtAll, lookAt]
      rw [hb, hcs]
      exact ⟨_, rfl⟩

/-- An eligible candidate is among the ones picked from. -/
theorem exists_mem_eligible {cs : List CandidateInfo} {c : CandidateInfo} (hc : c ∈ cs)
    (he : c.eligible = true) : ∃ k, (c, k) ∈ cs.zipIdx.filter fun e => e.1.eligible := by
  obtain ⟨k, hk, rfl⟩ := List.mem_iff_getElem.mp hc
  refine ⟨k, List.mem_filter.mpr ⟨?_, he⟩⟩
  rw [List.mem_iff_getElem]
  exact ⟨k, by simpa using hk, by simp⟩

variable {cat : TierCatalog}

section

variable {draws : Draws}

/-- A pick within a tier is recorded as an eligible candidate of the tier. -/
theorem selectWithin_candidate {looked : List CandidateInfo} {m why : String}
    (h : cat.selectWithin draws t oracle = .ok (looked, some (m, why))) :
    lookAtAll oracle t (cat.tiers.get t) = .ok looked ∧
      ∃ c ∈ looked, c.model = m ∧ c.tier = t ∧ c.eligible = true := by
  simp only [TierCatalog.selectWithin] at h
  rw [checked_bind_eq_ok] at h
  obtain ⟨cs, hcs, h⟩ := h
  injection h with h
  injection h with h₁ h₂
  subst h₁
  obtain ⟨e, he, hem⟩ := pick_mem h₂
  rw [List.mem_filter] at he
  have hmem : e.1 ∈ cs := List.fst_mem_of_mem_zipIdx he.1
  exact ⟨hcs, e.1, hmem, hem, ((lookAtAll_eq_ok hcs).1 e.1 hmem).2.2.1, he.2⟩

/-- A pick within a tier is a listed, eligible model, and the whole tier was answered. -/
theorem selectWithin_some {looked : List CandidateInfo} {m why : String}
    (h : cat.selectWithin draws t oracle = .ok (looked, some (m, why))) :
    SomeEligible cat.tiers oracle t ∧ m ∈ cat.tiers.get t ∧ oracle.isEligible m = .ok true := by
  obtain ⟨hcs, c, hc, rfl, -, he⟩ := selectWithin_candidate h
  obtain ⟨hinfo, hall⟩ := lookAtAll_eq_ok hcs
  have hm := hinfo c hc
  rw [he] at hm
  refine ⟨⟨?_, c.model, hm.1, hm.2.1⟩, hm.1, hm.2.1⟩
  intro x hx
  obtain ⟨c', hc', rfl⟩ := hall x hx
  exact ⟨c'.eligible, (hinfo c' hc').2.1⟩

/-- No pick within a tier means that no listed model is eligible. -/
theorem selectWithin_none {looked : List CandidateInfo}
    (h : cat.selectWithin draws t oracle = .ok (looked, none)) :
    NoneEligible cat.tiers oracle t := by
  simp only [TierCatalog.selectWithin] at h
  rw [checked_bind_eq_ok] at h
  obtain ⟨cs, hcs, h⟩ := h
  injection h with h
  injection h with h₁ h₂
  rw [pick_eq_none_iff] at h₂
  obtain ⟨hinfo, hall⟩ := lookAtAll_eq_ok hcs
  intro x hx
  obtain ⟨c, hcm, rfl⟩ := hall x hx
  have hne : c.eligible = false := by
    by_contra he
    obtain ⟨k, hk⟩ := exists_mem_eligible hcm (by simpa using he)
    rw [h₂] at hk
    exact absurd hk List.not_mem_nil
  rw [← hne]
  exact (hinfo c hcm).2.1

end

variable (draws : Draws)

/-- The outcome of a tier is decided by the oracle's answers. -/
theorem selectWithin_of_answers (h : ∀ m ∈ cat.tiers.get t, ∃ b, oracle.isEligible m = .ok b) :
    ∃ r, cat.selectWithin draws t oracle = .ok r := by
  obtain ⟨cs, hcs⟩ := exists_lookAtAll (t := t) h
  simp only [TierCatalog.selectWithin]
  rw [hcs]
  exact ⟨_, rfl⟩

theorem selectWithin_of_noneEligible (h : NoneEligible cat.tiers oracle t) :
    ∃ looked, cat.selectWithin draws t oracle = .ok (looked, none) := by
  obtain ⟨⟨looked, pick⟩, hr⟩ := selectWithin_of_answers draws
    (fun m hm => ⟨false, h m hm⟩ : ∀ m ∈ cat.tiers.get t, ∃ b, oracle.isEligible m = .ok b)
  cases pick with
  | none => exact ⟨looked, hr⟩
  | some p => exact absurd h (not_noneEligible_of_someEligible (selectWithin_some hr).1)

theorem selectWithin_of_someEligible (h : SomeEligible cat.tiers oracle t) :
    ∃ looked m why, cat.selectWithin draws t oracle = .ok (looked, some (m, why)) := by
  obtain ⟨⟨looked, pick⟩, hr⟩ := selectWithin_of_answers draws h.1
  cases pick with
  | none => exact absurd (selectWithin_none hr) (not_noneEligible_of_someEligible h)
  | some p => exact ⟨looked, p.1, p.2, hr⟩

end Within

/-! ### The whole search -/

/-- What a selection says about its model. -/
structure Selected (tiers : TierModels) (oracle : Eligibility) (order : List Tier)
    (sel : TierSelection) : Prop where
  first : FirstIn (SomeEligible tiers oracle) (NoneEligible tiers oracle) order sel.tier
  listed : sel.model ∈ tiers.get sel.tier
  eligible : oracle.isEligible sel.model = .ok true
  provider : sel.provider = oracle.providerOf sel.model

section Search

variable {cat : TierCatalog} {draws : Draws} {oracle : Eligibility} {tier : Tier}

theorem searchTiers_eq_some {order : List Tier} {seen : List CandidateInfo}
    {sel : TierSelection} (h : cat.searchTiers draws oracle tier order seen = .ok (some sel)) :
    Selected cat.tiers oracle order sel := by
  induction order generalizing seen with
  | nil => cases h
  | cons t rest ih =>
      simp only [TierCatalog.searchTiers] at h
      rw [checked_bind_eq_ok] at h
      obtain ⟨⟨looked, found⟩, hw, h⟩ := h
      cases found with
      | none =>
          -- the tier was passed, so the rest of the order decides
          have hrest := ih h
          exact ⟨firstIn_cons.mpr (Or.inr ⟨selectWithin_none hw, hrest.first⟩), hrest.listed,
            hrest.eligible, hrest.provider⟩
      | some p =>
          obtain ⟨hs, hm, he⟩ := selectWithin_some hw
          obtain rfl := checked_some_inj.mp h
          exact ⟨firstIn_cons.mpr (Or.inl ⟨rfl, hs⟩), hm, he, rfl⟩

/-- The model of a selection is among its candidates, marked eligible. -/
theorem searchTiers_candidate {order : List Tier} {seen : List CandidateInfo}
    {sel : TierSelection} (h : cat.searchTiers draws oracle tier order seen = .ok (some sel)) :
    ∃ c ∈ sel.candidates, c.model = sel.model ∧ c.tier = sel.tier ∧ c.eligible = true := by
  induction order generalizing seen with
  | nil => cases h
  | cons t rest ih =>
      simp only [TierCatalog.searchTiers] at h
      rw [checked_bind_eq_ok] at h
      obtain ⟨⟨looked, found⟩, hw, h⟩ := h
      cases found with
      | none => exact ih h
      | some p =>
          obtain ⟨-, c, hc, he⟩ := selectWithin_candidate hw
          obtain rfl := checked_some_inj.mp h
          exact ⟨c, List.mem_append_right seen hc, he⟩

theorem searchTiers_eq_none_iff {order : List Tier} {seen : List CandidateInfo} :
    cat.searchTiers draws oracle tier order seen = .ok none ↔
      ∀ t ∈ order, NoneEligible cat.tiers oracle t := by
  induction order generalizing seen with
  | nil => simp [TierCatalog.searchTiers]
  | cons t rest ih =>
      rw [List.forall_mem_cons]
      constructor
      · intro h
        simp only [TierCatalog.searchTiers] at h
        rw [checked_bind_eq_ok] at h
        obtain ⟨⟨looked, found⟩, hw, h⟩ := h
        cases found with
        | none => exact ⟨selectWithin_none hw, ih.mp h⟩
        | some p => cases h
      · rintro ⟨ht, hrest⟩
        obtain ⟨looked, hw⟩ := selectWithin_of_noneEligible draws ht
        simp only [TierCatalog.searchTiers]
        rw [hw]
        exact ih.mpr hrest

theorem searchTiers_of_firstIn {order : List Tier} {seen : List CandidateInfo} {t : Tier}
    (h : FirstIn (SomeEligible cat.tiers oracle) (NoneEligible cat.tiers oracle) order t) :
    ∃ sel, cat.searchTiers draws oracle tier order seen = .ok (some sel) ∧ sel.tier = t := by
  induction order generalizing seen with
  | nil => exact absurd h not_firstIn_nil
  | cons a rest ih =>
      simp only [TierCatalog.searchTiers]
      rcases firstIn_cons.mp h with ⟨rfl, hs⟩ | ⟨hn, hrest⟩
      · obtain ⟨looked, m, why, hw⟩ := selectWithin_of_someEligible draws hs
        rw [hw]
        exact ⟨_, rfl, rfl⟩
      · obtain ⟨looked, hw⟩ := selectWithin_of_noneEligible draws hn
        rw [hw]
        exact ih hrest

variable {minTier maxTier : Tier}

/-- A selection comes from the first tier of the search order with an eligible model. -/
theorem select_eq_some {sel : TierSelection}
    (h : cat.select draws tier minTier maxTier oracle = .ok (some sel)) :
    Selected cat.tiers oracle (searchOrder tier minTier maxTier) sel :=
  searchTiers_eq_some h

theorem select_candidate {sel : TierSelection}
    (h : cat.select draws tier minTier maxTier oracle = .ok (some sel)) :
    ∃ c ∈ sel.candidates, c.model = sel.model ∧ c.tier = sel.tier ∧ c.eligible = true :=
  searchTiers_candidate h

/-- Nothing is selected exactly when no searched tier has an eligible model. -/
theorem select_eq_none_iff :
    cat.select draws tier minTier maxTier oracle = .ok none ↔
      ∀ t ∈ searchOrder tier minTier maxTier, NoneEligible cat.tiers oracle t :=
  searchTiers_eq_none_iff

/-- The tier of the selection is the first one with an eligible model. -/
theorem select_tier_iff {t : Tier} :
    (∃ sel, cat.select draws tier minTier maxTier oracle = .ok (some sel) ∧ sel.tier = t) ↔
      FirstIn (SomeEligible cat.tiers oracle) (NoneEligible cat.tiers oracle)
        (searchOrder tier minTier maxTier) t := by
  constructor
  · rintro ⟨sel, h, rfl⟩
    exact (select_eq_some h).first
  · exact searchTiers_of_firstIn

end Search

end AuraGateway.Router
