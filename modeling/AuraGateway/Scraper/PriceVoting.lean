import AuraGateway.Foundations.Majority

/-!
# Voting on prices

Several rows may give a price for one model. The price shown is the one that a strict majority
of the rows agrees on, or else the median, rounded to six decimals where it is an average.
Numbers are exact here; prices are stored in millionths.

A majority and a median do not depend on the order of the rows, and an average that is rounded
to millionths does not leave the range of its millionths (`round6_between`).
-/

set_option autoImplicit false

namespace AuraGateway.Scraper

open AuraGateway.Foundations.Majority

/-! ## Rounding -/

/-- `Number(n.toFixed(6))`: the nearest millionth, of two the one away from zero; numbers from
`10 ^ 21` on are left as they are. -/
def round6 (n : ℚ) : ℚ :=
  if 10 ^ 21 ≤ |n| then n
  else
    let millionths := ⌊|n| * 10 ^ 6 + 1 / 2⌋
    if n < 0 then -(millionths / 10 ^ 6) else millionths / 10 ^ 6

/-! ## Votes -/

/-- The prices that are given. -/
def givenPrices (values : List (Option ℚ)) : List ℚ := values.filterMap id

/-- The median: the middle one of the sorted prices, or the rounded average of the two in the
middle. -/
def median (prices : List ℚ) : Option ℚ :=
  let sorted := prices.insertionSort (· ≤ ·)
  let mid := sorted.length / 2
  if sorted.length % 2 = 1 then sorted[mid]?
  else do
    let below ← sorted[mid - 1]?
    let above ← sorted[mid]?
    some (round6 ((below + above) / 2))

/-- Pick one price from several observations of the same model: the value a strict majority
agrees on, else the median. -/
def majorityOrMedian (values : List (Option ℚ)) : Option ℚ :=
  match givenPrices values with
  | [] => none
  | v :: vs =>
      let best := leader (v, 0) (tally (v :: vs))
      if (v :: vs).length < best.2 * 2 then some best.1 else median (v :: vs)

/-! ## Millionths -/

/-- A multiple of 0.000001. -/
def IsMicro (p : ℚ) : Prop := ∃ k : ℤ, p = k / 10 ^ 6

theorem IsMicro.neg {p : ℚ} (h : IsMicro p) : IsMicro (-p) := by
  obtain ⟨k, rfl⟩ := h
  exact ⟨-k, by push_cast; ring⟩

/-- Rounding to the nearest millionth does not pass a millionth. -/
theorem nearest_between {lo hi x : ℚ} (hlo : IsMicro lo) (hhi : IsMicro hi) (hlx : lo ≤ x)
    (hxh : x ≤ hi) :
    lo ≤ (⌊x * 10 ^ 6 + 1 / 2⌋ : ℤ) / 10 ^ 6 ∧ ((⌊x * 10 ^ 6 + 1 / 2⌋ : ℤ) : ℚ) / 10 ^ 6 ≤ hi := by
  obtain ⟨k, rfl⟩ := hlo
  obtain ⟨m, rfl⟩ := hhi
  have hpos : (0 : ℚ) < 10 ^ 6 := by norm_num
  rw [div_le_iff₀ hpos] at hlx
  rw [le_div_iff₀ hpos] at hxh
  constructor
  · refine div_le_div_of_nonneg_right ?_ hpos.le
    have hfloor : k ≤ ⌊x * 10 ^ 6 + 1 / 2⌋ := Int.le_floor.mpr (by linarith)
    exact_mod_cast hfloor
  · refine div_le_div_of_nonneg_right ?_ hpos.le
    have hfloor : ⌊x * 10 ^ 6 + 1 / 2⌋ < m + 1 := by
      rw [Int.floor_lt]
      push_cast
      linarith
    exact_mod_cast Int.lt_add_one_iff.mp hfloor

theorem round6_between {lo hi x : ℚ} (hlo : IsMicro lo) (hhi : IsMicro hi) (hlx : lo ≤ x)
    (hxh : x ≤ hi) : lo ≤ round6 x ∧ round6 x ≤ hi := by
  rw [round6]
  split
  · exact ⟨hlx, hxh⟩
  · dsimp only
    split
    · -- a negative number is rounded as its opposite
      rename_i hneg
      rw [abs_of_neg hneg]
      obtain ⟨h₁, h₂⟩ := nearest_between hhi.neg hlo.neg (neg_le_neg hxh) (neg_le_neg hlx)
      exact ⟨le_neg_of_le_neg h₂, neg_le_of_neg_le h₁⟩
    · rename_i hnonneg
      rw [abs_of_nonneg (not_lt.mp hnonneg)]
      exact nearest_between hlo hhi hlx hxh

/-! ## What a vote gives -/

theorem mem_givenPrices {values : List (Option ℚ)} {p : ℚ} :
    p ∈ givenPrices values ↔ some p ∈ values := by
  simp [givenPrices]

theorem givenPrices_eq_nil_iff {values : List (Option ℚ)} :
    givenPrices values = [] ↔ ∀ v ∈ values, v = none := by
  rw [givenPrices, List.filterMap_eq_nil_iff]
  rfl

theorem givenPrices_perm {values values' : List (Option ℚ)} (h : values.Perm values') :
    (givenPrices values).Perm (givenPrices values') :=
  h.filterMap id

theorem majorityOrMedian_of_majority {values : List (Option ℚ)} {p : ℚ}
    (h : StrictMajority (givenPrices values) p) : majorityOrMedian values = some p := by
  rw [majorityOrMedian]
  split
  · rename_i hnil
    exact absurd hnil h.ne_nil
  · rename_i v vs heq
    rw [heq] at h
    have hlead := leader_eq_of_majority h v
    rw [StrictMajority] at h
    dsimp only
    rw [hlead, if_pos (by omega)]

theorem majorityOrMedian_of_no_majority {values : List (Option ℚ)}
    (hne : givenPrices values ≠ []) (h : ∀ p, ¬ StrictMajority (givenPrices values) p) :
    majorityOrMedian values = median (givenPrices values) := by
  rw [majorityOrMedian]
  split
  · rename_i hnil
    exact absurd hnil hne
  · rename_i v vs heq
    rw [heq] at h
    dsimp only
    rw [if_neg fun hlead => h _ (majority_of_leader (List.cons_ne_nil v vs) v hlead), heq]

/-- A median lies between all bounds of the prices that are millionths. -/
theorem median_between {prices : List ℚ} (hne : prices ≠ []) {lo hi : ℚ} (hlo : IsMicro lo)
    (hhi : IsMicro hi) (hbounds : ∀ p ∈ prices, lo ≤ p ∧ p ≤ hi) :
    ∃ p, median prices = some p ∧ lo ≤ p ∧ p ≤ hi := by
  have hsorted : ∀ {i : Nat} {p : ℚ},
      (prices.insertionSort (· ≤ ·))[i]? = some p → lo ≤ p ∧ p ≤ hi := by
    intro i p hp
    exact hbounds p ((List.mem_insertionSort _).mp (List.mem_of_getElem? hp))
  have hlen : 0 < (prices.insertionSort (· ≤ ·)).length := by
    rw [List.length_insertionSort]
    exact List.length_pos_iff.mpr hne
  rw [median]
  generalize prices.insertionSort (· ≤ ·) = sorted at hsorted hlen ⊢
  split
  · have hmid := List.getElem?_eq_getElem (l := sorted) (i := sorted.length / 2) (by omega)
    exact ⟨_, hmid, hsorted hmid⟩
  · have hbelow := List.getElem?_eq_getElem (l := sorted) (i := sorted.length / 2 - 1) (by omega)
    have habove := List.getElem?_eq_getElem (l := sorted) (i := sorted.length / 2) (by omega)
    rw [hbelow, habove]
    obtain ⟨h₁, h₂⟩ := hsorted hbelow
    obtain ⟨h₃, h₄⟩ := hsorted habove
    exact ⟨_, rfl, round6_between hlo hhi (by linarith) (by linarith)⟩

/-- There is a price exactly when one is given, and it does not leave the range of the given
ones. -/
theorem majorityOrMedian_between {values : List (Option ℚ)} (hne : givenPrices values ≠ [])
    {lo hi : ℚ} (hlo : IsMicro lo) (hhi : IsMicro hi)
    (hbounds : ∀ p ∈ givenPrices values, lo ≤ p ∧ p ≤ hi) :
    ∃ p, majorityOrMedian values = some p ∧ lo ≤ p ∧ p ≤ hi := by
  by_cases h : ∃ p, StrictMajority (givenPrices values) p
  · obtain ⟨p, hp⟩ := h
    have hmem : p ∈ givenPrices values := by
      rw [StrictMajority] at hp
      exact List.count_pos_iff.mp (by omega)
    exact ⟨p, majorityOrMedian_of_majority hp, hbounds p hmem⟩
  · rw [majorityOrMedian_of_no_majority hne (not_exists.mp h)]
    exact median_between hne hlo hhi hbounds

theorem majorityOrMedian_perm {values values' : List (Option ℚ)} (h : values.Perm values') :
    majorityOrMedian values = majorityOrMedian values' := by
  have hgiven := givenPrices_perm h
  by_cases hne : givenPrices values = []
  · have hne' : givenPrices values' = [] := by
      rw [hne] at hgiven
      exact hgiven.nil_eq.symm
    rw [majorityOrMedian, majorityOrMedian, hne, hne']
  · have hne' : givenPrices values' ≠ [] := by
      intro hnil
      rw [hnil] at hgiven
      exact hne hgiven.eq_nil
    by_cases hmajor : ∃ p, StrictMajority (givenPrices values) p
    · obtain ⟨p, hp⟩ := hmajor
      rw [majorityOrMedian_of_majority hp,
        majorityOrMedian_of_majority ((strictMajority_congr hgiven p).mp hp)]
    · have hmajor' : ∀ p, ¬ StrictMajority (givenPrices values') p := by
        intro p hp
        exact hmajor ⟨p, (strictMajority_congr hgiven p).mpr hp⟩
      rw [majorityOrMedian_of_no_majority hne (not_exists.mp hmajor),
        majorityOrMedian_of_no_majority hne' hmajor', median, median,
        insertionSort_eq_of_perm hgiven]

/-- A vote on prices in millionths: its result is among or between the given prices, a strict
majority decides, and the order of the votes does not matter. -/
theorem majorityOrMedian_spec (values : List (Option ℚ))
    (hmicro : ∀ p, some p ∈ values → IsMicro p) :
    (majorityOrMedian values = none ↔ ∀ v ∈ values, v = none)
    ∧ (∀ p, majorityOrMedian values = some p →
        ∃ lo hi, some lo ∈ values ∧ some hi ∈ values
          ∧ (∀ q, some q ∈ values → lo ≤ q ∧ q ≤ hi) ∧ lo ≤ p ∧ p ≤ hi)
    ∧ (∀ p, StrictMajority (givenPrices values) p → majorityOrMedian values = some p)
    ∧ ∀ values', values.Perm values' → majorityOrMedian values' = majorityOrMedian values := by
  have hsome : givenPrices values ≠ [] → ∃ p, majorityOrMedian values = some p
      ∧ ∃ lo hi, some lo ∈ values ∧ some hi ∈ values
        ∧ (∀ q, some q ∈ values → lo ≤ q ∧ q ≤ hi) ∧ lo ≤ p ∧ p ≤ hi := by
    intro hne
    obtain ⟨lo, hlo, hi, hhi, hbounds⟩ := exists_bounds hne
    rw [mem_givenPrices] at hlo hhi
    obtain ⟨p, hp, hrange⟩ := majorityOrMedian_between hne (hmicro lo hlo) (hmicro hi hhi) hbounds
    exact ⟨p, hp, lo, hi, hlo, hhi, fun q hq => hbounds q (mem_givenPrices.mpr hq), hrange⟩
  have hnone : givenPrices values = [] → majorityOrMedian values = none := by
    intro hnil
    rw [majorityOrMedian, hnil]
  refine ⟨?_, ?_, fun p hp => majorityOrMedian_of_majority hp,
    fun values' h => (majorityOrMedian_perm h).symm⟩
  · rw [← givenPrices_eq_nil_iff]
    refine ⟨fun h => ?_, hnone⟩
    by_contra hne
    obtain ⟨p, hp, -⟩ := hsome hne
    rw [h] at hp
    cases hp
  · intro p hp
    by_cases hne : givenPrices values = []
    · rw [hnone hne] at hp
      cases hp
    · obtain ⟨q, hq, hrange⟩ := hsome hne
      obtain rfl := Option.some.inj (hp.symm.trans hq)
      exact hrange

/-- Two rows that do not agree, and one without a price. -/
theorem majorityOrMedian_spec_sample :
    ∃ lo hi, some lo ∈ [some (1 / 4 : ℚ), none, some (3 / 4)]
      ∧ some hi ∈ [some (1 / 4 : ℚ), none, some (3 / 4)]
      ∧ (∀ q, some q ∈ [some (1 / 4 : ℚ), none, some (3 / 4)] → lo ≤ q ∧ q ≤ hi)
      ∧ lo ≤ (1 / 2 : ℚ) ∧ (1 / 2 : ℚ) ≤ hi := by
  have hmicro : ∀ p, some p ∈ [some (1 / 4 : ℚ), none, some (3 / 4)] → IsMicro p := by
    intro p hp
    simp only [List.mem_cons, Option.some.injEq, reduceCtorEq, List.not_mem_nil, or_false,
      false_or] at hp
    rcases hp with rfl | rfl
    · exact ⟨250000, by norm_num⟩
    · exact ⟨750000, by norm_num⟩
  exact (majorityOrMedian_spec _ hmicro).2.1 (1 / 2) (by decide +kernel)

end AuraGateway.Scraper
