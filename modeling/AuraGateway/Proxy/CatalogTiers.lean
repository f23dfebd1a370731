import AuraGateway.Foundations.SortedCuts
import AuraGateway.Proxy.RouterBuild
import AuraGateway.Router.TierChoice

/-!
# Tiers from a catalog

What `tiersFromCatalog` gives for a catalog, in which every model has one entry. The priced models
are sorted by blended price; those of the reasoning tier are set aside and the others are cut into
three slices, of which each tier takes those with tool support first. With prices that compare the
four lists are disjoint, ordered by price and free of repetition (`tiersFromCatalog_sound`).

A slice holds a third of the models, rounded up, and what is left falls to the last one. So the last
slice is empty for four models, and no slice is for three, five or more
(`thirds_nonempty_iff`).
-/

set_option autoImplicit false

namespace AuraGateway.Proxy

open AuraGateway.RustStd AuraGateway.Types AuraGateway.Router AuraGateway.Foundations.SortedCuts
open AuraGateway.Foundations.FloatOrder

/-! ## The parts of a catalog -/

section Parts

variable (catalog : List CatalogEntry)

/-- Every model has one entry. -/
def DistinctModels : Prop := (catalog.map (·.model)).Nodup

/-- Blended prices can be compared. -/
def ComparablePrices : Prop := ∀ e ∈ catalog, ∀ p ∈ e.blendedPerMillion, p.isNaN = false

/-- The entries with a blended price, cheapest first. -/
def pricedEntries : List (CatalogEntry × Float) :=
  ((catalogEntries catalog).filterMap fun e => e.blendedPerMillion.map fun p => (e, p)).mergeSort
    fun a b => (f64PartialCmp a.2 b.2).getD .eq != .gt

/-- The entries of the reasoning tier, most expensive first. -/
def reasoningEntries : List CatalogEntry :=
  let tagged := (((pricedEntries catalog).filter fun e => e.1.isReasoning).map Prod.fst).reverse
  if tagged.isEmpty then ((pricedEntries catalog).reverse.take 3).map Prod.fst else tagged

/-- The other priced entries, cheapest first. -/
def restEntries : List CatalogEntry :=
  ((pricedEntries catalog).filter
    fun e => !(reasoningEntries catalog).any fun r => r.model == e.1.model).map Prod.fst

/-- A third of `n`, rounded up, and at least one. -/
def thirdOf (n : Nat) : Nat := max ((n + 2) / 3) 1

/-- The entries that a tier takes its models from. -/
def tierEntries : Tier → List CatalogEntry
  | .simple =>
      (restEntries catalog).take
        (min (thirdOf (restEntries catalog).length) (restEntries catalog).length)
  | .medium =>
      ((restEntries catalog).take
        (min (2 * thirdOf (restEntries catalog).length) (restEntries catalog).length)).drop
        (min (thirdOf (restEntries catalog).length) (restEntries catalog).length)
  | .complex =>
      (restEntries catalog).drop
        (min (2 * thirdOf (restEntries catalog).length) (restEntries catalog).length)
  | .reasoning => reasoningEntries catalog

/-- The entries a tier lists the models of. -/
def listedEntries (perTier : Nat) : Tier → List CatalogEntry
  | .reasoning => (reasoningEntries catalog).take perTier
  | t => (preferredFirst CatalogEntry.supportsTools (tierEntries catalog t)).take perTier

theorem get_tiersFromCatalog (perTier : Nat) (t : Tier) :
    (tiersFromCatalog catalog perTier).get t
      = (listedEntries catalog perTier t).map (·.model) := by
  cases t <;> rfl

end Parts

section Facts

variable {catalog : List CatalogEntry}

/-- The priced entries are those of the catalog that have a blended price. -/
theorem mem_pricedEntries {e : CatalogEntry} {p : Float} :
    (e, p) ∈ pricedEntries catalog ↔ e ∈ catalog ∧ e.blendedPerMillion = some p := by
  rw [pricedEntries, List.mem_mergeSort, List.mem_filterMap]
  constructor
  · rintro ⟨e', he', hp⟩
    obtain ⟨q, hq, heq⟩ := Option.map_eq_some_iff.mp hp
    obtain ⟨rfl, rfl⟩ := Prod.mk.inj heq
    exact ⟨List.mem_mergeSort.mp he', hq⟩
  · rintro ⟨he, hp⟩
    exact ⟨e, List.mem_mergeSort.mpr he, Option.map_eq_some_iff.mpr ⟨p, hp, rfl⟩⟩

theorem mem_of_mem_map_fst {s : List (CatalogEntry × Float)} (hs : ∀ x ∈ s, x ∈ pricedEntries catalog)
    {e : CatalogEntry} (he : e ∈ s.map Prod.fst) :
    e ∈ catalog ∧ ∃ p, e.blendedPerMillion = some p := by
  obtain ⟨x, hx, rfl⟩ := List.mem_map.mp he
  obtain ⟨hmem, hp⟩ := mem_pricedEntries.mp (hs x hx)
  exact ⟨hmem, x.2, hp⟩

/-- A model is priced once. -/
theorem pricedEntries_nodup (h : DistinctModels catalog) :
    ((pricedEntries catalog).map (·.1.model)).Nodup := by
  have hentries : (catalogEntries catalog).Pairwise fun a b => a.model ≠ b.model := by
    have hperm : ((catalogEntries catalog).map (·.model)).Perm (catalog.map (·.model)) :=
      (List.mergeSort_perm _ _).map _
    exact List.pairwise_map.mp (hperm.nodup_iff.mpr h)
  have hpriced : (((catalogEntries catalog).filterMap fun e =>
      e.blendedPerMillion.map fun p => (e, p)).map (·.1.model)).Nodup := by
    rw [List.Nodup, List.pairwise_map, List.pairwise_filterMap]
    refine hentries.imp fun {a b} hne x hx y hy => ?_
    obtain ⟨p, -, rfl⟩ := Option.map_eq_some_iff.mp hx
    obtain ⟨q, -, rfl⟩ := Option.map_eq_some_iff.mp hy
    exact hne
  exact ((List.mergeSort_perm _ _).map _).nodup_iff.mpr hpriced

/-- Prices that compare are in order. -/
theorem pricedEntries_sorted (h : ComparablePrices catalog) :
    (pricedEntries catalog).Pairwise fun a b => a.2 ≤ b.2 := by
  have hnum : ∀ x ∈ pricedEntries catalog, x.2.isNaN = false := by
    rintro ⟨e, p⟩ hx
    obtain ⟨he, hp⟩ := mem_pricedEntries.mp hx
    exact h e he p hp
  have hsorted : (pricedEntries catalog).Pairwise fun a b => priceRank a.2 ≤ priceRank b.2 := by
    apply pairwise_mergeSort_of_key fun x : CatalogEntry × Float => priceRank x.2
    intro a ha b hb
    have hpa := hnum a (List.mem_mergeSort.mpr ha)
    have hpb := hnum b (List.mem_mergeSort.mpr hb)
    have hcompare : f64PartialCmp a.2 b.2 = compareRank (rank a.2) (rank b.2) :=
      unpacked_compare_eq a.2.toModel.unpack b.2.toModel.unpack
    rw [hcompare, rank_eq_priceRank hpa, rank_eq_priceRank hpb]
    rcases lt_trichotomy (priceRank a.2) (priceRank b.2) with hlt | heq | hgt
    · simp [compareRank, compare_lt_iff_lt.mpr hlt, hlt.le]
    · simp [compareRank, compare_eq_iff_eq.mpr heq, heq.le]
    · simp [compareRank, compare_gt_iff_gt.mpr hgt, not_le.mpr hgt]
  refine hsorted.imp_of_mem fun {a b} ha hb hle => ?_
  exact (priceRank_le_iff (hnum a ha) (hnum b hb)).mp hle

/-- The entries of the reasoning tier are some of the priced ones. -/
theorem exists_reasoningEntries (catalog : List CatalogEntry) :
    ∃ s : List (CatalogEntry × Float), reasoningEntries catalog = s.map Prod.fst
      ∧ s.Sublist (pricedEntries catalog).reverse := by
  rw [reasoningEntries]
  split
  · exact ⟨_, rfl, List.take_sublist 3 _⟩
  · refine ⟨_, List.map_reverse.symm, ?_⟩
    exact List.filter_sublist.reverse

theorem reasoningEntries_nodup (h : DistinctModels catalog) :
    ((reasoningEntries catalog).map (·.model)).Nodup := by
  obtain ⟨s, hs, hsub⟩ := exists_reasoningEntries catalog
  have hmodels := hsub.map (·.1.model)
  rw [List.map_reverse] at hmodels
  rw [hs, List.map_map]
  exact hmodels.nodup (List.nodup_reverse.mpr (pricedEntries_nodup h))

theorem mem_of_mem_reasoningEntries {e : CatalogEntry} (he : e ∈ reasoningEntries catalog) :
    e ∈ catalog ∧ ∃ p, e.blendedPerMillion = some p := by
  obtain ⟨s, hs, hsub⟩ := exists_reasoningEntries catalog
  rw [hs] at he
  exact mem_of_mem_map_fst (fun x hx => List.mem_reverse.mp (hsub.subset hx)) he

theorem mem_of_mem_restEntries {e : CatalogEntry} (he : e ∈ restEntries catalog) :
    e ∈ catalog ∧ ∃ p, e.blendedPerMillion = some p :=
  mem_of_mem_map_fst (fun _ hx => List.mem_of_mem_filter hx) he

theorem restEntries_nodup (h : DistinctModels catalog) :
    ((restEntries catalog).map (·.model)).Nodup := by
  rw [restEntries, List.map_map]
  exact (List.filter_sublist.map _).nodup (pricedEntries_nodup h)

/-- No model of the reasoning tier is among the others. -/
theorem model_ne_of_mem_restEntries {r e : CatalogEntry} (hr : r ∈ reasoningEntries catalog)
    (he : e ∈ restEntries catalog) : r.model ≠ e.model := by
  obtain ⟨x, hx, rfl⟩ := List.mem_map.mp he
  intro heq
  have hnot := (List.mem_filter.mp hx).2
  rw [Bool.not_eq_true', List.any_eq_false] at hnot
  exact hnot r hr (beq_iff_eq.mpr heq)

/-- The other entries are in the order of their prices. -/
theorem restEntries_sorted (h : ComparablePrices catalog) :
    (restEntries catalog).Pairwise fun a b =>
      ∀ p ∈ a.blendedPerMillion, ∀ q ∈ b.blendedPerMillion, p ≤ q := by
  rw [restEntries, List.pairwise_map]
  refine ((pricedEntries_sorted h).sublist List.filter_sublist).imp_of_mem ?_
  intro a b ha hb hle p hp q hq
  obtain rfl : a.2 = p :=
    Option.some.inj ((mem_pricedEntries.mp (List.mem_of_mem_filter ha)).2.symm.trans hp)
  obtain rfl : b.2 = q :=
    Option.some.inj ((mem_pricedEntries.mp (List.mem_of_mem_filter hb)).2.symm.trans hq)
  exact hle

/-! ## Slices -/

theorem min_third_le (n : Nat) : min (thirdOf n) n ≤ min (2 * thirdOf n) n := by
  apply min_le_min_right
  omega

/-- The three slices make up the other entries. -/
theorem tierEntries_append (catalog : List CatalogEntry) :
    tierEntries catalog .simple ++ (tierEntries catalog .medium ++ tierEntries catalog .complex)
      = restEntries catalog :=
  cut_append _ (min_third_le _)

/-- What holds of the other entries in order holds across the slices. -/
theorem rel_of_mem_tierEntries {R : CatalogEntry → CatalogEntry → Prop}
    (h : (restEntries catalog).Pairwise R) {t u : Tier} (htu : t < u) (hu : u ≤ .complex)
    {a b : CatalogEntry} (ha : a ∈ tierEntries catalog t) (hb : b ∈ tierEntries catalog u) : R a b := by
  rw [← tierEntries_append] at h
  obtain ⟨-, hback, hfront⟩ := List.pairwise_append.mp h
  cases u with
  | simple => cases t <;> exact absurd htu (by decide)
  | medium =>
      cases t with
      | simple => exact hfront a ha b (List.mem_append_left _ hb)
      | medium | complex | reasoning => exact absurd htu (by decide)
  | complex =>
      cases t with
      | simple => exact hfront a ha b (List.mem_append_right _ hb)
      | medium => exact (List.pairwise_append.mp hback).2.2 a ha b hb
      | complex | reasoning => exact absurd htu (by decide)
  | reasoning => exact absurd hu (by decide)

theorem tierEntries_sublist {t : Tier} (ht : t ≠ .reasoning) :
    (tierEntries catalog t).Sublist (restEntries catalog) := by
  cases t with
  | simple => exact List.take_sublist _ _
  | medium => exact (List.drop_sublist _ _).trans (List.take_sublist _ _)
  | complex => exact List.drop_sublist _ _
  | reasoning => exact absurd rfl ht

theorem tierEntries_nodup (h : DistinctModels catalog) (t : Tier) :
    ((tierEntries catalog t).map (·.model)).Nodup := by
  by_cases ht : t = .reasoning
  · subst ht
    exact reasoningEntries_nodup h
  · exact ((tierEntries_sublist ht).map _).nodup (restEntries_nodup h)

theorem mem_of_mem_tierEntries {t : Tier} {e : CatalogEntry} (he : e ∈ tierEntries catalog t) :
    e ∈ catalog ∧ ∃ p, e.blendedPerMillion = some p := by
  by_cases ht : t = .reasoning
  · subst ht
    exact mem_of_mem_reasoningEntries he
  · exact mem_of_mem_restEntries ((tierEntries_sublist ht).subset he)

/-- No two tiers take from the same model. -/
theorem model_ne_of_mem_tierEntries (h : DistinctModels catalog) {t u : Tier} (htu : t ≠ u)
    {a b : CatalogEntry} (ha : a ∈ tierEntries catalog t) (hb : b ∈ tierEntries catalog u) :
    a.model ≠ b.model := by
  have hrest : (restEntries catalog).Pairwise fun a b => a.model ≠ b.model :=
    List.pairwise_map.mp (restEntries_nodup h)
  by_cases ht : t = .reasoning
  · subst ht
    exact model_ne_of_mem_restEntries ha ((tierEntries_sublist htu.symm).subset hb)
  · by_cases hu : u = .reasoning
    · subst hu
      exact (model_ne_of_mem_restEntries hb ((tierEntries_sublist ht).subset ha)).symm
    · have hle : ∀ v : Tier, v ≠ .reasoning → v ≤ .complex := by
        intro v hv
        cases v with
        | reasoning => exact absurd rfl hv
        | simple | medium | complex => decide
      rcases lt_or_gt_of_ne htu with hlt | hgt
      · exact rel_of_mem_tierEntries hrest hlt (hle u hu) ha hb
      · exact (rel_of_mem_tierEntries hrest hgt (hle t ht) hb ha).symm

/-! ## What the tiers list -/

variable {perTier : Nat}

/-- The listed entries of a tier are the first of a permutation of its entries. -/
theorem exists_listedEntries (catalog : List CatalogEntry) (perTier : Nat) (t : Tier) :
    ∃ s : List CatalogEntry, s.Perm (tierEntries catalog t)
      ∧ listedEntries catalog perTier t = s.take perTier := by
  cases t with
  | reasoning => exact ⟨_, List.Perm.refl _, rfl⟩
  | simple | medium | complex => exact ⟨_, preferredFirst_perm _, rfl⟩

theorem mem_tierEntries_of_mem {t : Tier} {e : CatalogEntry} (he : e ∈ listedEntries catalog perTier t) :
    e ∈ tierEntries catalog t := by
  obtain ⟨s, hperm, hs⟩ := exists_listedEntries catalog perTier t
  rw [hs] at he
  exact hperm.mem_iff.mp (List.mem_of_mem_take he)

theorem mem_get_tiersFromCatalog {t : Tier} {m : String} :
    m ∈ (tiersFromCatalog catalog perTier).get t
      ↔ ∃ e ∈ listedEntries catalog perTier t, e.model = m := by
  rw [get_tiersFromCatalog, List.mem_map]

/-- A model of the catalog that a tier lists is listed for its entry. -/
theorem mem_listedEntries_of_model (h : DistinctModels catalog) {t : Tier} {e : CatalogEntry}
    (he : e ∈ catalog) (hm : e.model ∈ (tiersFromCatalog catalog perTier).get t) :
    e ∈ listedEntries catalog perTier t := by
  obtain ⟨e', he', hmodel⟩ := mem_get_tiersFromCatalog.mp hm
  have hmem := (mem_of_mem_tierEntries (mem_tierEntries_of_mem he')).1
  rwa [← List.inj_on_of_nodup_map h hmem he hmodel]

end Facts

/-- What holds of derived tiers: no slice is out of range, the lists are free of repetition, disjoint
and not too long, their models are priced, a lower tier is not more expensive, and a tier below
reasoning lists a model without tool support only where all of its slice with tool support are
listed. -/
structure SoundTiers (catalog : List CatalogEntry) (perTier : Nat) : Prop where
  slices : ∃ i j, slice (restEntries catalog) 0 i = .ok (tierEntries catalog .simple)
    ∧ slice (restEntries catalog) i j = .ok (tierEntries catalog .medium)
    ∧ slice (restEntries catalog) j (restEntries catalog).length
      = .ok (tierEntries catalog .complex)
  nodup : ∀ t, ((tiersFromCatalog catalog perTier).get t).Nodup
  disjoint : ∀ t u, t ≠ u → ∀ m ∈ (tiersFromCatalog catalog perTier).get t,
    m ∉ (tiersFromCatalog catalog perTier).get u
  bounded : ∀ t, ((tiersFromCatalog catalog perTier).get t).length ≤ perTier
  priced : ∀ t, ∀ m ∈ (tiersFromCatalog catalog perTier).get t,
    ∃ e ∈ catalog, e.model = m ∧ ∃ p, e.blendedPerMillion = some p
  ordered : ∀ t u, t < u → u ≤ .complex → ∀ a ∈ catalog, ∀ b ∈ catalog,
    a.model ∈ (tiersFromCatalog catalog perTier).get t →
    b.model ∈ (tiersFromCatalog catalog perTier).get u →
    ∃ p q, a.blendedPerMillion = some p ∧ b.blendedPerMillion = some q ∧ p ≤ q
  tools : ∀ t, t ≤ .complex → ∀ a ∈ tierEntries catalog t, ∀ b ∈ tierEntries catalog t,
    a.supportsTools = true → b.supportsTools = false →
    b.model ∈ (tiersFromCatalog catalog perTier).get t →
    a.model ∈ (tiersFromCatalog catalog perTier).get t

/-- The slices that the tiers are taken from are in range. -/
theorem slices_in_range (catalog : List CatalogEntry) :
    ∃ i j, slice (restEntries catalog) 0 i = .ok (tierEntries catalog .simple)
      ∧ slice (restEntries catalog) i j = .ok (tierEntries catalog .medium)
      ∧ slice (restEntries catalog) j (restEntries catalog).length
        = .ok (tierEntries catalog .complex) := by
  have hfirst := min_le_right (thirdOf (restEntries catalog).length) (restEntries catalog).length
  have hsecond :=
    min_le_right (2 * thirdOf (restEntries catalog).length) (restEntries catalog).length
  have hle := min_third_le (restEntries catalog).length
  refine ⟨_, _, if_pos ⟨Nat.zero_le _, hfirst⟩, if_pos ⟨hle, hsecond⟩, ?_⟩
  refine (if_pos ⟨hsecond, le_rfl⟩).trans ?_
  rw [List.take_length]
  rfl

namespace Sample

/-- A catalog entry with two equal prices. -/
def catalogModel (model : String) (capabilities : List String) : CatalogEntry where
  model := model
  provider := "openai"
  capabilities := capabilities
  inputPerMillion := some 1.0
  outputPerMillion := some 1.0

/-- One model tagged `reasoning` and four others. -/
def fiveModels : List CatalogEntry :=
  [catalogModel "m1" [], catalogModel "m2" [], catalogModel "m3" [], catalogModel "m4" [],
    catalogModel "r1" ["reasoning"]]

end Sample

section Thirds

variable (catalog : List CatalogEntry)

/-- The entries with a blended price, in the order of the catalog. -/
def knownPrices : List CatalogEntry := catalog.filter fun e => e.blendedPerMillion.isSome

/-- The number of priced models outside the reasoning tier: those that are not tagged, or all but
three where none is. -/
def remainingModels : Nat :=
  if (knownPrices catalog).any (·.isReasoning) then
    ((knownPrices catalog).filter fun e => !e.isReasoning).length
  else (knownPrices catalog).length - 3

variable {catalog}

theorem map_pricedEntries_perm (catalog : List CatalogEntry) :
    ((pricedEntries catalog).map Prod.fst).Perm (knownPrices catalog) := by
  have hfilter : ∀ l : List CatalogEntry,
      (l.filterMap fun e => e.blendedPerMillion.map fun p => (e, p)).map Prod.fst
        = l.filter fun e => e.blendedPerMillion.isSome := by
    intro l
    induction l with
    | nil => rfl
    | cons e l ih =>
        rw [List.filterMap_cons, List.filter_cons]
        cases e.blendedPerMillion with
        | none => exact ih
        | some p => exact congrArg (e :: ·) ih
  have hsorted : ((pricedEntries catalog).map Prod.fst).Perm
      (((catalogEntries catalog).filterMap fun e =>
        e.blendedPerMillion.map fun p => (e, p)).map Prod.fst) := (List.mergeSort_perm _ _).map _
  rw [hfilter] at hsorted
  exact hsorted.trans ((List.mergeSort_perm _ _).filter _)

/-- The entries of the reasoning tier: those that are tagged, or at most three. -/
theorem length_reasoningEntries (catalog : List CatalogEntry) :
    (reasoningEntries catalog).length
      = if (knownPrices catalog).any (·.isReasoning) then
          ((knownPrices catalog).filter (·.isReasoning)).length
        else min 3 (knownPrices catalog).length := by
  have htagged : (((pricedEntries catalog).filter fun e => e.1.isReasoning).map Prod.fst).Perm
      ((knownPrices catalog).filter (·.isReasoning)) := by
    have hmap : ((pricedEntries catalog).filter fun e => e.1.isReasoning).map Prod.fst
        = ((pricedEntries catalog).map Prod.fst).filter (·.isReasoning) := by
      rw [List.filter_map]
      rfl
    rw [hmap]
    exact (map_pricedEntries_perm catalog).filter _
  have hlength := (map_pricedEntries_perm catalog).length_eq
  rw [List.length_map] at hlength
  have hany : (knownPrices catalog).any (·.isReasoning) = true ↔
      (knownPrices catalog).filter (·.isReasoning) ≠ [] := by
    rw [List.any_eq_true, ne_eq, List.filter_eq_nil_iff]
    simp only [not_forall, not_not, exists_prop]
  rw [reasoningEntries]
  by_cases hnil : (knownPrices catalog).filter (·.isReasoning) = []
  · have hempty : ((pricedEntries catalog).filter fun e => e.1.isReasoning).map Prod.fst = [] := by
      rw [hnil] at htagged
      exact htagged.eq_nil
    rw [if_neg fun h => hany.mp h hnil]
    simp only [hempty, List.reverse_nil, List.isEmpty_nil, if_true]
    rw [List.length_map, List.length_take, List.length_reverse, hlength]
  · have hsome : ¬ (((pricedEntries catalog).filter fun e => e.1.isReasoning).map
        Prod.fst).reverse.isEmpty = true := by
      rw [List.isEmpty_iff, List.reverse_eq_nil_iff]
      intro hempty
      rw [hempty] at htagged
      exact hnil htagged.symm.eq_nil
    rw [if_pos (hany.mpr hnil)]
    simp only [if_neg hsome]
    rw [List.length_reverse, htagged.length_eq]

theorem length_restEntries (h : DistinctModels catalog) :
    (restEntries catalog).length = remainingModels catalog := by
  obtain ⟨s, hs, hsub⟩ := exists_reasoningEntries catalog
  have hmodels := reasoningEntries_nodup h
  rw [hs, List.map_map] at hmodels
  have hrest : (restEntries catalog).length = (pricedEntries catalog).length - s.length := by
    rw [restEntries, List.length_map, hs]
    simp only [List.any_map]
    exact length_filter_not_any (fun x : CatalogEntry × Float => x.1.model) (pricedEntries_nodup h)
      hmodels fun x hx => List.mem_reverse.mp (hsub.subset hx)
  have hpriced := (map_pricedEntries_perm catalog).length_eq
  have hreasoning := length_reasoningEntries catalog
  rw [hs, List.length_map] at hreasoning
  rw [List.length_map] at hpriced
  rw [hrest, hpriced, hreasoning, remainingModels]
  split
  · have hsplit := List.length_eq_length_filter_add (l := knownPrices catalog) (·.isReasoning)
    omega
  · omega

/-- The number of entries that a tier below reasoning takes from. -/
theorem length_tierEntries (catalog : List CatalogEntry) :
    (tierEntries catalog .simple).length
        = min (thirdOf (restEntries catalog).length) (restEntries catalog).length
      ∧ (tierEntries catalog .medium).length
        = min (2 * thirdOf (restEntries catalog).length) (restEntries catalog).length
          - min (thirdOf (restEntries catalog).length) (restEntries catalog).length
      ∧ (tierEntries catalog .complex).length
        = (restEntries catalog).length
          - min (2 * thirdOf (restEntries catalog).length) (restEntries catalog).length := by
  refine ⟨?_, ?_, List.length_drop⟩
  · rw [tierEntries, List.length_take]
    omega
  · rw [tierEntries, List.length_drop, List.length_take]
    omega

/-- A tier lists a model exactly when it has one to take. -/
theorem get_tiersFromCatalog_ne_nil (catalog : List CatalogEntry) {perTier : Nat} (hpos : 1 ≤ perTier) (t : Tier) :
    (tiersFromCatalog catalog perTier).get t ≠ [] ↔ 0 < (tierEntries catalog t).length := by
  obtain ⟨s, hperm, hs⟩ := exists_listedEntries catalog perTier t
  rw [get_tiersFromCatalog, hs, ← List.length_pos_iff, List.length_map, List.length_take,
    hperm.length_eq]
  omega

/-- Each of the three tiers lists a model exactly when at least three models remain, and not four:
two slices of two leave nothing for the third. -/
theorem thirds_nonempty_iff (catalog : List CatalogEntry) (perTier : Nat)
    (hmodels : DistinctModels catalog) (hpos : 1 ≤ perTier) :
    ((tiersFromCatalog catalog perTier).simple ≠ []
        ∧ (tiersFromCatalog catalog perTier).medium ≠ []
        ∧ (tiersFromCatalog catalog perTier).complex ≠ []) ↔
      3 ≤ remainingModels catalog ∧ remainingModels catalog ≠ 4 := by
  have hsimple := get_tiersFromCatalog_ne_nil catalog hpos .simple
  have hmedium := get_tiersFromCatalog_ne_nil catalog hpos .medium
  have hcomplex := get_tiersFromCatalog_ne_nil catalog hpos .complex
  obtain ⟨hs, hm, hc⟩ := length_tierEntries catalog
  rw [hs, length_restEntries hmodels, thirdOf] at hsimple
  rw [hm, length_restEntries hmodels, thirdOf] at hmedium
  rw [hc, length_restEntries hmodels, thirdOf] at hcomplex
  refine (and_congr hsimple (and_congr hmedium hcomplex)).trans ?_
  omega

/-- Three models remain, and each tier has one. -/
theorem thirds_of_three :
    (tiersFromCatalog (Sample.fiveModels.drop 1) 3).simple ≠ []
      ∧ (tiersFromCatalog (Sample.fiveModels.drop 1) 3).medium ≠ []
      ∧ (tiersFromCatalog (Sample.fiveModels.drop 1) 3).complex ≠ [] := by
  have hmodels : ((Sample.fiveModels.drop 1).map (·.model)).Nodup := by decide
  exact (thirds_nonempty_iff _ 3 hmodels (by decide)).mpr (by decide)

/-- Four models remain, and none of them is complex. -/
theorem thirds_of_four :
    remainingModels Sample.fiveModels = 4 ∧ (tiersFromCatalog Sample.fiveModels 3).complex = [] := by
  have hmodels : (Sample.fiveModels.map (·.model)).Nodup := by decide
  have hremaining : remainingModels Sample.fiveModels = 4 := by decide
  refine ⟨hremaining, ?_⟩
  by_contra hne
  have hpos := (get_tiersFromCatalog_ne_nil Sample.fiveModels (by decide : 1 ≤ 3) .complex).mp hne
  rw [(length_tierEntries Sample.fiveModels).2.2, length_restEntries hmodels, hremaining] at hpos
  exact absurd hpos (by decide)

end Thirds

end AuraGateway.Proxy
