import AuraGateway.Scraper.PersistOnce

/-!
# Which prices reach the table

A row that meets no family, or one whose input, output or cached-input price moved, is
written with all its prices. A row that meets a family at its price is not written, so that
a batch price which moves alone stays as it was (`batch_price_not_written`).
-/

set_option autoImplicit false

namespace AuraGateway.Scraper

open AuraGateway.JsStd

/-- An open row shares a family key with a scraped row. -/
def SharesKey (table : CaseTable) (provider : String) (r : PricingRow) (s : ScrapedPrice) :
    Prop :=
  ∃ k ∈ s.keys table provider, k ∈ r.keys table provider

/-- The prices a run compares: input, output and cached input. -/
def CarriesCompared (r : PricingRow) (s : ScrapedPrice) : Prop :=
  r.inputPerMillion = s.inputPerMillion ∧ r.outputPerMillion = s.outputPerMillion
    ∧ r.cachedInputPerMillion = s.cachedInputPerMillion

/-- All five prices. -/
def CarriesAll (r : PricingRow) (s : ScrapedPrice) : Prop :=
  CarriesCompared r s ∧ r.batchInputPerMillion = s.batchInputPerMillion
    ∧ r.batchOutputPerMillion = s.batchOutputPerMillion

variable {table : CaseTable} {provider : String}

theorem IsNew.carriesAll {pid : Nat} {i : String × ScrapedPrice} {r : PricingRow}
    (h : IsNew pid i r) : CarriesAll r i.2 := by
  obtain ⟨stamp, rfl⟩ := h
  exact ⟨⟨rfl, rfl, rfl⟩, rfl, rfl⟩

/-- What a run leaves of the prices of one kept row. -/
structure PricesReach (table : CaseTable) (provider : String) (fs : List (List PricingRow))
    (ks : List ScrapedPrice) (final : List PricingRow) (s : ScrapedPrice) : Prop where
  /-- A row of no family is inserted with all its prices. -/
  inserted : familyOf table fs provider s = [] →
    ∃ r ∈ final, SharesKey table provider r s ∧ CarriesAll r s
  /-- So is one that moves a compared price, under the id of the row it replaces. -/
  versioned : ∀ newest stale, familyOf table fs provider s = newest :: stale →
    pricesDiffer newest s = true →
      (s.id table provider = idKey table newest.modelId (some provider)
        ∨ s.names table provider ≠ []) →
      ∃ r ∈ final, SharesKey table provider r s ∧ CarriesAll r s
  /-- One at the compared prices leaves the newest row, unless another row replaces it. -/
  unchanged : ∀ newest stale, familyOf table fs provider s = newest :: stale →
    pricesDiffer newest s = false → SharesKey table provider newest s →
      ¬ Replaced table provider fs ks (newest :: stale) →
      ∃ r ∈ final, SharesKey table provider r s ∧ CarriesCompared r s

/-- The prices of every kept row after a whole run. -/
theorem persisted_prices_reach {db : Db} {rows : List ScrapedPrice} {pid : Nat}
    {selected : List PricingRow} {t : PricingTable}
    (hrun : Persisted table db provider rows false pid selected t) :
    ∀ s ∈ kept table rows, PricesReach table provider (families table selected provider)
      (kept table rows) (t.openRows pid) s := by
  have hfs := families_spec table provider selected
  obtain ⟨old, news, hend⟩ := hrun.endState
  have hopen : ∀ b ∈ news, b ∈ t.openRows pid := fun b hb => by
    rw [hend.final_eq]
    exact List.mem_append_right _ hb
  intro s hs
  refine ⟨fun hnil => ?_, fun newest stale hf hdiffer hfound => ?_,
    fun newest stale hf hsame hshare hkept => ?_⟩
  · obtain ⟨b, hb, hnew⟩ := hend.exists_new hs (i := (s.modelId, s)) (by simp [hnil, familyInserted])
    refine ⟨b, hopen b hb, ⟨s.id table provider, mem_scrapedKeys.mpr (.inl rfl), ?_⟩,
      hnew.carriesAll⟩
    rw [hnew.keys_eq]
    exact mem_insertedKeys.mpr (.inl rfl)
  · obtain ⟨b, hb, hnew⟩ := hend.exists_new hs (i := (newest.modelId, s))
      (by simp [hf, familyInserted, hdiffer])
    refine ⟨b, hopen b hb, ?_, hnew.carriesAll⟩
    rw [SharesKey, hnew.keys_eq]
    rcases hfound with hid | hname
    · exact ⟨_, mem_scrapedKeys.mpr (.inl rfl), mem_insertedKeys.mpr (.inl hid)⟩
    · obtain ⟨k, hk⟩ := List.exists_mem_of_ne_nil _ hname
      exact ⟨k, mem_scrapedKeys.mpr (.inr hk), mem_insertedKeys.mpr (.inr hk)⟩
  · have hmem := familyOf_mem hfs (s := s) (by simp [hf])
    rw [hf] at hmem
    exact ⟨newest, hend.mem_final_of_kept hmem hkept, hshare, pricesDiffer_eq_false.mp hsame⟩

namespace Sample

/-- The open row's prices, with a batch tier. -/
def batchedHaiku : ScrapedPrice :=
  { scrapedHaiku with
    inputPerMillion := 250000
    batchInputPerMillion := some 125000 }

end Sample

open Sample in
theorem persisted_prices_reach_sample : ∃ t,
    Persisted .fixed single "anthropic" [scrapedHaiku] false 7 [haiku] t
      ∧ ∀ s ∈ kept .fixed [scrapedHaiku], PricesReach .fixed "anthropic"
        (families .fixed [haiku] "anthropic") (kept .fixed [scrapedHaiku]) (t.openRows 7) s := by
  obtain ⟨t, hrun, -⟩ := run_of_writes [scrapedHaiku]
    [(⟨3, 30⟩, .versionRow 1 "claude-haiku-3" scrapedHaiku)] (by decide) rfl
  exact ⟨t, hrun, persisted_prices_reach hrun⟩

open Sample in
/-- A batch price that moves alone is not written. -/
theorem batch_price_not_written : ∃ t,
    Persisted .fixed single "anthropic" [batchedHaiku] false 7 [haiku] t
      ∧ batchedHaiku ∈ kept .fixed [batchedHaiku]
      ∧ ∀ r ∈ t.openRows 7, ¬ (SharesKey .fixed "anthropic" r batchedHaiku
          ∧ CarriesAll r batchedHaiku) := by
  obtain ⟨t, hrun, hopen⟩ := run_of_writes [batchedHaiku] [] (by decide) rfl
  refine ⟨t, hrun, by decide, ?_⟩
  rw [hopen]
  rintro r hr ⟨-, -, hbatch, -⟩
  rw [List.mem_singleton.mp hr] at hbatch
  cases hbatch

end AuraGateway.Scraper
