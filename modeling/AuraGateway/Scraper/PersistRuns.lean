import AuraGateway.Scraper.PersistPlan

/-!
# What the writes leave in the table

After any of its writes a provider's open rows are the old ones without those that were
closed, followed by the inserted ones (`Wrote.openRows`). A newest row is closed only by the
transaction that inserts its replacement under the same model id, so that a run which stops
anywhere leaves every model a price (`persistProvider_keeps_price`).
-/

set_option autoImplicit false

namespace AuraGateway.Scraper

open AuraGateway.JsStd
open AuraGateway.Foundations.KeyedPartition

variable {table : CaseTable} {provider : String}

/-- Every inserted row comes from what was to be inserted. -/
theorem exists_of_forall₂ {α β : Type} {R : α → β → Prop} {as : List α} {bs : List β}
    (h : List.Forall₂ R as bs) {a : α} (ha : a ∈ as) : ∃ b ∈ bs, R a b := by
  induction h with
  | nil => simp at ha
  | cons hab _ ih =>
      rcases List.mem_cons.mp ha with rfl | ha
      · exact ⟨_, List.mem_cons_self, hab⟩
      · obtain ⟨b, hb, hab⟩ := ih ha
        exact ⟨b, List.mem_cons_of_mem _ hb, hab⟩

/-! ## One write -/

namespace PricingTable

theorem mem_openRows {t : PricingTable} {pid : Nat} {r : PricingRow} :
    r ∈ t.openRows pid ↔ r ∈ t.rows ∧ r.providerId = pid ∧ r.effectiveUntil = none := by
  simp [openRows]

theorem openRows_close (t : PricingTable) (pid now : Nat) (ids : List Nat) :
    (t.close now ids).openRows pid = (t.openRows pid).filter fun r => r.id ∉ ids := by
  simp only [openRows, close]
  induction t.rows with
  | nil => rfl
  | cons r rows ih =>
      rw [List.map_cons, List.filter_cons, ih]
      by_cases hid : r.id ∈ ids <;>
        by_cases hopen : r.providerId = pid ∧ r.effectiveUntil = none <;>
          simp [hid, hopen]

@[simp] theorem ids_close (t : PricingTable) (now : Nat) (ids : List Nat) :
    (t.close now ids).rows.map PricingRow.id = t.rows.map PricingRow.id := by
  simp only [close, List.map_map]
  refine List.map_congr_left fun r _ => ?_
  simp only [Function.comp]
  split <;> rfl

theorem insert_eq_some {t t' : PricingTable} {r : PricingRow} (h : t.insert r = some t') :
    r.id ∉ t.rows.map PricingRow.id ∧ t'.rows = t.rows ++ [r] := by
  unfold insert at h
  split at h
  · next hok => exact ⟨hok.1.1, by rw [← Option.some.inj h]⟩
  · cases h

theorem openRows_insert {t t' : PricingTable} {r : PricingRow} (h : t.insert r = some t')
    (pid : Nat) (hpid : r.providerId = pid) (hopen : r.effectiveUntil = none) :
    t'.openRows pid = t.openRows pid ++ [r] := by
  rw [openRows, (insert_eq_some h).2, List.filter_append, openRows]
  simp [hpid, hopen]

end PricingTable

/-- A row inserted for a model id and a scraped row. -/
def IsNew (pid : Nat) (inserted : String × ScrapedPrice) (r : PricingRow) : Prop :=
  ∃ stamp, r = newRow pid inserted.1 inserted.2 stamp

/-- One write: it closes open rows of the table and appends the rows it inserts. -/
theorem Write.apply_spec {pid : Nat} {stamp : Stamp} {t t' : PricingTable} {w : Write}
    (h : w.apply pid stamp t = some t') : ∃ news, List.Forall₂ (IsNew pid) w.inserted news
      ∧ (∀ r ∈ news, r.id ∉ t.rows.map PricingRow.id)
      ∧ t'.rows.map PricingRow.id = t.rows.map PricingRow.id ++ news.map PricingRow.id
      ∧ t'.openRows pid = ((t.openRows pid).filter fun r => r.id ∉ w.closed) ++ news := by
  cases w with
  | close ids =>
      obtain rfl := Option.some.inj h
      refine ⟨[], .nil, by simp, by simp, ?_⟩
      rw [PricingTable.openRows_close, List.append_nil]
      rfl
  | insertRow modelId row =>
      obtain ⟨hfresh, hrows⟩ := PricingTable.insert_eq_some h
      refine ⟨[newRow pid modelId row stamp], .cons ⟨stamp, rfl⟩ .nil, by simpa using hfresh,
        by simp [hrows], ?_⟩
      rw [PricingTable.openRows_insert h pid rfl rfl]
      simp [Write.closed]
  | versionRow current modelId row =>
      obtain ⟨hfresh, hrows⟩ := PricingTable.insert_eq_some h
      rw [PricingTable.ids_close] at hfresh
      refine ⟨[newRow pid modelId row stamp], .cons ⟨stamp, rfl⟩ .nil, by simpa using hfresh,
        by rw [hrows, List.map_append, PricingTable.ids_close], ?_⟩
      rw [PricingTable.openRows_insert h pid rfl rfl, PricingTable.openRows_close]
      rfl

/-! ## Any writes -/

/-- The open rows after some writes. The ids they close are those of rows the table held
before, never of a row they inserted. -/
theorem Wrote.openRows {pid : Nat} {t t' : PricingTable} {ws : List Write}
    (h : Wrote pid t ws t')
    (hids : ∀ id ∈ ws.flatMap Write.closed, id ∈ t.rows.map PricingRow.id) :
    ∃ news, List.Forall₂ (IsNew pid) (ws.flatMap Write.inserted) news
      ∧ t'.openRows pid
        = ((t.openRows pid).filter fun r => r.id ∉ ws.flatMap Write.closed) ++ news := by
  induction h with
  | nil t => exact ⟨[], .nil, by simp⟩
  | @cons t t₁ t₂ w ws stamp first rest ih =>
      obtain ⟨here, hnew, hfresh, hids₁, hopen⟩ := Write.apply_spec first
      have hlater : ∀ id ∈ ws.flatMap Write.closed, id ∈ t.rows.map PricingRow.id :=
        fun id hid => hids id (by simp [List.mem_flatMap.mp hid])
      obtain ⟨later, hnew', hopen'⟩ := ih fun id hid => by
        rw [hids₁]
        exact List.mem_append_left _ (hlater id hid)
      refine ⟨here ++ later, ?_, ?_⟩
      · rw [List.flatMap_cons]
        exact List.rel_append hnew hnew'
      · -- what is inserted here stays
        have hstays : (here.filter fun r => r.id ∉ ws.flatMap Write.closed) = here := by
          rw [List.filter_eq_self]
          intro r hr
          have hnot : r.id ∉ ws.flatMap Write.closed := fun hid => hfresh r hr (hlater _ hid)
          simpa using hnot
        rw [hopen', hopen, List.filter_append, hstays, List.filter_filter, List.append_assoc]
        congr 1
        refine List.filter_congr fun r _ => ?_
        simp [Bool.and_comm]

/-! ## A run that stops anywhere -/

section Selected

variable {pid : Nat} {t : PricingTable} {selected : List PricingRow}
  (hsel : t.Selected pid selected)

include hsel

theorem PricingTable.Selected.mem_openRows {r : PricingRow} :
    r ∈ selected ↔ r ∈ t.openRows pid :=
  hsel.perm.mem_iff

theorem PricingTable.Selected.nodup_ids : (selected.map PricingRow.id).Nodup := by
  rw [(hsel.perm.map PricingRow.id).nodup_iff]
  exact (List.filter_sublist.map PricingRow.id).nodup t.ids_nodup

theorem PricingTable.Selected.eq_of_id {a b : PricingRow} (ha : a ∈ selected)
    (hb : b ∈ selected) (hid : a.id = b.id) : a = b :=
  List.inj_on_of_nodup_map hsel.nodup_ids ha hb hid

/-- A newest row is no duplicate of a family. -/
theorem PricingTable.Selected.newest_not_stale {current : PricingRow}
    {stale family : List PricingRow}
    (hfamily : current :: stale ∈ families table selected provider)
    (hfamily' : family ∈ families table selected provider) :
    ∀ r ∈ family.tail, r.id ≠ current.id := by
  intro r hr hid
  have hspec := families_spec table provider selected
  have hrs : r ∈ family := List.mem_of_mem_tail hr
  have hcurrent : current ∈ selected := hspec.mem.mpr ⟨_, hfamily, List.mem_cons_self⟩
  obtain rfl := hsel.eq_of_id (hspec.mem.mpr ⟨_, hfamily', hrs⟩) hcurrent hid
  -- the row is in one family only, which would hold it twice
  obtain ⟨k, hk⟩ := List.exists_mem_of_ne_nil (r.keys table provider) (familyKeys_ne_nil _ _ _)
  obtain rfl := hspec.eq_of_shared hfamily hfamily' List.mem_cons_self hrs hk hk
  have hnodup := ((hspec.sublist _ hfamily).map PricingRow.id).nodup hsel.nodup_ids
  rw [List.map_cons, List.nodup_cons] at hnodup
  exact hnodup.1 (List.mem_map_of_mem hr)

/-- The first row of a family is a newest one. -/
theorem PricingTable.Selected.head_newest {current : PricingRow} {stale : List PricingRow}
    (hfamily : current :: stale ∈ families table selected provider) :
    ∀ r ∈ current :: stale, current.NotNewer r := by
  have hspec := families_spec table provider selected
  have hsorted := hsel.newestFirst.sublist (hspec.sublist _ hfamily)
  rw [List.pairwise_cons] at hsorted
  intro r hr
  rcases List.mem_cons.mp hr with rfl | hr
  · exact .inr ⟨rfl, le_rfl⟩
  · exact hsorted.1 r hr

/-- Whatever closes a newest row puts a row under its model id in its place. -/
theorem PricingTable.Selected.closed_newest {rows : List ScrapedPrice} {current : PricingRow}
    {stale : List PricingRow} (hfamily : current :: stale ∈ families table selected provider)
    {w : Write} (hw : w ∈ (plan table selected provider rows false).writes)
    (hclosed : current.id ∈ w.closed) : ∃ s, (current.modelId, s) ∈ w.inserted := by
  have hspec := families_spec table provider selected
  have hstale : ∀ f ∈ families table selected provider, w ∈ closeStale f.tail → False := by
    intro f hf hclose
    have hid := List.mem_flatMap.mpr ⟨w, hclose, hclosed⟩
    rw [flatMap_closed_closeStale, List.mem_map] at hid
    obtain ⟨r, hr, hid⟩ := hid
    exact hsel.newest_not_stale hfamily hf r hr hid
  rw [writes_plan, flatMap_rowWrites, List.mem_append] at hw
  rcases hw with hw | hw
  · obtain ⟨s, -, hw⟩ := List.mem_flatMap.mp hw
    cases hf : familyOf table (families table selected provider) provider s with
    | nil =>
        simp only [hf, familyWrites, List.mem_singleton] at hw
        simp [hw, Write.closed] at hclosed
    | cons current' stale' =>
        have hmem : current' :: stale' ∈ families table selected provider :=
          hf ▸ familyOf_mem hspec (by simp [hf])
        simp only [hf, familyWrites, List.mem_append] at hw
        rcases hw with hw | hw
        · exact (hstale _ hmem hw).elim
        · split at hw
          · obtain rfl := List.mem_singleton.mp hw
            simp only [Write.closed, List.mem_singleton] at hclosed
            have hcurrent := hspec.mem.mpr ⟨_, hfamily, List.mem_cons_self⟩
            have hcurrent' := hspec.mem.mpr ⟨_, hmem, List.mem_cons_self⟩
            obtain rfl := hsel.eq_of_id hcurrent hcurrent' hclosed
            exact ⟨s, by simp [Write.inserted]⟩
          · simp at hw
  · obtain ⟨f, hf, hw⟩ := List.mem_flatMap.mp hw
    rw [untouchedWrites] at hw
    split at hw
    · simp at hw
    · exact (hstale f hf hw).elim

/-- The plan closes rows the table holds. -/
theorem PricingTable.Selected.closed_mem {rows : List ScrapedPrice} {id : Nat}
    (hid : id ∈ (plan table selected provider rows false).writes.flatMap Write.closed) :
    id ∈ t.rows.map PricingRow.id := by
  have hspec := families_spec table provider selected
  have hrow : ∃ r ∈ selected, r.id = id := by
    obtain ⟨f, hf, hid⟩ := mem_closed_plan.mp hid
    rcases hid with ⟨r, hr, hid⟩ | ⟨-, r, hr, hid⟩
    · exact ⟨r, hspec.mem.mpr ⟨f, hf, List.mem_of_mem_tail hr⟩, hid⟩
    · exact ⟨r, hspec.mem.mpr ⟨f, hf, List.mem_of_head? hr⟩, hid⟩
  obtain ⟨r, hr, rfl⟩ := hrow
  exact List.mem_map_of_mem (PricingTable.mem_openRows.mp (hsel.mem_openRows.mp hr)).1

end Selected

/-- Wherever a run stops, every family keeps an open row under the model id of its newest
row, the one the query put first. -/
theorem persistProvider_keeps_price {db : Db} {rows : List ScrapedPrice} {dryRun : Bool}
    {pid : Nat} {selected : List PricingRow} {made : List Write} {t : PricingTable}
    (hrun : PersistProvider table db provider rows dryRun pid selected made t) :
    ∀ family ∈ families table selected provider, ∃ newest, family.head? = some newest
      ∧ (∀ r ∈ family, newest.NotNewer r)
      ∧ ∃ r ∈ t.openRows pid, r.modelId = newest.modelId := by
  have hspec := families_spec table provider selected
  have hsel := hrun.ofSelected
  -- a dry run makes no writes, any other run a part of the planned ones
  have hmade : ∀ w ∈ made, w ∈ (plan table selected provider rows false).writes := by
    intro w hw
    have hplanned := hrun.planned.subset hw
    cases dryRun with
    | false => exact hplanned
    | true =>
        rw [writes_plan_dry] at hplanned
        simp at hplanned
  have hids : ∀ id ∈ made.flatMap Write.closed, id ∈ db.pricing.rows.map PricingRow.id := by
    intro id hid
    obtain ⟨w, hw, hid⟩ := List.mem_flatMap.mp hid
    exact hsel.closed_mem (List.mem_flatMap.mpr ⟨w, hmade w hw, hid⟩)
  obtain ⟨news, hnews, hopen⟩ := hrun.wrote.openRows hids
  intro family hfamily
  cases family with
  | nil => exact absurd rfl (hspec.nonempty _ hfamily)
  | cons current stale =>
      refine ⟨current, rfl, hsel.head_newest hfamily, ?_⟩
      rw [hopen]
      by_cases hclosed : current.id ∈ made.flatMap Write.closed
      · obtain ⟨w, hw, hclosed⟩ := List.mem_flatMap.mp hclosed
        obtain ⟨s, hs⟩ := hsel.closed_newest hfamily (hmade w hw) hclosed
        obtain ⟨r, hr, stamp, rfl⟩ := exists_of_forall₂ hnews
          (List.mem_flatMap.mpr ⟨w, hw, hs⟩)
        exact ⟨_, List.mem_append_right _ hr, rfl⟩
      · have hcurrent : current ∈ selected := hspec.mem.mpr ⟨_, hfamily, List.mem_cons_self⟩
        refine ⟨current, List.mem_append_left _ ?_, rfl⟩
        exact List.mem_filter.mpr ⟨hsel.mem_openRows.mp hcurrent, by simpa using hclosed⟩

namespace Sample

/-- A model that is open under two ids. -/
def haiku : PricingRow where
  id := 1
  providerId := 7
  modelId := "claude-haiku-3"
  modelName := "Claude Haiku 3"
  inputPerMillion := 250000
  outputPerMillion := 1250000
  cachedInputPerMillion := none
  reasoningPerMillion := none
  batchInputPerMillion := none
  batchOutputPerMillion := none
  contextWindow := none
  maxOutputTokens := none
  capabilities := none
  goodAt := none
  effectiveFrom := 20
  effectiveUntil := none
  createdAt := 20

def datedHaiku : PricingRow :=
  { haiku with id := 2, modelId := "claude-3-haiku-20240307", effectiveFrom := 10 }

def scrapedHaiku : ScrapedPrice where
  provider := "anthropic"
  modelId := "claude-3-haiku"
  modelName := "Haiku"
  inputPerMillion := 300000
  outputPerMillion := 1250000
  cachedInputPerMillion := none
  reasoningPerMillion := none
  batchInputPerMillion := none
  batchOutputPerMillion := none
  contextWindow := none
  maxOutputTokens := none
  capabilities := none
  goodAt := none
  sourceUrl := "https://www.anthropic.com/pricing"
  reasoning := none
  status := .success
  failureReason := none

def duplicated : Db where
  providers := [("anthropic", 7)]
  pricing := {
    rows := [datedHaiku, haiku]
    ids_nodup := by decide
    versions_nodup := by decide }

end Sample

open Sample in
/-- A run cut off between closing the duplicate and replacing the newest row. -/
theorem persistProvider_keeps_price_sample : ∃ t,
    PersistProvider .fixed duplicated "anthropic" [scrapedHaiku] false 7 [haiku, datedHaiku]
        [.close [2]] t
      ∧ ∀ family ∈ families .fixed [haiku, datedHaiku] "anthropic",
        ∃ newest, family.head? = some newest ∧ (∀ r ∈ family, newest.NotNewer r)
          ∧ ∃ r ∈ t.openRows 7, r.modelId = newest.modelId := by
  have hplan : (plan .fixed [haiku, datedHaiku] "anthropic" [scrapedHaiku] false).writes =
      [.close [2], .versionRow 1 "claude-haiku-3" scrapedHaiku] := by decide
  have hrun : PersistProvider .fixed duplicated "anthropic" [scrapedHaiku] false 7
      [haiku, datedHaiku] [.close [2]] (duplicated.pricing.close 30 [2]) :=
    ⟨rfl, ⟨by decide, by decide⟩, hplan ▸ ⟨_, rfl⟩, .cons ⟨3, 30⟩ rfl (.nil _)⟩
  exact ⟨_, hrun, persistProvider_keeps_price hrun⟩

end AuraGateway.Scraper
