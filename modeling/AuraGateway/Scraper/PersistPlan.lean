import AuraGateway.Scraper.Persist

/-!
# What a run plans

The diff and the writes of a run as functions of the rows it read: one list of writes and
one entry of the diff for each kept row, then those of the families no row touched
(`writes_plan`, `changes_plan`). A scraped row meets the one family that has the first of
its keys to be found (`familyOf_eq_of_first`).
-/

set_option autoImplicit false

namespace AuraGateway.Scraper

open AuraGateway.JsStd
open AuraGateway.Foundations.KeyedPartition

variable {table : CaseTable} {provider : String}

/-! ## Keys -/

theorem familyKeys_ne_nil (modelId : String) (modelName provider : Option String) :
    familyKeys table modelId modelName provider ≠ [] := by
  simp [familyKeys]

theorem families_spec (table : CaseTable) (provider : String) (selected : List PricingRow) :
    Partition (fun r => r.keys table provider) selected (families table selected provider) :=
  partition_spec _ _

/-! ## The lookup of a family -/

/-- A fold that only adds elements holds the old ones and the added ones. -/
theorem mem_foldl_iff {α β : Type} {step : List β → α → List β} (added : α → β → Prop)
    (hstep : ∀ m a b, b ∈ step m a ↔ b ∈ m ∨ added a b) (as : List α) (m : List β) (b : β) :
    b ∈ as.foldl step m ↔ b ∈ m ∨ ∃ a ∈ as, added a b := by
  induction as generalizing m with
  | nil => simp
  | cons a as ih =>
      rw [List.foldl_cons, ih, hstep]
      simp only [List.mem_cons, exists_eq_or_imp]
      tauto

theorem mem_familyByKey {fs : List (List PricingRow)} {k : String} {family : List PricingRow} :
    (k, family) ∈ familyByKey table fs provider ↔
      family ∈ fs ∧ ∃ r ∈ family, k ∈ r.keys table provider := by
  rw [familyByKey, mem_foldl_iff fun f p => f = p.2 ∧ ∃ r ∈ f, p.1 ∈ r.keys table provider]
  · simp only [List.not_mem_nil, false_or]
    constructor
    · rintro ⟨f, hf, rfl, hr⟩
      exact ⟨hf, hr⟩
    · rintro ⟨hf, hr⟩
      exact ⟨family, hf, rfl, hr⟩
  intro m f p
  rw [mem_foldl_iff fun r p => f = p.2 ∧ p.1 ∈ r.keys table provider]
  · aesop
  intro m r p
  rw [mem_foldl_iff fun k p => f = p.2 ∧ p.1 = k]
  · aesop
  intro m k p
  rw [List.mem_cons, Prod.ext_iff]
  aesop

/-- In a partition a key leads to the family that has it. -/
theorem lookup_familyByKey {selected : List PricingRow} {fs : List (List PricingRow)}
    (hfs : Partition (fun r => r.keys table provider) selected fs) {k : String}
    {family : List PricingRow} : (familyByKey table fs provider).lookup k = some family ↔
      family ∈ fs ∧ ∃ r ∈ family, k ∈ r.keys table provider := by
  rw [← mem_familyByKey]
  constructor
  · intro h
    obtain ⟨before, after, hsplit, -⟩ := List.lookup_eq_some_iff.mp h
    rw [hsplit]
    simp
  · intro h
    cases hfound : (familyByKey table fs provider).lookup k with
    | none => simpa using List.lookup_eq_none_iff.mp hfound _ h
    | some family' =>
        obtain ⟨before, after, hsplit, -⟩ := List.lookup_eq_some_iff.mp hfound
        have hmem : (k, family') ∈ familyByKey table fs provider := by
          rw [hsplit]
          simp
        obtain ⟨hf, r, hr, hkr⟩ := mem_familyByKey.mp h
        obtain ⟨hf', r', hr', hkr'⟩ := mem_familyByKey.mp hmem
        rw [hfs.eq_of_shared hf' hf hr' hr hkr' hkr]

theorem lookup_familyByKey_none {selected : List PricingRow} {fs : List (List PricingRow)}
    (hfs : Partition (fun r => r.keys table provider) selected fs) {k : String} :
    (familyByKey table fs provider).lookup k = none ↔
      ∀ r ∈ selected, k ∉ r.keys table provider := by
  rw [Option.eq_none_iff_forall_ne_some]
  constructor
  · intro h r hr hk
    obtain ⟨f, hf, hrf⟩ := hfs.mem.mp hr
    exact h f ((lookup_familyByKey hfs).mpr ⟨hf, r, hrf, hk⟩)
  · intro h f hf
    obtain ⟨hf, r, hr, hk⟩ := (lookup_familyByKey hfs).mp hf
    exact h r (hfs.mem.mpr ⟨f, hf, hr⟩) hk

section Family

variable {selected : List PricingRow} {fs : List (List PricingRow)}
  (hfs : Partition (fun r => r.keys table provider) selected fs) {s : ScrapedPrice}

include hfs

/-- A row meets no family when no open row has one of its keys. -/
theorem familyOf_eq_nil : familyOf table fs provider s = [] ↔
    ∀ k ∈ s.keys table provider, ∀ r ∈ selected, k ∉ r.keys table provider := by
  rw [familyOf]
  cases hfound : (s.keys table provider).findSome?
      fun k => (familyByKey table fs provider).lookup k with
  | none =>
      rw [List.findSome?_eq_none_iff] at hfound
      simp only [Option.getD_none, true_iff]
      exact fun k hk => (lookup_familyByKey_none hfs).mp (hfound k hk)
  | some f =>
      obtain ⟨k, hk, hf⟩ := List.exists_of_findSome?_eq_some hfound
      obtain ⟨hf, r, hr, hkr⟩ := (lookup_familyByKey hfs).mp hf
      have hne : f ≠ [] := List.ne_nil_of_mem hr
      simp only [Option.getD_some, hne, false_iff]
      exact fun h => h k hk r (hfs.mem.mpr ⟨f, hf, hr⟩) hkr

/-- The family a row meets is one of the families. -/
theorem familyOf_mem (hne : familyOf table fs provider s ≠ []) :
    familyOf table fs provider s ∈ fs := by
  rw [familyOf] at hne ⊢
  cases hfound : (s.keys table provider).findSome?
      fun k => (familyByKey table fs provider).lookup k with
  | none =>
      rw [hfound] at hne
      exact absurd rfl hne
  | some f =>
      obtain ⟨k, -, hf⟩ := List.exists_of_findSome?_eq_some hfound
      exact ((lookup_familyByKey hfs).mp hf).1

/-- The first key of a row that some open row has decides. -/
theorem familyOf_eq_of_first (before after : List String) (k : String) {r : PricingRow}
    {f : List PricingRow} (hkeys : s.keys table provider = before ++ k :: after)
    (hbefore : ∀ k' ∈ before, ∀ r' ∈ selected, k' ∉ r'.keys table provider)
    (hf : f ∈ fs) (hr : r ∈ f) (hk : k ∈ r.keys table provider) :
    familyOf table fs provider s = f := by
  have hfirst : (s.keys table provider).findSome?
      (fun k => (familyByKey table fs provider).lookup k) = some f := by
    rw [List.findSome?_eq_some_iff]
    refine ⟨before, k, after, hkeys, (lookup_familyByKey hfs).mpr ⟨hf, r, hr, hk⟩, ?_⟩
    exact fun k' hk' => (lookup_familyByKey_none hfs).mpr (hbefore k' hk')
  rw [familyOf, hfirst, Option.getD_some]

end Family

/-! ## The kept rows -/

/-- The rows the writer acts on. -/
def kept (table : CaseTable) (rows : List ScrapedPrice) : List ScrapedPrice :=
  (dedupeScrapedRows table rows).rows.filter fun s => s.status = .success

/-- Two scraped rows share no key, each under its own provider. -/
def ScrapedApart (table : CaseTable) (s s' : ScrapedPrice) : Prop :=
  (s.keys table s.provider).Disjoint (s'.keys table s'.provider)

theorem mem_kept {rows : List ScrapedPrice} {s : ScrapedPrice} :
    s ∈ kept table rows ↔ s ∈ (dedupeScrapedRows table rows).rows ∧ s.status = .success := by
  simp [kept]

/-- What deduplication has done after some rows. -/
structure DedupeInv (table : CaseTable) (rows : List ScrapedPrice) (d : Deduped) : Prop where
  subset : d.rows ⊆ rows
  seen : ∀ s ∈ d.rows, s.status = .success → s.keys table s.provider ⊆ d.seen
  apart : (d.rows.filter fun s => s.status = .success).Pairwise (ScrapedApart table)
  dropped : ∀ c ∈ d.dropped, c.kind = .unchanged

theorem DedupeInv.drop {rows : List ScrapedPrice} {d : Deduped} (h : DedupeInv table rows d)
    (row : ScrapedPrice) : DedupeInv table (rows ++ [row])
      { d with dropped := d.dropped ++ [duplicateChange row] } where
  subset := List.Subset.trans h.subset (List.subset_append_left rows _)
  seen := h.seen
  apart := h.apart
  dropped c hc := by
    rcases List.mem_append.mp hc with hc | hc
    · exact h.dropped c hc
    · rw [List.mem_singleton.mp hc]
      rfl

theorem DedupeInv.keep {rows : List ScrapedPrice} {d : Deduped} (h : DedupeInv table rows d)
    {row : ScrapedPrice} {keys : List String}
    (hkeys : row.status = .success → row.keys table row.provider ⊆ keys)
    (hnew : row.status = .success → ∀ k ∈ row.keys table row.provider, k ∉ d.seen) :
    DedupeInv table (rows ++ [row])
      { d with seen := d.seen ++ keys, rows := d.rows ++ [row] } where
  subset := List.append_subset.mpr
    ⟨List.Subset.trans h.subset (List.subset_append_left rows _), List.subset_append_right rows _⟩
  seen s hs hsuccess := by
    rcases List.mem_append.mp hs with hs | hs
    · exact List.Subset.trans (h.seen s hs hsuccess) (List.subset_append_left _ _)
    · obtain rfl := List.mem_singleton.mp hs
      exact List.Subset.trans (hkeys hsuccess) (List.subset_append_right _ _)
  apart := by
    by_cases hsuccess : row.status = .success
    · rw [List.filter_append, List.pairwise_append]
      refine ⟨h.apart, by simp [hsuccess], fun s hs s' hs' k hk hk' => ?_⟩
      obtain rfl : s' = row := by simpa [hsuccess] using hs'
      obtain ⟨hs, hstatus⟩ := List.mem_filter.mp hs
      -- a key of an earlier row has been seen
      exact hnew hsuccess k hk' (h.seen s hs (by simpa using hstatus) hk)
    · simpa [List.filter_append, hsuccess] using h.apart
  dropped := h.dropped

theorem DedupeInv.step {rows : List ScrapedPrice} {d : Deduped} (h : DedupeInv table rows d)
    (row : ScrapedPrice) : DedupeInv table (rows ++ [row]) (dedupeStep table d row) := by
  simp only [dedupeStep]
  by_cases hsuccess : row.status = .success
  · simp only [if_pos hsuccess]
    by_cases hseen : (row.keys table row.provider).any d.seen.contains = true
    · rw [if_pos hseen]
      exact h.drop row
    · rw [if_neg hseen]
      refine h.keep (fun _ => List.Subset.refl _) fun _ k hk hk' => hseen ?_
      exact List.any_eq_true.mpr ⟨k, hk, by simpa using hk'⟩
  · simp only [if_neg hsuccess]
    exact h.keep (fun hs => absurd hs hsuccess) fun hs => absurd hs hsuccess

theorem dedupeScrapedRows_inv (table : CaseTable) (rows : List ScrapedPrice) :
    DedupeInv table rows (dedupeScrapedRows table rows) := by
  induction rows using List.reverseRecOn with
  | nil => exact ⟨by simp [dedupeScrapedRows], by simp [dedupeScrapedRows],
      by simp [dedupeScrapedRows], by simp [dedupeScrapedRows]⟩
  | append_singleton rows row ih =>
      rw [dedupeScrapedRows, List.foldl_append]
      exact ih.step row

theorem kept_apart {rows : List ScrapedPrice} (hrows : ∀ s ∈ rows, s.provider = provider) :
    (kept table rows).Pairwise fun s s' =>
      (s.keys table provider).Disjoint (s'.keys table provider) := by
  have hinv : DedupeInv table rows _ := dedupeScrapedRows_inv table rows
  have hprovider : ∀ s ∈ kept table rows, s.provider = provider :=
    fun s hs => hrows s (hinv.subset (mem_kept.mp hs).1)
  refine hinv.apart.imp_of_mem fun {s s'} hs hs' h => ?_
  rwa [ScrapedApart, hprovider s hs, hprovider s' hs'] at h

/-! ## The writes -/

/-- Closes the duplicates of a family, where there are some. -/
def closeStale (stale : List PricingRow) : List Write :=
  if stale = [] then [] else [.close (stale.map PricingRow.id)]

/-- The writes for one row that meets the given family. -/
def familyWrites (family : List PricingRow) (row : ScrapedPrice) : List Write :=
  match family with
  | [] => [.insertRow row.modelId row]
  | current :: stale => closeStale stale ++
      if pricesDiffer current row then [.versionRow current.id current.modelId row] else []

/-- The diff entry of one row that meets the given family. -/
def familyChange (family : List PricingRow) (row : ScrapedPrice) : PriceChange :=
  match family with
  | [] => insertChange row
  | current :: stale =>
      if pricesDiffer current row then versionChange current stale row
      else unchangedChange current stale row

section Rows

variable (table provider)

/-- The writes of one row of the scrape. -/
def rowWrites (fs : List (List PricingRow)) (row : ScrapedPrice) : List Write :=
  if row.status = .success then familyWrites (familyOf table fs provider row) row else []

/-- The diff entry of one row of the scrape. -/
def rowChange (fs : List (List PricingRow)) (row : ScrapedPrice) : PriceChange :=
  if row.status = .success then familyChange (familyOf table fs provider row) row
  else flaggedChange row

/-- The family one row of the scrape touches. -/
def rowTouched (fs : List (List PricingRow)) (row : ScrapedPrice) : List (List PricingRow) :=
  if row.status = .success ∧ familyOf table fs provider row ≠ []
  then [familyOf table fs provider row] else []

/-- One turn of the loop over the scraped rows. -/
theorem persistRow_spec (fs : List (List PricingRow)) (p : Progress) (row : ScrapedPrice) :
    (persistRow table fs provider false p row).writes = p.writes ++ rowWrites table provider fs row
      ∧ (persistRow table fs provider false p row).changes
          = p.changes ++ [rowChange table provider fs row]
      ∧ (persistRow table fs provider false p row).touched
          = p.touched ++ rowTouched table provider fs row := by
  by_cases hsuccess : row.status = .success
  · cases hf : familyOf table fs provider row with
    | nil =>
        simp [persistRow, rowWrites, rowChange, rowTouched, familyWrites, familyChange, hsuccess,
          hf, Progress.write]
    | cons current stale =>
        by_cases hstale : stale = [] <;> by_cases hdiffer : pricesDiffer current row <;>
          simp [persistRow, rowWrites, rowChange, rowTouched, familyWrites, familyChange,
            closeStale, hsuccess, hf, hstale, hdiffer, Progress.write]
  · simp [persistRow, rowWrites, rowChange, rowTouched, hsuccess]

theorem persistRows_spec (fs : List (List PricingRow)) (p : Progress) (rows : List ScrapedPrice) :
    (rows.foldl (persistRow table fs provider false) p).writes
        = p.writes ++ rows.flatMap (rowWrites table provider fs)
      ∧ (rows.foldl (persistRow table fs provider false) p).changes
          = p.changes ++ rows.map (rowChange table provider fs)
      ∧ (rows.foldl (persistRow table fs provider false) p).touched
          = p.touched ++ rows.flatMap (rowTouched table provider fs) := by
  induction rows generalizing p with
  | nil => simp
  | cons row rows ih =>
      obtain ⟨hwrites, hchanges, htouched⟩ := ih (persistRow table fs provider false p row)
      obtain ⟨hw, hc, ht⟩ := persistRow_spec table provider fs p row
      rw [List.foldl_cons, hwrites, hchanges, htouched, hw, hc, ht]
      simp

end Rows

/-- The writes of the second loop for one family. -/
def untouchedWrites (touched : List (List PricingRow)) (family : List PricingRow) : List Write :=
  if family ∈ touched then [] else closeStale family.tail

/-- The diff entries of the second loop for one family. -/
def untouchedChanges (touched : List (List PricingRow)) (family : List PricingRow) :
    List PriceChange :=
  if family ∈ touched then []
  else
    match family with
    | keep :: s :: stale => [retiredChange keep (s :: stale)]
    | _ => []

/-- One turn of the loop over the families. -/
theorem closeUntouched_spec (p : Progress) (family : List PricingRow) :
    (closeUntouched false p family).writes = p.writes ++ untouchedWrites p.touched family
      ∧ (closeUntouched false p family).changes
          = p.changes ++ untouchedChanges p.touched family
      ∧ (closeUntouched false p family).touched = p.touched := by
  by_cases htouched : family ∈ p.touched
  · simp [closeUntouched, untouchedWrites, untouchedChanges, htouched]
  · rcases family with _ | ⟨keep, _ | ⟨s, stale⟩⟩
    · simp [closeUntouched, untouchedWrites, untouchedChanges, closeStale]
    · simp [closeUntouched, untouchedWrites, untouchedChanges, closeStale]
    · simp [closeUntouched, untouchedWrites, untouchedChanges, closeStale, htouched,
        Progress.write]

theorem closeUntouchedAll_spec (p : Progress) (fs : List (List PricingRow)) :
    (fs.foldl (closeUntouched false) p).writes
        = p.writes ++ fs.flatMap (untouchedWrites p.touched)
      ∧ (fs.foldl (closeUntouched false) p).changes
          = p.changes ++ fs.flatMap (untouchedChanges p.touched) := by
  induction fs generalizing p with
  | nil => simp
  | cons family fs ih =>
      obtain ⟨hwrites, hchanges⟩ := ih (closeUntouched false p family)
      obtain ⟨hw, hc, ht⟩ := closeUntouched_spec p family
      rw [List.foldl_cons, hwrites, hchanges, hw, hc, ht]
      simp

section Plan

variable (table provider) (selected : List PricingRow) (rows : List ScrapedPrice)

/-- The families of the open rows that some row of the scrape touches. -/
def touchedFamilies : List (List PricingRow) :=
  (dedupeScrapedRows table rows).rows.flatMap
    (rowTouched table provider (families table selected provider))

theorem writes_plan : (plan table selected provider rows false).writes =
    (dedupeScrapedRows table rows).rows.flatMap
        (rowWrites table provider (families table selected provider))
      ++ (families table selected provider).flatMap
        (untouchedWrites (touchedFamilies table provider selected rows)) := by
  obtain ⟨hwrites, -, htouched⟩ := persistRows_spec table provider
    (families table selected provider)
    ⟨0, (dedupeScrapedRows table rows).dropped.length, 0, (dedupeScrapedRows table rows).dropped,
      [], []⟩ (dedupeScrapedRows table rows).rows
  rw [plan, (closeUntouchedAll_spec _ _).1, hwrites, htouched]
  rfl

theorem changes_plan : (plan table selected provider rows false).changes =
    (dedupeScrapedRows table rows).dropped
      ++ (dedupeScrapedRows table rows).rows.map
        (rowChange table provider (families table selected provider))
      ++ (families table selected provider).flatMap
        (untouchedChanges (touchedFamilies table provider selected rows)) := by
  obtain ⟨-, hchanges, htouched⟩ := persistRows_spec table provider
    (families table selected provider)
    ⟨0, (dedupeScrapedRows table rows).dropped.length, 0, (dedupeScrapedRows table rows).dropped,
      [], []⟩ (dedupeScrapedRows table rows).rows
  rw [plan, (closeUntouchedAll_spec _ _).2, hchanges, htouched]
  rfl

end Plan

/-! ## Closed and inserted rows -/

/-- The ids a write closes. -/
def Write.closed : Write → List Nat
  | .close ids => ids
  | .insertRow _ _ => []
  | .versionRow current _ _ => [current]

/-- What a write inserts: a model id and the scraped row. -/
def Write.inserted : Write → List (String × ScrapedPrice)
  | .close _ => []
  | .insertRow modelId row => [(modelId, row)]
  | .versionRow _ modelId row => [(modelId, row)]

@[simp] theorem flatMap_inserted_closeStale (stale : List PricingRow) :
    (closeStale stale).flatMap Write.inserted = [] := by
  by_cases hstale : stale = [] <;> simp [closeStale, hstale, Write.inserted]

@[simp] theorem flatMap_closed_closeStale (stale : List PricingRow) :
    (closeStale stale).flatMap Write.closed = stale.map PricingRow.id := by
  by_cases hstale : stale = [] <;> simp [closeStale, hstale, Write.closed]

/-- A scraped row replaces the newest row of the family it meets. -/
def Replaces (family : List PricingRow) (s : ScrapedPrice) : Prop :=
  ∃ current stale, family = current :: stale ∧ pricesDiffer current s = true

@[simp] theorem not_replaces_nil (s : ScrapedPrice) : ¬ Replaces [] s := by
  rintro ⟨_, _, h, -⟩
  cases h

@[simp] theorem replaces_cons (current : PricingRow) (stale : List PricingRow)
    (s : ScrapedPrice) : Replaces (current :: stale) s ↔ pricesDiffer current s = true := by
  constructor
  · rintro ⟨_, _, h, hdiffer⟩
    cases h
    exact hdiffer
  · exact fun hdiffer => ⟨current, stale, rfl, hdiffer⟩

/-- What a row inserts that meets the given family. -/
def familyInserted (family : List PricingRow) (row : ScrapedPrice) :
    List (String × ScrapedPrice) :=
  match family with
  | [] => [(row.modelId, row)]
  | current :: _ => if pricesDiffer current row then [(current.modelId, row)] else []

theorem flatMap_inserted_familyWrites (family : List PricingRow) (row : ScrapedPrice) :
    (familyWrites family row).flatMap Write.inserted = familyInserted family row := by
  cases family with
  | nil => rfl
  | cons current stale =>
      by_cases hdiffer : pricesDiffer current row <;>
        simp [familyWrites, familyInserted, hdiffer, Write.inserted]

theorem mem_closed_familyWrites {family : List PricingRow} {row : ScrapedPrice} {id : Nat} :
    id ∈ (familyWrites family row).flatMap Write.closed ↔
      (∃ r ∈ family.tail, r.id = id)
        ∨ Replaces family row ∧ ∃ current, family.head? = some current ∧ current.id = id := by
  cases family with
  | nil => simp [familyWrites, Write.closed]
  | cons current stale =>
      by_cases hdiffer : pricesDiffer current row <;>
        simp [familyWrites, hdiffer, Write.closed, @eq_comm Nat id]

section Plan

variable {selected : List PricingRow} {rows : List ScrapedPrice}

theorem flatMap_rowWrites (fs : List (List PricingRow)) (ss : List ScrapedPrice) :
    ss.flatMap (rowWrites table provider fs) = (ss.filter fun s => s.status = .success).flatMap
      fun s => familyWrites (familyOf table fs provider s) s := by
  induction ss with
  | nil => rfl
  | cons s ss ih =>
      by_cases hsuccess : s.status = .success <;> simp [rowWrites, hsuccess, ih]

theorem mem_touchedFamilies {family : List PricingRow} :
    family ∈ touchedFamilies table provider selected rows ↔ family ≠ [] ∧
      ∃ s ∈ kept table rows, familyOf table (families table selected provider) provider s
        = family := by
  simp only [touchedFamilies, List.mem_flatMap, rowTouched, mem_kept]
  constructor
  · rintro ⟨s, hs, hfamily⟩
    split at hfamily
    · next h =>
        rw [List.mem_singleton.mp hfamily]
        exact ⟨h.2, s, ⟨hs, h.1⟩, rfl⟩
    · simp at hfamily
  · rintro ⟨hne, s, ⟨hs, hsuccess⟩, rfl⟩
    exact ⟨s, hs, by simp [hsuccess, hne]⟩

/-- The rows a run inserts. -/
theorem inserted_plan : (plan table selected provider rows false).writes.flatMap Write.inserted =
    (kept table rows).flatMap fun s =>
      familyInserted (familyOf table (families table selected provider) provider s) s := by
  rw [writes_plan, List.flatMap_append, flatMap_rowWrites, List.flatMap_assoc]
  simp only [flatMap_inserted_familyWrites]
  rw [List.flatMap_assoc]
  have hnone : ∀ family, (untouchedWrites (touchedFamilies table provider selected rows)
      family).flatMap Write.inserted = [] := by
    intro family
    rw [untouchedWrites]
    split <;> simp
  simp [hnone, kept]

/-- The rows a run closes: all but the newest of every family, and the newest rows that
some row of the scrape replaces. -/
theorem mem_closed_plan {id : Nat} :
    id ∈ (plan table selected provider rows false).writes.flatMap Write.closed ↔
      ∃ family ∈ families table selected provider,
        (∃ r ∈ family.tail, r.id = id)
          ∨ (∃ s ∈ kept table rows,
              familyOf table (families table selected provider) provider s = family
                ∧ Replaces family s)
            ∧ ∃ current, family.head? = some current ∧ current.id = id := by
  have hspec := families_spec table provider selected
  rw [writes_plan, List.flatMap_append, flatMap_rowWrites, List.flatMap_assoc,
    List.flatMap_assoc, List.mem_append]
  constructor
  · rintro (h | h)
    · obtain ⟨s, hs, hid⟩ := List.mem_flatMap.mp h
      have hne : familyOf table (families table selected provider) provider s ≠ [] := by
        intro hnil
        simp [hnil, familyWrites, Write.closed] at hid
      rcases mem_closed_familyWrites.mp hid with hstale | ⟨hreplaces, hnewest⟩
      · exact ⟨_, familyOf_mem hspec hne, .inl hstale⟩
      · exact ⟨_, familyOf_mem hspec hne, .inr ⟨⟨s, hs, rfl, hreplaces⟩, hnewest⟩⟩
    · obtain ⟨family, hfamily, hid⟩ := List.mem_flatMap.mp h
      refine ⟨family, hfamily, .inl ?_⟩
      rw [untouchedWrites] at hid
      split at hid
      · simp at hid
      · rwa [flatMap_closed_closeStale, List.mem_map] at hid
  · rintro ⟨family, hfamily, hstale | ⟨⟨s, hs, rfl, hreplaces⟩, hnewest⟩⟩
    · by_cases htouched : family ∈ touchedFamilies table provider selected rows
      · obtain ⟨-, s, hs, rfl⟩ := mem_touchedFamilies.mp htouched
        exact .inl (List.mem_flatMap.mpr ⟨s, hs, mem_closed_familyWrites.mpr (.inl hstale)⟩)
      · refine .inr (List.mem_flatMap.mpr ⟨family, hfamily, ?_⟩)
        rwa [untouchedWrites, if_neg htouched, flatMap_closed_closeStale, List.mem_map]
    · exact .inl (List.mem_flatMap.mpr
        ⟨s, hs, mem_closed_familyWrites.mpr (.inr ⟨hreplaces, hnewest⟩)⟩)

end Plan

/-! ## Dry runs -/

theorem writes_persistRow_dry (fs : List (List PricingRow)) (p : Progress) (row : ScrapedPrice) :
    (persistRow table fs provider true p row).writes = p.writes := by
  rw [persistRow]
  split
  · rfl
  · split
    · rfl
    · next current stale _ =>
        by_cases hstale : stale = [] <;> by_cases hdiffer : pricesDiffer current row <;>
          simp [hstale, hdiffer, Progress.write]

theorem writes_closeUntouched_dry (p : Progress) (family : List PricingRow) :
    (closeUntouched true p family).writes = p.writes := by
  unfold closeUntouched
  split
  · rfl
  · split <;> rfl

/-- A fold whose steps make no writes makes none. -/
theorem writes_foldl_eq {α : Type} {step : Progress → α → Progress}
    (hstep : ∀ p a, (step p a).writes = p.writes) (as : List α) (p : Progress) :
    (as.foldl step p).writes = p.writes := by
  induction as generalizing p with
  | nil => rfl
  | cons a as ih => rw [List.foldl_cons, ih, hstep]

theorem writes_plan_dry (selected : List PricingRow) (rows : List ScrapedPrice) :
    (plan table selected provider rows true).writes = [] := by
  rw [plan, writes_foldl_eq writes_closeUntouched_dry, writes_foldl_eq (writes_persistRow_dry _)]

end AuraGateway.Scraper
