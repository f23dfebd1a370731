import AuraGateway.Scraper.PersistRuns

/-!
# One open row per model

After a whole run the open rows of a provider are the newest rows of the families that
nothing replaced, and one new row for each scraped row that met no family or moved the price
of one (`Persisted.endState`). A second run meets those rows.

The writer is meant to leave one open row per model and to do nothing when it runs again on
the same page. It does so exactly under `Settles` (`persisted_settles_iff`): no family is
repriced by two rows of the page, no new display name leads to another family, and every row
finds its price again under its first key.
-/

set_option autoImplicit false

namespace AuraGateway.Scraper

open AuraGateway.JsStd
open AuraGateway.Foundations.KeyedPartition

/-! ## The open rows after a run -/

section EndState

variable (table : CaseTable) (provider : String) (fs : List (List PricingRow))
  (ks : List ScrapedPrice)

/-- Some kept row replaces the newest row of the family. -/
def Replaced (family : List PricingRow) : Prop :=
  ∃ s ∈ ks, familyOf table fs provider s = family ∧ Replaces family s

/-- The open rows a run leaves: newest rows that nothing replaced, then new rows. -/
structure EndState (pid : Nat) (final : List PricingRow) (old news : List PricingRow) : Prop where
  final_eq : final = old ++ news
  nodup : old.Nodup
  mem_old : ∀ r, r ∈ old ↔
    ∃ stale, r :: stale ∈ fs ∧ ¬ Replaced table provider fs ks (r :: stale)
  mem_news : List.Forall₂ (IsNew pid)
    (ks.flatMap fun s => familyInserted (familyOf table fs provider s) s) news

end EndState

variable {table : CaseTable} {provider : String}

theorem Persisted.endState {db : Db} {rows : List ScrapedPrice} {pid : Nat}
    {selected : List PricingRow} {t : PricingTable}
    (hrun : Persisted table db provider rows false pid selected t) :
    ∃ old news, EndState table provider (families table selected provider) (kept table rows) pid
      (t.openRows pid) old news := by
  have hspec := families_spec table provider selected
  have hsel := hrun.ofSelected
  obtain ⟨news, hnews, hopen⟩ := hrun.wrote.openRows fun id => hsel.closed_mem
  refine ⟨_, news, hopen, ?_, fun r => ?_, inserted_plan ▸ hnews⟩
  · have hnodup : (db.pricing.openRows pid).Nodup := by
      rw [← hsel.perm.nodup_iff]
      exact hsel.nodup_ids.of_map _
    exact hnodup.filter _
  rw [List.mem_filter, decide_eq_true_iff, ← hsel.mem_openRows, mem_closed_plan]
  constructor
  · rintro ⟨hr, hopen⟩
    push Not at hopen
    obtain ⟨family, hfamily, hrf⟩ := hspec.mem.mp hr
    cases family with
    | nil => simp at hrf
    | cons current stale =>
        rcases List.mem_cons.mp hrf with rfl | hstale
        · refine ⟨stale, hfamily, fun ⟨s, hs, hfs, hreplaces⟩ => ?_⟩
          exact (hopen _ hfamily).2 ⟨s, hs, hfs, hreplaces⟩ r rfl rfl
        · exact absurd rfl ((hopen _ hfamily).1 r hstale)
  · rintro ⟨stale, hfamily, hkept⟩
    have hr : r ∈ selected := hspec.mem.mpr ⟨_, hfamily, List.mem_cons_self⟩
    refine ⟨hr, ?_⟩
    rintro ⟨family, hfamily', ⟨r', hr', hid⟩ | ⟨⟨s, hs, hfs, hreplaces⟩, r', hhead, hid⟩⟩
    · exact hsel.newest_not_stale hfamily hfamily' r' hr' hid
    · -- the replaced newest row would be this one
      have hr' : r' ∈ family := List.mem_of_head? hhead
      obtain rfl := hsel.eq_of_id (hspec.mem.mpr ⟨_, hfamily', hr'⟩) hr hid
      obtain ⟨k, hk⟩ := List.exists_mem_of_ne_nil (r'.keys table provider)
        (familyKeys_ne_nil _ _ _)
      obtain rfl := hspec.eq_of_shared hfamily hfamily' List.mem_cons_self hr' hk hk
      exact hkept ⟨s, hs, hfs, hreplaces⟩

/-! ## Keys of ids and of names -/

/-- The key of a scraped row's id. -/
def ScrapedPrice.id (table : CaseTable) (provider : String) (s : ScrapedPrice) : String :=
  idKey table s.modelId (some provider)

/-- The keys of a scraped row's display name. -/
def ScrapedPrice.names (table : CaseTable) (provider : String) (s : ScrapedPrice) :
    List String :=
  nameKeys table (some s.modelName) (some provider)

/-- The keys of the row an insert makes. -/
def insertedKeys (table : CaseTable) (provider : String) (i : String × ScrapedPrice) :
    List String :=
  idKey table i.1 (some provider) :: i.2.names table provider

theorem IsNew.keys_eq {pid : Nat} {i : String × ScrapedPrice} {r : PricingRow}
    (h : IsNew pid i r) : r.keys table provider = insertedKeys table provider i := by
  obtain ⟨stamp, rfl⟩ := h
  rfl

theorem pricesDiffer_eq_false {r : PricingRow} {s : ScrapedPrice} :
    pricesDiffer r s = false ↔ r.inputPerMillion = s.inputPerMillion
      ∧ r.outputPerMillion = s.outputPerMillion
      ∧ r.cachedInputPerMillion = s.cachedInputPerMillion := by
  simp [pricesDiffer, and_assoc]

/-- A new row has the prices of its scraped row. -/
theorem IsNew.pricesDiffer_self {pid : Nat} {i : String × ScrapedPrice} {r : PricingRow}
    (h : IsNew pid i r) : pricesDiffer r i.2 = false := by
  obtain ⟨stamp, rfl⟩ := h
  exact pricesDiffer_eq_false.mpr ⟨rfl, rfl, rfl⟩

theorem pricesDiffer_trans {r b : PricingRow} {s s' : ScrapedPrice}
    (hrs : pricesDiffer r s = false) (hbs : pricesDiffer b s = false)
    (hbs' : pricesDiffer b s' = false) : pricesDiffer r s' = false := by
  rw [pricesDiffer_eq_false] at *
  obtain ⟨h₁, h₂, h₃⟩ := hrs
  obtain ⟨h₁', h₂', h₃'⟩ := hbs
  exact ⟨h₁.trans (h₁'.symm.trans hbs'.1), h₂.trans (h₂'.symm.trans hbs'.2.1),
    h₃.trans (h₃'.symm.trans hbs'.2.2)⟩

theorem mem_insertedKeys {i : String × ScrapedPrice} {k : String} :
    k ∈ insertedKeys table provider i ↔
      k = idKey table i.1 (some provider) ∨ k ∈ i.2.names table provider :=
  List.mem_cons

theorem mem_scrapedKeys {s : ScrapedPrice} {k : String} :
    k ∈ s.keys table provider ↔ k = s.id table provider ∨ k ∈ s.names table provider :=
  List.mem_cons

theorem mem_rowKeys {r : PricingRow} {k : String} : k ∈ r.keys table provider ↔
    k = idKey table r.modelId (some provider)
      ∨ k ∈ nameKeys table (some r.modelName) (some provider) :=
  List.mem_cons

theorem idKey_mem_rowKeys {m : String} {r : PricingRow} :
    idKey table m (some provider) ∈ r.keys table provider ↔
      idKey table m (some provider) = idKey table r.modelId (some provider) := by
  rw [mem_rowKeys]
  exact or_iff_left (idKey_not_mem_nameKeys table _ _ _)

/-- The keys of two inserted rows are disjoint when their ids' keys differ and the scraped
rows share no name. -/
theorem insertedKeys_disjoint {i j : String × ScrapedPrice}
    (hnames : (i.2.names table provider).Disjoint (j.2.names table provider)) :
    (insertedKeys table provider i).Disjoint (insertedKeys table provider j) ↔
      idKey table i.1 (some provider) ≠ idKey table j.1 (some provider) := by
  constructor
  · intro h heq
    exact h (mem_insertedKeys.mpr (.inl rfl)) (mem_insertedKeys.mpr (.inl heq))
  · intro hne k hk hk'
    rcases mem_insertedKeys.mp hk with rfl | hk
    · rcases mem_insertedKeys.mp hk' with heq | hk'
      · exact hne heq
      · exact idKey_not_mem_nameKeys table _ _ _ hk'
    · rcases mem_insertedKeys.mp hk' with rfl | hk'
      · exact idKey_not_mem_nameKeys table _ _ _ hk
      · exact hnames hk hk'

/-! ## No two open rows share a key -/

/-- What a row inserts, and under which id. -/
theorem mem_familyInserted {family : List PricingRow} {s : ScrapedPrice}
    {i : String × ScrapedPrice} : i ∈ familyInserted family s ↔
      i.2 = s ∧ (family = [] ∧ i.1 = s.modelId
        ∨ ∃ newest stale, family = newest :: stale ∧ pricesDiffer newest s = true
          ∧ i.1 = newest.modelId) := by
  obtain ⟨m, s'⟩ := i
  cases family with
  | nil => simp [familyInserted, and_comm]
  | cons current stale =>
      by_cases hdiffer : pricesDiffer current s <;>
        simp [familyInserted, hdiffer, and_comm]

/-- A row inserts one row at most. -/
theorem pairwise_familyInserted (R : String × ScrapedPrice → String × ScrapedPrice → Prop)
    (family : List PricingRow) (s : ScrapedPrice) : (familyInserted family s).Pairwise R := by
  cases family with
  | nil => simp [familyInserted]
  | cons current stale =>
      by_cases hdiffer : pricesDiffer current s <;> simp [familyInserted, hdiffer]

theorem map_keys_news {pid : Nat} {is : List (String × ScrapedPrice)} {news : List PricingRow}
    (h : List.Forall₂ (IsNew pid) is news) :
    news.map (fun r => r.keys table provider) = is.map (insertedKeys table provider) := by
  induction h with
  | nil => rfl
  | cons h _ ih => rw [List.map_cons, List.map_cons, ih, h.keys_eq]

/-- New rows share no key when what was inserted shares none. -/
theorem pairwise_apart_news {pid : Nat} {is : List (String × ScrapedPrice)}
    {news : List PricingRow} (h : List.Forall₂ (IsNew pid) is news) :
    news.Pairwise (Apart fun r => r.keys table provider) ↔
      is.Pairwise fun i j =>
        (insertedKeys table provider i).Disjoint (insertedKeys table provider j) :=
  calc news.Pairwise (Apart fun r => r.keys table provider)
    _ ↔ (news.map fun r => r.keys table provider).Pairwise List.Disjoint :=
        pairwise_apart _ _
    _ ↔ (is.map (insertedKeys table provider)).Pairwise List.Disjoint := by
        rw [map_keys_news h]
    _ ↔ is.Pairwise fun i j =>
        (insertedKeys table provider i).Disjoint (insertedKeys table provider j) :=
        List.pairwise_map

section Apart

variable {fs : List (List PricingRow)} {ks : List ScrapedPrice} {selected : List PricingRow}
  (hfs : Partition (fun r => r.keys table provider) selected fs)

include hfs

/-- A row whose id key an open row has meets the family of that row. -/
theorem familyOf_eq_of_id {s : ScrapedPrice} {family : List PricingRow} {r : PricingRow}
    (hmem : family ∈ fs) (hr : r ∈ family) (hid : s.id table provider ∈ r.keys table provider) :
    familyOf table fs provider s = family :=
  familyOf_eq_of_first hfs [] (s.names table provider) (s.id table provider) rfl (by simp)
    hmem hr hid

/-- A newest row has its id key from no other family. -/
theorem eq_of_newest_id {a b : PricingRow} {as bs : List PricingRow} (ha : a :: as ∈ fs)
    (hb : b :: bs ∈ fs)
    (hid : idKey table a.modelId (some provider) = idKey table b.modelId (some provider)) :
    a :: as = b :: bs :=
  hfs.eq_of_shared ha hb List.mem_cons_self List.mem_cons_self (mem_rowKeys.mpr (.inl rfl))
    (idKey_mem_rowKeys.mpr hid)

/-- Two scraped rows that share no key insert rows with one id key only when they replace
the newest row of one family. -/
theorem insertedKeys_disjoint_iff {s s' : ScrapedPrice}
    (hapart : (s.keys table provider).Disjoint (s'.keys table provider)) :
    (∀ i ∈ familyInserted (familyOf table fs provider s) s,
        ∀ j ∈ familyInserted (familyOf table fs provider s') s',
          (insertedKeys table provider i).Disjoint (insertedKeys table provider j)) ↔
      (Replaces (familyOf table fs provider s) s → Replaces (familyOf table fs provider s') s' →
        familyOf table fs provider s ≠ familyOf table fs provider s') := by
  have hnames : (s.names table provider).Disjoint (s'.names table provider) :=
    fun k hk hk' => hapart (mem_scrapedKeys.mpr (.inr hk)) (mem_scrapedKeys.mpr (.inr hk'))
  constructor
  · rintro h ⟨c, stale, hf, hdiffer⟩ ⟨c', stale', hf', hdiffer'⟩ heq
    have hc : c = c' := by
      rw [hf, hf'] at heq
      exact (List.cons.inj heq).1
    have hdisjoint := h (c.modelId, s) (by simp [hf, familyInserted, hdiffer])
      (c'.modelId, s') (by simp [hf', familyInserted, hdiffer'])
    rw [insertedKeys_disjoint (i := (c.modelId, s)) (j := (c'.modelId, s')) hnames, hc]
      at hdisjoint
    exact hdisjoint rfl
  · intro h i hi j hj
    obtain ⟨rfl, hi⟩ := mem_familyInserted.mp hi
    obtain ⟨rfl, hj⟩ := mem_familyInserted.mp hj
    rw [insertedKeys_disjoint hnames]
    intro hid
    rcases hi with ⟨hnil, hm⟩ | ⟨c, stale, hf, hdiffer, hm⟩ <;>
      rcases hj with ⟨hnil', hm'⟩ | ⟨c', stale', hf', hdiffer', hm'⟩ <;> rw [hm, hm'] at hid
    · -- two rows of no family would share their id key
      exact hapart (mem_scrapedKeys.mpr (.inl rfl)) (mem_scrapedKeys.mpr (.inl hid))
    · have hmem := familyOf_mem hfs (s := j.2) (by simp [hf'])
      rw [familyOf_eq_of_id hfs hmem (r := c') (by simp [hf']) (idKey_mem_rowKeys.mpr hid), hf']
        at hnil
      cases hnil
    · have hmem := familyOf_mem hfs (s := i.2) (by simp [hf])
      rw [familyOf_eq_of_id hfs hmem (r := c) (by simp [hf]) (idKey_mem_rowKeys.mpr hid.symm), hf]
        at hnil'
      cases hnil'
    · have hmem := familyOf_mem hfs (s := i.2) (by simp [hf])
      have hmem' := familyOf_mem hfs (s := j.2) (by simp [hf'])
      rw [hf] at hmem
      rw [hf'] at hmem'
      refine h (hf ▸ ⟨c, stale, rfl, hdiffer⟩) (hf' ▸ ⟨c', stale', rfl, hdiffer'⟩) ?_
      rw [hf, hf']
      exact eq_of_newest_id hfs hmem hmem' hid

variable {pid : Nat} {final old news : List PricingRow}
  (hend : EndState table provider fs ks pid final old news)

include hend

/-- The new rows share no key exactly when no family is repriced twice. -/
theorem EndState.pairwise_news
    (hks : ks.Pairwise fun s s' => (s.keys table provider).Disjoint (s'.keys table provider)) :
    news.Pairwise (Apart fun r => r.keys table provider) ↔
      ks.Pairwise fun s s' => Replaces (familyOf table fs provider s) s →
        Replaces (familyOf table fs provider s') s' →
          familyOf table fs provider s ≠ familyOf table fs provider s' := by
  rw [pairwise_apart_news hend.mem_news, List.pairwise_flatMap]
  constructor
  · rintro ⟨-, h⟩
    refine (hks.and h).imp ?_
    rintro s s' ⟨hapart, h⟩
    exact (insertedKeys_disjoint_iff hfs hapart).mp h
  · intro h
    refine ⟨fun s _ => pairwise_familyInserted _ _ s, (hks.and h).imp ?_⟩
    rintro s s' ⟨hapart, h⟩
    exact (insertedKeys_disjoint_iff hfs hapart).mpr h

omit hfs in
/-- What a kept row inserts is open. -/
theorem EndState.exists_new {s : ScrapedPrice} (hs : s ∈ ks) {i : String × ScrapedPrice}
    (hi : i ∈ familyInserted (familyOf table fs provider s) s) :
    ∃ b ∈ news, IsNew pid i b :=
  exists_of_forall₂ hend.mem_news (List.mem_flatMap.mpr ⟨s, hs, hi⟩)

omit hfs in
/-- Every new row was inserted for a kept row. -/
theorem EndState.of_mem_news {b : PricingRow} (hb : b ∈ news) : ∃ i, i.2 ∈ ks ∧ IsNew pid i b
    ∧ i ∈ familyInserted (familyOf table fs provider i.2) i.2 := by
  obtain ⟨i, hi, hnew⟩ := exists_of_forall₂ hend.mem_news.flip hb
  obtain ⟨s, hs, hi⟩ := List.mem_flatMap.mp hi
  obtain rfl := (mem_familyInserted.mp hi).1
  exact ⟨i, hs, hnew, hi⟩

/-- The rows that stay open share no key. -/
theorem EndState.pairwise_old : old.Pairwise (Apart fun r => r.keys table provider) := by
  refine hend.nodup.pairwise_of_forall_ne fun a ha b hb hne k hka hkb => hne ?_
  obtain ⟨as, ha, -⟩ := (hend.mem_old a).mp ha
  obtain ⟨bs, hb, -⟩ := (hend.mem_old b).mp hb
  exact (List.cons.inj
    (hfs.eq_of_shared ha hb List.mem_cons_self List.mem_cons_self hka hkb)).1

/-- A new row and one that stays open share a key only through the name of a row that
replaced a price. -/
theorem EndState.cross_apart :
    (∀ a ∈ old, ∀ b ∈ news, Apart (fun r => r.keys table provider) a b) ↔
      ∀ s ∈ ks, Replaces (familyOf table fs provider s) s →
        ∀ a as, a :: as ∈ fs → ¬ Replaced table provider fs ks (a :: as) →
          (s.names table provider).Disjoint (a.keys table provider) := by
  constructor
  · rintro h s hs ⟨c, stale, hf, hdiffer⟩ a as hmem hkept k hk hka
    obtain ⟨b, hb, hnew⟩ := hend.exists_new hs (i := (c.modelId, s))
      (by simp [hf, familyInserted, hdiffer])
    refine h a ((hend.mem_old a).mpr ⟨as, hmem, hkept⟩) b hb hka ?_
    change k ∈ b.keys table provider
    rw [hnew.keys_eq]
    exact mem_insertedKeys.mpr (.inr hk)
  · intro h a ha b hb k hka hkb
    obtain ⟨as, hmem, hkept⟩ := (hend.mem_old a).mp ha
    obtain ⟨i, hs, hnew, hi⟩ := hend.of_mem_news hb
    change k ∈ b.keys table provider at hkb
    rw [hnew.keys_eq] at hkb
    rcases (mem_familyInserted.mp hi).2 with ⟨hnil, hm⟩ | ⟨c, stale, hf, hdiffer, hm⟩
    · -- no open row has a key of a row of no family
      have hk : k ∈ i.2.keys table provider := by
        rcases mem_insertedKeys.mp hkb with hk | hk
        · exact mem_scrapedKeys.mpr (.inl (hk.trans (congrArg (idKey table · _) hm)))
        · exact mem_scrapedKeys.mpr (.inr hk)
      exact (familyOf_eq_nil hfs).mp hnil k hk a
        (hfs.mem.mpr ⟨_, hmem, List.mem_cons_self⟩) hka
    · have hrep : Replaces (familyOf table fs provider i.2) i.2 := hf ▸ ⟨c, stale, rfl, hdiffer⟩
      rcases mem_insertedKeys.mp hkb with rfl | hk
      · -- the id key of a replaced row is in no other family
        have hmem' := familyOf_mem hfs (s := i.2) (by simp [hf])
        rw [hf] at hmem'
        have heq := eq_of_newest_id hfs hmem' hmem (by
          rw [hm] at hka
          exact idKey_mem_rowKeys.mp hka)
        exact hkept ⟨i.2, hs, hf.trans heq, by rw [← heq, ← hf]; exact hrep⟩
      · exact h i.2 hs hrep a as hmem hkept hk hka

/-- After a run no two open rows share a key exactly when no family is repriced twice and no
new name leads to another family. -/
theorem EndState.pairwise_final
    (hks : ks.Pairwise fun s s' => (s.keys table provider).Disjoint (s'.keys table provider)) :
    final.Pairwise (Apart fun r => r.keys table provider) ↔
      (ks.Pairwise fun s s' => Replaces (familyOf table fs provider s) s →
        Replaces (familyOf table fs provider s') s' →
          familyOf table fs provider s ≠ familyOf table fs provider s')
      ∧ ∀ s ∈ ks, Replaces (familyOf table fs provider s) s →
        ∀ a as, a :: as ∈ fs → ¬ Replaced table provider fs ks (a :: as) →
          (s.names table provider).Disjoint (a.keys table provider) := by
  rw [hend.final_eq, List.pairwise_append, hend.pairwise_news hfs hks, hend.cross_apart hfs]
  exact and_iff_right (hend.pairwise_old hfs)

end Apart

/-! ## The second run -/

/-- The row a scraped row meets where rows share no key: the one with its id key, else the
one with the key of its name. -/
def Meets (table : CaseTable) (provider : String) (final : List PricingRow) (s : ScrapedPrice)
    (c : PricingRow) : Prop :=
  c ∈ final ∧ (s.id table provider ∈ c.keys table provider
    ∨ (∀ r ∈ final, s.id table provider ∉ r.keys table provider)
      ∧ ∃ k ∈ s.names table provider, k ∈ c.keys table provider)

section Again

variable {selected : List PricingRow}
  (hapart : selected.Pairwise (Apart fun r => r.keys table provider))

include hapart

theorem singleton_mem_families {r : PricingRow} (hr : r ∈ selected) :
    [r] ∈ families table selected provider := by
  have hspec := families_spec table provider selected
  obtain ⟨family, hfamily, hrf⟩ := hspec.mem.mp hr
  obtain ⟨a, rfl⟩ := hspec.singleton (fun a _ => familyKeys_ne_nil _ _ _) hapart hfamily
  obtain rfl := List.mem_singleton.mp hrf
  exact hfamily

theorem familyOf_singleton_iff {s : ScrapedPrice} {c : PricingRow} :
    familyOf table (families table selected provider) provider s = [c] ↔
      Meets table provider selected s c := by
  have hspec := families_spec table provider selected
  have hid : ∀ r ∈ selected, s.id table provider ∈ r.keys table provider →
      familyOf table (families table selected provider) provider s = [r] := fun r hr hk =>
    familyOf_eq_of_id hspec (singleton_mem_families hapart hr) (List.mem_singleton_self r) hk
  have hname : (∀ r ∈ selected, s.id table provider ∉ r.keys table provider) →
      ∀ r ∈ selected, ∀ k ∈ s.names table provider, k ∈ r.keys table provider →
        familyOf table (families table selected provider) provider s = [r] := by
    intro habsent r hr k hk hkr
    obtain ⟨before, after, hsplit⟩ := List.append_of_mem hk
    have hnone : before = [] := by
      have hlength : (s.names table provider).length ≤ 1 := by
        unfold ScrapedPrice.names nameKeys
        split
        · split <;> simp
        · simp
      rw [hsplit] at hlength
      simp only [List.length_append, List.length_cons] at hlength
      exact List.length_eq_zero_iff.mp (by omega)
    refine familyOf_eq_of_first hspec [s.id table provider] after k ?_ ?_
      (singleton_mem_families hapart hr) (List.mem_singleton_self r) hkr
    · change s.id table provider :: s.names table provider = _
      rw [hsplit, hnone]
      rfl
    · intro k' hk' r' hr'
      rw [List.mem_singleton.mp hk']
      exact habsent r' hr'
  constructor
  · intro hf
    have hmem := familyOf_mem hspec (s := s) (by simp [hf])
    have hc : c ∈ selected := hspec.mem.mpr ⟨_, hmem, by simp [hf]⟩
    refine ⟨hc, ?_⟩
    by_cases habsent : ∀ r ∈ selected, s.id table provider ∉ r.keys table provider
    · refine .inr ⟨habsent, ?_⟩
      by_contra hnone
      push Not at hnone
      -- then some other row has the key of the name, and would be met
      have hne : familyOf table (families table selected provider) provider s ≠ [] := by
        simp [hf]
      refine hne ((familyOf_eq_nil hspec).mpr fun k hk r hr hkr => ?_)
      rcases mem_scrapedKeys.mp hk with rfl | hk
      · exact habsent r hr hkr
      · have hrc : [r] = [c] := (hname habsent r hr k hk hkr).symm.trans hf
        exact hnone k hk ((List.cons.inj hrc).1 ▸ hkr)
    · push Not at habsent
      obtain ⟨r, hr, hk⟩ := habsent
      have hrc : [r] = [c] := (hid r hr hk).symm.trans hf
      exact .inl ((List.cons.inj hrc).1 ▸ hk)
  · rintro ⟨hc, hk | ⟨habsent, k, hk, hkc⟩⟩
    · exact hid c hc hk
    · exact hname habsent c hc k hk hkc

/-- Over rows that share no key a run writes nothing exactly when every kept row meets a
row with its price. -/
theorem writes_plan_eq_nil {rows : List ScrapedPrice} :
    (plan table selected provider rows false).writes = [] ↔
      ∀ s ∈ kept table rows, ∃ c, Meets table provider selected s c ∧ pricesDiffer c s = false := by
  have hspec := families_spec table provider selected
  have hsingle : ∀ family ∈ families table selected provider, ∃ a, family = [a] :=
    fun family hfamily => hspec.singleton (fun a _ => familyKeys_ne_nil _ _ _) hapart hfamily
  have huntouched : (families table selected provider).flatMap
      (untouchedWrites (touchedFamilies table provider selected rows)) = [] := by
    rw [List.flatMap_eq_nil_iff]
    intro family hfamily
    obtain ⟨a, rfl⟩ := hsingle family hfamily
    simp [untouchedWrites, closeStale]
  rw [writes_plan, flatMap_rowWrites, huntouched, List.append_nil, List.flatMap_eq_nil_iff]
  refine forall₂_congr fun s _ => ?_
  constructor
  · intro hnone
    cases hf : familyOf table (families table selected provider) provider s with
    | nil => simp [hf, familyWrites] at hnone
    | cons c stale =>
        have hmem := familyOf_mem hspec (s := s) (by simp [hf])
        obtain ⟨a, ha⟩ := hsingle _ hmem
        rw [hf] at ha
        obtain ⟨rfl, rfl⟩ := List.cons.inj ha
        exact ⟨c, (familyOf_singleton_iff hapart).mp hf, by
          simpa [hf, familyWrites, closeStale] using hnone⟩
  · rintro ⟨c, hmeets, hsame⟩
    simp [(familyOf_singleton_iff hapart).mpr hmeets, familyWrites, closeStale, hsame]

end Again

/-- A run that writes nothing reports no insert and no version. -/
theorem changes_of_no_writes {selected : List PricingRow} {rows : List ScrapedPrice}
    (hnone : (plan table selected provider rows false).writes = []) :
    ∀ c ∈ (plan table selected provider rows false).changes,
      c.kind ≠ .insert ∧ c.kind ≠ .version := by
  rw [writes_plan, List.append_eq_nil_iff, List.flatMap_eq_nil_iff] at hnone
  obtain ⟨hrows, -⟩ := hnone
  intro c hc
  rw [changes_plan, List.mem_append, List.mem_append] at hc
  rcases hc with (hc | hc) | hc
  · simp [(dedupeScrapedRows_inv table rows).dropped c hc]
  · obtain ⟨s, hs, rfl⟩ := List.mem_map.mp hc
    have hwrites := hrows s hs
    by_cases hsuccess : s.status = .success
    · cases hf : familyOf table (families table selected provider) provider s with
      | nil => simp [rowWrites, hsuccess, hf, familyWrites] at hwrites
      | cons c stale =>
          by_cases hdiffer : pricesDiffer c s = true
          · simp [rowWrites, hsuccess, hf, familyWrites, hdiffer] at hwrites
          · simp [rowChange, hsuccess, hf, familyChange, hdiffer, unchangedChange]
    · simp [rowChange, hsuccess, flaggedChange]
  · obtain ⟨family, -, hc⟩ := List.mem_flatMap.mp hc
    unfold untouchedChanges at hc
    split at hc
    · simp at hc
    · split at hc
      · rw [List.mem_singleton.mp hc]
        simp [retiredChange]
      · simp at hc

/-! ## When a run settles -/

section Settles

variable (table : CaseTable) (provider : String) (fs : List (List PricingRow))
  (ks : List ScrapedPrice)

/-- A matched row finds its price again under its first key. -/
structure FoundAgain (s : ScrapedPrice) (newest : PricingRow) : Prop where
  /-- One that moved the price has the id key of the newest row, or a name. -/
  replaced : pricesDiffer newest s = true →
    s.id table provider = idKey table newest.modelId (some provider)
      ∨ s.names table provider ≠ []
  /-- One with the price and the id key of the newest row leaves it to no other row. -/
  same : pricesDiffer newest s = false →
    s.id table provider = idKey table newest.modelId (some provider) →
      ¬ Replaced table provider fs ks (familyOf table fs provider s)
  /-- One that met the family otherwise has the name of a newest row with its price. -/
  renamed : pricesDiffer newest s = false →
    s.id table provider ≠ idKey table newest.modelId (some provider) →
      ∃ d ds, d :: ds ∈ fs ∧ ¬ Replaced table provider fs ks (d :: ds)
        ∧ (∃ k ∈ s.names table provider, k ∈ d.keys table provider) ∧ pricesDiffer d s = false

/-- The families and the kept rows with which a run leaves one open row per model, and a
second run nothing to do. -/
structure Settles : Prop where
  /-- No family is repriced by two rows of the page. -/
  once : ks.Pairwise fun s s' => Replaces (familyOf table fs provider s) s →
    Replaces (familyOf table fs provider s') s' →
      familyOf table fs provider s ≠ familyOf table fs provider s'
  /-- A row that moves a price has no name of another family's newest row. -/
  names : ∀ s ∈ ks, Replaces (familyOf table fs provider s) s →
    ∀ a as, a :: as ∈ fs → ¬ Replaced table provider fs ks (a :: as) →
      (s.names table provider).Disjoint (a.keys table provider)
  found : ∀ s ∈ ks, ∀ newest stale, familyOf table fs provider s = newest :: stale →
    FoundAgain table provider fs ks s newest

end Settles

section Found

variable {fs : List (List PricingRow)} {ks : List ScrapedPrice} {selected : List PricingRow}
  (hfs : Partition (fun r => r.keys table provider) selected fs) {pid : Nat}
  {final old news : List PricingRow}
  (hend : EndState table provider fs ks pid final old news)
  (hks : ks.Pairwise fun s s' => (s.keys table provider).Disjoint (s'.keys table provider))

include hfs hend hks

/-- The id key of a row that met a family through another key is in no open row. -/
theorem EndState.id_absent {s : ScrapedPrice} (hs : s ∈ ks) {newest : PricingRow}
    {stale : List PricingRow} (hf : familyOf table fs provider s = newest :: stale)
    (hid : s.id table provider ≠ idKey table newest.modelId (some provider)) :
    ∀ r ∈ final, s.id table provider ∉ r.keys table provider := by
  -- no family but the met one has the key in its newest row
  have hnewest : ∀ a as, a :: as ∈ fs →
      s.id table provider ≠ idKey table a.modelId (some provider) := by
    intro a as hmem heq
    have hmet := familyOf_eq_of_id hfs hmem List.mem_cons_self (s := s) (idKey_mem_rowKeys.mpr heq)
    rw [hf] at hmet
    exact hid ((List.cons.inj hmet).1 ▸ heq)
  intro r hr hk
  rw [hend.final_eq, List.mem_append] at hr
  rcases hr with hr | hr
  · obtain ⟨as, hmem, -⟩ := (hend.mem_old r).mp hr
    exact hnewest r as hmem (idKey_mem_rowKeys.mp hk)
  · obtain ⟨i, hi, hnew, hins⟩ := hend.of_mem_news hr
    rw [hnew.keys_eq, mem_insertedKeys] at hk
    have hk := hk.resolve_right (idKey_not_mem_nameKeys table _ _ _)
    rcases (mem_familyInserted.mp hins).2 with ⟨hnil, hm⟩ | ⟨c, cs, hf', -, hm⟩
    · -- a row of no family is another row, which shares no key
      have hne : s ≠ i.2 := fun h => by
        rw [← h, hf] at hnil
        cases hnil
      have hsymm : Std.Symm fun s s' : ScrapedPrice =>
          (s.keys table provider).Disjoint (s'.keys table provider) :=
        ⟨fun _ _ h _ hb ha => h ha hb⟩
      refine hks.forall hs hi hne (mem_scrapedKeys.mpr (.inl rfl)) ?_
      rw [hk, hm]
      exact mem_scrapedKeys.mpr (.inl rfl)
    · have hmem := familyOf_mem hfs (s := i.2) (by simp [hf'])
      rw [hf'] at hmem
      exact hnewest c cs hmem (hk.trans (by rw [hm]))

omit hfs hks in
/-- A row meets the new row that has its id key. -/
theorem EndState.meets_new {s : ScrapedPrice} {b : PricingRow} {i : String × ScrapedPrice}
    (hb : b ∈ news) (hnew : IsNew pid i b)
    (hid : s.id table provider = idKey table i.1 (some provider)) :
    Meets table provider final s b := by
  refine ⟨?_, .inl ?_⟩
  · rw [hend.final_eq]
    exact List.mem_append_right _ hb
  · rw [hnew.keys_eq]
    exact mem_insertedKeys.mpr (.inl hid)

omit hfs hks in
theorem EndState.mem_final_of_kept {r : PricingRow} {rs : List PricingRow} (hmem : r :: rs ∈ fs)
    (hkept : ¬ Replaced table provider fs ks (r :: rs)) : r ∈ final := by
  rw [hend.final_eq]
  exact List.mem_append_left _ ((hend.mem_old r).mpr ⟨rs, hmem, hkept⟩)

/-- What a matched row that meets its price after the run has found. -/
theorem EndState.foundAgain_of_meets
    (hapart : final.Pairwise (Apart fun r => r.keys table provider)) {s : ScrapedPrice}
    (hs : s ∈ ks) {newest c : PricingRow} {stale : List PricingRow}
    (hf : familyOf table fs provider s = newest :: stale)
    (hmeets : Meets table provider final s c) (hsame : pricesDiffer c s = false) :
    FoundAgain table provider fs ks s newest where
  replaced _ := by
    by_contra hnot
    push Not at hnot
    have habsent := hend.id_absent hfs hks hs hf hnot.1
    obtain ⟨hc, hk | ⟨-, k, hk, -⟩⟩ := hmeets
    · exact habsent c hc hk
    · simp [hnot.2] at hk
  same hequal hid := by
    rintro ⟨s', hs', hf', hrep⟩
    rw [hf] at hf' hrep
    rw [replaces_cons] at hrep
    -- the row that replaced the newest one has another price
    obtain ⟨b, hb, hnew⟩ := hend.exists_new hs' (i := (newest.modelId, s'))
      (by simp [hf', familyInserted, hrep])
    have hcb : [c] = [b] := ((familyOf_singleton_iff hapart).mpr hmeets).symm.trans
      ((familyOf_singleton_iff hapart).mpr (hend.meets_new hb hnew hid))
    obtain rfl := (List.cons.inj hcb).1
    rw [pricesDiffer_trans hequal hsame hnew.pricesDiffer_self] at hrep
    cases hrep
  renamed hequal hid := by
    have habsent := hend.id_absent hfs hks hs hf hid
    obtain ⟨hc, hk | ⟨-, k, hk, hkc⟩⟩ := hmeets
    · exact absurd hk (habsent c hc)
    rw [hend.final_eq, List.mem_append] at hc
    rcases hc with hc | hc
    · obtain ⟨cs, hmem, hkept⟩ := (hend.mem_old c).mp hc
      exact ⟨c, cs, hmem, hkept, ⟨k, hk, hkc⟩, hsame⟩
    · -- a new row has the names of its own scraped row, which would have moved the price
      obtain ⟨i, hi, hnew, hins⟩ := hend.of_mem_news hc
      rw [hnew.keys_eq, mem_insertedKeys] at hkc
      rcases hkc with rfl | hkc
      · exact absurd hk (idKey_not_mem_nameKeys table _ _ _)
      · by_cases heq : s = i.2
        · rw [← heq, hf] at hins
          simp [familyInserted, hequal] at hins
        · have hsymm : Std.Symm fun s s' : ScrapedPrice =>
              (s.keys table provider).Disjoint (s'.keys table provider) :=
            ⟨fun _ _ h _ hb ha => h ha hb⟩
          exact (hks.forall hs hi heq (mem_scrapedKeys.mpr (.inr hk))
            (mem_scrapedKeys.mpr (.inr hkc))).elim

/-- What a matched row has found is the row it meets after the run. -/
theorem EndState.meets_of_foundAgain {s : ScrapedPrice} (hs : s ∈ ks) {newest : PricingRow}
    {stale : List PricingRow} (hf : familyOf table fs provider s = newest :: stale)
    (h : FoundAgain table provider fs ks s newest) :
    ∃ c, Meets table provider final s c ∧ pricesDiffer c s = false := by
  have hmem := familyOf_mem hfs (s := s) (by simp [hf])
  rw [hf] at hmem
  have habsent := hend.id_absent hfs hks hs hf
  cases hdiffer : pricesDiffer newest s with
  | true =>
      obtain ⟨b, hb, hnew⟩ := hend.exists_new hs (i := (newest.modelId, s))
        (by simp [hf, familyInserted, hdiffer])
      refine ⟨b, ?_, hnew.pricesDiffer_self⟩
      by_cases hid : s.id table provider = idKey table newest.modelId (some provider)
      · exact hend.meets_new hb hnew hid
      · obtain ⟨k, hk⟩ := List.exists_mem_of_ne_nil _ ((h.replaced hdiffer).resolve_left hid)
        refine ⟨?_, .inr ⟨habsent hid, k, hk, ?_⟩⟩
        · rw [hend.final_eq]
          exact List.mem_append_right _ hb
        · rw [hnew.keys_eq]
          exact mem_insertedKeys.mpr (.inr hk)
  | false =>
      by_cases hid : s.id table provider = idKey table newest.modelId (some provider)
      · have hkept := h.same hdiffer hid
        rw [hf] at hkept
        exact ⟨newest, ⟨hend.mem_final_of_kept hmem hkept, .inl (idKey_mem_rowKeys.mpr hid)⟩,
          hdiffer⟩
      · obtain ⟨d, ds, hd, hkept, hname, hsame⟩ := h.renamed hdiffer hid
        exact ⟨d, ⟨hend.mem_final_of_kept hd hkept, .inr ⟨habsent hid, hname⟩⟩, hsame⟩

/-- A kept row meets a row with its price after the run exactly when it finds it again. -/
theorem EndState.meets_iff (hapart : final.Pairwise (Apart fun r => r.keys table provider))
    {s : ScrapedPrice} (hs : s ∈ ks) :
    (∃ c, Meets table provider final s c ∧ pricesDiffer c s = false) ↔
      ∀ newest stale, familyOf table fs provider s = newest :: stale →
        FoundAgain table provider fs ks s newest := by
  constructor
  · rintro ⟨c, hmeets, hsame⟩ newest stale hf
    exact hend.foundAgain_of_meets hfs hks hapart hs hf hmeets hsame
  · intro h
    cases hf : familyOf table fs provider s with
    | nil =>
        -- the row was inserted, under its own id
        obtain ⟨b, hb, hnew⟩ := hend.exists_new hs (i := (s.modelId, s))
          (by simp [hf, familyInserted])
        exact ⟨b, hend.meets_new hb hnew rfl, hnew.pricesDiffer_self⟩
    | cons newest stale =>
        exact hend.meets_of_foundAgain hfs hks hs hf (h newest stale hf)

end Found

/-! ## Main theorem -/

/-- The query always has an answer. -/
theorem exists_selected (t : PricingTable) (pid : Nat) : ∃ selected, t.Selected pid selected := by
  have htotal : Std.Total PricingRow.NotNewer := ⟨fun a b => by
    unfold PricingRow.NotNewer
    omega⟩
  have htrans : IsTrans PricingRow PricingRow.NotNewer := ⟨fun a b c hab hbc => by
    unfold PricingRow.NotNewer at *
    omega⟩
  exact ⟨(t.openRows pid).insertionSort PricingRow.NotNewer,
    List.perm_insertionSort _ _, List.pairwise_insertionSort _ _⟩

theorem meets_perm {l l' : List PricingRow} (h : l.Perm l') (s : ScrapedPrice) (c : PricingRow) :
    Meets table provider l s c ↔ Meets table provider l' s c := by
  simp only [Meets, h.mem_iff]

/-- One open row per model: no two open rows of the provider share a family key, and a
second run on the same page writes nothing and reports no insert and no version. -/
def SettledOn (table : CaseTable) (provider : String) (rows : List ScrapedPrice) (pid : Nat)
    (t : PricingTable) : Prop :=
  (t.openRows pid).Pairwise (Apart fun r => r.keys table provider)
    ∧ ∀ selected, t.Selected pid selected →
      (plan table selected provider rows false).writes = []
        ∧ ∀ c ∈ (plan table selected provider rows false).changes,
          c.kind ≠ .insert ∧ c.kind ≠ .version

/-- A run leaves one open row per model, and a second run nothing to do, exactly under
`Settles`. -/
theorem persisted_settles_iff {db : Db} {rows : List ScrapedPrice}
    (hrows : ∀ s ∈ rows, s.provider = provider) {pid : Nat} {selected : List PricingRow}
    {t : PricingTable} (hrun : Persisted table db provider rows false pid selected t) :
    SettledOn table provider rows pid t ↔
      Settles table provider (families table selected provider) (kept table rows) := by
  have hfs := families_spec table provider selected
  have hks : (kept table rows).Pairwise fun s s' =>
      (s.keys table provider).Disjoint (s'.keys table provider) := kept_apart hrows
  obtain ⟨old, news, hend⟩ := hrun.endState
  -- what a second run writes, where the open rows share no key
  have hagain : (t.openRows pid).Pairwise (Apart fun r => r.keys table provider) →
      ∀ selected', t.Selected pid selected' →
        ((plan table selected' provider rows false).writes = [] ↔
          ∀ s ∈ kept table rows, ∀ newest stale,
            familyOf table (families table selected provider) provider s = newest :: stale →
              FoundAgain table provider (families table selected provider) (kept table rows) s
                newest) := by
    intro hapart selected' hsel'
    have hapart' : selected'.Pairwise (Apart fun r => r.keys table provider) :=
      (hsel'.perm.pairwise_iff fun h => symm h).mpr hapart
    rw [writes_plan_eq_nil hapart']
    refine forall₂_congr fun s hs => ?_
    rw [← hend.meets_iff hfs hks hapart hs]
    simp only [meets_perm hsel'.perm]
  constructor
  · rintro ⟨hapart, hsecond⟩
    obtain ⟨selected', hsel'⟩ := exists_selected t pid
    obtain ⟨honce, hnames⟩ := (hend.pairwise_final hfs hks).mp hapart
    exact ⟨honce, hnames, (hagain hapart selected' hsel').mp (hsecond selected' hsel').1⟩
  · intro h
    have hapart := (hend.pairwise_final hfs hks).mpr ⟨h.once, h.names⟩
    refine ⟨hapart, fun selected' hsel' => ?_⟩
    have hnone := (hagain hapart selected' hsel').mpr h.found
    exact ⟨hnone, changes_of_no_writes hnone⟩

namespace Sample

/-- A page that lists one model under two spellings, with two prices. -/
def respelledHaiku : ScrapedPrice :=
  { scrapedHaiku with
    modelId := "haiku-latest"
    modelName := "Haiku 3"
    inputPerMillion := 400000 }

def single : Db where
  providers := [("anthropic", 7)]
  pricing := {
    rows := [haiku]
    ids_nodup := by decide
    versions_nodup := by decide }

/-- The writes of a run over the one open row. -/
theorem run_of_writes (rows : List ScrapedPrice) (ws : List (Stamp × Write))
    {final : List PricingRow}
    (hplan : (plan .fixed [haiku] "anthropic" rows false).writes = ws.map Prod.snd)
    (hfinal : (writeAll 7 single.pricing ws).map (fun t => t.openRows 7) = some final) :
    ∃ t, Persisted .fixed single "anthropic" rows false 7 [haiku] t ∧ t.openRows 7 = final := by
  obtain ⟨t, hwrites, hopen⟩ := Option.map_eq_some_iff.mp hfinal
  refine ⟨t, ⟨rfl, ⟨by decide, by decide⟩, List.prefix_refl _, ?_⟩, hopen⟩
  rw [hplan]
  exact wrote_of_writeAll hwrites

end Sample

open Sample in
/-- A page that moves one price: the run settles or not by its one row. -/
theorem persisted_settles_sample : ∃ t,
    Persisted .fixed single "anthropic" [scrapedHaiku] false 7 [haiku] t
      ∧ (SettledOn .fixed "anthropic" [scrapedHaiku] 7 t ↔
        Settles .fixed "anthropic" (families .fixed [haiku] "anthropic")
          (kept .fixed [scrapedHaiku])) := by
  obtain ⟨t, hrun, -⟩ := run_of_writes [scrapedHaiku]
    [(⟨3, 30⟩, .versionRow 1 "claude-haiku-3" scrapedHaiku)] (by decide) rfl
  exact ⟨t, hrun, persisted_settles_iff (by decide) hrun⟩

open Sample in
/-- Two rows of a page reprice one model, and leave it open twice. -/
theorem repriced_twice : ∃ t,
    Persisted .fixed single "anthropic" [scrapedHaiku, respelledHaiku] false 7 [haiku] t
      ∧ ¬ SettledOn .fixed "anthropic" [scrapedHaiku, respelledHaiku] 7 t := by
  obtain ⟨t, hrun, hopen⟩ := run_of_writes [scrapedHaiku, respelledHaiku]
    [(⟨3, 30⟩, .versionRow 1 "claude-haiku-3" scrapedHaiku),
      (⟨4, 31⟩, .versionRow 1 "claude-haiku-3" respelledHaiku)] (by decide) rfl
  refine ⟨t, hrun, fun h => ?_⟩
  have hapart := h.1
  rw [hopen] at hapart
  -- both rows have the id of the row they replaced
  exact (List.pairwise_cons.mp hapart).1 _ List.mem_cons_self (mem_rowKeys.mpr (.inl rfl))
    (mem_rowKeys.mpr (.inl rfl))

end AuraGateway.Scraper
