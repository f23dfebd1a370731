import AuraGateway.Foundations.FirstMatch
import AuraGateway.Pricing.ModelCatalog

/-!
# The row of a catalog entry

Which pricing row enriches an entry of the catalog. The index by id keeps the first row that has the
model's id or is mapped to it and does not look at providers; only the index by canonical slug does.
So an entry can take its data from a row of another provider, or from a mapped row in front of the
one with its id.

For the rows in any order, every entry takes a row of its provider, one with its id before any other,
and the same one whatever the order, exactly when all rows with the id or mapped to it are of the
provider and, if one has the id, all of them have it (`matchesWell_iff`).
-/

set_option autoImplicit false

namespace AuraGateway.Pricing

open AuraGateway.RustStd AuraGateway.Proxy AuraGateway.Foundations.FirstMatch

/-- The row is of a provider, as the canonical keys compare providers. -/
def CatalogSource.servedBy (provider : String) (src : CatalogSource) : Bool :=
  toAsciiLowercase src.provider == toAsciiLowercase provider

/-- The row has the id of a model. -/
def CatalogSource.hasId (model : String) (src : CatalogSource) : Bool := src.modelId == model

/-- The row is mapped to a model. -/
def CatalogSource.mappedTo (apiSlug : String → String → Option String) (model : String)
    (src : CatalogSource) : Bool :=
  apiSlug src.provider src.modelId == some model

/-- The index by id can give the row for a model. -/
def CatalogSource.indexedFor (apiSlug : String → String → Option String) (model : String)
    (src : CatalogSource) : Bool :=
  src.hasId model || src.mappedTo apiSlug model

/-- The row has the canonical key of a model. -/
def CatalogSource.hasCanonicalKey (model provider : String) (src : CatalogSource) : Bool :=
  canonicalKey src.provider src.modelId == canonicalKey provider model

/-- At most one row of some provider is of a kind. -/
def AtMostOne (provider : String) (rows : List CatalogSource) (kind : CatalogSource → Bool) : Prop :=
  ∀ a ∈ rows, ∀ b ∈ rows, a.servedBy provider = true → b.servedBy provider = true →
    kind a = true → kind b = true → a = b

section Matching

variable (apiSlug : String → String → Option String) (model provider : String)

/-- What the matching of an entry with rows promises: a row of the entry's provider, one with the id
of the model where there is one, and the same entry for every order of the rows where at most one
row of each kind matches. -/
structure MatchesWell (rows : List CatalogSource) : Prop where
  sameProvider : ∀ src ∈ ModelCatalog.indexed rows apiSlug model provider,
    src.servedBy provider = true
  exactFirst : (∃ src ∈ rows, src.servedBy provider = true ∧ src.hasId model = true) →
    ∃ src ∈ ModelCatalog.indexed rows apiSlug model provider, src.hasId model = true
  anyOrder : AtMostOne provider rows (·.hasId model) →
    AtMostOne provider rows (·.mappedTo apiSlug model) →
    AtMostOne provider rows (·.hasCanonicalKey model provider) →
    ∀ rows' : List CatalogSource, rows'.Perm rows →
      catalogEntry model provider (ModelCatalog.indexed rows' apiSlug model provider)
        = catalogEntry model provider (ModelCatalog.indexed rows apiSlug model provider)

/-- The rows that the index by id can give are of the provider, and all have the id of the model if
one has. -/
structure TrustedRows (rows : List CatalogSource) : Prop where
  sameProvider : ∀ src ∈ rows, src.indexedFor apiSlug model = true →
    src.servedBy provider = true
  sameKind : (∃ src ∈ rows, src.hasId model = true) →
    ∀ src ∈ rows, src.mappedTo apiSlug model = true → src.hasId model = true

variable {apiSlug model provider} {rows : List CatalogSource}

theorem indexed_eq_find? :
    ModelCatalog.indexed rows apiSlug model provider
      = (rows.find? (·.indexedFor apiSlug model)).or
        (rows.find? (·.hasCanonicalKey model provider)) := by
  have hid : ∀ src : CatalogSource,
      decide (model ∈ src.ids apiSlug) = src.indexedFor apiSlug model := by
    intro src
    rw [Bool.eq_iff_iff, decide_eq_true_iff, CatalogSource.indexedFor, Bool.or_eq_true,
      CatalogSource.hasId, CatalogSource.mappedTo, beq_iff_eq, beq_iff_eq, CatalogSource.ids,
      List.mem_cons, Option.mem_toList, eq_comm]
  have hcanonical : ∀ src : CatalogSource,
      decide (canonicalKey provider model ∈ [canonicalKey src.provider src.modelId])
        = src.hasCanonicalKey model provider := by
    intro src
    rw [Bool.eq_iff_iff, decide_eq_true_iff, List.mem_singleton, CatalogSource.hasCanonicalKey,
      beq_iff_eq, eq_comm]
  rw [ModelCatalog.indexed_eq]
  simp only [hid, hcanonical]

/-- A row with the canonical key of a model is of its provider. -/
theorem servedBy_of_hasCanonicalKey {src : CatalogSource}
    (h : src.hasCanonicalKey model provider = true) : src.servedBy provider = true := by
  have hkeys := beq_iff_eq.mp h
  exact beq_iff_eq.mpr (congrArg Prod.fst hkeys)

namespace TrustedRows

theorem of_perm {rows' : List CatalogSource} (h : TrustedRows apiSlug model provider rows)
    (hperm : rows'.Perm rows) : TrustedRows apiSlug model provider rows' where
  sameProvider src hsrc := h.sameProvider src (hperm.mem_iff.mp hsrc)
  sameKind := by
    rintro ⟨src, hsrc, hid⟩ src' hsrc'
    exact h.sameKind ⟨src, hperm.mem_iff.mp hsrc, hid⟩ src' (hperm.mem_iff.mp hsrc')

/-- What the index by id can give is one row, if at most one row of each kind matches. -/
theorem unique_of_indexedFor (h : TrustedRows apiSlug model provider rows)
    (hid : AtMostOne provider rows (·.hasId model))
    (hmapped : AtMostOne provider rows (·.mappedTo apiSlug model)) :
    ∀ a ∈ rows, ∀ b ∈ rows, a.indexedFor apiSlug model = true →
      b.indexedFor apiSlug model = true → a = b := by
  intro a ha b hb hka hkb
  have hpa := h.sameProvider a ha hka
  have hpb := h.sameProvider b hb hkb
  rw [CatalogSource.indexedFor, Bool.or_eq_true] at hka hkb
  by_cases hexact : ∃ src ∈ rows, src.hasId model = true
  · -- where one row has the id, all have it
    refine hid a ha b hb hpa hpb ?_ ?_
    · exact hka.elim (fun hid => hid) (h.sameKind hexact a ha)
    · exact hkb.elim (fun hid => hid) (h.sameKind hexact b hb)
  · refine hmapped a ha b hb hpa hpb ?_ ?_
    · exact hka.resolve_left fun hid => hexact ⟨a, ha, hid⟩
    · exact hkb.resolve_left fun hid => hexact ⟨b, hb, hid⟩

theorem matchesWell (h : TrustedRows apiSlug model provider rows) :
    MatchesWell apiSlug model provider rows where
  sameProvider src hsrc := by
    rw [indexed_eq_find?] at hsrc
    rcases Option.or_eq_some_iff.mp hsrc with hid | ⟨-, hcanonical⟩
    · have hindexed := List.find?_some hid
      exact h.sameProvider src (List.mem_of_find?_eq_some hid) hindexed
    · have hkey := List.find?_some hcanonical
      exact servedBy_of_hasCanonicalKey hkey
  exactFirst := by
    rintro ⟨exact, hexact, -, hid⟩
    have hindexed : exact.indexedFor apiSlug model = true := (Bool.or_eq_true _ _).mpr (.inl hid)
    obtain ⟨src, hfind⟩ := Option.isSome_iff_exists.mp
      (List.find?_isSome.mpr ⟨exact, hexact, hindexed⟩)
    refine ⟨src, by rw [indexed_eq_find?, hfind]; rfl, ?_⟩
    have hsome := List.find?_some hfind
    rcases (Bool.or_eq_true _ _).mp hsome with hsrc | hmapped
    · exact hsrc
    · exact h.sameKind ⟨exact, hexact, hid⟩ src (List.mem_of_find?_eq_some hfind) hmapped
  anyOrder hid hmapped hcanonical rows' hperm := by
    have hbyCanonical : ∀ a ∈ rows, ∀ b ∈ rows, a.hasCanonicalKey model provider = true →
        b.hasCanonicalKey model provider = true → a = b := by
      intro a ha b hb hka hkb
      exact hcanonical a ha b hb (servedBy_of_hasCanonicalKey hka) (servedBy_of_hasCanonicalKey hkb)
        hka hkb
    rw [indexed_eq_find?, indexed_eq_find?,
      find?_perm_of_unique (h.unique_of_indexedFor hid hmapped) hperm,
      find?_perm_of_unique hbyCanonical hperm]

end TrustedRows

variable (provider) in
/-- A row that the index by id can give is given when it comes first. -/
theorem indexed_of_first {src : CatalogSource} (hmem : src ∈ rows)
    (h : src.indexedFor apiSlug model = true) :
    ∃ rows' : List CatalogSource, rows'.Perm rows
      ∧ ModelCatalog.indexed rows' apiSlug model provider = some src := by
  obtain ⟨rows', hperm, hfind⟩ := exists_perm_find? (p := (·.indexedFor apiSlug model)) hmem h
  refine ⟨rows', hperm, ?_⟩
  rw [indexed_eq_find?, hfind]
  rfl

/-- Rows in every order match well only where they can be trusted: any of those that the index by id
can give may come first. -/
theorem trustedRows_of_orders
    (h : ∀ rows' : List CatalogSource, rows'.Perm rows → MatchesWell apiSlug model provider rows') :
    TrustedRows apiSlug model provider rows where
  sameProvider src hsrc hid := by
    obtain ⟨rows', hperm, hindexed⟩ := indexed_of_first provider hsrc hid
    exact (h rows' hperm).sameProvider src hindexed
  sameKind := by
    rintro ⟨exact, hexact, hid⟩ src hsrc hmapped
    have hsame : exact.servedBy provider = true := by
      obtain ⟨rows', hperm, hindexed⟩ := indexed_of_first provider hexact
        ((Bool.or_eq_true _ _).mpr (.inl hid))
      exact (h rows' hperm).sameProvider exact hindexed
    obtain ⟨rows', hperm, hindexed⟩ := indexed_of_first provider hsrc
      ((Bool.or_eq_true _ _).mpr (.inr hmapped))
    obtain ⟨first, hfirst, hfirstId⟩ :=
      (h rows' hperm).exactFirst ⟨exact, hperm.mem_iff.mpr hexact, hsame, hid⟩
    rw [hindexed] at hfirst
    rwa [Option.some.inj hfirst]

end Matching

/-- The entries of a catalog match the rows well, in whatever order these come, exactly when for
every servable model the rows with its id or mapped to it are of its provider, and all have the id
if one has. -/
theorem matchesWell_iff (servable : List (String × String)) (rows : List CatalogSource)
    (apiSlug : String → String → Option String) :
    (∀ rows' : List CatalogSource, rows'.Perm rows →
        ∀ e ∈ servable, MatchesWell apiSlug e.1 e.2 rows') ↔
      ∀ e ∈ servable, TrustedRows apiSlug e.1 e.2 rows := by
  constructor
  · intro h e he
    exact trustedRows_of_orders fun rows' hperm => h rows' hperm e he
  · intro h rows' hperm e he
    exact ((h e he).of_perm hperm).matchesWell

/-! ### A row of another provider -/

/-- Two providers price a model under one id. -/
def sharedId : List CatalogSource :=
  [{ modelId := "gpt-oss-120b", provider := "fireworks", capabilities := [],
     contextWindow := some 131072, inputPerMillion := none, outputPerMillion := none },
   { modelId := "gpt-oss-120b", provider := "together", capabilities := ["tool-calling"],
     contextWindow := some 65536, inputPerMillion := none, outputPerMillion := none }]

/-- The model of one provider is described by the row of the other. -/
theorem sharedId_crosses_providers :
    (sharedId.map fun src => (src.provider, src.modelId)).Nodup
      ∧ (ModelCatalog.indexed sharedId (fun _ _ => none) "gpt-oss-120b" "together").map
          (·.provider) = some "fireworks"
      ∧ ¬ MatchesWell (fun _ _ => none) "gpt-oss-120b" "together" sharedId := by
  have hindexed : ModelCatalog.indexed sharedId (fun _ _ => none) "gpt-oss-120b" "together"
      = sharedId.head? := rfl
  refine ⟨by decide, by rw [hindexed]; rfl, fun h => ?_⟩
  exact absurd (h.sameProvider _ hindexed) (by decide)

end AuraGateway.Pricing
