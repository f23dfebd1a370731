import AuraGateway.Foundations.FirstMatch
import AuraGateway.Proxy.Eligibility

/-!
# Resolving a model to its provider

Two functions resolve a model. `getProvider` finds the provider a request is sent to;
`providerNameForCatalogModel` finds the name that routing policies are checked against,
and passes over Ollama, which accepts any name. Both ask the exact model map first and
otherwise walk the provider map, whose order is not fixed.

`dispatch_agrees_iff` says when the two agree on every model the oracle accepts, and
`strict_resolution_iff` when neither is drawn to a provider that accepts anything and
neither depends on the order.
-/

set_option autoImplicit false

namespace AuraGateway.Proxy

open AuraGateway.RustStd AuraGateway.Types AuraGateway.Router
open AuraGateway.Foundations.FirstMatch

/-! ## Orders of the provider map -/

namespace ProviderRegistry

variable (r : ProviderRegistry)

/-- The same registry, iterated in another order. -/
def reorder (order : List (String × Provider)) (h : order.Perm r.providers) : ProviderRegistry where
  providers := order
  modelMap := r.modelMap
  named := fun e he => r.named e (h.mem_iff.mp he)
  distinct := (h.map Prod.fst).nodup_iff.mpr r.distinct
  mapped := fun e he => ((h.map Prod.fst).mem_iff).mpr (r.mapped e he)

/-- The search of `getProvider` for a model that is not mapped. -/
def searchAll (model : String) : Option (String × Provider) :=
  r.providers.find? fun e => e.2.supportsModel model

/-- The search of `providerNameForCatalogModel` for a model that is not mapped. -/
def searchCatalog (model : String) : Option (String × Provider) :=
  r.providers.find? fun e => e.1 != "ollama" && e.2.supportsModel model

variable {r} {model name : String}

theorem getProvider_of_unmapped (h : r.modelMap.lookup model = none) :
    r.getProvider model = (r.searchAll model).map Prod.snd := by
  simp only [getProvider, searchAll]
  rw [h]

theorem providerName_of_unmapped (h : r.modelMap.lookup model = none) :
    r.providerNameForCatalogModel model = (r.searchCatalog model).map Prod.fst := by
  simp only [providerNameForCatalogModel, searchCatalog]
  simp only [h, List.find?_filter, Bool.decide_and, Bool.decide_eq_true]

theorem providerName_of_mapped (h : r.modelMap.lookup model = some name) :
    r.providerNameForCatalogModel model = some name := by
  simp only [providerNameForCatalogModel]
  rw [h]

/-- A mapped model is sent to the provider it is mapped to. -/
theorem getProvider_of_mapped (h : r.modelMap.lookup model = some name) :
    ∃ p, r.getProvider model = some p ∧ (name, p) ∈ r.providers := by
  obtain ⟨l₁, l₂, hl, -⟩ := List.lookup_eq_some_iff.mp h
  have hreg : name ∈ r.providers.map Prod.fst := r.mapped (model, name) (by simp [hl])
  obtain ⟨e, he, rfl⟩ := List.mem_map.mp hreg
  have hsome : (r.providers.lookup e.1).isSome := by
    rw [List.lookup_isSome_iff]
    exact ⟨e, he, BEq.rfl⟩
  obtain ⟨p, hp⟩ := Option.isSome_iff_exists.mp hsome
  obtain ⟨k₁, k₂, hk, -⟩ := List.lookup_eq_some_iff.mp hp
  refine ⟨p, ?_, by simp [hk]⟩
  simp only [getProvider]
  rw [h]
  exact hp

/-- The catalog search never stops at Ollama. -/
theorem providerName_ne_ollama (h : r.modelMap.lookup model = none)
    (hn : r.providerNameForCatalogModel model = some name) : name ≠ "ollama" := by
  rw [providerName_of_unmapped h, Option.map_eq_some_iff] at hn
  obtain ⟨e, he, rfl⟩ := hn
  have hp := List.find?_some he
  rw [Bool.and_eq_true, bne_iff_ne] at hp
  exact hp.1

theorem agree_of_mapped (h : r.modelMap.lookup model = some name) :
    (r.getProvider model).map (·.name) = r.providerNameForCatalogModel model := by
  obtain ⟨p, hp, hmem⟩ := getProvider_of_mapped h
  rw [hp, providerName_of_mapped h, Option.map_some, r.named (name, p) hmem]

/-- Where no Ollama accepts the model, the two searches are the same. -/
theorem agree_of_no_ollama (h : r.modelMap.lookup model = none)
    (hno : ∀ e ∈ r.providers, e.1 = "ollama" → e.2.supportsModel model = false) :
    (r.getProvider model).map (·.name) = r.providerNameForCatalogModel model := by
  have hsame : r.searchAll model = r.searchCatalog model := by
    apply List.find?_congr
    intro e he
    by_cases hol : e.1 = "ollama"
    · simp [hno e he hol]
    · simp [hol]
  rw [getProvider_of_unmapped h, providerName_of_unmapped h, hsame, Option.map_map]
  cases hf : r.searchCatalog model with
  | none => rfl
  | some e => exact congrArg some (r.named e (List.mem_of_find?_eq_some hf))

/-- In some order a request for an unmapped model goes to any given provider that
supports it. -/
theorem exists_reorder_getProvider (h : r.modelMap.lookup model = none)
    {e : String × Provider} (he : e ∈ r.providers) (hs : e.2.supportsModel model = true) :
    ∃ order hord, (r.reorder order hord).getProvider model = some e.2 := by
  obtain ⟨order, hord, hfind⟩ := exists_perm_find?
    (p := fun e : String × Provider => e.2.supportsModel model) he hs
  refine ⟨order, hord, ?_⟩
  rw [getProvider_of_unmapped (r := r.reorder order hord) h]
  exact congrArg (Option.map Prod.snd) hfind

end ProviderRegistry

/-! ## The oracle's provider and the one a request is sent to -/

/-- The gateway with its provider map iterated in another order. -/
def GatewayEligibility.reorder (g : GatewayEligibility) (order : List (String × Provider))
    (h : order.Perm g.state.registry.providers) : GatewayEligibility :=
  { g with state := { g.state with registry := g.state.registry.reorder order h } }

/-- The provider a model is sent to is the one the oracle reports for it. -/
def GatewayEligibility.Agrees (g : GatewayEligibility) (model : String) : Prop :=
  (g.state.getProvider model).map (·.name) = g.oracle.providerOf model

section Dispatch

variable (g : GatewayEligibility) (model : String)

/-- Whether the oracle accepts a model does not depend on the order of the providers. -/
theorem isEligible_reorder {order : List (String × Provider)}
    (h : order.Perm g.state.registry.providers) :
    (g.reorder order h).isEligible model = g.isEligible model := by
  have hname : ((g.reorder order h).state.providerNameForCatalogModel model).isNone
      = (g.state.providerNameForCatalogModel model).isNone := by
    show ((g.state.registry.reorder order h).providerNameForCatalogModel model).isNone
      = (g.state.registry.providerNameForCatalogModel model).isNone
    cases hm : g.state.registry.modelMap.lookup model with
    | some n =>
        have hm' : (g.state.registry.reorder order h).modelMap.lookup model = some n := hm
        rw [ProviderRegistry.providerName_of_mapped hm,
          ProviderRegistry.providerName_of_mapped hm']
    | none =>
        have hm' : (g.state.registry.reorder order h).modelMap.lookup model = none := hm
        rw [ProviderRegistry.providerName_of_unmapped hm,
          ProviderRegistry.providerName_of_unmapped hm', Option.isNone_map, Option.isNone_map]
        have hiff : ∀ l : List (String × Provider), l.Perm g.state.registry.providers →
            ((l.find? fun e => e.1 != "ollama" && e.2.supportsModel model).isNone ↔
              ∀ e ∈ g.state.registry.providers,
                (e.1 != "ollama" && e.2.supportsModel model) = false) := by
          intro l hl
          rw [Option.isNone_iff_eq_none, List.find?_eq_none]
          simp only [hl.mem_iff, Bool.not_eq_true]
        exact Bool.eq_iff_iff.mpr ((hiff order h).trans (hiff _ (List.Perm.refl _)).symm)
  simp only [GatewayEligibility.isEligible]
  rw [hname]
  rfl

/-- On a model the oracle accepts, the provider a request is sent to is the one the
oracle reported, in every order of the provider map, exactly when the model is mapped or
no registered Ollama accepts it. -/
theorem dispatch_agrees_iff :
    (∀ order (h : order.Perm g.state.registry.providers),
        (g.reorder order h).oracle.isEligible model = .ok true →
        (g.reorder order h).Agrees model) ↔
      (g.oracle.isEligible model = .ok true →
        (∃ n, g.state.registry.modelMap.lookup model = some n) ∨
          ∀ e ∈ g.state.registry.providers, e.1 = "ollama" → e.2.supportsModel model = false) := by
  have hacc : ∀ order (h : order.Perm g.state.registry.providers),
      (g.reorder order h).oracle.isEligible model = .ok true ↔ g.isEligible model = true := by
    intro order h
    rw [← isEligible_reorder g model h]
    show (Except.ok _ : Checked Bool) = .ok true ↔ _
    simp
  have hself : g.oracle.isEligible model = .ok true ↔ g.isEligible model = true := by
    show (Except.ok _ : Checked Bool) = .ok true ↔ _
    simp
  rw [hself]
  constructor
  · intro h hel
    by_contra hc
    obtain ⟨hunmapped, hollama⟩ := not_or.mp hc
    have hm : g.state.registry.modelMap.lookup model = none := by
      by_contra hsome
      exact hunmapped (Option.ne_none_iff_exists'.mp hsome)
    push Not at hollama
    obtain ⟨e, he, hname, hs⟩ := hollama
    -- in an order that starts with Ollama the request goes there
    obtain ⟨order, hord, hget⟩ := ProviderRegistry.exists_reorder_getProvider hm he
      (by simpa using hs)
    have hagree := h order hord ((hacc order hord).mpr hel)
    have hreported : (g.state.registry.reorder order hord).providerNameForCatalogModel model
        = some e.2.name := by
      show (g.reorder order hord).oracle.providerOf model = some e.2.name
      rw [← hagree]
      exact congrArg (Option.map Provider.name) hget
    exact ProviderRegistry.providerName_ne_ollama (r := g.state.registry.reorder order hord) hm
      hreported ((g.state.registry.named e he).trans hname)
  · intro h order hord hel
    show ((g.state.registry.reorder order hord).getProvider model).map (·.name)
      = (g.state.registry.reorder order hord).providerNameForCatalogModel model
    cases hm : g.state.registry.modelMap.lookup model with
    | some n => exact ProviderRegistry.agree_of_mapped (r := g.state.registry.reorder order hord) hm
    | none =>
        apply ProviderRegistry.agree_of_no_ollama (r := g.state.registry.reorder order hord) hm
        rcases h ((hacc order hord).mp hel) with ⟨n, hn⟩ | hno
        · rw [hm] at hn
          cases hn
        · intro e he
          exact hno e (hord.mem_iff.mp he)

end Dispatch

/-! ## Registration -/

/-- A provider as it is registered: its `models()`, and for HuggingFace the configured
model name. -/
structure Registration where
  name : String
  models : List String
  configured : Option String := none
  deriving DecidableEq, Repr

/-- The providers whose `supports_model` accepts any non-empty name. -/
def acceptsAnything (name : String) : Bool := name == "ollama" || name == "huggingface"

namespace Registration

variable (p : Registration)

def supportsModel (model : String) : Bool :=
  if acceptsAnything p.name then supportsAny model else supportsListed p.models model

def provider : Provider := { name := p.name, supportsModel := p.supportsModel }

/-- The names that are mapped to the provider. -/
def mappedModels : List String := p.models ++ p.configured.toList

end Registration

/-- Map the models of the providers in turn; a later provider takes over a name. -/
def modelMapOf (ps : List Registration) : List (String × String) :=
  ps.foldl (fun map p => p.mappedModels.foldl (fun map m => assocInsert m p.name map) map) []

theorem mem_assocInsert {k v : String} {map : List (String × String)} {e : String × String}
    (h : e ∈ assocInsert k v map) : e = (k, v) ∨ e ∈ map := by
  induction map with
  | nil => exact Or.inl (List.mem_singleton.mp h)
  | cons a rest ih =>
      simp only [assocInsert] at h
      split at h
      · rcases List.mem_cons.mp h with rfl | h
        · exact Or.inl rfl
        · exact Or.inr (List.mem_cons_of_mem a h)
      · rcases List.mem_cons.mp h with rfl | h
        · exact Or.inr List.mem_cons_self
        · exact (ih h).imp_right (List.mem_cons_of_mem a)

theorem mem_foldl_assocInsert {ms : List String} {name : String} {map : List (String × String)}
    {e : String × String} (h : e ∈ ms.foldl (fun map m => assocInsert m name map) map) :
    e.2 = name ∨ e ∈ map := by
  induction ms generalizing map with
  | nil => exact Or.inr h
  | cons m rest ih =>
      rcases ih h with h | h
      · exact Or.inl h
      · rcases mem_assocInsert h with rfl | h
        · exact Or.inl rfl
        · exact Or.inr h

/-- Models are mapped to registered providers. -/
theorem modelMapOf_registered (ps : List Registration) :
    ∀ e ∈ modelMapOf ps, e.2 ∈ ps.map (·.name) := by
  have key : ∀ (qs : List Registration) (map : List (String × String)),
      ∀ e ∈ qs.foldl (fun map p => p.mappedModels.foldl (fun map m => assocInsert m p.name map) map)
        map, e.2 ∈ qs.map (·.name) ∨ e ∈ map := by
    intro qs
    induction qs with
    | nil => exact fun map e he => Or.inr he
    | cons q rest ih =>
        intro map e he
        rw [List.map_cons, List.mem_cons]
        rcases ih _ e he with h | h
        · exact Or.inl (Or.inr h)
        · rcases mem_foldl_assocInsert h with h | h
          · exact Or.inl (Or.inl h)
          · exact Or.inr h
  intro e he
  rcases key ps [] e he with h | h
  · exact h
  · exact absurd h List.not_mem_nil

/-- The registry built from providers with distinct names. -/
def registryOf (ps : List Registration) (h : (ps.map (·.name)).Nodup) : ProviderRegistry where
  providers := ps.map fun p => (p.name, p.provider)
  modelMap := modelMapOf ps
  named := by
    intro e he
    obtain ⟨p, -, rfl⟩ := List.mem_map.mp he
    rfl
  distinct := by simpa [Function.comp_def] using h
  mapped := by simpa [Function.comp_def] using modelMapOf_registered ps

/-! ## Strict resolution -/

/-- A provider that does not accept anything supports the model by its listed names. -/
def ListedBy (ps : List Registration) (model : String) : Prop :=
  ∃ p ∈ ps, acceptsAnything p.name = false ∧ supportsListed p.models model = true

/-- Neither resolution of a listed model ends at a provider that accepts anything, and a
model that is neither listed nor mapped has no catalog provider. -/
structure ResolvesStrictly (ps : List Registration) (r : ProviderRegistry) (model : String) :
    Prop where
  dispatched : ListedBy ps model → ∀ p, r.getProvider model = some p →
    acceptsAnything p.name = false
  reported : ListedBy ps model → ∀ n, r.providerNameForCatalogModel model = some n →
    acceptsAnything n = false
  unlisted : ¬ ListedBy ps model → r.modelMap.lookup model = none →
    r.providerNameForCatalogModel model = none

/-- Resolution is strict in every order of the provider map, and the same in all. -/
def StrictResolution (ps : List Registration) (r : ProviderRegistry) (model : String) : Prop :=
  (∀ order (h : order.Perm r.providers), ResolvesStrictly ps (r.reorder order h) model) ∧
    ∀ o₁ o₂ (h₁ : o₁.Perm r.providers) (h₂ : o₂.Perm r.providers),
      (r.reorder o₁ h₁).getProvider model = (r.reorder o₂ h₂).getProvider model ∧
      (r.reorder o₁ h₁).providerNameForCatalogModel model
        = (r.reorder o₂ h₂).providerNameForCatalogModel model

section Strict

variable {ps : List Registration} {h : (ps.map (·.name)).Nodup} {model : String}

theorem mem_registryOf {e : String × Provider} :
    e ∈ (registryOf ps h).providers ↔ ∃ p ∈ ps, e = (p.name, p.provider) := by
  simp only [registryOf]
  simp only [List.mem_map, eq_comm]

/-- Providers with one name are one provider. -/
theorem eq_of_name_eq (h : (ps.map (·.name)).Nodup) {p q : Registration} (hp : p ∈ ps)
    (hq : q ∈ ps) (he : p.name = q.name) : p = q :=
  List.inj_on_of_nodup_map h hp hq he

theorem supportsModel_of_listed {p : Registration} (ha : acceptsAnything p.name = false)
    (hl : supportsListed p.models model = true) : p.supportsModel model = true := by
  simp only [Registration.supportsModel]
  rw [ha]
  exact hl

theorem listedBy_of_supports {p : Registration} (hp : p ∈ ps)
    (ha : acceptsAnything p.name = false) (hs : p.supportsModel model = true) :
    ListedBy ps model := by
  refine ⟨p, hp, ha, ?_⟩
  simp only [Registration.supportsModel] at hs
  rwa [ha] at hs

/-- A mapped model is resolved strictly unless it is mapped to a provider that accepts
anything although another one lists it. -/
theorem strictResolution_of_mapped {name : String} (hm : (modelMapOf ps).lookup model = some name) :
    StrictResolution ps (registryOf ps h) model ↔
      (acceptsAnything name = false ∨ ¬ ListedBy ps model) := by
  have hname : ∀ order (ho : order.Perm (registryOf ps h).providers),
      ((registryOf ps h).reorder order ho).providerNameForCatalogModel model = some name :=
    fun order ho => ProviderRegistry.providerName_of_mapped
      (r := (registryOf ps h).reorder order ho) hm
  constructor
  · rintro ⟨hstrict, -⟩
    by_cases hl : ListedBy ps model
    · exact Or.inl ((hstrict _ (List.Perm.refl _)).reported hl name (hname _ _))
    · exact Or.inr hl
  · intro hc
    have hany : ListedBy ps model → acceptsAnything name = false :=
      fun hl => hc.resolve_right (not_not.mpr hl)
    have hget : ∀ order (ho : order.Perm (registryOf ps h).providers), ∃ p,
        ((registryOf ps h).reorder order ho).getProvider model = some p ∧
          (name, p) ∈ (registryOf ps h).providers := by
      intro order ho
      obtain ⟨p, hp, hmem⟩ := ProviderRegistry.getProvider_of_mapped
        (r := (registryOf ps h).reorder order ho) hm
      exact ⟨p, hp, ho.mem_iff.mp hmem⟩
    refine ⟨?_, ?_⟩
    · intro order ho
      refine ⟨?_, ?_, ?_⟩
      · intro hl p hp
        obtain ⟨q, hq, hmem⟩ := hget order ho
        rw [hp] at hq
        obtain rfl := Option.some.inj hq
        rw [(registryOf ps h).named (name, p) hmem]
        exact hany hl
      · intro hl n hn
        rw [hname order ho] at hn
        obtain rfl := Option.some.inj hn
        exact hany hl
      · intro _ hno
        have hsome : ((registryOf ps h).reorder order ho).modelMap.lookup model = some name := hm
        rw [hsome] at hno
        cases hno
    · intro o₁ o₂ h₁ h₂
      obtain ⟨p₁, hp₁, hmem₁⟩ := hget o₁ h₁
      obtain ⟨p₂, hp₂, hmem₂⟩ := hget o₂ h₂
      have he : (name, p₁) = (name, p₂) :=
        List.inj_on_of_nodup_map (registryOf ps h).distinct hmem₁ hmem₂ rfl
      obtain rfl : p₁ = p₂ := congrArg Prod.snd he
      rw [hp₁, hp₂, hname, hname]
      exact ⟨rfl, rfl⟩

section Unmapped

variable (hm : (modelMapOf ps).lookup model = none)

include hm

theorem reorder_getProvider {order : List (String × Provider)}
    (ho : order.Perm (registryOf ps h).providers) :
    ((registryOf ps h).reorder order ho).getProvider model
      = (order.find? fun e => e.2.supportsModel model).map Prod.snd :=
  ProviderRegistry.getProvider_of_unmapped (r := (registryOf ps h).reorder order ho) hm

theorem reorder_providerName {order : List (String × Provider)}
    (ho : order.Perm (registryOf ps h).providers) :
    ((registryOf ps h).reorder order ho).providerNameForCatalogModel model
      = (order.find? fun e => e.1 != "ollama" && e.2.supportsModel model).map Prod.fst :=
  ProviderRegistry.providerName_of_unmapped (r := (registryOf ps h).reorder order ho) hm

/-- In every order the request goes to a registered provider that supports the model. -/
theorem registered_of_getProvider {order : List (String × Provider)}
    {ho : order.Perm (registryOf ps h).providers} {x : Provider}
    (hx : ((registryOf ps h).reorder order ho).getProvider model = some x) :
    ∃ p ∈ ps, x = p.provider ∧ p.supportsModel model = true := by
  rw [reorder_getProvider hm, Option.map_eq_some_iff] at hx
  obtain ⟨e, he, rfl⟩ := hx
  have hs := List.find?_some he
  obtain ⟨p, hp, rfl⟩ := mem_registryOf.mp (ho.mem_iff.mp (List.mem_of_find?_eq_some he))
  exact ⟨p, hp, rfl, hs⟩

/-- In every order the reported provider is registered and supports the model. -/
theorem registered_of_providerName {order : List (String × Provider)}
    {ho : order.Perm (registryOf ps h).providers} {n : String}
    (hn : ((registryOf ps h).reorder order ho).providerNameForCatalogModel model = some n) :
    ∃ p ∈ ps, n = p.name ∧ p.name ≠ "ollama" ∧ p.supportsModel model = true := by
  rw [reorder_providerName hm, Option.map_eq_some_iff] at hn
  obtain ⟨e, he, rfl⟩ := hn
  have hmatch := List.find?_some he
  rw [Bool.and_eq_true, bne_iff_ne] at hmatch
  obtain ⟨p, hp, rfl⟩ := mem_registryOf.mp (ho.mem_iff.mp (List.mem_of_find?_eq_some he))
  exact ⟨p, hp, rfl, hmatch.1, hmatch.2⟩

/-- Where the order does not matter, two providers do not support one model. -/
theorem eq_of_supports_of_same
    (hsame : ∀ o₁ o₂ (h₁ : o₁.Perm (registryOf ps h).providers)
      (h₂ : o₂.Perm (registryOf ps h).providers),
      ((registryOf ps h).reorder o₁ h₁).getProvider model
        = ((registryOf ps h).reorder o₂ h₂).getProvider model) {p q : Registration}
    (hp : p ∈ ps) (hq : q ∈ ps) (hsp : p.supportsModel model = true)
    (hsq : q.supportsModel model = true) : p = q := by
  obtain ⟨o₁, h₁, e₁⟩ := ProviderRegistry.exists_reorder_getProvider
    (r := registryOf ps h) hm (mem_registryOf.mpr ⟨p, hp, rfl⟩) hsp
  obtain ⟨o₂, h₂, e₂⟩ := ProviderRegistry.exists_reorder_getProvider
    (r := registryOf ps h) hm (mem_registryOf.mpr ⟨q, hq, rfl⟩) hsq
  have he := hsame o₁ o₂ h₁ h₂
  rw [e₁, e₂] at he
  exact eq_of_name_eq h hp hq (congrArg Provider.name (Option.some.inj he))

section OneSupporter

variable (hunique : ∀ p ∈ ps, ∀ q ∈ ps, p.supportsModel model = true →
  q.supportsModel model = true → p = q)

include hunique

omit hm in
/-- The only provider that supports a listed model does not accept anything. -/
theorem not_acceptsAnything_of_listedBy (hl : ListedBy ps model) {p : Registration}
    (hp : p ∈ ps) (hs : p.supportsModel model = true) : acceptsAnything p.name = false := by
  obtain ⟨q, hq, ha, hlisted⟩ := hl
  obtain rfl := hunique p hp q hq hs (supportsModel_of_listed ha hlisted)
  exact ha

/-- Where one provider supports the model, the order does not matter. -/
theorem same_of_unique {o₁ o₂ : List (String × Provider)}
    (h₁ : o₁.Perm (registryOf ps h).providers) (h₂ : o₂.Perm (registryOf ps h).providers) :
    ((registryOf ps h).reorder o₁ h₁).getProvider model
        = ((registryOf ps h).reorder o₂ h₂).getProvider model ∧
      ((registryOf ps h).reorder o₁ h₁).providerNameForCatalogModel model
        = ((registryOf ps h).reorder o₂ h₂).providerNameForCatalogModel model := by
  have hone : ∀ a ∈ (registryOf ps h).providers, ∀ b ∈ (registryOf ps h).providers,
      a.2.supportsModel model = true → b.2.supportsModel model = true → a = b := by
    intro a ha b hb hsa hsb
    obtain ⟨p, hp, rfl⟩ := mem_registryOf.mp ha
    obtain ⟨q, hq, rfl⟩ := mem_registryOf.mp hb
    rw [hunique p hp q hq hsa hsb]
  rw [reorder_getProvider hm, reorder_getProvider hm, reorder_providerName hm,
    reorder_providerName hm]
  constructor
  · rw [find?_perm_eq_iff.mpr hone o₁ o₂ h₁ h₂]
  · rw [find?_perm_eq_iff.mpr (fun a ha b hb hpa hpb => hone a ha b hb
      (Bool.and_eq_true_iff.mp hpa).2 (Bool.and_eq_true_iff.mp hpb).2) o₁ o₂ h₁ h₂]

end OneSupporter

/-- A model that is not mapped is resolved strictly exactly when at most one registered
provider supports it and HuggingFace does not. -/
theorem strictResolution_of_unmapped :
    StrictResolution ps (registryOf ps h) model ↔
      (∀ p ∈ ps, ∀ q ∈ ps, p.supportsModel model = true → q.supportsModel model = true → p = q) ∧
        ∀ p ∈ ps, p.supportsModel model = true → p.name ≠ "huggingface" := by
  constructor
  · rintro ⟨hstrict, hsame⟩
    have hunique : ∀ p ∈ ps, ∀ q ∈ ps, p.supportsModel model = true →
        q.supportsModel model = true → p = q :=
      fun p hp q hq => eq_of_supports_of_same hm (fun o₁ o₂ h₁ h₂ => (hsame o₁ o₂ h₁ h₂).1) hp hq
    refine ⟨hunique, ?_⟩
    rintro p hp hs hhf
    -- HuggingFace alone accepts the model, so nothing lists it and it must not be found
    have hunlisted : ¬ ListedBy ps model := by
      intro hl
      have ha := not_acceptsAnything_of_listedBy hunique hl hp hs
      rw [hhf] at ha
      cases ha
    have hnone := (hstrict _ (List.Perm.refl _)).unlisted hunlisted hm
    rw [reorder_providerName hm, Option.map_eq_none_iff, List.find?_eq_none] at hnone
    refine hnone (p.name, p.provider) (mem_registryOf.mpr ⟨p, hp, rfl⟩) ?_
    rw [Bool.and_eq_true]
    exact ⟨by simp [hhf], hs⟩
  · rintro ⟨hunique, hhf⟩
    refine ⟨?_, fun o₁ o₂ h₁ h₂ => same_of_unique hm hunique h₁ h₂⟩
    intro order ho
    -- whatever either search finds is the one provider that supports the model
    refine ⟨?_, ?_, ?_⟩
    · intro hl x hx
      obtain ⟨p, hp, rfl, hs⟩ := registered_of_getProvider hm hx
      exact not_acceptsAnything_of_listedBy hunique hl hp hs
    · intro hl n hn
      obtain ⟨p, hp, rfl, -, hs⟩ := registered_of_providerName hm hn
      exact not_acceptsAnything_of_listedBy hunique hl hp hs
    · intro hl _
      by_contra hsome
      obtain ⟨n, hn⟩ := Option.ne_none_iff_exists'.mp hsome
      obtain ⟨p, hp, rfl, hollama, hs⟩ := registered_of_providerName hm hn
      apply hl
      refine listedBy_of_supports hp ?_ hs
      simp only [acceptsAnything, Bool.or_eq_false_iff, beq_eq_false_iff_ne]
      exact ⟨hollama, hhf p hp hs⟩

end Unmapped

end Strict

/-- The providers registered with the gateway, each under its own name. -/
structure Registrations where
  providers : List Registration
  distinct : (providers.map (·.name)).Nodup

/-- The registry the gateway builds from its providers. -/
def Registrations.registry (regs : Registrations) : ProviderRegistry :=
  registryOf regs.providers regs.distinct

/-- Resolution is strict exactly when a mapped model is mapped to a provider that lists
models, or is listed by none, and a model that is not mapped is supported by at most one
registered provider, which is not HuggingFace. -/
theorem strict_resolution_iff (regs : Registrations) (model : String) :
    StrictResolution regs.providers regs.registry model ↔
      (∀ name, (modelMapOf regs.providers).lookup model = some name →
        acceptsAnything name = false ∨ ¬ ListedBy regs.providers model) ∧
      ((modelMapOf regs.providers).lookup model = none →
        (∀ p ∈ regs.providers, ∀ q ∈ regs.providers, p.supportsModel model = true →
          q.supportsModel model = true → p = q) ∧
        ∀ p ∈ regs.providers, p.supportsModel model = true → p.name ≠ "huggingface") := by
  simp only [Registrations.registry]
  cases hm : (modelMapOf regs.providers).lookup model with
  | some name =>
      rw [strictResolution_of_mapped hm]
      simp
  | none =>
      rw [strictResolution_of_unmapped hm]
      simp

/-! ## The gateway's providers -/

namespace Registration

def openai : Registration where
  name := "openai"
  models :=
    ["gpt-6.1-sol", "gpt-6-sol", "gpt-6-luna", "gpt-6-astra", "gpt-5.6-sol", "gpt-5.6",
      "gpt-5.6-terra", "gpt-5.6-luna", "gpt-5.5-pro", "gpt-5.5", "gpt-5.4", "gpt-5.4-mini",
      "gpt-5.4-nano", "gpt-5.2", "gpt-5", "gpt-5-mini", "gpt-4o", "gpt-4o-mini", "gpt-4-turbo",
      "gpt-4", "gpt-3.5-turbo", "o1", "o1-mini", "o1-preview", "o3-mini"]

def anthropic : Registration where
  name := "anthropic"
  models :=
    ["claude-fable-5-1", "claude-fable-5", "claude-opus-5-5", "claude-sonnet-5-5",
      "claude-haiku-5-5", "claude-opus-5", "claude-sonnet-5", "claude-opus-4-8",
      "claude-opus-4-7-20260416", "claude-opus-4-7", "claude-opus-4-6", "claude-sonnet-4-6",
      "claude-opus-4-5-20250514", "claude-sonnet-4-5-20250514", "claude-haiku-4-5-20251001",
      "claude-opus-4-5", "claude-sonnet-4-5", "claude-haiku-4-5", "claude-3-7-sonnet-20250219",
      "claude-3-5-sonnet-20241022", "claude-3-5-haiku-20241022", "claude-sonnet-3-5",
      "claude-haiku-3-5", "claude-3-5-sonnet-latest", "claude-3-5-haiku-latest",
      "claude-3-opus-20240229", "claude-3-sonnet-20240229", "claude-3-haiku-20240307",
      "claude-opus-3", "claude-sonnet-3", "claude-haiku-3", "claude-3-opus-latest"]

def gemini : Registration where
  name := "google"
  models :=
    ["gemini-4-argon", "gemini-3.8-flash", "gemini-3.7-flash", "gemini-3.6-flash",
      "gemini-3.5-flash", "gemini-3.5-flash-lite", "gemini-3.1-pro-preview",
      "gemini-3.1-flash-lite", "gemini-3.1-flash-lite-preview", "gemini-3-pro-preview",
      "gemini-3-flash-preview", "gemini-2.5-pro", "gemini-2.5-flash", "gemini-2.5-flash-lite",
      "gemini-2.0-flash", "gemini-2.0-flash-001", "gemini-2.0-flash-lite",
      "gemini-2.0-flash-lite-001", "gemini-pro-latest", "gemini-flash-latest",
      "gemini-flash-lite-latest"]

def mistral : Registration where
  name := "mistral"
  models :=
    ["mistral-large-latest", "mistral-large-2411", "mistral-medium-latest",
      "mistral-small-latest", "codestral-latest", "pixtral-large-latest", "ministral-8b-latest",
      "ministral-3b-latest"]

def together : Registration where
  name := "together"
  models :=
    ["meta-llama/Llama-3.3-70B-Instruct-Turbo", "meta-llama/Meta-Llama-3-8B-Instruct-Lite",
      "deepseek-ai/DeepSeek-V4-Pro", "Qwen/Qwen3.5-397B-A17B", "Qwen/Qwen3.6-Plus",
      "Qwen/Qwen3.5-9B", "Qwen/Qwen2.5-7B-Instruct-Turbo",
      "Qwen/Qwen3-Coder-480B-A35B-Instruct-FP8", "Qwen/Qwen3-235B-A22B-Instruct-2507-tput",
      "openai/gpt-oss-120b", "openai/gpt-oss-20b", "moonshotai/Kimi-K2.6", "moonshotai/Kimi-K2.5",
      "zai-org/GLM-5.1", "zai-org/GLM-5", "essentialai/rnj-1-instruct", "google/gemma-4-31B-it",
      "google/gemma-3n-E4B-it", "LiquidAI/LFM2-24B-A2B", "deepcogito/cogito-v2-1-671b"]

def fireworks : Registration where
  name := "fireworks"
  models :=
    ["accounts/fireworks/models/glm-5p2", "accounts/fireworks/models/kimi-k2p6",
      "accounts/fireworks/models/deepseek-v4-pro", "accounts/fireworks/models/qwen3p6-plus",
      "accounts/fireworks/models/gpt-oss-120b", "accounts/fireworks/models/gpt-oss-20b"]

def ollama : Registration where
  name := "ollama"
  models :=
    ["llama3.3", "llama3.2", "llama3.1", "qwen2.5", "mistral", "mixtral", "phi3", "gemma2",
      "codellama", "deepseek-r1"]

def bedrock : Registration where
  name := "bedrock"
  models :=
    ["anthropic.claude-opus-4-5-20251001-v1:0", "anthropic.claude-sonnet-4-5-20250929-v1:0",
      "anthropic.claude-haiku-4-5-20251001-v1:0", "anthropic.claude-3-7-sonnet-20250219-v1:0",
      "meta.llama3-3-70b-instruct-v1:0", "meta.llama3-2-90b-instruct-v1:0",
      "mistral.mistral-large-2407-v1:0", "amazon.titan-text-premier-v1:0"]

def huggingface (model : Option String) : Registration where
  name := "huggingface"
  models := []
  configured := model

end Registration

/-- Provider settings that decide which providers are registered. -/
structure ProviderConfig where
  openaiApiKey : Option String := none
  anthropicApiKey : Option String := none
  googleApiKey : Option String := none
  mistralApiKey : Option String := none
  togetherApiKey : Option String := none
  fireworksApiKey : Option String := none
  huggingfaceApiKey : Option String := none
  huggingfaceEndpointUrl : Option String := none
  huggingfaceModel : Option String := none
  ollamaBaseUrl : Option String := none
  awsRegion : Option String := none
  deriving DecidableEq, Repr

namespace ProviderConfig

variable (c : ProviderConfig)

/-- Each provider with whether it is configured, in the order of registration. -/
def offered : List (Bool × Registration) :=
  [(c.openaiApiKey.isSome, .openai), (c.anthropicApiKey.isSome, .anthropic),
    (c.googleApiKey.isSome, .gemini), (c.mistralApiKey.isSome, .mistral),
    (c.togetherApiKey.isSome, .together), (c.fireworksApiKey.isSome, .fireworks),
    (c.ollamaBaseUrl.isSome, .ollama),
    (c.huggingfaceApiKey.isSome && c.huggingfaceEndpointUrl.isSome,
      .huggingface c.huggingfaceModel),
    (c.awsRegion.isSome, .bedrock)]

/-- The providers the gateway registers at start. -/
def registrations : Registrations where
  providers := (c.offered.filter Prod.fst).map Prod.snd
  distinct := by
    have hsub : (((c.offered.filter Prod.fst).map Prod.snd).map (·.name)).Sublist
        ((c.offered.map Prod.snd).map (·.name)) :=
      (List.filter_sublist.map Prod.snd).map _
    have hnames : List.Nodup ["openai", "anthropic", "google", "mistral", "together", "fireworks",
        "ollama", "huggingface", "bedrock"] := by decide
    exact hsub.nodup hnames

end ProviderConfig

/-! ### Names that two providers accept -/

namespace ResolutionSample

/-- OpenAI, Ollama and a HuggingFace endpoint. -/
def config : ProviderConfig :=
  { openaiApiKey := some "key"
    ollamaBaseUrl := some "http://localhost:11434"
    huggingfaceApiKey := some "hf"
    huggingfaceEndpointUrl := some "https://tgi" }

/-- A gateway with OpenAI and Ollama, serving a plain request. -/
def eligibility : GatewayEligibility :=
  GatewayEligibility.forRequest
    { registry := ({ openaiApiKey := some "key", ollamaBaseUrl := some "http://localhost:11434" } :
        ProviderConfig).registrations.registry }
    0 (.text "auto" "hi")

end ResolutionSample

/-- A dated name of an OpenAI model is not mapped. With Ollama first in the provider map
the oracle reports OpenAI and the request goes to Ollama. -/
theorem dispatch_disagrees :
    ∃ order, ∃ h : order.Perm ResolutionSample.eligibility.state.registry.providers,
      (ResolutionSample.eligibility.reorder order h).oracle.isEligible "gpt-5.4-2026-03-05"
        = .ok true ∧
      ¬ (ResolutionSample.eligibility.reorder order h).Agrees "gpt-5.4-2026-03-05" := by
  refine ⟨ResolutionSample.eligibility.state.registry.providers.reverse,
    List.reverse_perm _, ?_, ?_⟩
  · decide +kernel
  · simp only [GatewayEligibility.Agrees]
    decide +kernel

/-- With OpenAI, Ollama and HuggingFace registered, the dated name goes to HuggingFace when
that comes first, although OpenAI lists its prefix. -/
theorem strict_resolution_broken :
    ListedBy ResolutionSample.config.registrations.providers "gpt-5.4-2026-03-05" ∧
      ¬ StrictResolution ResolutionSample.config.registrations.providers
        ResolutionSample.config.registrations.registry "gpt-5.4-2026-03-05" := by
  have hlisted : ListedBy ResolutionSample.config.registrations.providers "gpt-5.4-2026-03-05" :=
    ⟨.openai, by decide +kernel, by decide, by decide +kernel⟩
  refine ⟨hlisted, ?_⟩
  rintro ⟨hstrict, -⟩
  have hany : ((ResolutionSample.config.registrations.registry.reorder _
      (List.reverse_perm _)).getProvider "gpt-5.4-2026-03-05").any
        (fun p => acceptsAnything p.name) = true := by
    decide +kernel
  rw [Option.any_eq_true] at hany
  obtain ⟨p, hp, hname⟩ := hany
  have hno := (hstrict _ (List.reverse_perm _)).dispatched hlisted p hp
  rw [hname] at hno
  cases hno

end AuraGateway.Proxy
