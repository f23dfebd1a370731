import AuraGateway.Foundations.KeyedFolds
import AuraGateway.Pricing.CostCalculator

/-!
# Prices that route

The model catalog takes the price of a servable model from the same pricing rows as the
cost calculator, by another rule: the first row that has the model's id or that the curated
map sends to it, or else the first row of its provider with the same canonical slug; only a
model without a row takes the calculator's price.

So the two tables differ where a row is matched by its id or its slug alone, for the
calculator keeps its built-in price there (`routed_price_eq_billed_iff`).
-/

set_option autoImplicit false

namespace AuraGateway.Pricing

open AuraGateway.RustStd AuraGateway.Foundations.KeyedTable AuraGateway.Foundations.KeyedFolds
open AuraGateway.Proxy

/-- A row of the pricing table. -/
structure ModelPricingSimple where
  modelId : String
  providerName : String
  inputPerMillion : Float
  outputPerMillion : Float
  cachedInputPerMillion : Option Float := none
  contextWindow : Option Int := none
  capabilities : List String := []

/-! ## The catalog -/

/-- One row of catalog input. -/
structure CatalogSource where
  modelId : String
  provider : String
  capabilities : List String
  contextWindow : Option Nat
  inputPerMillion : Option Float
  outputPerMillion : Option Float

/-- The loop of `canonicalSlug`: whether something has been written, and whether a dash is
due. -/
def slugFrom (written pendingDash : Bool) : List Char → List Char
  | [] => []
  | c :: cs =>
      if c.isAlphanum then
        (if pendingDash && written then ['-'] else []) ++ c.toLower :: slugFrom true false cs
      else slugFrom written true cs

/-- Canonical form of scraped slugs and API ids: lowercase, every run of other characters
collapsed to one dash. -/
def canonicalSlug (raw : String) : String := String.ofList (slugFrom false false (trim raw).toList)

/-- The keys a row is trusted for: its id, and the API slug it is mapped to. -/
def CatalogSource.ids (apiSlug : String → String → Option String) (src : CatalogSource) :
    List String :=
  src.modelId :: (apiSlug src.provider src.modelId).toList

/-- The canonical key of a model of a provider. -/
def canonicalKey (provider model : String) : String × String :=
  (toAsciiLowercase provider, canonicalSlug model)

/-- The entry of a model, enriched by its row, if it has one. -/
def catalogEntry (model provider : String) : Option CatalogSource → CatalogEntry
  | some src =>
      { model
        provider
        capabilities := src.capabilities
        contextWindow := src.contextWindow
        inputPerMillion := src.inputPerMillion
        outputPerMillion := src.outputPerMillion }
  | none => { model, provider }

namespace ModelCatalog

/-- The row that enriches a model, in the indexes by id and by canonical key. -/
def indexed (sources : List CatalogSource) (apiSlug : String → String → Option String)
    (model provider : String) : Option CatalogSource :=
  let byId := orInsertAll (CatalogSource.ids apiSlug) id [] sources
  let byCanonical := orInsertAll (fun src => [canonicalKey src.provider src.modelId]) id [] sources
  (byId.lookup model).or (byCanonical.lookup (canonicalKey provider model))

/-- Build a catalog for servable models, enriched with rows. -/
def build (servable : List (String × String)) (sources : List CatalogSource)
    (apiSlug : String → String → Option String) : List (String × CatalogEntry) :=
  servable.map fun e => (e.1, catalogEntry e.1 e.2 (indexed sources apiSlug e.1 e.2))

/-- Take a price from a fallback for an entry that lacks one. -/
def fillEntry (priceOf : String → Option (Float × Float)) (e : CatalogEntry) : CatalogEntry :=
  if e.inputPerMillion.isNone || e.outputPerMillion.isNone then
    match priceOf e.model with
    | some (i, o) => { e with inputPerMillion := some i, outputPerMillion := some o }
    | none => e
  else e

/-- Fill in prices for entries the database did not price. -/
def fillPrices (catalog : List (String × CatalogEntry))
    (priceOf : String → Option (Float × Float)) : List (String × CatalogEntry) :=
  catalog.map fun (model, e) => (model, fillEntry priceOf e)

theorem lookup_build (servable : List (String × String)) (sources : List CatalogSource)
    (apiSlug : String → String → Option String) (model : String) :
    (build servable sources apiSlug).lookup model = (servable.lookup model).map fun provider =>
      catalogEntry model provider (indexed sources apiSlug model provider) :=
  lookup_map_snd (fun model provider =>
    catalogEntry model provider (indexed sources apiSlug model provider)) servable model

/-- The indexes keep the first row of each key. -/
theorem indexed_eq (sources : List CatalogSource) (apiSlug : String → String → Option String)
    (model provider : String) :
    indexed sources apiSlug model provider =
      (sources.find? fun src => decide (model ∈ src.ids apiSlug)).or
        (sources.find? fun src =>
          decide (canonicalKey provider model ∈ [canonicalKey src.provider src.modelId])) := by
  simp only [indexed]
  rw [lookup_orInsertAll, lookup_orInsertAll]
  simp

theorem lookup_fillPrices (catalog : List (String × CatalogEntry))
    (priceOf : String → Option (Float × Float)) (model : String) :
    (fillPrices catalog priceOf).lookup model = (catalog.lookup model).map (fillEntry priceOf) :=
  lookup_map_snd (fun _ e => fillEntry priceOf e) catalog model

end ModelCatalog

/-! ## The two tables at boot -/

/-- The prices the gateway starts with. -/
structure PriceTables where
  calculator : CostCalculator
  catalog : List (String × CatalogEntry)

/-- `u32::try_from(n).ok()`. -/
def tryU32 (n : Int) : Option Nat := if 0 ≤ n ∧ n < 2 ^ 32 then some n.toNat else none

def catalogSource (r : ModelPricingSimple) : CatalogSource :=
  { modelId := r.modelId
    provider := r.providerName
    capabilities := r.capabilities
    contextWindow := r.contextWindow.bind tryU32
    inputPerMillion := some r.inputPerMillion
    outputPerMillion := some r.outputPerMillion }

def scrapedRow (r : ModelPricingSimple) : ScrapedPricing :=
  { provider := r.providerName
    scrapedModelId := r.modelId
    inputPerMillion := r.inputPerMillion
    outputPerMillion := r.outputPerMillion
    cachedInputPerMillion := r.cachedInputPerMillion }

/-- The calculator and the catalog that `AppState::new` builds from the current rows and
the model map. Without rows there is nothing to refresh. -/
def PriceTables.new (rows : List ModelPricingSimple) (modelMap : List (String × String)) :
    PriceTables :=
  let calculator := CostCalculator.new.applyDbPricing (rows.map scrapedRow)
  { calculator
    catalog :=
      ModelCatalog.fillPrices
        (ModelCatalog.build modelMap (rows.map catalogSource) apiSlugForScraped)
        fun model => (calculator.getPricing model).map ModelPricing.prices }

/-- The row the catalog takes for a model: the first one with its id or mapped to it, or
else the first one of its provider with its canonical slug. -/
def catalogRow (rows : List ModelPricingSimple) (model provider : String) :
    Option ModelPricingSimple :=
  (rows.find? fun r =>
      decide (r.modelId = model ∨ apiSlugForScraped r.providerName r.modelId = some model)).or
    (rows.find? fun r =>
      decide (canonicalKey r.providerName r.modelId = canonicalKey provider model))

/-- The prices the calculator has for a model: those of the last row mapped to it, or else
the built-in ones. -/
def billedPrices (rows : List ModelPricingSimple) (model : String) : Option (Float × Float) :=
  ((rows.filter fun r =>
      decide (apiSlugForScraped r.providerName r.modelId = some model)).getLast?.map
      fun r => (r.inputPerMillion, r.outputPerMillion)).or
    ((CostCalculator.new.getPricing model).map ModelPricing.prices)

/-- Catalog and calculator agree on a model: its two prices are known to both and equal, or
known to neither. -/
def PricesAgree (t : PriceTables) (model : String) : Prop :=
  ∃ e, t.catalog.lookup model = some e ∧
    e.inputPerMillion = (t.calculator.getPricing model).map (·.inputPerMillion) ∧
    e.outputPerMillion = (t.calculator.getPricing model).map (·.outputPerMillion)

section Boot

variable (rows : List ModelPricingSimple) (modelMap : List (String × String)) (model provider : String)

/-- The catalog enriches a model from the row described by `catalogRow`. -/
theorem indexed_map_catalogSource :
    ModelCatalog.indexed (rows.map catalogSource) apiSlugForScraped model provider =
      (catalogRow rows model provider).map catalogSource := by
  have hids : ∀ r : ModelPricingSimple,
      model ∈ (catalogSource r).ids apiSlugForScraped ↔
        r.modelId = model ∨ apiSlugForScraped r.providerName r.modelId = some model := by
    intro r
    simp [CatalogSource.ids, catalogSource, eq_comm]
  have hcanonical : ∀ r : ModelPricingSimple,
      canonicalKey provider model
          ∈ [canonicalKey (catalogSource r).provider (catalogSource r).modelId] ↔
        canonicalKey r.providerName r.modelId = canonicalKey provider model := by
    intro r
    rw [List.mem_singleton]
    exact eq_comm
  rw [ModelCatalog.indexed_eq, List.find?_map, List.find?_map, catalogRow, Option.map_or]
  simp only [Function.comp_def, hids, hcanonical]

/-- The calculator has the prices described by `billedPrices`. -/
theorem getPricing_new :
    ((PriceTables.new rows modelMap).calculator.getPricing model).map ModelPricing.prices =
      billedPrices rows model := by
  simp only [PriceTables.new]
  rw [CostCalculator.getPricing_applyDbPricing, Option.map_or, billedPrices,
    CostCalculator.lastMapped, List.filter_map, List.getLast?_map, Option.map_map, Option.map_map]
  simp only [Function.comp_def, CostCalculator.prices_scrapedPricing, scrapedRow]
  congr

/-- Two optional prices agree with a pair when they come from it. -/
theorem prices_eq_iff {p : Option ModelPricing} {i o : Float} :
    (some i = p.map (·.inputPerMillion) ∧ some o = p.map (·.outputPerMillion)) ↔
      p.map ModelPricing.prices = some (i, o) := by
  cases p with
  | none => simp
  | some p => simp [ModelPricing.prices, eq_comm]

/-- The catalog entry of a model in the map. -/
theorem lookup_catalog (h : modelMap.lookup model = some provider) :
    (PriceTables.new rows modelMap).catalog.lookup model =
      some (ModelCatalog.fillEntry
        (fun m => ((PriceTables.new rows modelMap).calculator.getPricing m).map ModelPricing.prices)
        (catalogEntry model provider ((catalogRow rows model provider).map catalogSource))) := by
  rw [← indexed_map_catalogSource]
  show (ModelCatalog.fillPrices (ModelCatalog.build _ _ _) _).lookup model = _
  rw [ModelCatalog.lookup_fillPrices, ModelCatalog.lookup_build, h]
  rfl

/-- A model without a row is priced by the calculator in both tables. -/
theorem pricesAgree_of_no_row (h : modelMap.lookup model = some provider)
    (hrow : catalogRow rows model provider = none) :
    PricesAgree (PriceTables.new rows modelMap) model := by
  refine ⟨_, lookup_catalog rows modelMap model provider h, ?_⟩
  rw [hrow]
  cases hp : (PriceTables.new rows modelMap).calculator.getPricing model with
  | none => simp [ModelCatalog.fillEntry, catalogEntry, hp]
  | some p => simp [ModelCatalog.fillEntry, catalogEntry, hp, ModelPricing.prices]

/-- A model with a row has its prices in the catalog. -/
theorem pricesAgree_of_row {r : ModelPricingSimple} (h : modelMap.lookup model = some provider)
    (hrow : catalogRow rows model provider = some r) :
    PricesAgree (PriceTables.new rows modelMap) model ↔
      billedPrices rows model = some (r.inputPerMillion, r.outputPerMillion) := by
  have hentry := lookup_catalog rows modelMap model provider h
  rw [hrow] at hentry
  rw [← getPricing_new rows modelMap, ← prices_eq_iff]
  constructor
  · rintro ⟨e, he, hinput, houtput⟩
    obtain rfl := Option.some.inj (hentry.symm.trans he)
    exact ⟨hinput, houtput⟩
  · rintro ⟨hinput, houtput⟩
    exact ⟨_, hentry, hinput, houtput⟩

end Boot

/-- For all current rows and every model map: catalog and calculator agree on a model of
the map if and only if the row the catalog takes for it, if there is one, has the prices
that the calculator has: those of the last row that the curated map sends to the model, or
the built-in ones where it sends none. -/
theorem routed_price_eq_billed_iff (rows : List ModelPricingSimple)
    (modelMap : List (String × String)) (model provider : String)
    (h : modelMap.lookup model = some provider) :
    PricesAgree (PriceTables.new rows modelMap) model ↔
      ∀ r, catalogRow rows model provider = some r →
        billedPrices rows model = some (r.inputPerMillion, r.outputPerMillion) := by
  constructor
  · intro hagree r hrow
    exact (pricesAgree_of_row rows modelMap model provider h hrow).mp hagree
  · intro hprices
    cases hrow : catalogRow rows model provider with
    | none => exact pricesAgree_of_no_row rows modelMap model provider h hrow
    | some r => exact (pricesAgree_of_row rows modelMap model provider h hrow).mpr (hprices r hrow)

namespace Sample

/-- A row under an API id that the curated map does not name, at twice the built-in price. -/
def exactRow : ModelPricingSimple :=
  { modelId := "gpt-4o", providerName := "openai", inputPerMillion := 5.0, outputPerMillion := 20.0 }

/-- A row the curated map sends to a Fireworks model. -/
def mappedRow : ModelPricingSimple :=
  { modelId := "glm-5-2", providerName := "fireworks", inputPerMillion := 2.0
    outputPerMillion := 6.0 }

def modelMap : List (String × String) :=
  [("gpt-4o", "openai"), ("accounts/fireworks/models/glm-5p2", "fireworks")]

end Sample

/-- A mapped row prices its model in both tables. -/
theorem routed_price_eq_billed_sample :
    PricesAgree (PriceTables.new [Sample.exactRow, Sample.mappedRow] Sample.modelMap)
      "accounts/fireworks/models/glm-5p2" := by
  refine (routed_price_eq_billed_iff _ _ _ "fireworks" rfl).mpr ?_
  intro r hr
  have hrow : (catalogRow [Sample.exactRow, Sample.mappedRow] "accounts/fireworks/models/glm-5p2"
      "fireworks").map (fun r => (r.inputPerMillion, r.outputPerMillion)) = some (2.0, 6.0) := by
    decide +kernel
  have hbilled : billedPrices [Sample.exactRow, Sample.mappedRow] "accounts/fireworks/models/glm-5p2"
      = some (2.0, 6.0) := by
    decide +kernel
  rw [hr] at hrow
  rw [hbilled, ← Option.some.inj hrow]

/-- A row under an API id routes at its own price and bills at the built-in one. -/
theorem routed_price_ne_billed :
    ((PriceTables.new [Sample.exactRow] Sample.modelMap).catalog.lookup "gpt-4o").map
        (fun e => (e.inputPerMillion, e.outputPerMillion)) = some (some 5.0, some 20.0) ∧
      ((PriceTables.new [Sample.exactRow] Sample.modelMap).calculator.getPricing "gpt-4o").map
        ModelPricing.prices = some (2.5, 10.0) ∧
      ¬ PricesAgree (PriceTables.new [Sample.exactRow] Sample.modelMap) "gpt-4o" := by
  have hcatalog : ((PriceTables.new [Sample.exactRow] Sample.modelMap).catalog.lookup "gpt-4o").map
      (fun e => (e.inputPerMillion, e.outputPerMillion)) = some (some 5.0, some 20.0) := by
    decide +kernel
  have hbilled : ((PriceTables.new [Sample.exactRow] Sample.modelMap).calculator.getPricing
      "gpt-4o").map ModelPricing.prices = some (2.5, 10.0) := by
    decide +kernel
  refine ⟨hcatalog, hbilled, ?_⟩
  rintro ⟨e, he, hinput, houtput⟩
  rw [he] at hcatalog
  obtain ⟨hi, ho⟩ := Prod.mk.inj (Option.some.inj hcatalog)
  rw [prices_eq_iff.mp ⟨hi.symm.trans hinput, ho.symm.trans houtput⟩] at hbilled
  exact absurd hbilled (by decide +kernel)

end AuraGateway.Pricing
