import AuraGateway.Proxy.State
import AuraGateway.Settings.Document

/-!
# Building the auto router

Tier lists are taken from the configuration, or derived from the model catalog when
none are configured; models that no provider serves are dropped; and a router is built
when routing or shadow scoring is wanted and a model is left.
-/

set_option autoImplicit false

namespace AuraGateway.Proxy

open AuraGateway.RustStd AuraGateway.Types AuraGateway.Router AuraGateway.Settings

/-! ## Tiers from the catalog -/

/-- The entries of a catalog, by provider and then by model id. -/
def catalogEntries (catalog : List CatalogEntry) : List CatalogEntry :=
  catalog.mergeSort fun a b => (compare a.provider b.provider).then (compare a.model b.model) != .gt

/-- Up to `perTier` models of a slice, those with tool support first. -/
def takeForTier (perTier : Nat) (slice : List CatalogEntry) : List String :=
  ((slice.mergeSort fun a b => a.supportsTools || !b.supportsTools).take perTier).map (·.model)

/-- Derive tier lists from a catalog: the models tagged `reasoning`, or else the three most
expensive ones, and thirds of the rest by blended price. -/
def tiersFromCatalog (catalog : List CatalogEntry) (perTier : Nat) : TierModels :=
  let priced := ((catalogEntries catalog).filterMap fun e =>
    e.blendedPerMillion.map fun p => (e, p)).mergeSort
      fun a b => (f64PartialCmp a.2 b.2).getD .eq != .gt
  let tagged := ((priced.filter fun e => e.1.isReasoning).map Prod.fst).reverse
  -- without a tag in the catalog the most expensive models stand in
  let reasoning := if tagged.isEmpty then (priced.reverse.take 3).map Prod.fst else tagged
  let rest := (priced.filter fun e => !reasoning.any fun r => r.model == e.1.model).map Prod.fst
  let n := rest.length
  let third := max ((n + 2) / 3) 1
  { simple := takeForTier perTier (rest.take (min third n))
    medium := takeForTier perTier ((rest.take (min (2 * third) n)).drop (min third n))
    complex := takeForTier perTier (rest.drop (min (2 * third) n))
    reasoning := (reasoning.take perTier).map (·.model) }

/-! ## The router -/

/-- Drop the tier models that are not known, and list them as `tier:model`. -/
def pruneUnknownModels (cfg : AutoRoutingConfig) (isKnown : String → Bool) :
    AutoRoutingConfig × List String :=
  ({ cfg with
      tiers :=
        { simple := cfg.tiers.simple.filter isKnown
          medium := cfg.tiers.medium.filter isKnown
          complex := cfg.tiers.complex.filter isKnown
          reasoning := cfg.tiers.reasoning.filter isKnown } },
    Tier.all.flatMap fun t =>
      ((cfg.tiers.get t).filter fun m => !isKnown m).map fun m => t.asStr ++ ":" ++ m)

/-- Build the auto router from a configuration, and list the dropped tier models. -/
def buildAutoRouter (engine : TextEngine) (cfg : AutoRoutingConfig)
    (catalog : List CatalogEntry) (registry : ProviderRegistry) :
    Option AutoRouter × List String :=
  let cfg :=
    -- tiers left empty come from the catalog, before anything is pruned
    if hasCandidates cfg.tiers then cfg else { cfg with tiers := tiersFromCatalog catalog 3 }
  let pruned := pruneUnknownModels cfg fun m => (registry.providerNameForCatalogModel m).isSome
  let wanted := pruned.1.enabled || pruned.1.shadowForPinnedModels
  (if wanted && hasCandidates pruned.1.tiers then some { engine, config := pruned.1 } else none,
    pruned.2)

end AuraGateway.Proxy
