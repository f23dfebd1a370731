import AuraGateway.Router.SmartRouter

/-!
# The index from models to providers

Registering a pool adds the models it lists to an index, under the provider's name, and a later
registration overwrites them. Nothing ever leaves the index. So a provider that is registered
again with other endpoints keeps the models of its former pool.

A model that some pool supports or lists is always found (`indexComplete`). The provider that is
found supports it, after every registration, exactly when each registered pool supports all models
that the index has for its provider by then (`index_consistent_iff`).
-/

set_option autoImplicit false

namespace AuraGateway.Router

namespace SmartRouter

/-- A router after the registrations of pools, in turn. -/
def registered (config : HealthConfig) (registrations : List (String × EndpointPool)) : SmartRouter :=
  registrations.foldl (fun r registration => r.registerPool registration.1 registration.2)
    (SmartRouter.new config)

theorem registered_concat (config : HealthConfig) (registrations : List (String × EndpointPool))
    (name : String) (pool : EndpointPool) :
    registered config (registrations ++ [(name, pool)])
      = (registered config registrations).registerPool name pool := by
  rw [registered, List.foldl_concat]
  rfl

/-! ## One registration -/

section Step

variable (r : SmartRouter) (name : String) (pool : EndpointPool)

theorem pools_registerPool (p : String) :
    (r.registerPool name pool).pools p = if p = name then some pool else r.pools p :=
  Function.update_apply r.pools name (some pool) p

theorem modelMap_registerPool (m : String) :
    (r.registerPool name pool).modelMap m
      = if m ∈ pool.models then some name else r.modelMap m := by
  have hfold : ∀ (models : List String) (map : String → Option String),
      models.foldl (fun map model => Function.update map model (some name)) map m
        = if m ∈ models then some name else map m := by
    intro models
    induction models with
    | nil => simp
    | cons a models ih =>
        intro map
        rw [List.foldl_cons, ih, Function.update_apply]
        by_cases hmem : m ∈ models <;> by_cases heq : m = a <;> simp [hmem, heq]
  exact hfold pool.models r.modelMap

end Step

/-! ## What the index promises -/

section Promise

variable (r : SmartRouter)

/-- The provider found for a model has a pool that supports it. -/
def IndexSound : Prop :=
  ∀ order model provider, r.getProviderForModel order model = some provider →
    r.serves model provider = true

/-- A provider is found for a model that some pool supports or lists. -/
def IndexComplete : Prop :=
  ∀ order model provider pool, r.pools provider = some pool →
    pool.supportsModel model = true ∨ model ∈ pool.models →
    (r.getProviderForModel order model).isSome = true

/-- The index sends every model to a provider whose pool supports it. -/
def MapSound : Prop :=
  ∀ model provider, r.modelMap model = some provider → r.serves model provider = true

variable {r}

/-- The search over the pools finds supporting ones only, so it is about the index. -/
theorem indexSound_iff (order : PoolOrder r.pools) : r.IndexSound ↔ r.MapSound := by
  constructor
  · intro h model provider hmap
    refine h order model provider ?_
    rw [getProviderForModel, hmap]
  · intro h order model provider hget
    unfold getProviderForModel at hget
    split at hget
    · rename_i p hmap
      obtain rfl := Option.some.inj hget
      exact h model p hmap
    · exact List.find?_some hget

/-- The models that a pool lists are in the index. -/
def Lists (r : SmartRouter) : Prop :=
  ∀ provider pool model, r.pools provider = some pool → model ∈ pool.models →
    (r.modelMap model).isSome = true

theorem Lists.registerPool (h : r.Lists) (name : String) (pool : EndpointPool) :
    (r.registerPool name pool).Lists := by
  intro provider pool' model hpool hmem
  rw [modelMap_registerPool]
  split
  · rfl
  · rename_i hnot
    rw [pools_registerPool] at hpool
    split at hpool
    · obtain rfl := Option.some.inj hpool
      exact absurd hmem hnot
    · exact h provider pool' model hpool hmem

theorem Lists.indexComplete (h : r.Lists) : r.IndexComplete := by
  intro order model provider pool hpool hsupports
  unfold getProviderForModel
  split
  · rfl
  · rename_i hmap
    rcases hsupports with hsupports | hmem
    · rw [List.find?_isSome]
      refine ⟨provider, (order.registered provider).mpr (hpool ▸ rfl), ?_⟩
      rw [serves, hpool]
      exact hsupports
    · have := h provider pool model hpool hmem
      rw [hmap] at this
      cases this

/-- The pool supports what it lists, and what the index already has for the provider. -/
def SupportsIndexed (r : SmartRouter) (name : String) (pool : EndpointPool) : Prop :=
  ∀ model, r.modelMap model = some name ∨ model ∈ pool.models → pool.supportsModel model = true

/-- A registration keeps the index sound exactly when the pool supports all that the index has for
the provider by then. -/
theorem mapSound_registerPool_iff (h : r.MapSound) (name : String) (pool : EndpointPool) :
    (r.registerPool name pool).MapSound ↔ r.SupportsIndexed name pool := by
  have hserves : ∀ model, (r.registerPool name pool).serves model name = pool.supportsModel model := by
    intro model
    rw [serves, pools_registerPool, if_pos rfl]
    rfl
  constructor
  · intro hsound model hcase
    rw [← hserves]
    apply hsound
    rw [modelMap_registerPool]
    split
    · rfl
    · rename_i hnot
      exact hcase.resolve_right hnot
  · intro hsupports model provider hmap
    rw [modelMap_registerPool] at hmap
    by_cases hname : provider = name
    · subst hname
      rw [hserves]
      apply hsupports
      split at hmap
      · rename_i hmem
        exact .inr hmem
      · exact .inl hmap
    · -- the index of another provider and its pool are left alone
      have hold : r.modelMap model = some provider := by
        split at hmap
        · exact absurd (Option.some.inj hmap).symm hname
        · exact hmap
      rw [serves, pools_registerPool, if_neg hname]
      exact h model provider hold

end Promise

/-! ## Runs of registrations -/

section Run

variable {config : HealthConfig} {registrations : List (String × EndpointPool)}

theorem lists_registered : (registered config registrations).Lists := by
  induction registrations using List.reverseRecOn with
  | nil =>
      intro provider pool model hpool
      cases hpool
  | append_singleton registrations registration ih =>
      rw [registered_concat]
      exact ih.registerPool registration.1 registration.2

theorem isSome_pools_registered (name : String) :
    ((registered config registrations).pools name).isSome = true
      ↔ name ∈ registrations.map Prod.fst := by
  induction registrations using List.reverseRecOn with
  | nil => simp [registered, SmartRouter.new]
  | append_singleton registrations registration ih =>
      rw [registered_concat, pools_registerPool, List.map_append, List.mem_append, ← ih]
      by_cases hname : name = registration.1 <;> simp [hname]

/-- The providers in the order of their last registration. -/
def registeredOrder (config : HealthConfig) (registrations : List (String × EndpointPool)) :
    PoolOrder (registered config registrations).pools where
  names := (registrations.map Prod.fst).dedup
  distinct := List.nodup_dedup _
  registered := by
    intro name
    rw [List.mem_dedup]
    exact (isSome_pools_registered name).symm

theorem indexComplete : (registered config registrations).IndexComplete :=
  lists_registered.indexComplete

theorem indexSound_registered_iff :
    (registered config registrations).IndexSound ↔ (registered config registrations).MapSound :=
  indexSound_iff (registeredOrder config registrations)

theorem mapSound_registered (h : ∀ before name pool after,
      registrations = before ++ (name, pool) :: after →
        (registered config before).SupportsIndexed name pool) :
    (registered config registrations).MapSound := by
  induction registrations using List.reverseRecOn with
  | nil =>
      intro model provider hmap
      cases hmap
  | append_singleton registrations registration ih =>
      rw [registered_concat]
      have hbefore : (registered config registrations).MapSound := by
        apply ih
        intro before name pool after heq
        exact h before name pool (after ++ [registration]) (by simp [heq])
      exact (mapSound_registerPool_iff hbefore _ _).mpr (h registrations _ _ [] rfl)

end Run

/-- After every registration the index is sound and complete, exactly when each registered pool
supports what it lists and what the index has for its provider from before. -/
theorem index_consistent_iff (config : HealthConfig)
    (registrations : List (String × EndpointPool)) :
    (∀ before, before <+: registrations →
        (registered config before).IndexSound ∧ (registered config before).IndexComplete)
      ↔ ∀ before name pool after, registrations = before ++ (name, pool) :: after →
          (registered config before).SupportsIndexed name pool := by
  constructor
  · rintro h before name pool after rfl
    have hbefore := indexSound_registered_iff.mp (h before (List.prefix_append _ _)).1
    have hafter : before ++ [(name, pool)] <+: before ++ (name, pool) :: after := by
      rw [List.append_cons before (name, pool) after]
      exact List.prefix_append _ _
    have hsound := indexSound_registered_iff.mp (h _ hafter).1
    rw [registered_concat] at hsound
    exact (mapSound_registerPool_iff hbefore name pool).mp hsound
  · rintro h before ⟨later, rfl⟩
    refine ⟨indexSound_registered_iff.mpr (mapSound_registered ?_), indexComplete⟩
    rintro first name pool after rfl
    exact h first name pool (after ++ later) (by simp)

end SmartRouter

namespace Sample

/-- A pool with one key for one model. -/
def poolOf (model : String) : EndpointPool :=
  (EndpointPool.new "openai" turns).addEndpoint (endpoint "key-1" "openai" [model])

/-- The provider is registered again, with another model. -/
def reRegistration : List (String × EndpointPool) :=
  [("openai", poolOf "gpt-4"), ("openai", poolOf "o1-mini")]

end Sample

/-- The former model is still found, at a provider whose pool has nothing but the new one. -/
theorem former_model_still_found :
    (SmartRouter.registered {} Sample.reRegistration).getProviderForModel
        (SmartRouter.registeredOrder {} Sample.reRegistration) "gpt-4" = some "openai"
      ∧ (SmartRouter.registered {} Sample.reRegistration).serves "gpt-4" "openai" = false
      ∧ ¬ (SmartRouter.registered {} Sample.reRegistration).IndexSound := by
  have hfound : (SmartRouter.registered {} Sample.reRegistration).getProviderForModel
      (SmartRouter.registeredOrder {} Sample.reRegistration) "gpt-4" = some "openai" := rfl
  have hserves : (SmartRouter.registered {} Sample.reRegistration).serves "gpt-4" "openai"
      = false := by decide
  refine ⟨hfound, hserves, ?_⟩
  intro hsound
  rw [hsound _ _ _ hfound] at hserves
  cases hserves

end AuraGateway.Router
