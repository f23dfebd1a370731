import AuraGateway.Router.SmartRouter

/-!
# Fallback depth

A chain says which provider stands at which fallback depth, and how many fallbacks are attempted
at most. The router does not ask it: it walks the list of providers itself, skips those that do
not have the model, and goes on to the end of the list.

A fallback is tried exactly at the places that the walk reaches (`mem_tryFallbacks_iff`). The depth
it reports is the place, so it is the chain's own depth as long as no place beyond the allowed
attempts is reached; counting the tried ones gives the depth if, besides, none was skipped before
(`fallbacks_follow_chain_iff`).
-/

set_option autoImplicit false

namespace AuraGateway.Router

open AuraGateway.RustStd AuraGateway.JsStd

/-- Get the provider at a fallback depth. -/
def FallbackChain.getAtDepth (chain : FallbackChain) (depth : Nat) : Option String :=
  if depth = 0 ∨ chain.providers.length < depth ∨ chain.maxAttempts < depth then none
  else chain.providers[depth - 1]?

/-- One past a place of the chain is a depth, if it is within the attempts. -/
theorem FallbackChain.getAtDepth_succ_eq_some_iff (chain : FallbackChain) (i : Nat) (p : String) :
    chain.getAtDepth (i + 1) = some p ↔ i < chain.maxAttempts ∧ chain.providers[i]? = some p := by
  unfold getAtDepth
  rw [Nat.add_sub_cancel]
  constructor
  · intro h
    split at h
    · cases h
    · exact ⟨by omega, h⟩
  · intro h
    have hlt := (List.getElem?_eq_some_iff.mp h.2).1
    rw [if_neg (by omega)]
    exact h.2

/-- The tried fallbacks, by the depth that is reported: the chain has each of them there, and there
are no more than it allows. -/
def FallbackChain.FollowedByDepth (chain : FallbackChain) (tried : List (String × Nat)) : Prop :=
  (∀ t ∈ tried, chain.getAtDepth t.2 = some t.1) ∧ tried.length ≤ chain.maxAttempts

/-- The tried fallbacks, counted from one: the chain has the k-th at depth k, and there are no more
than it allows. -/
def FallbackChain.FollowedByCount (chain : FallbackChain) (tried : List (String × Nat)) : Prop :=
  (∀ k t, tried[k]? = some t → chain.getAtDepth (k + 1) = some t.1)
    ∧ tried.length ≤ chain.maxAttempts

namespace SmartRouter

variable (r : SmartRouter) (table : CaseTable) (draws : SelectorDraws) (model : String)

/-- The fallbacks that a request tries, each with its depth. -/
def fallbacksTried (order : PoolOrder r.pools) : List (String × Nat) :=
  match r.getProviderForModel order model with
  | none => []
  | some primaryProvider =>
      match r.tryRouteToProvider table draws primaryProvider 0 with
      | some _ => []
      | none =>
          ((r.fallbackChains primaryProvider).map fun chain =>
            (r.tryFallbacks table draws model 0 chain.providers).1).getD []

/-- The walk comes to a place whose provider has the model: nobody before it takes the
request. -/
structure Reaches (l : List String) (i : Nat) (provider : String) : Prop where
  place : l[i]? = some provider
  serves : r.serves model provider = true
  passed : ∀ q ∈ l.take i, r.serves model q = true → r.hasAvailable q = false

section Walk

variable {r table draws model} {depth i : Nat} {a p : String} {l : List String}

theorem reaches_cons_zero :
    r.Reaches model (a :: l) 0 p ↔ a = p ∧ r.serves model a = true := by
  constructor
  · intro h
    obtain rfl : a = p := Option.some.inj h.place
    exact ⟨rfl, h.serves⟩
  · rintro ⟨rfl, hserves⟩
    exact ⟨rfl, hserves, fun q hq => absurd hq List.not_mem_nil⟩

theorem reaches_cons_succ :
    r.Reaches model (a :: l) (i + 1) p
      ↔ (r.serves model a = true → r.hasAvailable a = false) ∧ r.Reaches model l i p := by
  constructor
  · intro h
    have hpassed := h.passed
    rw [List.take_succ_cons, List.forall_mem_cons] at hpassed
    exact ⟨hpassed.1, h.place, h.serves, hpassed.2⟩
  · rintro ⟨ha, h⟩
    refine ⟨h.place, h.serves, ?_⟩
    rw [List.take_succ_cons, List.forall_mem_cons]
    exact ⟨ha, h.passed⟩

theorem tryFallbacks_cons_of_available (hserves : r.serves model a = true)
    (havailable : r.hasAvailable a = true) :
    (r.tryFallbacks table draws model depth (a :: l)).1 = [(a, depth + 1)] := by
  rw [tryFallbacks, if_pos hserves]
  cases htry : r.tryRouteToProvider table draws a (depth + 1) with
  | none =>
      rw [tryRouteToProvider_eq_none_iff, havailable] at htry
      cases htry
  | some decision => rfl

theorem tryFallbacks_cons_of_failing (hserves : r.serves model a = true)
    (hnone : r.hasAvailable a = false) :
    (r.tryFallbacks table draws model depth (a :: l)).1
      = (a, depth + 1) :: (r.tryFallbacks table draws model (depth + 1) l).1 := by
  rw [tryFallbacks, if_pos hserves, tryRouteToProvider_eq_none_iff.mpr hnone]

theorem tryFallbacks_cons_of_skipped (hserves : ¬ r.serves model a = true) :
    r.tryFallbacks table draws model depth (a :: l)
      = r.tryFallbacks table draws model (depth + 1) l := by
  rw [tryFallbacks, if_neg hserves]

/-- The tried fallbacks are those at the places that the walk reaches. -/
theorem mem_tryFallbacks_iff {t : String × Nat} :
    t ∈ (r.tryFallbacks table draws model depth l).1
      ↔ ∃ i, r.Reaches model l i t.1 ∧ t.2 = depth + i + 1 := by
  induction l generalizing depth with
  | nil =>
      constructor
      · intro h
        exact absurd h List.not_mem_nil
      · rintro ⟨i, h, -⟩
        cases h.place
  | cons a l ih =>
      -- a place of the rest is one place further on, from one depth less
      have hshift : ∀ i, depth + 1 + i + 1 = depth + (i + 1) + 1 := by
        intro i
        omega
      by_cases hserves : r.serves model a = true
      · cases havailable : r.hasAvailable a with
        | true =>
            rw [tryFallbacks_cons_of_available hserves havailable, List.mem_singleton]
            constructor
            · rintro rfl
              exact ⟨0, reaches_cons_zero.mpr ⟨rfl, hserves⟩, rfl⟩
            · rintro ⟨i, h, hdepth⟩
              cases i with
              | zero => exact Prod.ext (reaches_cons_zero.mp h).1.symm hdepth
              | succ i =>
                  have hnone := (reaches_cons_succ.mp h).1 hserves
                  rw [havailable] at hnone
                  cases hnone
        | false =>
            rw [tryFallbacks_cons_of_failing hserves havailable, List.mem_cons, ih]
            constructor
            · rintro (rfl | ⟨i, h, hdepth⟩)
              · exact ⟨0, reaches_cons_zero.mpr ⟨rfl, hserves⟩, rfl⟩
              · exact ⟨i + 1, reaches_cons_succ.mpr ⟨fun _ => havailable, h⟩,
                  hdepth.trans (hshift i)⟩
            · rintro ⟨i, h, hdepth⟩
              cases i with
              | zero => exact .inl (Prod.ext (reaches_cons_zero.mp h).1.symm hdepth)
              | succ i => exact .inr ⟨i, (reaches_cons_succ.mp h).2, hdepth.trans (hshift i).symm⟩
      · rw [tryFallbacks_cons_of_skipped hserves, ih]
        constructor
        · rintro ⟨i, h, hdepth⟩
          exact ⟨i + 1, reaches_cons_succ.mpr ⟨fun hs => absurd hs hserves, h⟩,
            hdepth.trans (hshift i)⟩
        · rintro ⟨i, h, hdepth⟩
          cases i with
          | zero => exact absurd (reaches_cons_zero.mp h).2 hserves
          | succ i => exact ⟨i, (reaches_cons_succ.mp h).2, hdepth.trans (hshift i).symm⟩

/-- The depths grow, so their bound is one for the number of tried fallbacks. -/
theorem length_tryFallbacks_le {m : Nat}
    (h : ∀ t ∈ (r.tryFallbacks table draws model depth l).1, t.2 ≤ m) :
    (r.tryFallbacks table draws model depth l).1.length ≤ m - depth := by
  induction l generalizing depth with
  | nil => exact Nat.zero_le _
  | cons a l ih =>
      by_cases hserves : r.serves model a = true
      · cases havailable : r.hasAvailable a with
        | true =>
            rw [tryFallbacks_cons_of_available hserves havailable] at h ⊢
            have hfirst := h _ List.mem_cons_self
            rw [List.length_singleton]
            omega
        | false =>
            rw [tryFallbacks_cons_of_failing hserves havailable] at h ⊢
            rw [List.forall_mem_cons] at h
            have hrest := ih h.2
            rw [List.length_cons]
            omega
      · rw [tryFallbacks_cons_of_skipped hserves] at h ⊢
        have hrest := ih h
        omega

/-- Nothing is tried where no place is reached. -/
theorem tryFallbacks_eq_nil_iff :
    (r.tryFallbacks table draws model depth l).1 = [] ↔ ∀ i p, ¬ r.Reaches model l i p := by
  rw [List.eq_nil_iff_forall_not_mem]
  constructor
  · intro h i p hreaches
    exact h (p, depth + i + 1) (mem_tryFallbacks_iff.mpr ⟨i, hreaches, rfl⟩)
  · intro h t ht
    obtain ⟨i, hreaches, -⟩ := mem_tryFallbacks_iff.mp ht
    exact h i t.1 hreaches

/-- The k-th tried fallback is the k-th of the list, below a bound, exactly when every reached place
is below the bound and nobody was skipped before it. -/
theorem tried_in_place_iff (table : CaseTable) (draws : SelectorDraws) (depth m : Nat) :
    (∀ k t, (r.tryFallbacks table draws model depth l).1[k]? = some t →
        k < m ∧ l[k]? = some t.1)
      ↔ ∀ i p, r.Reaches model l i p → i < m ∧ ∀ q ∈ l.take i, r.serves model q = true := by
  induction l generalizing depth m with
  | nil =>
      constructor
      · intro _ i p h
        cases h.place
      · intro _ k t h
        cases h
  | cons a l ih =>
      by_cases hserves : r.serves model a = true
      · cases havailable : r.hasAvailable a with
        | true =>
            rw [tryFallbacks_cons_of_available hserves havailable]
            constructor
            · intro h i p hreaches
              cases i with
              | zero =>
                  exact ⟨(h 0 _ rfl).1, fun q hq => absurd hq List.not_mem_nil⟩
              | succ i =>
                  have hnone := (reaches_cons_succ.mp hreaches).1 hserves
                  rw [havailable] at hnone
                  cases hnone
            · intro h k t ht
              cases k with
              | zero =>
                  obtain rfl := Option.some.inj ht
                  exact ⟨(h 0 a (reaches_cons_zero.mpr ⟨rfl, hserves⟩)).1, rfl⟩
              | succ k => cases ht
        | false =>
            rw [tryFallbacks_cons_of_failing hserves havailable]
            have hrest := ih (depth + 1) (m - 1)
            constructor
            · intro h i p hreaches
              have hpos := (h 0 _ rfl).1
              cases i with
              | zero => exact ⟨hpos, fun q hq => absurd hq List.not_mem_nil⟩
              | succ i =>
                  have hbelow := hrest.mp (fun k t ht => ⟨by have := (h (k + 1) t ht).1; omega,
                    (h (k + 1) t ht).2⟩) i p (reaches_cons_succ.mp hreaches).2
                  rw [List.take_succ_cons, List.forall_mem_cons]
                  exact ⟨by omega, hserves, hbelow.2⟩
            · intro h k t ht
              cases k with
              | zero =>
                  obtain rfl := Option.some.inj ht
                  exact ⟨(h 0 a (reaches_cons_zero.mpr ⟨rfl, hserves⟩)).1, rfl⟩
              | succ k =>
                  have hbelow : ∀ i p, r.Reaches model l i p →
                      i < m - 1 ∧ ∀ q ∈ l.take i, r.serves model q = true := by
                    intro i p hreaches
                    have hat := h (i + 1) p (reaches_cons_succ.mpr ⟨fun _ => havailable, hreaches⟩)
                    rw [List.take_succ_cons, List.forall_mem_cons] at hat
                    exact ⟨by omega, hat.2.2⟩
                  have hplace := hrest.mpr hbelow k t ht
                  exact ⟨by omega, hplace.2⟩
      · -- somebody is skipped, so nobody may be tried after that
        rw [tryFallbacks_cons_of_skipped hserves]
        constructor
        · intro h i p hreaches
          cases i with
          | zero => exact absurd (reaches_cons_zero.mp hreaches).2 hserves
          | succ i =>
              exfalso
              have hne : (r.tryFallbacks table draws model (depth + 1) l).1 ≠ [] :=
                fun hnil => tryFallbacks_eq_nil_iff.mp hnil i p (reaches_cons_succ.mp hreaches).2
              obtain ⟨t, rest, ht⟩ := List.exists_cons_of_ne_nil hne
              have hmem : t ∈ (r.tryFallbacks table draws model (depth + 1) l).1 :=
                ht ▸ List.mem_cons_self
              obtain ⟨j, hj, -⟩ := mem_tryFallbacks_iff.mp hmem
              obtain rfl := Option.some.inj (h 0 t (ht ▸ rfl)).2
              exact hserves hj.serves
        · intro h k t ht
          exfalso
          obtain ⟨j, hj, -⟩ := mem_tryFallbacks_iff.mp (List.mem_of_getElem? ht)
          have hreaches : r.Reaches model (a :: l) (j + 1) t.1 :=
            reaches_cons_succ.mpr ⟨fun hs => absurd hs hserves, hj⟩
          have hat := (h (j + 1) t.1 hreaches).2
          rw [List.take_succ_cons] at hat
          exact hserves (hat a List.mem_cons_self)

end Walk

section Chain

variable {r table draws model} {order : PoolOrder r.pools} {primaryProvider : String}
  {chain : FallbackChain}

theorem fallbacksTried_eq (hprimary : r.getProviderForModel order model = some primaryProvider)
    (hfails : r.tryRouteToProvider table draws primaryProvider 0 = none)
    (hchain : r.fallbackChains primaryProvider = some chain) :
    r.fallbacksTried table draws model order
      = (r.tryFallbacks table draws model 0 chain.providers).1 := by
  unfold fallbacksTried
  rw [hprimary]
  dsimp only
  rw [hfails, hchain]
  rfl

/-- By the reported depths, the chain is followed exactly when no place beyond its attempts is
reached. -/
theorem followedByDepth_iff :
    chain.FollowedByDepth (r.tryFallbacks table draws model 0 chain.providers).1
      ↔ ∀ i p, r.Reaches model chain.providers i p → i < chain.maxAttempts := by
  constructor
  · intro h i p hreaches
    have hdepth := h.1 (p, 0 + i + 1) (mem_tryFallbacks_iff.mpr ⟨i, hreaches, rfl⟩)
    rw [Nat.zero_add] at hdepth
    exact (chain.getAtDepth_succ_eq_some_iff i p).mp hdepth |>.1
  · intro h
    have hdepth : ∀ t ∈ (r.tryFallbacks table draws model 0 chain.providers).1,
        chain.getAtDepth t.2 = some t.1 ∧ t.2 ≤ chain.maxAttempts := by
      intro t ht
      obtain ⟨i, hreaches, heq⟩ := mem_tryFallbacks_iff.mp ht
      have hlt := h i t.1 hreaches
      rw [heq, Nat.zero_add, chain.getAtDepth_succ_eq_some_iff]
      exact ⟨⟨hlt, hreaches.place⟩, hlt⟩
    exact ⟨fun t ht => (hdepth t ht).1, length_tryFallbacks_le fun t ht => (hdepth t ht).2⟩

/-- By the count, the chain is followed exactly when besides nobody is skipped before a reached
place. -/
theorem followedByCount_iff :
    chain.FollowedByCount (r.tryFallbacks table draws model 0 chain.providers).1
      ↔ ∀ i p, r.Reaches model chain.providers i p →
          i < chain.maxAttempts ∧ ∀ q ∈ chain.providers.take i, r.serves model q = true := by
  rw [← tried_in_place_iff table draws 0]
  simp only [FallbackChain.FollowedByCount, chain.getAtDepth_succ_eq_some_iff]
  constructor
  · intro h
    exact h.1
  · intro h
    refine ⟨h, ?_⟩
    by_contra hlt
    rw [not_le] at hlt
    exact lt_irrefl _ (h _ _ (List.getElem?_eq_getElem hlt)).1

end Chain

/-- Where the primary provider fails, the fallbacks that a request tries are those of the chain's
depths exactly when every provider that is reached stands within the allowed attempts; counted
one after the other they are, exactly when besides nobody before it lacks the model. -/
theorem fallbacks_follow_chain_iff {order : PoolOrder r.pools} {primaryProvider : String}
    {chain : FallbackChain}
    (hprimary : r.getProviderForModel order model = some primaryProvider)
    (hfails : r.tryRouteToProvider table draws primaryProvider 0 = none)
    (hchain : r.fallbackChains primaryProvider = some chain) :
    (chain.FollowedByDepth (r.fallbacksTried table draws model order)
        ↔ ∀ i p, r.Reaches model chain.providers i p → i < chain.maxAttempts)
      ∧ (chain.FollowedByCount (r.fallbacksTried table draws model order)
        ↔ ∀ i p, r.Reaches model chain.providers i p →
            i < chain.maxAttempts ∧ ∀ q ∈ chain.providers.take i, r.serves model q = true) := by
  rw [fallbacksTried_eq hprimary hfails hchain]
  exact ⟨followedByDepth_iff, followedByCount_iff⟩

end SmartRouter

namespace Sample

/-- A pool with one key for one model, which is switched on or not. -/
def keyPool (providerName : String) (enabled : Bool) : EndpointPool :=
  (EndpointPool.new providerName turns).addEndpoint
    { endpoint (providerName ++ "-key") providerName ["gpt-4"] with enabled := enabled }

/-- One fallback may be attempted; the first has no key switched on, the second has. -/
def oneAttempt : FallbackChain := { providers := ["azure", "bedrock"], maxAttempts := 1 }

def chainRouter : SmartRouter :=
  ((((SmartRouter.new {}).registerPool "bedrock" (keyPool "bedrock" true)).registerPool "azure"
    (keyPool "azure" false)).registerPool "openai" (keyPool "openai" false)).addFallbackChain
    "openai" oneAttempt

theorem chainRouter_registered (name : String) :
    name ∈ ["openai", "azure", "bedrock"] ↔ (chainRouter.pools name).isSome = true := by
  by_cases h₁ : name = "openai" <;> by_cases h₂ : name = "azure" <;>
    by_cases h₃ : name = "bedrock" <;>
    simp [chainRouter, SmartRouter.new, SmartRouter.registerPool, SmartRouter.addFallbackChain, h₁, h₂, h₃]

def chainOrder : PoolOrder chainRouter.pools :=
  ⟨["openai", "azure", "bedrock"], by decide, chainRouter_registered⟩

end Sample

theorem fallbacks_follow_chain_sample :
    Sample.chainRouter.getProviderForModel Sample.chainOrder "gpt-4" = some "openai"
      ∧ (Sample.oneAttempt.FollowedByDepth
          (Sample.chainRouter.fallbacksTried .fixed ⟨0, 0⟩ "gpt-4" Sample.chainOrder)
        ↔ ∀ i p, Sample.chainRouter.Reaches "gpt-4" ["azure", "bedrock"] i p → i < 1) :=
  have hprimary : Sample.chainRouter.getProviderForModel Sample.chainOrder "gpt-4"
      = some "openai" := rfl
  have hchain : Sample.chainRouter.fallbackChains "openai" = some Sample.oneAttempt := rfl
  ⟨hprimary, (SmartRouter.fallbacks_follow_chain_iff Sample.chainRouter .fixed ⟨0, 0⟩ "gpt-4"
    hprimary rfl hchain).1⟩

/-- The chain allows one attempt, and two are made. -/
theorem second_attempt_beyond_cap :
    Sample.chainRouter.fallbacksTried .fixed ⟨0, 0⟩ "gpt-4" Sample.chainOrder
        = [("azure", 1), ("bedrock", 2)]
      ∧ Sample.chainRouter.route .fixed ⟨0, 0⟩ Sample.chainOrder "gpt-4"
        = .ok (.fallback "bedrock" "bedrock-key" 2)
      ∧ ¬ Sample.oneAttempt.FollowedByDepth [("azure", 1), ("bedrock", 2)]
      ∧ ¬ Sample.oneAttempt.FollowedByCount [("azure", 1), ("bedrock", 2)] := by
  refine ⟨by rfl, by rfl, ?_, ?_⟩
  · intro h
    exact absurd h.2 (by decide)
  · intro h
    exact absurd h.2 (by decide)

end AuraGateway.Router
