import AuraGateway.Foundations.Selection
import AuraGateway.Router.HealthTracker
import AuraGateway.Standard.JsStd

/-!
# Strategies of load balancing

A pool hands the endpoints that are available to a selector, which picks one of the enabled
ones by its strategy: by turns, by weight, by region, by the profiles of the models. Whatever
the strategy, the pick is one of the enabled endpoints (`select_mem`), and there is one as soon
as one of them is enabled (`select_eq_none_iff`).

The counter of a selector is shared by all requests, so a selection may read any value of it;
with the random number it is an input of the selection (`SelectorDraws`).
-/

set_option autoImplicit false

namespace AuraGateway.Router

open AuraGateway.RustStd AuraGateway.JsStd AuraGateway.Proxy AuraGateway.Foundations.Selection

/-! ## Endpoints -/

/-- What endpoints ask of a provider. -/
structure ListedProvider extends Provider where
  models : List String

/-- A single provider endpoint (API key configuration). -/
structure ProviderEndpoint where
  id : String
  provider : ListedProvider
  weight : Nat := 1
  priority : Nat := 0
  enabled : Bool := true
  tags : List String := []

namespace ProviderEndpoint

def providerName (e : ProviderEndpoint) : String := e.provider.name

def supportsModel (e : ProviderEndpoint) (model : String) : Bool := e.provider.supportsModel model

def models (e : ProviderEndpoint) : List String := e.provider.models

end ProviderEndpoint

/-! ## Health -/

/-- The health tracker at an instant. -/
structure HealthTracker where
  config : HealthConfig := {}
  entries : HealthEntries := fun _ => none
  now : Instant := 0

/-- Check if an endpoint is healthy. -/
def HealthTracker.isHealthy (tracker : HealthTracker) (endpointId : String) : Bool :=
  tracker.config.isHealthy tracker.entries endpointId tracker.now

/-- Success rate; one before the first request. -/
def HealthEntry.successRate (entry : HealthEntry) : Float :=
  let total := (entry.successCount + entry.failureCount) % 2 ^ 64
  if total = 0 then 1.0 else entry.successCount.toFloat / total.toFloat

/-! ## Profiles -/

/-- What a model is good at. -/
inductive ModelTrait where
  | code
  | creative
  | analysis
  | math
  | vision
  | fast
  | cheap
  | longContext
  | instruction
  | conversational
  | toolUse
  | summarization
  | translation
  | structuredOutput
  | research
  | reasoning
  deriving DecidableEq, Repr

/-- Model profile with traits and cost information. -/
structure ModelProfile where
  model : String
  provider : String
  traits : List ModelTrait := []
  inputCostPerMillion : Float := 0.0
  outputCostPerMillion : Float := 0.0
  maxContext : Option Nat := none

namespace ModelProfile

def hasTrait (p : ModelProfile) (t : ModelTrait) : Bool := p.traits.contains t

/-- The share of the required traits that the model has. -/
def traitMatchScore (p : ModelProfile) (required : List ModelTrait) : Float :=
  if required.isEmpty then 1.0
  else (required.countP p.hasTrait).toFloat / required.length.toFloat

/-- Average of input and output cost. -/
def meanCost (p : ModelProfile) : Float := (p.inputCostPerMillion + p.outputCostPerMillion) / 2.0

/-- The profiles that apply to an endpoint. -/
def appliesTo (p : ModelProfile) (e : ProviderEndpoint) : Bool :=
  e.supportsModel p.model || e.providerName == p.provider

end ModelProfile

/-! ## Regions -/

/-- Region identifier. -/
inductive Region where
  | usEast
  | usWest
  | euWest
  | euCentral
  | asiaPacificNortheast
  | asiaPacificSoutheast
  | asiaPacificSouth
  | custom (name : String)
  deriving DecidableEq, Repr

/-- Parse a region; the table holds the lowercase forms beyond ASCII. -/
def Region.parse (table : CaseTable) (s : List Char) : Region :=
  let lower := String.ofList (table.toLowerCase s)
  if lower ∈ ["us-east", "us-east-1", "virginia"] then .usEast
  else if lower ∈ ["us-west", "us-west-2", "oregon"] then .usWest
  else if lower ∈ ["eu-west", "eu-west-1", "ireland"] then .euWest
  else if lower ∈ ["eu-central", "eu-central-1", "frankfurt"] then .euCentral
  else if lower ∈ ["ap-northeast", "ap-northeast-1", "tokyo"] then .asiaPacificNortheast
  else if lower ∈ ["ap-southeast", "ap-southeast-1", "singapore"] then .asiaPacificSoutheast
  else if lower ∈ ["ap-south", "ap-south-1", "sydney", "australia"] then .asiaPacificSouth
  else .custom lower

/-- Approximate latency between different regions, where one is known. -/
def Region.latencies : List ((Region × Region) × Nat) :=
  [((.usEast, .usWest), 60), ((.euWest, .euCentral), 20), ((.usEast, .euWest), 80),
    ((.usEast, .euCentral), 90), ((.usWest, .euWest), 130), ((.usWest, .euCentral), 140),
    ((.usWest, .asiaPacificNortheast), 100), ((.usWest, .asiaPacificSoutheast), 150),
    ((.usEast, .asiaPacificNortheast), 180), ((.usEast, .asiaPacificSoutheast), 200),
    ((.euWest, .asiaPacificNortheast), 220), ((.euWest, .asiaPacificSoutheast), 180),
    ((.euCentral, .asiaPacificNortheast), 200), ((.euCentral, .asiaPacificSoutheast), 170),
    ((.asiaPacificNortheast, .asiaPacificSoutheast), 70),
    ((.asiaPacificNortheast, .asiaPacificSouth), 120),
    ((.asiaPacificSoutheast, .asiaPacificSouth), 80)]

/-- Latency between regions, in either direction. -/
def Region.latencyTo (a b : Region) : Nat :=
  if a = b then 0
  else ((latencies.find? fun l => l.1 = (a, b) ∨ l.1 = (b, a)).map Prod.snd).getD 150

/-! ## Agents -/

/-- What a tool is for. -/
inductive ToolCategory where
  | codeExecution
  | webSearch
  | dataAnalysis
  | imageProcessing
  | fileSystem
  | apiCalls
  | calculator
  | memory
  | custom (name : String)
  deriving DecidableEq, Repr

/-- The words of each category, in the order in which they are looked for. -/
def ToolCategory.words : List (ToolCategory × List String) :=
  [(.codeExecution, ["code", "execute", "python", "bash"]),
    (.webSearch, ["search", "web", "browse"]),
    (.dataAnalysis, ["csv", "sql", "data", "analyze"]),
    (.imageProcessing, ["image", "vision", "screenshot"]),
    (.fileSystem, ["file", "read", "write", "directory"]),
    (.apiCalls, ["api", "http", "fetch", "request"]),
    (.calculator, ["math", "calc", "compute"]),
    (.memory, ["memory", "retrieve", "recall"])]

/-- Infer tool category from tool name. -/
def ToolCategory.fromToolName (table : CaseTable) (name : String) : ToolCategory :=
  let nameLower := table.toLowerCase name.toList
  match words.find? fun w => w.2.any fun word => contains nameLower word.toList with
  | some w => w.1
  | none => .custom name

/-- Recommended model traits for a tool category. -/
def ToolCategory.recommendedTraits : ToolCategory → List ModelTrait
  | .codeExecution => [.code, .toolUse]
  | .webSearch => [.research, .toolUse]
  | .dataAnalysis => [.analysis, .code, .toolUse]
  | .imageProcessing => [.vision, .toolUse]
  | .fileSystem => [.code, .toolUse]
  | .apiCalls => [.toolUse, .structuredOutput]
  | .calculator => [.math, .toolUse]
  | .memory => [.longContext, .toolUse]
  | .custom _ => [.toolUse]

/-- Context for agentic routing decisions. -/
structure AgentContext where
  tools : List String := []
  estimatedTokens : Option Nat := none
  previousResponseId : Option String := none
  requiresReasoning : Bool := false
  sessionId : Option String := none

/-- Recommended traits, each once. -/
def AgentContext.recommendedTraits (table : CaseTable) (context : AgentContext) :
    List ModelTrait :=
  ((context.tools.flatMap fun t => (ToolCategory.fromToolName table t).recommendedTraits)
    ++ if context.requiresReasoning then [ModelTrait.reasoning] else []).dedup

/-! ## Selectors -/

/-- Routing strategy for load balancing across endpoints. -/
inductive RoutingStrategy where
  | roundRobin
  | weighted
  | random
  | leastLatency
  | regionBased
  | priority
  | traitBased
  | costOptimized
  | toolAware
  | contextAdaptive
  | stickySession
  | reasoningDepth
  deriving DecidableEq, Repr

/-- Selector for choosing endpoints based on strategy, without its counter. -/
structure StrategySelector where
  strategy : RoutingStrategy := .roundRobin
  preferredRegion : Option Region := none
  requiredTraits : List ModelTrait := []
  modelProfiles : List ModelProfile
  agentContext : Option AgentContext := none

/-- What a selection reads: the counter, and a random number. -/
structure SelectorDraws where
  counter : Nat
  random : Nat

/-- `sort_by(|a, b| b.partial_cmp(a).unwrap_or(Equal))` on scores. -/
def byScore (a b : ProviderEndpoint × Float) : Bool := !decide (a.2 < b.2)

/-- `sort_by(|a, b| a.partial_cmp(b).unwrap_or(Equal))` on costs. -/
def byCost (a b : ProviderEndpoint × Float) : Bool := !decide (b.2 < a.2)

/-- `max_by` on scores. -/
def maxScore (scores : List Float) : Option Float := lastMax (fun a b => decide (b < a)) scores

/-- `min_by` on costs. -/
def minCost (costs : List Float) : Option Float := firstMin (fun a b => decide (b < a)) costs

namespace StrategySelector

section Select

variable (table : CaseTable) (tracker : HealthTracker) (s : StrategySelector) (draws : SelectorDraws)
  (endpoints : List ProviderEndpoint)

def selectRoundRobin : Option ProviderEndpoint := endpoints[draws.counter % endpoints.length]?

/-- The first endpoint whose cumulative weight exceeds the target. -/
def pickWeighted (target : Nat) : Nat → List ProviderEndpoint → Option ProviderEndpoint
  | _, [] => none
  | cumulative, e :: rest =>
      let cumulative := (cumulative + e.weight) % 2 ^ 32
      if target < cumulative then some e else pickWeighted target cumulative rest

def selectWeighted : Option ProviderEndpoint :=
  let totalWeight := (endpoints.map (·.weight)).sum % 2 ^ 32
  if totalWeight = 0 then selectRoundRobin draws endpoints
  else (pickWeighted (draws.random % totalWeight) 0 endpoints).or endpoints.getLast?

def selectRandom : Option ProviderEndpoint := endpoints[draws.random % endpoints.length]?

/-- One endpoint of the loop: an endpoint without health data counts as good, if it is first. -/
def leastLatencyStep (best : Option (ProviderEndpoint × Float)) (e : ProviderEndpoint) :
    Option (ProviderEndpoint × Float) :=
  match tracker.entries e.id, best with
  | some health, some b => if b.2 < health.successRate then some (e, health.successRate) else best
  | some health, none => some (e, health.successRate)
  | none, some b => some b
  | none, none => some (e, 1.0)

def selectLeastLatency : Option ProviderEndpoint :=
  (endpoints.foldl (leastLatencyStep tracker) none).map Prod.fst

/-- The latency of an endpoint by its first tag that names a region. -/
def regionLatency (preferred : Region) (e : ProviderEndpoint) : Nat :=
  let regionTag := e.tags.find? fun t =>
    "region:".toList.isPrefixOf t.toList || contains t.toList "us-".toList
      || contains t.toList "eu-".toList || contains t.toList "ap-".toList
  match regionTag with
  | some tag =>
      let regionStr := (List.dropPrefix? tag.toList "region:".toList).getD tag.toList
      preferred.latencyTo (Region.parse table regionStr)
  | none => 100

def selectRegionBased : Option ProviderEndpoint :=
  match s.preferredRegion with
  | none => selectRoundRobin draws endpoints
  | some preferred =>
      (firstSorted (fun a b => decide (a.2 ≤ b.2))
        (endpoints.map fun e => (e, regionLatency table preferred e))).map Prod.fst

def selectPriority : Option ProviderEndpoint :=
  firstMin (fun a b => decide (b.priority < a.priority)) endpoints

/-- The profiles that apply to an endpoint. -/
def profilesOf (e : ProviderEndpoint) : List ModelProfile :=
  s.modelProfiles.filter fun p => p.appliesTo e

/-- The best score, if it is positive; otherwise by turns. -/
def bestScored (score : ModelProfile → Float) : Option ProviderEndpoint :=
  let scored := endpoints.map fun e => (e, (maxScore ((s.profilesOf e).map score)).getD 0.0)
  match firstSorted byScore scored with
  | some best => if 0.0 < best.2 then some best.1 else selectRoundRobin draws endpoints
  | none => selectRoundRobin draws endpoints

def selectTraitBased : Option ProviderEndpoint :=
  if s.requiredTraits.isEmpty then selectRoundRobin draws endpoints
  else s.bestScored draws endpoints fun p => p.traitMatchScore s.requiredTraits

/-- The cost of a model that has at least half of the required traits. -/
def requiredCost (p : ModelProfile) : Float :=
  let traitScore := if s.requiredTraits.isEmpty then 1.0 else p.traitMatchScore s.requiredTraits
  if 0.5 ≤ traitScore then p.meanCost else f64MAX

def selectCostOptimized : Option ProviderEndpoint :=
  let scored := endpoints.map fun e =>
    (e, (minCost ((s.profilesOf e).map s.requiredCost)).getD f64MAX)
  match firstSorted byCost scored with
  | some best => if best.2 < f64MAX then some best.1 else selectRoundRobin draws endpoints
  | none => selectRoundRobin draws endpoints

/-- Select by the tools of the request. -/
def selectToolAware : Option ProviderEndpoint :=
  match s.agentContext with
  | none => selectRoundRobin draws endpoints
  | some context =>
      if context.tools.isEmpty then selectRoundRobin draws endpoints
      else s.bestScored draws endpoints fun p =>
        p.traitMatchScore (context.recommendedTraits table)

/-- Select by the length of the input: the cheapest endpoint whose context window is large
enough, or the one with the largest window. -/
def selectContextAdaptive : Option ProviderEndpoint :=
  match s.agentContext with
  | none => selectRoundRobin draws endpoints
  | some context =>
      let estimatedTokens := context.estimatedTokens.getD 0
      let suitable := endpoints.filter fun e =>
        (s.profilesOf e).any fun p => p.maxContext.all (estimatedTokens ≤ ·)
      if suitable.isEmpty then
        (firstSorted (fun a b => decide (b.2 ≤ a.2)) (endpoints.map fun e =>
          (e, ((s.profilesOf e).filterMap (·.maxContext)).max?.getD 0))).map Prod.fst
      else
        (firstSorted byCost (suitable.map fun e =>
          (e, (minCost ((s.profilesOf e).map (·.meanCost))).getD f64MAX))).map Prod.fst

/-- The wrapping sum of the bytes of a text. -/
def byteSum (text : String) : Nat :=
  ((text.toList.flatMap String.utf8EncodeChar).map UInt8.toNat).sum % 2 ^ 64

/-- Select with session affinity: the session's hash, or else the previous response's, is an
index into the available endpoints. -/
def selectStickySession : Option ProviderEndpoint :=
  match s.agentContext with
  | none => selectRoundRobin draws endpoints
  | some context =>
      match context.previousResponseId with
      | some prevId => endpoints[byteSum (context.sessionId.getD prevId) % endpoints.length]?
      | none => selectRoundRobin draws endpoints

/-- The reasoning score of a profile. -/
def reasoningScore (p : ModelProfile) : Float :=
  let s := if p.hasTrait .reasoning then 0.0 + 1.0 else 0.0
  let s := if p.hasTrait .analysis then s + 0.5 else s
  let s := if p.hasTrait .math then s + 0.3 else s
  if p.hasTrait .code then s + 0.2 else s

/-- Select for complex reasoning tasks. -/
def selectReasoningDepth : Option ProviderEndpoint :=
  match s.agentContext with
  | none => selectRoundRobin draws endpoints
  | some context =>
      if !context.requiresReasoning then selectRoundRobin draws endpoints
      else s.bestScored draws endpoints reasoningScore

/-- Select an endpoint from the available endpoints: only the enabled ones count. -/
def select : Option ProviderEndpoint :=
  let enabled := endpoints.filter (·.enabled)
  if enabled.isEmpty then none
  else
    match s.strategy with
    | .roundRobin => selectRoundRobin draws enabled
    | .weighted => selectWeighted draws enabled
    | .random => selectRandom draws enabled
    | .leastLatency => selectLeastLatency tracker enabled
    | .regionBased => s.selectRegionBased table draws enabled
    | .priority => selectPriority enabled
    | .traitBased => s.selectTraitBased draws enabled
    | .costOptimized => s.selectCostOptimized draws enabled
    | .toolAware => s.selectToolAware table draws enabled
    | .contextAdaptive => s.selectContextAdaptive draws enabled
    | .stickySession => s.selectStickySession draws enabled
    | .reasoningDepth => s.selectReasoningDepth draws enabled

end Select

/-! ## Every strategy picks -/

section Picks

variable {table : CaseTable} {tracker : HealthTracker} {s : StrategySelector}
  {draws : SelectorDraws} {endpoints : List ProviderEndpoint}

theorem pickWeighted_mem {target cumulative : Nat} {e : ProviderEndpoint}
    (hpick : pickWeighted target cumulative endpoints = some e) : e ∈ endpoints := by
  induction endpoints generalizing cumulative with
  | nil => cases hpick
  | cons a l ih =>
      simp only [pickWeighted] at hpick
      split at hpick
      · obtain rfl := Option.some.inj hpick
        exact List.mem_cons_self
      · exact List.mem_cons_of_mem a (ih hpick)

/-- An endpoint of the loop takes the place of the best one or leaves it. -/
theorem leastLatencyStep_eq (tracker : HealthTracker)
    (best : Option (ProviderEndpoint × Float)) (e : ProviderEndpoint) :
    ∃ b, leastLatencyStep tracker best e = some b ∧ (b.1 = e ∨ best = some b) := by
  unfold leastLatencyStep
  split
  · split
    · exact ⟨_, rfl, .inl rfl⟩
    · exact ⟨_, rfl, .inr rfl⟩
  · exact ⟨_, rfl, .inl rfl⟩
  · exact ⟨_, rfl, .inr rfl⟩
  · exact ⟨_, rfl, .inl rfl⟩

theorem foldl_leastLatency_mem {seen : List ProviderEndpoint}
    {best : Option (ProviderEndpoint × Float)} (hseen : ∀ b ∈ best, b.1 ∈ seen) :
    ∀ b ∈ endpoints.foldl (leastLatencyStep tracker) best, b.1 ∈ seen ++ endpoints := by
  induction endpoints generalizing seen best with
  | nil =>
      rw [List.append_nil]
      exact hseen
  | cons e l ih =>
      rw [List.foldl_cons, List.append_cons]
      apply ih
      intro b hb
      obtain ⟨b', hb', hcase⟩ := leastLatencyStep_eq tracker best e
      obtain rfl : b' = b := Option.some.inj (hb'.symm.trans hb)
      rcases hcase with heq | hbest
      · exact List.mem_append_right seen (List.mem_singleton.mpr heq)
      · exact List.mem_append_left [e] (hseen b' hbest)

theorem exists_foldl_leastLatency (tracker : HealthTracker) (l : List ProviderEndpoint)
    (b : ProviderEndpoint × Float) :
    ∃ b', l.foldl (leastLatencyStep tracker) (some b) = some b' := by
  induction l generalizing b with
  | nil => exact ⟨b, rfl⟩
  | cons e l ih =>
      obtain ⟨b', hb', -⟩ := leastLatencyStep_eq tracker (some b) e
      rw [List.foldl_cons, hb']
      exact ih b'

variable (h : endpoints ≠ [])

include h

theorem picks_roundRobin : Picks endpoints (selectRoundRobin draws endpoints) :=
  picks_mod h draws.counter

/-- Where the loop over the weights ends without a pick, the last endpoint is taken. -/
theorem picks_weighted : Picks endpoints (selectWeighted draws endpoints) := by
  simp only [selectWeighted]
  split
  · exact picks_roundRobin h
  · cases hpick : pickWeighted _ 0 endpoints with
    | none => exact picks_getLast h
    | some e => exact ⟨e, pickWeighted_mem hpick, rfl⟩

theorem picks_leastLatency : Picks endpoints (selectLeastLatency tracker endpoints) := by
  have hnone : ∀ b ∈ (none : Option (ProviderEndpoint × Float)), b.1 ∈ ([] : List _) := by
    intro b hb
    cases hb
  cases endpoints with
  | nil => exact absurd rfl h
  | cons e l =>
      obtain ⟨b, hb, -⟩ := leastLatencyStep_eq tracker none e
      obtain ⟨b', hb'⟩ := exists_foldl_leastLatency tracker l b
      have hfold : (e :: l).foldl (leastLatencyStep tracker) none = some b' := by
        rw [List.foldl_cons, hb, hb']
      exact ⟨b'.1, foldl_leastLatency_mem hnone b' hfold, congrArg (Option.map Prod.fst) hfold⟩

/-- The best of the scored endpoints. -/
theorem picks_scored {γ : Type} (le : ProviderEndpoint × γ → ProviderEndpoint × γ → Bool)
    (score : ProviderEndpoint → γ) :
    Picks endpoints ((firstSorted le (endpoints.map fun e => (e, score e))).map Prod.fst) :=
  (picks_firstSorted le (mt List.map_eq_nil_iff.mp h)).of_scored

theorem picks_regionBased : Picks endpoints (s.selectRegionBased table draws endpoints) := by
  unfold selectRegionBased
  split
  · exact picks_roundRobin h
  · exact picks_scored h _ _

theorem picks_bestScored (score : ModelProfile → Float) :
    Picks endpoints (s.bestScored draws endpoints score) := by
  have hscored := picks_scored h byScore fun e =>
    (maxScore ((s.profilesOf e).map score)).getD 0.0
  simp only [bestScored]
  split
  · rename_i best hbest
    rw [hbest] at hscored
    split
    · exact hscored
    · exact picks_roundRobin h
  · exact picks_roundRobin h

theorem picks_traitBased : Picks endpoints (s.selectTraitBased draws endpoints) := by
  unfold selectTraitBased
  split
  · exact picks_roundRobin h
  · exact picks_bestScored h _

theorem picks_costOptimized : Picks endpoints (s.selectCostOptimized draws endpoints) := by
  have hscored := picks_scored h byCost fun e =>
    (minCost ((s.profilesOf e).map s.requiredCost)).getD f64MAX
  simp only [selectCostOptimized]
  split
  · rename_i best hbest
    rw [hbest] at hscored
    split
    · exact hscored
    · exact picks_roundRobin h
  · exact picks_roundRobin h

theorem picks_toolAware : Picks endpoints (s.selectToolAware table draws endpoints) := by
  unfold selectToolAware
  split
  · exact picks_roundRobin h
  · split
    · exact picks_roundRobin h
    · exact picks_bestScored h _

theorem picks_contextAdaptive : Picks endpoints (s.selectContextAdaptive draws endpoints) := by
  unfold selectContextAdaptive
  split
  · exact picks_roundRobin h
  · dsimp only
    split
    · exact picks_scored h _ _
    · -- the cheapest endpoint with room for the input
      rename_i hsuitable
      have hne := List.isEmpty_eq_false_iff.mp (Bool.eq_false_iff.mpr hsuitable)
      exact (picks_scored hne _ _).mono (List.filter_subset_self _)

theorem picks_stickySession : Picks endpoints (s.selectStickySession draws endpoints) := by
  unfold selectStickySession
  split
  · exact picks_roundRobin h
  · split
    · exact picks_mod h _
    · exact picks_roundRobin h

theorem picks_reasoningDepth : Picks endpoints (s.selectReasoningDepth draws endpoints) := by
  unfold selectReasoningDepth
  split
  · exact picks_roundRobin h
  · split
    · exact picks_roundRobin h
    · exact picks_bestScored h _

end Picks

section Select

variable (table : CaseTable) (tracker : HealthTracker) (s : StrategySelector)
  (draws : SelectorDraws) {endpoints : List ProviderEndpoint}

/-- Where an endpoint is enabled, every strategy picks one of the enabled endpoints. -/
theorem picks_select (h : endpoints.filter (·.enabled) ≠ []) :
    Picks (endpoints.filter (·.enabled)) (s.select table tracker draws endpoints) := by
  have hne : (endpoints.filter (·.enabled)).isEmpty = false := List.isEmpty_eq_false_iff.mpr h
  simp only [select, hne, Bool.false_eq_true, if_false]
  cases s.strategy with
  | roundRobin => exact picks_roundRobin h
  | weighted => exact picks_weighted h
  | random => exact picks_mod h draws.random
  | leastLatency => exact picks_leastLatency h
  | regionBased => exact picks_regionBased h
  | priority => exact picks_firstMin _ h
  | traitBased => exact picks_traitBased h
  | costOptimized => exact picks_costOptimized h
  | toolAware => exact picks_toolAware h
  | contextAdaptive => exact picks_contextAdaptive h
  | stickySession => exact picks_stickySession h
  | reasoningDepth => exact picks_reasoningDepth h

theorem select_roundRobin {s : StrategySelector} (h : s.strategy = .roundRobin) :
    s.select table tracker draws endpoints
      = (endpoints.filter (·.enabled))[draws.counter % (endpoints.filter (·.enabled)).length]? := by
  by_cases hne : endpoints.filter (·.enabled) = []
  · simp [select, hne]
  · simp only [select, List.isEmpty_eq_false_iff.mpr hne, Bool.false_eq_true, if_false, h]
    rfl

/-- With a context, the sticky strategy indexes the enabled endpoints by a hash where a previous
response is named, and by the counter otherwise. -/
theorem select_stickySession {s : StrategySelector} {context : AgentContext}
    (h : s.strategy = .stickySession) (hcontext : s.agentContext = some context) :
    s.select table tracker draws endpoints
      = (endpoints.filter (·.enabled))[(match context.previousResponseId with
          | some prevId => byteSum (context.sessionId.getD prevId)
          | none => draws.counter) % (endpoints.filter (·.enabled)).length]? := by
  by_cases hne : endpoints.filter (·.enabled) = []
  · simp [select, hne]
  · simp only [select, List.isEmpty_eq_false_iff.mpr hne, Bool.false_eq_true, if_false, h,
      selectStickySession, hcontext]
    cases context.previousResponseId <;> rfl

theorem select_mem {e : ProviderEndpoint} (h : s.select table tracker draws endpoints = some e) :
    e ∈ endpoints ∧ e.enabled = true := by
  by_cases hne : endpoints.filter (·.enabled) = []
  · simp [select, hne] at h
  · exact List.mem_filter.mp ((picks_select table tracker s draws hne).mem h)

theorem select_eq_none_iff :
    s.select table tracker draws endpoints = none ↔ ∀ e ∈ endpoints, e.enabled = false := by
  constructor
  · intro hnone e he
    by_contra henabled
    have hne : endpoints.filter (·.enabled) ≠ [] :=
      List.ne_nil_of_mem (List.mem_filter.mpr ⟨he, Bool.eq_true_of_not_eq_false henabled⟩)
    obtain ⟨a, -, ha⟩ := picks_select table tracker s draws hne
    rw [ha] at hnone
    cases hnone
  · intro hdisabled
    have hnil : endpoints.filter (·.enabled) = [] :=
      List.filter_eq_nil_iff.mpr fun e he => Bool.eq_false_iff.mp (hdisabled e he)
    simp [select, hnil]

end Select

end StrategySelector

end AuraGateway.Router
