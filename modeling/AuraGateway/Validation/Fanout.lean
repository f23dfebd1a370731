import AuraGateway.Foundations.KeyedFolds
import AuraGateway.Foundations.Selection
import AuraGateway.Provider.ChatChunks
import AuraGateway.Proxy.Calls
import AuraGateway.Standard.JsStd
import AuraGateway.Types.Responses

/-!
# Fan-out

A fan-out fires several calls of one request, keeps the candidates that completed, lets a
selector choose one of them and stamps it with the metadata of the run. It always returns a
candidate if one completed, and the first error otherwise (`runFanout_eq`): no index into the
candidates is out of range.

The selector sees only the candidates that completed, so the index that the metadata give is
an index into these. It is the position of the returned candidate among those fired exactly
when all candidates fired before it completed (`selected_index_iff`).
-/

set_option autoImplicit false

namespace AuraGateway.Validation

open AuraGateway.RustStd AuraGateway.Types AuraGateway.Proxy
open AuraGateway.Foundations.KeyedFolds AuraGateway.Foundations.Selection
open AuraGateway.JsStd (CaseTable)
open AuraGateway.Provider (HashOrder)

/-- How to pick the winning candidate. -/
inductive FanoutSelector where
  | highestLogprob
  | mostFrequent
  deriving DecidableEq, Repr

/-- Errors of a fan-out; `ε` are those of a provider call. -/
inductive FanoutError (ε : Type) where
  | allCandidatesFailed (n : Nat) (source : ε)
  | invalidN (n : Nat)

/-- `MAX_N`. -/
def maxN : Nat := 8

/-- The request that each of `n` candidates is sent. -/
def candidateRequest (n : Nat) (request : CreateResponseRequest) : CreateResponseRequest :=
  if n = 1 then { request with stream := false }
  else
    { request with
      stream := false
      temperature := request.temperature.or (some defaultFanoutTemperature) }

/-- The candidates of a dispatch are sent the same. -/
theorem fanoutRequest_eq (request : CreateResponseRequest) :
    fanoutRequest request = candidateRequest (fanoutSize request) request := rfl

/-! ## Normalised texts -/

/-- Collapse runs of whitespace and drop sentence punctuation. -/
def collapse : Bool → List Char → List Char
  | _, [] => []
  | prevSpace, c :: cs =>
      if isWhitespace c then
        if prevSpace then collapse true cs else ' ' :: collapse true cs
      -- punctuation does not end a run of whitespace
      else if c ∈ ['.', ',', ';', '!', '?'] then collapse prevSpace cs
      else c :: collapse false cs

/-- Normalise text for grouping; the table holds the lowercase forms beyond ASCII. -/
def normalizeText (table : CaseTable) (s : String) : String :=
  String.ofList (collapse false (trimChars (table.toLowerCase s.toList)))

example : normalizeText .fixed " Hello,  World. " = "hello world" := by decide +kernel

/-! ## Selectors -/

/-- The candidates that have a measured confidence. -/
def withConfidence (candidates : List Response) : List (Nat × Float32) :=
  candidates.zipIdx.filterMap fun (c, i) =>
    (c.validation.bind (·.confidence)).map fun confidence => (i, confidence)

/-- The lengths of the texts, up to a cap. -/
def cappedLengths (candidates : List Response) : List (Nat × Nat) :=
  candidates.zipIdx.map fun (c, i) => (i, min c.text.utf8ByteSize 4000)

/-- Pick the candidate of the highest confidence, and the longest one if none has any. -/
def selectByLogprob (candidates : List Response) : Option (Nat × String) :=
  -- scores that do not compare count as equal
  match lastMax (fun a b => decide (b.2 < a.2)) (withConfidence candidates) with
  | some (idx, score) =>
      some (idx, "highest_logprob: confidence=" ++ formatFixed 4 score.toFloat)
  | none =>
      (lastMax (fun a b => decide (b.2 < a.2)) (cappedLengths candidates)).map fun (idx, _) =>
        (idx, "highest_logprob: no logprobs available; selected by output length (cap 4000)")

/-- The candidates of each text, in the order in which the texts come first. -/
def groupByText (texts : List String) : List (String × List Nat) :=
  collect [] (·.1) (fun p indices => indices ++ [p.2]) texts.zipIdx

section Select

variable (table : CaseTable) (order : HashOrder (String × List Nat))

/-- Pick the winning candidate and say why; `order` is the one in which the groups of equal
texts are visited. -/
def selectWinner (candidates : List Response) : FanoutSelector → Option (Nat × String)
  | .highestLogprob => selectByLogprob candidates
  | .mostFrequent => do
      let texts := candidates.map fun c => normalizeText table c.text
      let (largestGroup, indices) ←
        lastMax (fun a b => decide (b.2.length < a.2.length)) (order.visit (groupByText texts))
      if 1 < indices.length then
        let group ← indices.mapM fun i => candidates[i]?
        let (offset, _) ← selectByLogprob group
        let globalIndex ← indices[offset]?
        some (globalIndex, "most_frequent: " ++ Nat.repr indices.length ++ " of "
          ++ Nat.repr candidates.length ++ " candidates produced equivalent output")
      else
        let (idx, _) ← selectByLogprob candidates
        some (idx, "most_frequent: no agreement (largest_group=" ++ largestGroup
          ++ "); fell back to highest_logprob")

/-! ### The selected index is in range -/

/-- The indices of a text. -/
def indicesOf (texts : List String) (t : String) : List Nat :=
  (texts.zipIdx.filter fun p => p.1 = t).map (·.2)

theorem mem_indicesOf {texts : List String} {t : String} {i : Nat} :
    i ∈ indicesOf texts t ↔ texts[i]? = some t := by
  rw [indicesOf, List.mem_map]
  constructor
  · rintro ⟨p, hp, rfl⟩
    obtain ⟨hp, heq⟩ := List.mem_filter.mp hp
    rw [← of_decide_eq_true heq]
    exact List.mk_mem_zipIdx_iff_getElem?.mp hp
  · intro h
    exact ⟨(t, i), List.mem_filter.mpr ⟨List.mk_mem_zipIdx_iff_getElem?.mpr h, decide_eq_true rfl⟩,
      rfl⟩

/-- The groups are the texts with their indices. -/
theorem mem_groupByText_iff {texts : List String} {t : String} {indices : List Nat} :
    (t, indices) ∈ groupByText texts ↔ t ∈ texts ∧ indices = indicesOf texts t := by
  have hentry : ∀ (ops : List (String × Nat)) (t : String),
      entry [] (·.1) (fun (p : String × Nat) (indices : List Nat) => indices ++ [p.2]) ops t
        = (ops.filter fun p => p.1 = t).map (·.2) := by
    intro ops t
    induction ops using List.reverseRecOn with
    | nil => rfl
    | append_singleton ops p ih =>
        rw [entry_concat, ih]
        by_cases heq : p.1 = t
        · simp [heq]
        · simp [heq]
  have hkeys : ∀ t, t ∈ (groupByText texts).map Prod.fst ↔ t ∈ texts := by
    intro t
    rw [groupByText, mem_keys_collect, List.zipIdx_map_fst]
  rw [← hkeys t, indicesOf, ← hentry]
  constructor
  · intro h
    refine ⟨List.mem_map_of_mem h, ?_⟩
    rw [groupByText, collect_eq_map] at h
    obtain ⟨t', -, heq⟩ := List.mem_map.mp h
    obtain ⟨rfl, rfl⟩ := Prod.mk.inj heq
    rfl
  · rintro ⟨ht, rfl⟩
    rw [groupByText, collect_eq_map]
    exact List.mem_map.mpr ⟨t, ht, rfl⟩

/-- The indices of a group are those of candidates, and there is one. -/
theorem mem_groupByText {texts : List String} {t : String} {indices : List Nat}
    (h : (t, indices) ∈ groupByText texts) :
    indices ≠ [] ∧ ∀ i ∈ indices, texts[i]? = some t := by
  obtain ⟨ht, rfl⟩ := mem_groupByText_iff.mp h
  constructor
  · obtain ⟨i, hi⟩ := List.mem_iff_getElem?.mp ht
    exact List.ne_nil_of_mem (mem_indicesOf.mpr hi)
  · exact fun i hi => mem_indicesOf.mp hi

theorem visit_groupByText_ne_nil {texts : List String} (h : texts ≠ []) :
    order.visit (groupByText texts) ≠ [] := by
  obtain ⟨t, ht⟩ := List.exists_mem_of_ne_nil texts h
  have hmem : (t, indicesOf texts t) ∈ groupByText texts := mem_groupByText_iff.mpr ⟨ht, rfl⟩
  exact List.ne_nil_of_mem ((order.perm _).mem_iff.mpr hmem)

theorem withConfidence_lt {candidates : List Response} {p : Nat × Float32}
    (h : p ∈ withConfidence candidates) : p.1 < candidates.length := by
  obtain ⟨⟨c, i⟩, hc, hp⟩ := List.mem_filterMap.mp h
  obtain ⟨confidence, -, rfl⟩ := Option.map_eq_some_iff.mp hp
  have := List.mk_mem_zipIdx_iff_getElem?.mp hc
  exact (List.getElem?_eq_some_iff.mp this).1

theorem cappedLengths_lt {candidates : List Response} {p : Nat × Nat}
    (h : p ∈ cappedLengths candidates) : p.1 < candidates.length := by
  obtain ⟨⟨c, i⟩, hc, rfl⟩ := List.mem_map.mp h
  have := List.mk_mem_zipIdx_iff_getElem?.mp hc
  exact (List.getElem?_eq_some_iff.mp this).1

/-- One of the candidates is selected. -/
theorem selectByLogprob_spec {candidates : List Response} (h : candidates ≠ []) :
    ∃ i reason, selectByLogprob candidates = some (i, reason) ∧ i < candidates.length := by
  simp only [selectByLogprob]
  split
  · rename_i idx score hmax
    exact ⟨idx, _, rfl, withConfidence_lt (lastMax_mem hmax)⟩
  · have hne : cappedLengths candidates ≠ [] := by
      intro hnil
      rw [cappedLengths, List.map_eq_nil_iff, List.zipIdx_eq_nil_iff] at hnil
      exact h hnil
    obtain ⟨p, hp⟩ := exists_lastMax (fun a b : Nat × Nat => decide (b.2 < a.2)) hne
    rw [hp]
    exact ⟨p.1, _, rfl, cappedLengths_lt (lastMax_mem hp)⟩

theorem exists_mapM {α β : Type} {f : α → Option β} {l : List α}
    (h : ∀ a ∈ l, (f a).isSome = true) : ∃ bs, l.mapM f = some bs ∧ bs.length = l.length := by
  induction l with
  | nil => exact ⟨[], rfl, rfl⟩
  | cons a l ih =>
      obtain ⟨b, hb⟩ := Option.isSome_iff_exists.mp (h a List.mem_cons_self)
      obtain ⟨bs, hbs, hlength⟩ := ih fun a ha => h a (List.mem_cons_of_mem _ ha)
      refine ⟨b :: bs, ?_, congrArg (· + 1) hlength⟩
      rw [List.mapM_cons, hb, hbs]
      rfl

/-- Whatever the selector, one of the candidates is selected. -/
theorem selectWinner_spec {candidates : List Response} (h : candidates ≠ [])
    (selector : FanoutSelector) :
    ∃ i reason, selectWinner table order candidates selector = some (i, reason)
      ∧ i < candidates.length := by
  cases selector with
  | highestLogprob => exact selectByLogprob_spec h
  | mostFrequent =>
      have htexts : (candidates.map fun c => normalizeText table c.text) ≠ [] := by
        intro hnil
        exact h (List.map_eq_nil_iff.mp hnil)
      obtain ⟨⟨largestGroup, indices⟩, hmax⟩ :=
        exists_lastMax (fun a b : String × List Nat => decide (b.2.length < a.2.length))
          (visit_groupByText_ne_nil order htexts)
      have hgroup := mem_groupByText ((order.perm _).mem_iff.mp (lastMax_mem hmax))
      have hrange : ∀ i ∈ indices, i < candidates.length := by
        intro i hi
        have hlt := (List.getElem?_eq_some_iff.mp (hgroup.2 i hi)).1
        rwa [List.length_map] at hlt
      simp only [selectWinner, hmax, Option.bind_eq_bind, Option.bind_some]
      split
      · -- a group of equal texts: every index of it leads to a candidate
        obtain ⟨group, hmapM, hlength⟩ := exists_mapM (f := fun i => candidates[i]?) (l := indices)
          (by
            intro i hi
            rw [List.getElem?_eq_getElem (hrange i hi)]
            rfl)
        have hne : group ≠ [] := by
          intro hnil
          rw [hnil] at hlength
          exact hgroup.1 (List.length_eq_zero_iff.mp hlength.symm)
        obtain ⟨offset, reason, hselect, hlt⟩ := selectByLogprob_spec hne
        rw [hlength] at hlt
        rw [hmapM, Option.bind_some, hselect, Option.bind_some, List.getElem?_eq_getElem hlt,
          Option.bind_some]
        exact ⟨_, _, rfl, hrange _ (List.getElem_mem hlt)⟩
      · obtain ⟨i, reason, hselect, hlt⟩ := selectByLogprob_spec h
        rw [hselect, Option.bind_some]
        exact ⟨i, _, rfl, hlt⟩

end Select

/-! ## Metadata -/

/-- `Usage::default`. -/
def defaultUsage : Usage where
  inputTokens := 0
  outputTokens := 0
  totalTokens := 0
  reasoningTokens := none
  cachedTokens := none
  costUsd := none

/-- The sum of one field over all candidates. -/
def totalOf (field : Usage → Nat) (usages : List Usage) : Nat :=
  usages.foldl (fun total u => saturatingAddU32 total (field u)) 0

/-- The sum of the costs, if there is one. -/
def totalCost (usages : List Usage) : Option Float :=
  let costs := usages.filterMap (·.costUsd)
  if costs.isEmpty then none else some (costs.foldl (· + ·) 0.0)

/-- The usage of a fan-out. -/
def aggregateUsage (usages : List Usage) : Usage where
  inputTokens := totalOf (·.inputTokens) usages
  outputTokens := totalOf (·.outputTokens) usages
  totalTokens :=
    saturatingAddU32 (totalOf (·.inputTokens) usages) (totalOf (·.outputTokens) usages)
  reasoningTokens := none
  cachedTokens :=
    let total := totalOf (fun u => u.cachedTokens.getD 0) usages
    if 0 < total then some total else none
  costUsd := totalCost usages

def FanoutSelector.strategy : FanoutSelector → ValidationStrategy
  | .highestLogprob => .bestOfN
  | .mostFrequent => .selfConsistency

def streamingWarning : String :=
  "best_of_n / self_consistency cannot stream; served as a single non-streaming response"

/-- The metadata of a fan-out; what was measured of the response is kept. -/
def fanoutMetadata (response : Response) (selector : FanoutSelector) (n selectedIndex : Nat)
    (selectionReason : Option String) (originalStream : Bool) : ValidationMetadata where
  strategy := selector.strategy
  confidence := response.validation.bind (·.confidence)
  perplexity := none
  candidatesGenerated := some n
  selectedIndex := some selectedIndex
  selectionReason :=
    if n = 1 then selectionReason.or (some "n=1: no fanout") else selectionReason
  passed := true
  warning := if originalStream then some streamingWarning else none
  logprobs := response.validation.bind (·.logprobs)

/-- Stamp the winning response with the metadata and the usage of the fan-out. -/
def attachFanoutMetadata (response : Response) (selector : FanoutSelector) (n selectedIndex : Nat)
    (selectionReason : Option String) (originalStream : Bool) (usages : List Usage) : Response :=
  { response with
    usage := some (aggregateUsage usages)
    validation :=
      some (fanoutMetadata response selector n selectedIndex selectionReason originalStream) }

/-! ## The run -/

section Run

variable {ε : Type} (table : CaseTable) (order : HashOrder (String × List Nat))

/-- Sort the results into the candidates that completed and the first error. -/
def partitionResults (results : List (Except ε Response)) : List Response × Option ε :=
  results.foldl
    (fun (successes, firstError) result =>
      match result with
      | .ok resp =>
          if resp.status = .completed then (successes ++ [resp], firstError)
          else (successes, firstError)
      | .error e => (successes, firstError.or (some e)))
    ([], none)

/-- The results of the `n` calls, in the order in which they were fired; `complete i` is the
provider at the `i`-th call. -/
def fired (complete : Nat → CreateResponseRequest → Except ε Response)
    (request : CreateResponseRequest) (n : Nat) : List (Except ε Response) :=
  (List.range n).map fun i => complete i (candidateRequest n request)

/-- Run a fan-out; nothing is returned where the source would panic. -/
def runFanout (internal : String → ε)
    (complete : Nat → CreateResponseRequest → Except ε Response)
    (request : CreateResponseRequest) (n : Nat) (selector : FanoutSelector) :
    Option (Except (FanoutError ε) Response) :=
  if n = 0 ∨ maxN < n then some (.error (.invalidN n))
  else if n = 1 then
    match complete 0 (candidateRequest 1 request) with
    | .error source => some (.error (.allCandidatesFailed 1 source))
    | .ok response =>
        some (.ok (attachFanoutMetadata response selector 1 0 none request.stream
          [response.usage.getD defaultUsage]))
  else
    let (successes, firstError) := partitionResults (fired complete request n)
    if successes.isEmpty then
      some (.error (.allCandidatesFailed n
        (firstError.getD (internal "all candidates returned non-Completed status"))))
    else do
      let usages := successes.map fun r => r.usage.getD defaultUsage
      let (selectedIndex, reason) ← selectWinner table order successes selector
      let winner ← successes[selectedIndex]?
      some (.ok (attachFanoutMetadata winner selector n (selectedIndex % 2 ^ 8) (some reason)
        request.stream usages))

/-! ### What a run returns -/

variable {table order}

/-- The response of a candidate that completed. -/
def completedResponse : Except ε Response → Option Response
  | .ok resp => if resp.status = .completed then some resp else none
  | .error _ => none

/-- The error of a candidate that failed. -/
def failure : Except ε Response → Option ε
  | .ok _ => none
  | .error e => some e

theorem partitionResults_eq (results : List (Except ε Response)) :
    partitionResults results
      = (results.filterMap completedResponse, results.findSome? failure) := by
  induction results using List.reverseRecOn with
  | nil => rfl
  | append_singleton results result ih =>
      simp only [partitionResults] at ih ⊢
      rw [List.foldl_append, ih, List.filterMap_append, List.findSome?_append]
      cases result with
      | ok resp =>
          by_cases hcompleted : resp.status = .completed
          · simp [completedResponse, failure, hcompleted]
          · simp [completedResponse, failure, hcompleted]
      | error e => simp [completedResponse, failure]

variable {internal : String → ε} {complete : Nat → CreateResponseRequest → Except ε Response}
  {request : CreateResponseRequest} {n : Nat} {selector : FanoutSelector} {response : Response}

variable (table order internal complete request selector) in
/-- A proper fan-out returns a completed candidate, and if there is none, the first error. -/
theorem runFanout_eq (hn : 2 ≤ n) (hmax : n ≤ 8) :
    (∃ index reason winner,
        selectWinner table order ((fired complete request n).filterMap completedResponse) selector
          = some (index, reason)
        ∧ ((fired complete request n).filterMap completedResponse)[index]? = some winner
        ∧ index < 8
        ∧ runFanout table order internal complete request n selector
          = some (.ok (attachFanoutMetadata winner selector n index (some reason) request.stream
              (((fired complete request n).filterMap completedResponse).map
                fun r => r.usage.getD defaultUsage))))
      ∨ (fired complete request n).filterMap completedResponse = []
        ∧ runFanout table order internal complete request n selector
          = some (.error (.allCandidatesFailed n (((fired complete request n).findSome? failure).getD
              (internal "all candidates returned non-Completed status")))) := by
  have hrange : ¬ (n = 0 ∨ maxN < n) := by
    simp only [maxN]
    omega
  have hone : n ≠ 1 := by omega
  simp only [runFanout, if_neg hrange, if_neg hone, partitionResults_eq]
  by_cases hnil : (fired complete request n).filterMap completedResponse = []
  · refine .inr ⟨hnil, ?_⟩
    rw [hnil]
    rfl
  · left
    obtain ⟨index, reason, hselect, hlt⟩ := selectWinner_spec table order hnil selector
    -- there are at most as many completed candidates as were fired
    have hle : ((fired complete request n).filterMap completedResponse).length ≤ n := by
      refine (List.length_filterMap_le _ _).trans ?_
      simp [fired]
    refine ⟨index, reason, _, hselect, List.getElem?_eq_getElem hlt, by omega, ?_⟩
    rw [if_neg (by simpa using hnil), hselect, Option.bind_eq_bind, Option.bind_some,
      List.getElem?_eq_getElem hlt, Option.bind_eq_bind, Option.bind_some,
      Nat.mod_eq_of_lt (show index < 2 ^ 8 by omega)]

/-- The candidate that is returned, among those fired: it is the one that the selector picks
among the completed ones. -/
def Returned (table : CaseTable) (order : HashOrder (String × List Nat))
    (selector : FanoutSelector) (results : List (Except ε Response)) (position : Nat)
    (r : Response) : Prop :=
  ∃ index reason,
    selectWinner table order (results.filterMap completedResponse) selector = some (index, reason)
      ∧ IsOrigin completedResponse results index position r

/-- Only one candidate is returned. -/
theorem Returned.unique {results : List (Except ε Response)} {position position' : Nat}
    {r r' : Response} (h : Returned table order selector results position r)
    (h' : Returned table order selector results position' r') : position = position' ∧ r = r' := by
  obtain ⟨index, reason, hselect, horigin⟩ := h
  obtain ⟨index', reason', hselect', horigin'⟩ := h'
  rw [hselect] at hselect'
  obtain ⟨rfl, -⟩ := Prod.mk.inj (Option.some.inj hselect')
  exact horigin.unique horigin'

/-- When a fan-out succeeds, the output is that of one of the candidates fired, and their number
is given as it is. The index given is the position of that candidate exactly when all candidates
fired before it completed. -/
theorem selected_index_iff (hn : 2 ≤ n) (hmax : n ≤ 8)
    (h : runFanout table order internal complete request n selector = some (.ok response)) :
    ∃ position r metadata,
      Returned table order selector (fired complete request n) position r
        ∧ response = { r with usage := response.usage, validation := some metadata }
        ∧ metadata.candidatesGenerated = some n
        ∧ (metadata.selectedIndex = some position ↔
            ∀ result ∈ (fired complete request n).take position,
              (completedResponse result).isSome = true) := by
  rcases runFanout_eq table order internal complete request selector hn hmax with
    ⟨index, reason, winner, hselect, hwinner, -, heq⟩ | ⟨-, heq⟩
  · rw [heq] at h
    obtain rfl := Except.ok.inj (Option.some.inj h)
    obtain ⟨position, horigin⟩ := exists_origin hwinner
    refine ⟨position, winner, _, ⟨index, reason, hselect, horigin⟩, rfl, rfl, ?_⟩
    rw [← horigin.index_eq_iff]
    exact Option.some_inj
  · rw [heq] at h
    cases Option.some.inj h

end Run

/-! ### A failure before the winner -/

namespace Sample

/-- Groups are visited as they were made. -/
def asMade : HashOrder (String × List Nat) := ⟨id, fun _ => .rfl⟩

def answer (id text : String) : Response :=
  { Response.builder id "gpt-4o" 0 with
    status := .completed
    output := [Item.assistant "msg_0" text] }

/-- The first call times out, the second one answers. -/
def secondAnswers (i : Nat) (_ : CreateResponseRequest) : Except String Response :=
  if i = 0 then .error "timeout" else .ok (answer "resp_b" "42")

/-- Both calls answer. -/
def bothAnswer (i : Nat) (_ : CreateResponseRequest) : Except String Response :=
  .ok (if i = 0 then answer "resp_a" "6 * 7 = 42" else answer "resp_b" "42")

def run (complete : Nat → CreateResponseRequest → Except String Response) :
    Option (Except (FanoutError String) Response) :=
  runFanout .fixed asMade id complete (.text "gpt-4o" "6 * 7?") 2 .highestLogprob

end Sample

open Sample in
/-- The second candidate is returned under the index 0. -/
theorem failure_shifts_index :
    (fired secondAnswers (.text "gpt-4o" "6 * 7?") 2)[0]? = some (.error "timeout")
      ∧ ∃ response metadata, run secondAnswers = some (.ok response)
        ∧ response.id = "resp_b" ∧ response.validation = some metadata
        ∧ metadata.candidatesGenerated = some 2 ∧ metadata.selectedIndex = some 0 :=
  ⟨rfl, _, _, rfl, rfl, rfl, rfl, rfl⟩

open Sample in
theorem selected_index_sample :
    ∃ response, run bothAnswer = some (.ok response)
      ∧ ∃ position r metadata,
        Returned .fixed asMade .highestLogprob (fired bothAnswer (.text "gpt-4o" "6 * 7?") 2)
            position r
          ∧ response = { r with usage := response.usage, validation := some metadata }
          ∧ metadata.candidatesGenerated = some 2
          ∧ (metadata.selectedIndex = some position ↔
              ∀ result ∈ (fired bothAnswer (.text "gpt-4o" "6 * 7?") 2).take position,
                (completedResponse result).isSome = true) := by
  obtain ⟨response, hrun⟩ : ∃ response, run bothAnswer = some (.ok response) := ⟨_, rfl⟩
  exact ⟨response, hrun, selected_index_iff (by decide) (by decide) hrun⟩

end AuraGateway.Validation
