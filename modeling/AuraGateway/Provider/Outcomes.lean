import AuraGateway.Provider.ChatAdapters
import AuraGateway.Provider.GeminiRoundTrip

/-!
# Whole and streamed answers

OpenAI and Gemini send an answer whole or in chunks. A finish reason is read in a whole answer
and passed over in a stream, which is closed as completed in any case; text and calls are lost
on the way as the transformers lose them. `streamed_outcome_iff` says for which answers, and
for which chunks of them, the response that closes a stream has the outcome of the response to
the whole answer.
-/

set_option autoImplicit false

namespace AuraGateway.Provider

open AuraGateway.Foundations AuraGateway.Foundations.KeyedFolds AuraGateway.Types

/-- Two responses have the same outcome. -/
structure SameOutcome (r r' : Response) : Prop where
  status : r.status = r'.status
  incompleteReason : r.incompleteReason = r'.incompleteReason
  text : r.text = r'.text
  calls : emittedCalls r = emittedCalls r'

/-- A stream is closed by one response, which has the outcome of the response to the whole
answer. -/
def ClosedAs (whole : Response) (given : List StreamItem) : Prop :=
  ∃ r, given.filterMap completedResponse = [r] ∧ SameOutcome r whole

/-! ## Maps in whatever order -/

universe u

section Orders

variable {α : Type} {β : Type u}

/-- Lists of the same elements, all of them equal, are equal. -/
theorem eq_of_perm_of_alike {l l' : List β} (h : l.Perm l') (halike : ∀ a ∈ l, ∀ b ∈ l, a = b) :
    l = l' := by
  cases l with
  | nil => exact h.nil_eq
  | cons a l =>
      have hl : a :: l = List.replicate (a :: l).length a :=
        List.eq_replicate_of_mem fun b hb => halike b hb a List.mem_cons_self
      have hl' : l' = List.replicate l'.length a :=
        List.eq_replicate_of_mem fun b hb => halike b (h.mem_iff.mpr hb) a List.mem_cons_self
      rw [hl, hl', h.length_eq]

variable [DecidableEq α]

/-- A hash map that visits an entry before the others. -/
def HashOrder.first (a : α) : HashOrder α where
  visit l := if a ∈ l then a :: l.erase a else l
  perm l := by
    split
    · rename_i hmem
      exact (List.perm_cons_erase hmem).symm
    · exact List.Perm.refl l

/-- What is read of the entries does not depend on their order exactly when it is the same of
each. -/
theorem map_visit_iff (f : α → β) (l : List α) (r : List β) :
    (∀ order : HashOrder α, (order.visit l).map f = r)
      ↔ (∀ a ∈ l, ∀ b ∈ l, f a = f b) ∧ l.map f = r := by
  constructor
  · intro h
    have hhead : ∀ a ∈ l, r.head? = some (f a) := by
      intro a ha
      rw [← h (.first a), HashOrder.first]
      simp only [if_pos ha, List.map_cons, List.head?_cons]
    refine ⟨fun a ha b hb => ?_, h .forward⟩
    exact Option.some.inj ((hhead a ha).symm.trans (hhead b hb))
  · rintro ⟨halike, rfl⟩ order
    have hperm := (order.perm l).map f
    apply eq_of_perm_of_alike hperm
    intro x hx y hy
    -- both are read of entries
    obtain ⟨a, ha, rfl⟩ := List.mem_map.mp (hperm.mem_iff.mp hx)
    obtain ⟨b, hb, rfl⟩ := List.mem_map.mp (hperm.mem_iff.mp hy)
    exact halike a ha b hb

end Orders

/-! ## OpenAI -/

namespace ChatAnswer

variable (answer : ChatAnswer AnswerCall)

def content : String := (answer.choices.head?.bind (·.message.content)).getD ""

def calls : List AnswerCall := (answer.choices.head?.bind (·.message.toolCalls)).getD []

def finishReason? : Option String := answer.choices.head?.map (·.finishReason)

end ChatAnswer

/-- What the fragments of an index say. -/
def fieldsOf (frags : List StreamToolCall) (i : Nat) : String × String × String :=
  (lastId (ofIndex frags i), lastName (ofIndex frags i), joinedArguments (ofIndex frags i))

def PartialToolCall.fields (call : PartialToolCall) : String × String × String :=
  (call.id, call.name, call.arguments)

/-- Chunks that carry an answer: its content in pieces, and its tool calls in fragments. -/
structure ChatChunking (answer : ChatAnswer AnswerCall) (cs : List StreamChunk) : Prop where
  content : String.join (contents cs) = answer.content
  calls : (receivedIndices (fragments cs)).map (fieldsOf (fragments cs))
    = answer.calls.map AnswerCall.fields

/-- The calls of a stream are alike, and no fragment that is lost makes a difference. -/
structure CallsAlike (cs : List StreamChunk) : Prop where
  alike : ∀ a ∈ fragments cs, ∀ b ∈ fragments cs,
    fieldsOf (fragments cs) a.index = fieldsOf (fragments cs) b.index
  allReached : ∀ tc ∈ fragments cs, tc.index ∈ (reached cs).map (·.index)
  whole : ∀ tc ∈ fragments cs, fieldsOf (reached cs) tc.index = fieldsOf (fragments cs) tc.index

/-- The answers and chunks for which OpenAI's stream has the outcome of the whole answer. -/
structure ChatAgrees (answer : ChatAnswer AnswerCall) (cs : List StreamChunk) : Prop where
  completes : answer.finishReason? ∉ [none, some "length", some "content_filter"]
  leadingEmpty : ∀ s ∈ (contents cs).take 2, s = ""
  calls : CallsAlike cs

/-- The calls of a final response are the entries, in the order that the map is visited. -/
theorem callFields_finalOutput (order : HashOrder (Nat × PartialToolCall)) (text : String)
    (calls : List (Nat × PartialToolCall)) :
    (finalOutput order text calls).filterMap callFields
      = (order.visit calls).map fun p => p.2.fields := by
  have hmessage : (if text.isEmpty then [] else [Item.assistant "msg_0" text]).filterMap callFields
      = [] := by
    split <;> rfl
  rw [finalOutput, List.filterMap_append, hmessage, List.nil_append, callItems, List.filterMap_map,
    ← List.filterMap_eq_map]
  rfl

/-- The fields of the entries are what the fragments of their indices say. -/
theorem map_fields_accumulated (frags : List StreamToolCall) :
    (accumulated frags).map (fun p => p.2.fields) = (indices frags).map (fieldsOf frags) := by
  have heq : accumulated frags = (indices frags).map fun k =>
      (k, entry {} StreamToolCall.index StreamToolCall.merge frags k) := collect_eq_map frags
  conv_lhs => rw [heq, List.map_map]
  refine List.map_congr_left fun k _ => ?_
  simp [entry_merge, PartialToolCall.fields, fieldsOf]

theorem indices_reached_perm {cs : List StreamChunk}
    (h : ∀ tc ∈ fragments cs, tc.index ∈ (reached cs).map (·.index)) :
    (indices (reached cs)).Perm (receivedIndices (fragments cs)) := by
  refine (List.perm_ext_iff_of_nodup (nodup_indices _) (Finset.sort_nodup _ _)).mpr fun i => ?_
  rw [mem_indices]
  apply Iff.trans _ mem_receivedIndices.symm
  constructor
  · intro hi
    obtain ⟨tc, htc, rfl⟩ := List.mem_map.mp hi
    exact List.mem_map.mpr ⟨tc, mem_fragments.mpr (Or.inl htc), rfl⟩
  · intro hi
    obtain ⟨tc, htc, rfl⟩ := List.mem_map.mp hi
    exact h tc htc

/-- As many indices are reached as there are only if each is. -/
theorem reached_of_length {cs : List StreamChunk}
    (h : (receivedIndices (fragments cs)).length ≤ (indices (reached cs)).length) :
    ∀ tc ∈ fragments cs, tc.index ∈ (reached cs).map (·.index) := by
  have hsubset : indices (reached cs) ⊆ receivedIndices (fragments cs) := by
    intro i hi
    obtain ⟨tc, htc, rfl⟩ := List.mem_map.mp (mem_indices.mp hi)
    exact mem_receivedIndices.mpr (List.mem_map.mpr ⟨tc, mem_fragments.mpr (Or.inl htc), rfl⟩)
  have hperm := (List.subperm_of_subset (nodup_indices _) hsubset).perm_of_length_le h
  intro tc htc
  have hmem := mem_receivedIndices.mpr (List.mem_map.mpr ⟨tc, htc, rfl⟩)
  exact mem_indices.mp (hperm.mem_iff.mpr hmem)

/-- The calls are those that the fragments say, in whatever order the map is visited, exactly
when they are alike and nothing of them is lost. -/
theorem callsAlike_iff (cs : List StreamChunk) :
    (∀ order : HashOrder (Nat × PartialToolCall),
        (order.visit (accumulated (reached cs))).map (fun p => p.2.fields)
          = (receivedIndices (fragments cs)).map (fieldsOf (fragments cs)))
      ↔ CallsAlike cs := by
  rw [map_visit_iff, map_fields_accumulated]
  constructor
  · rintro ⟨halike, heq⟩
    have hlength := congrArg List.length heq
    rw [List.length_map, List.length_map] at hlength
    have hreached := reached_of_length hlength.ge
    -- the same fields throughout
    have hsame : ∀ x ∈ (indices (reached cs)).map (fieldsOf (reached cs)),
        ∀ y ∈ (indices (reached cs)).map (fieldsOf (reached cs)), x = y := by
      rw [← map_fields_accumulated]
      intro x hx y hy
      obtain ⟨a, ha, rfl⟩ := List.mem_map.mp hx
      obtain ⟨b, hb, rfl⟩ := List.mem_map.mp hy
      exact halike a ha b hb
    have hsaid : ∀ tc ∈ fragments cs, fieldsOf (fragments cs) tc.index
        ∈ (indices (reached cs)).map (fieldsOf (reached cs)) := by
      intro tc htc
      rw [heq]
      exact List.mem_map_of_mem (mem_receivedIndices.mpr (List.mem_map.mpr ⟨tc, htc, rfl⟩))
    exact
      { alike := fun a ha b hb => hsame _ (hsaid a ha) _ (hsaid b hb)
        allReached := hreached
        whole := fun tc htc =>
          hsame _ (List.mem_map_of_mem (mem_indices.mpr (hreached tc htc))) _ (hsaid tc htc) }
  · intro h
    have hfields : ∀ i ∈ indices (reached cs), ∃ tc ∈ fragments cs, tc.index = i
        ∧ fieldsOf (reached cs) i = fieldsOf (fragments cs) tc.index := by
      intro i hi
      obtain ⟨tc, htc, rfl⟩ := List.mem_map.mp (mem_indices.mp hi)
      have hmem := mem_fragments.mpr (Or.inl htc)
      exact ⟨tc, hmem, rfl, h.whole tc hmem⟩
    have hsame : ∀ i ∈ indices (reached cs), ∀ j ∈ indices (reached cs),
        fieldsOf (reached cs) i = fieldsOf (reached cs) j := by
      intro i hi j hj
      obtain ⟨a, ha, -, hai⟩ := hfields i hi
      obtain ⟨b, hb, -, hbj⟩ := hfields j hj
      rw [hai, hbj, h.alike a ha b hb]
    constructor
    · have hpairs : ∀ x ∈ (accumulated (reached cs)).map (fun p => p.2.fields),
          ∀ y ∈ (accumulated (reached cs)).map (fun p => p.2.fields), x = y := by
        rw [map_fields_accumulated]
        intro x hx y hy
        obtain ⟨i, hi, rfl⟩ := List.mem_map.mp hx
        obtain ⟨j, hj, rfl⟩ := List.mem_map.mp hy
        exact hsame i hi j hj
      intro a ha b hb
      exact hpairs _ (List.mem_map_of_mem ha) _ (List.mem_map_of_mem hb)
    · have hwhole : (indices (reached cs)).map (fieldsOf (reached cs))
          = (indices (reached cs)).map (fieldsOf (fragments cs)) := by
        refine List.map_congr_left fun i hi => ?_
        obtain ⟨tc, -, rfl, heq⟩ := hfields i hi
        exact heq
      apply eq_of_perm_of_alike
      · rw [hwhole]
        exact (indices_reached_perm h.allReached).map _
      · intro x hx y hy
        obtain ⟨i, hi, rfl⟩ := List.mem_map.mp hx
        obtain ⟨j, hj, rfl⟩ := List.mem_map.mp hy
        exact hsame i hi j hj

/-- What the response to a whole answer says. -/
theorem openai_whole (answer : ChatAnswer AnswerCall) (validation : Option ValidationMetadata)
    (model : String) :
    let r := OpenAIProvider.transformResponse answer validation model
    (r.status = .completed ∧ r.incompleteReason = none
        ↔ answer.finishReason? ∉ [none, some "length", some "content_filter"])
      ∧ r.text = answer.content ∧ emittedCalls r = answer.calls.map AnswerCall.fields := by
  dsimp only
  rw [ChatAnswer.finishReason?, ChatAnswer.content, ChatAnswer.calls,
    OpenAIProvider.transformResponse, AnswerFormat.response]
  cases hchoice : answer.choices.head? with
  | none =>
      refine ⟨iff_of_false (fun h => ?_) (fun h => ?_), rfl, rfl⟩
      · cases h.1
      · exact h List.mem_cons_self
  | some choice =>
      refine ⟨?_, ?_, ?_⟩
      · have hreason : (OpenAIProvider.answerFormat.incompleteReason choice.finishReason) = none
            ↔ choice.finishReason ≠ "length" ∧ choice.finishReason ≠ "content_filter" := by
          simp only [OpenAIProvider.answerFormat]
          split
          · rename_i heq
            simp [heq]
          · rename_i heq
            simp [heq]
          · rename_i hlength hfilter
            exact iff_of_true rfl ⟨hlength, hfilter⟩
        cases hr : OpenAIProvider.answerFormat.incompleteReason choice.finishReason with
        | none => simp [hr, hreason.mp hr]
        | some reason =>
            have hsome : ¬ (choice.finishReason ≠ "length"
                ∧ choice.finishReason ≠ "content_filter") := by
              intro h
              rw [hreason.mpr h] at hr
              cases hr
            simp only [hr]
            refine iff_of_false (fun h => ?_) (fun h => hsome ?_)
            · cases h.2
            · simpa using h
      · exact OpenAIProvider.answerFormat.text_items choice.message
      · rw [emittedCalls]
        refine (OpenAIProvider.answerFormat.callFields_items choice.message).trans ?_
        -- OpenAI's calls are read without their positions
        have hplain : (fun p : AnswerCall × Nat =>
            (OpenAIProvider.answerFormat.callOf p.2 p.1).fields) = AnswerCall.fields ∘ Prod.fst := rfl
        rw [hplain, ← List.map_map, List.zipIdx_map_fst]
        rfl

section OpenAI

variable (env : StreamEnv) {parse : String → Option StreamChunk} {pieces : List (List UInt8)}
  {cs : List StreamChunk} {answer : ChatAnswer AnswerCall}
  (validation : Option ValidationMetadata) (model : String)

theorem openai_closedAs_iff (order : HashOrder (Nat × PartialToolCall))
    (h : Terminated parse pieces cs) (hcs : ChatChunking answer cs) :
    ClosedAs (OpenAIProvider.transformResponse answer validation model)
        (OpenAIStreamTransformer.transform env order parse (pieces.map .ok))
      ↔ answer.finishReason? ∉ [none, some "length", some "content_filter"]
        ∧ (∀ s ∈ (contents cs).take 2, s = "")
        ∧ (order.visit (accumulated (reached cs))).map (fun p => p.2.fields)
          = (receivedIndices (fragments cs)).map (fieldsOf (fragments cs)) := by
  obtain ⟨items, t, hstream⟩ := OpenAIStreamTransformer.exists_streamed env order h
  obtain ⟨hcompletes, htext, hcalls⟩ := openai_whole answer validation model
  have hfinal : emittedCalls (t.finalResponse env.now order)
      = (order.visit (accumulated (reached cs))).map fun p => p.2.fields := by
    rw [← hstream.accumulatedToolCalls]
    exact callFields_finalOutput order t.accumulatedText t.accumulatedToolCalls
  rw [ClosedAs, hstream.completedResponses, hcs.calls, ← hcalls, ← hfinal, ← join_drop_eq_iff,
    hcs.content, ← htext, ← hstream.text_final, ← hcompletes]
  constructor
  · rintro ⟨r, hr, hsame⟩
    rw [← List.singleton_inj.mp hr] at hsame
    exact ⟨⟨hsame.status.symm, hsame.incompleteReason.symm⟩, hsame.text, hsame.calls⟩
  · rintro ⟨⟨hstatus, hreason⟩, htext, hcalls⟩
    exact ⟨_, rfl, ⟨hstatus.symm, hreason.symm, htext, hcalls⟩⟩

theorem openai_outcome_iff (h : Terminated parse pieces cs) (hcs : ChatChunking answer cs) :
    (∀ order, ClosedAs (OpenAIProvider.transformResponse answer validation model)
        (OpenAIStreamTransformer.transform env order parse (pieces.map .ok)))
      ↔ ChatAgrees answer cs := by
  rw [forall_congr' fun order => openai_closedAs_iff env validation model order h hcs]
  constructor
  · intro hall
    have hcalls := (callsAlike_iff cs).mp fun order => (hall order).2.2
    exact ⟨(hall .forward).1, (hall .forward).2.1, hcalls⟩
  · intro hagrees order
    exact ⟨hagrees.completes, hagrees.leadingEmpty, (callsAlike_iff cs).mpr hagrees.calls order⟩

end OpenAI

/-! ## Gemini -/

variable {ν : Type}

def GeminiResponse.finishReason? (c : GeminiResponse ν) : Option String :=
  c.candidate?.bind (·.finishReason)

/-- Chunks that carry an answer: its text in pieces, its function calls in their order, and its
finish reason, behind which nothing comes. -/
structure GeminiChunking (answer : GeminiResponse ν) (cs : List (GeminiResponse ν)) : Prop where
  text : String.join (texts cs) = String.join answer.texts
  calls : (calls cs).map Prod.snd = answer.parts.filterMap GeminiPart.functionCall?
  finishReason : cs.filterMap GeminiResponse.finishReason? = answer.finishReason?.toList
  nothingAfter : ∀ before c after, cs = before ++ c :: after → c.finishReason? ≠ none →
    (∀ s ∈ Provider.texts after, s = "") ∧ Provider.calls after = []

/-- What the calls say, in the order of the indices of their parts. -/
def sortedFields (toJson : ν → String) (fcs : List (Nat × GeminiFunctionCall ν)) :
    List (String × String × String) :=
  (fcs.mergeSort fun a b => decide (a.1 ≤ b.1)).map fun p => p.2.fields toJson

/-- The answers and chunks for which Gemini's stream has the outcome of the whole answer. -/
structure GeminiAgrees (toJson : ν → String) (answer : GeminiResponse ν)
    (cs : List (GeminiResponse ν)) : Prop where
  completes : answer.finishReason?
    ∉ [some "MAX_TOKENS", some "SAFETY", some "RECITATION", some "OTHER"]
  closes : answer.finishReason? = some "STOP" ∨ String.join answer.texts ≠ ""
    ∨ answer.parts.filterMap GeminiPart.functionCall? ≠ []
  distinct : ((calls cs).map Prod.fst).Nodup
  ordered : sortedFields toJson (calls cs) = (calls cs).map fun p => p.2.fields toJson

section Whole

variable (toJson : ν → String) (uuid : String) (now : Int) (answer : GeminiResponse ν)
  (model : String)

/-- Of a whole answer, four finish reasons are read as something else than completed. -/
theorem gemini_completes_of_whole
    (h : (GeminiProvider.transformResponse toJson uuid now answer model).status = .completed) :
    answer.finishReason?
      ∉ [some "MAX_TOKENS", some "SAFETY", some "RECITATION", some "OTHER"] := by
  intro hmem
  simp only [GeminiProvider.transformResponse] at h
  rw [← GeminiResponse.finishReason?] at h
  have hreason : ∀ reason ∈ ["MAX_TOKENS", "SAFETY", "RECITATION", "OTHER"],
      (geminiOutcome (geminiItems toJson 0 answer.parts) (some reason)).1 ≠ .completed := by
    intro reason hreason
    simp only [List.mem_cons, List.not_mem_nil, or_false] at hreason
    rcases hreason with rfl | rfl | rfl | rfl
    all_goals exact fun heq => by cases heq
  cases hr : answer.finishReason? with
  | none =>
      rw [hr] at hmem
      exact absurd hmem (by decide)
  | some reason =>
      rw [hr] at h hmem
      refine hreason reason ?_ h
      simpa using hmem

/-- With another finish reason, a whole answer is completed; without one, if it has content. -/
theorem gemini_whole_completed
    (hcloses : answer.finishReason? = some "STOP" ∨ String.join answer.texts ≠ ""
      ∨ answer.parts.filterMap GeminiPart.functionCall? ≠ [])
    (hcompletes : answer.finishReason?
      ∉ [some "MAX_TOKENS", some "SAFETY", some "RECITATION", some "OTHER"]) :
    (GeminiProvider.transformResponse toJson uuid now answer model).status = .completed
      ∧ (GeminiProvider.transformResponse toJson uuid now answer model).incompleteReason = none := by
  have hcontent : answer.finishReason? = none →
      (geminiItems toJson 0 answer.parts).isEmpty = false := by
    intro hnone
    rw [List.isEmpty_eq_false_iff]
    intro hempty
    rcases hcloses with hstop | htext | hcalls
    · rw [hnone] at hstop
      cases hstop
    · apply htext
      rw [GeminiResponse.texts, ← text_geminiItems toJson 0, hempty]
      rfl
    · apply hcalls
      have hfields := callFields_geminiItems toJson 0 answer.parts
      rw [hempty, List.filterMap_nil] at hfields
      exact List.map_eq_nil_iff.mp hfields.symm
  simp only [GeminiProvider.transformResponse]
  rw [← GeminiResponse.finishReason?]
  cases hreason : answer.finishReason? with
  | none => simp [geminiOutcome, hcontent hreason]
  | some reason =>
      rw [hreason] at hcompletes
      simp only [geminiOutcome]
      split
      all_goals simp_all

end Whole

section Calls

variable (toJson : ν → String) (fcs : List (Nat × GeminiFunctionCall ν))

/-- The entries of the calls are the calls in the order of their indices exactly when no index
comes twice and that is their order. -/
theorem entries_eq_calls_iff :
    ((collect {} Prod.fst (fun p (_ : PartialFunctionCall) => p.2.entry toJson) fcs).mergeSort
        fun a b => decide (a.1 ≤ b.1)).map (fun p => ("call_" ++ p.2.name, p.2.name, p.2.args))
      = fcs.map (fun p => p.2.fields toJson)
      ↔ (fcs.map Prod.fst).Nodup
        ∧ sortedFields toJson fcs = fcs.map fun p => p.2.fields toJson := by
  have hsorted : (fcs.map Prod.fst).Nodup →
      ((collect {} Prod.fst (fun p (_ : PartialFunctionCall) => p.2.entry toJson) fcs).mergeSort
        fun a b => decide (a.1 ≤ b.1)).map (fun p => ("call_" ++ p.2.name, p.2.name, p.2.args))
      = sortedFields toJson fcs := by
    intro hnodup
    rw [collect_of_nodup hnodup,
      ← map_mergeSort_keys (fun fc : GeminiFunctionCall ν => fc.entry toJson), List.map_map]
    rfl
  constructor
  · intro h
    have hlength := congrArg List.length h
    rw [List.length_map, List.length_map, List.length_mergeSort] at hlength
    have hnodup := (length_collect {} Prod.fst
      (fun p (_ : PartialFunctionCall) => p.2.entry toJson) fcs).2 hlength
    exact ⟨hnodup, (hsorted hnodup).symm.trans h⟩
  · rintro ⟨hnodup, hordered⟩
    exact (hsorted hnodup).trans hordered

end Calls

namespace GeminiChunking

variable {answer : GeminiResponse ν} {cs : List (GeminiResponse ν)}

/-- Nothing comes behind the chunk that finishes. -/
theorem afterFinish (h : GeminiChunking answer cs) :
    String.join (texts (upToFinish cs)) = String.join answer.texts
      ∧ Provider.calls (upToFinish cs) = Provider.calls cs := by
  have hnothing : (∀ s ∈ texts (Provider.afterFinish cs), s = "")
      ∧ Provider.calls (Provider.afterFinish cs) = [] := by
    rcases finish_cases cs with ⟨-, -, hafter⟩ | ⟨before, c, -, hc, hupto⟩
    · rw [hafter]
      exact ⟨fun s hs => absurd hs List.not_mem_nil, rfl⟩
    · have hsplit := upToFinish_append_afterFinish cs
      rw [hupto, List.append_assoc, List.singleton_append] at hsplit
      refine h.nothingAfter before c _ hsplit.symm fun hnone => ?_
      rw [GeminiResponse.finishes, ← GeminiResponse.finishReason?, hnone] at hc
      exact absurd hc (by decide)
  have hempty : String.join (texts (Provider.afterFinish cs)) = "" := by
    have hjoin := (join_drop_eq_iff (texts (Provider.afterFinish cs))
      (texts (Provider.afterFinish cs)).length).mpr (by
        rw [List.take_length]
        exact hnothing.1)
    rw [List.drop_length] at hjoin
    exact hjoin.symm
  constructor
  · rw [← h.text, texts_eq cs, String.join_append, hempty, String.append_empty]
  · rw [calls_eq cs, hnothing.2, List.append_nil]

theorem any_finishes_iff (h : GeminiChunking answer cs) :
    cs.any GeminiResponse.finishes = true
      ↔ answer.finishReason? ∈ [some "STOP", some "MAX_TOKENS", some "SAFETY"] := by
  have hmem : ∀ reason, (∃ c ∈ cs, c.finishReason? = some reason)
      ↔ answer.finishReason? = some reason := by
    intro reason
    rw [← List.mem_filterMap, h.finishReason, Option.mem_toList]
  have hfinishes : ∀ c : GeminiResponse ν, c.finishes = true
      ↔ c.finishReason? ∈ [some "STOP", some "MAX_TOKENS", some "SAFETY"] := by
    intro c
    simp [GeminiResponse.finishes, GeminiTransformer.finishes, GeminiResponse.finishReason?,
      or_assoc]
  rw [List.any_eq_true]
  constructor
  · rintro ⟨c, hc, hfinish⟩
    have hreason := (hfinishes c).mp hfinish
    -- a finish reason of a chunk is that of the answer
    cases hr : c.finishReason? with
    | none =>
        rw [hr] at hreason
        exact absurd hreason (by decide)
    | some reason =>
        rw [(hmem reason).mp ⟨c, hc, hr⟩, ← hr]
        exact hreason
  · intro hreason
    cases hr : answer.finishReason? with
    | none =>
        rw [hr] at hreason
        exact absurd hreason (by decide)
    | some reason =>
        obtain ⟨c, hc, heq⟩ := (hmem reason).mpr hr
        refine ⟨c, hc, (hfinishes c).mpr ?_⟩
        rw [heq, ← hr]
        exact hreason

theorem responds_iff (h : GeminiChunking answer cs) :
    responds cs = true
      ↔ answer.finishReason? ∈ [some "STOP", some "MAX_TOKENS", some "SAFETY"]
        ∨ String.join answer.texts ≠ ""
        ∨ answer.parts.filterMap GeminiPart.functionCall? ≠ [] := by
  have hcalls : answer.parts.filterMap GeminiPart.functionCall? ≠ [] ↔ Provider.calls cs ≠ [] := by
    rw [← h.calls, Ne, List.map_eq_nil_iff]
  rw [hcalls, ← h.any_finishes_iff, ← h.text, responds]
  simp [or_assoc]

end GeminiChunking

theorem gemini_outcome_iff (env : StreamEnv) (toJson : ν → String)
    (parse : String → Option (GeminiResponse ν)) (pieces : List (List UInt8))
    {answer : GeminiResponse ν} (uuid : String) (now : Int) (model : String)
    (hcs : GeminiChunking answer (receivedEvents parse pieces)) :
    ClosedAs (GeminiProvider.transformResponse toJson uuid now answer model)
        (GeminiStreamTransformer.transform env toJson parse (pieces.map .ok))
      ↔ GeminiAgrees toJson answer (receivedEvents parse pieces) := by
  obtain ⟨items, t, items', hstream⟩ := exists_geminiStreamed env toJson parse pieces
  obtain ⟨hupto, hcalls⟩ := hcs.afterFinish
  have htext : (t.completedResponse env.now).text
      = (GeminiProvider.transformResponse toJson uuid now answer model).text := by
    rw [GeminiTransformer.text_completedResponse, hstream.accumulatedText, hupto,
      GeminiProvider.text_transformResponse]
  have hwhole : emittedCalls (GeminiProvider.transformResponse toJson uuid now answer model)
      = (calls (receivedEvents parse pieces)).map fun p => p.2.fields toJson := by
    rw [emittedCalls, GeminiProvider.callFields_transformResponse, ← hcs.calls, List.map_map]
    rfl
  have hfinal : emittedCalls (t.completedResponse env.now)
      = emittedCalls (GeminiProvider.transformResponse toJson uuid now answer model)
      ↔ ((calls (receivedEvents parse pieces)).map Prod.fst).Nodup
        ∧ sortedFields toJson (calls (receivedEvents parse pieces))
          = (calls (receivedEvents parse pieces)).map fun p => p.2.fields toJson := by
    rw [GeminiTransformer.emittedCalls_completedResponse, hstream.accumulatedFunctionCalls, hcalls,
      hwhole]
    exact entries_eq_calls_iff toJson _
  rw [ClosedAs, hstream.completedResponses]
  constructor
  · rintro ⟨r, hr, hsame⟩
    have hresponds : responds (receivedEvents parse pieces) = true := by
      by_contra hnot
      rw [if_neg hnot] at hr
      cases hr
    rw [if_pos hresponds] at hr
    rw [← List.singleton_inj.mp hr] at hsame
    obtain ⟨hdistinct, hordered⟩ := hfinal.mp hsame.calls
    have hcompletes := gemini_completes_of_whole toJson uuid now answer model hsame.status.symm
    refine ⟨hcompletes, ?_, hdistinct, hordered⟩
    rcases hcs.responds_iff.mp hresponds with hreason | hcontent
    · rcases List.mem_cons.mp hreason with hstop | hother
      · exact Or.inl hstop
      · refine absurd ?_ hcompletes
        rcases List.mem_pair.mp hother with heq | heq
        · simp [heq]
        · simp [heq]
    · exact Or.inr hcontent
  · intro h
    have hresponds : responds (receivedEvents parse pieces) = true := by
      apply hcs.responds_iff.mpr
      rcases h.closes with hstop | hcontent
      · exact Or.inl (by simp [hstop])
      · exact Or.inr hcontent
    obtain ⟨hstatus, hreason⟩ :=
      gemini_whole_completed toJson uuid now answer model h.closes h.completes
    refine ⟨t.completedResponse env.now, by rw [if_pos hresponds], ?_⟩
    exact
      { status := hstatus.symm
        incompleteReason := hreason.symm
        text := htext
        calls := hfinal.mpr ⟨h.distinct, h.ordered⟩ }

/-- The response that closes a stream has the outcome of the response to the whole answer: for
OpenAI, in whatever order the map is visited, exactly when the answer is completed, the first
two content strings are empty and nothing of its calls is lost; for Gemini, exactly when the
answer is completed and no call is overwritten or moved. -/
theorem streamed_outcome_iff (env : StreamEnv) (pieces : List (List UInt8)) (model : String) :
    (∀ (parse : String → Option StreamChunk) (cs : List StreamChunk)
        (answer : ChatAnswer AnswerCall) (validation : Option ValidationMetadata),
      Terminated parse pieces cs → ChatChunking answer cs →
      ((∀ order, ClosedAs (OpenAIProvider.transformResponse answer validation model)
          (OpenAIStreamTransformer.transform env order parse (pieces.map .ok)))
        ↔ ChatAgrees answer cs))
      ∧ ∀ (toJson : ν → String) (parse : String → Option (GeminiResponse ν))
          (answer : GeminiResponse ν) (uuid : String) (now : Int),
        GeminiChunking answer (receivedEvents parse pieces) →
        (ClosedAs (GeminiProvider.transformResponse toJson uuid now answer model)
            (GeminiStreamTransformer.transform env toJson parse (pieces.map .ok))
          ↔ GeminiAgrees toJson answer (receivedEvents parse pieces)) :=
  ⟨fun _ _ _ validation h hcs => openai_outcome_iff env validation model h hcs,
    fun toJson parse _ uuid now hcs =>
      gemini_outcome_iff env toJson parse pieces uuid now model hcs⟩

/-! ### A truncated answer -/

/-- An answer of one word. -/
def wordAnswer (finishReason : String) : ChatAnswer AnswerCall :=
  ⟨"1", 0, [⟨⟨some "Hi", none⟩, finishReason⟩], none⟩

theorem wordAnswer_chunking (finishReason : String) :
    ChatChunking (wordAnswer finishReason) [textChunk "", textChunk "", textChunk "Hi"] where
  content := rfl
  calls := by
    have hnone : fragments [textChunk "", textChunk "", textChunk "Hi"] = [] := by decide
    rw [hnone]
    simp [receivedIndices, ChatAnswer.calls, wordAnswer]

/-- An answer of one word, with its payload. -/
def wordSent (finishReason : String) : List (String × GeminiResponse String) :=
  [("\x7b\"candidates\":[\x7b\"content\":\x7b\"parts\":[\x7b\"text\":\"Hi\"\x7d]\x7d,"
      ++ "\"finishReason\":\"" ++ finishReason ++ "\"\x7d]\x7d",
    wordChunk "Hi" (some finishReason))]

theorem word_known {finishReason : String} {cs : List Char} (h : finishReason = String.ofList cs)
    (hline : '\n' ∉ cs) : ∃ chars, KnownPayloads (wordSent finishReason) chars :=
  ⟨_, { texts := .cons (append_eq_ofList (append_eq_ofList (append_eq_ofList rfl rfl) h) rfl) .nil
        oneLine := by simp [hline]
        closed := by simp [List.getLast?_cons]
        distinct := List.nodup_singleton _ }⟩

theorem word_received : ∀ finishReason ∈ ["MAX_TOKENS", "STOP"],
    receivedEvents (parseGeminiSent (wordSent finishReason)) (geminiPieces (wordSent finishReason))
      = [wordChunk "Hi" (some finishReason)] := by
  intro finishReason hreason
  obtain ⟨chars, hknown⟩ : ∃ chars, KnownPayloads (wordSent finishReason) chars := by
    rcases List.mem_pair.mp hreason with rfl | rfl
    · exact word_known rfl (by decide)
    · exact word_known rfl (by decide)
  exact hknown.received (by simp [geminiPieces])

/-- An answer in one chunk. -/
theorem geminiChunking_singleton (answer : GeminiResponse ν) : GeminiChunking answer [answer] where
  text := by rw [texts, List.flatMap_singleton]
  calls := by
    rw [calls, List.flatMap_singleton]
    exact answer.map_snd_calls
  finishReason := by
    cases h : answer.finishReason? with
    | none => simp [h]
    | some reason => simp [h]
  nothingAfter := by
    intro before c after heq _
    rcases List.singleton_eq_append_iff.mp heq with ⟨-, hrest⟩ | ⟨-, hrest⟩
    · obtain ⟨-, rfl⟩ := List.cons.inj hrest
      exact ⟨fun s hs => absurd hs List.not_mem_nil, rfl⟩
    · cases hrest

/-- A truncated answer is incomplete as a whole and completed as a stream, of both providers. -/
theorem truncated_streamed_completed :
    (Terminated (parseSent paddedSent) paddedPieces [textChunk "", textChunk "", textChunk "Hi"]
        ∧ ChatChunking (wordAnswer "length") [textChunk "", textChunk "", textChunk "Hi"]
        ∧ ¬ ∀ order, ClosedAs (OpenAIProvider.transformResponse (wordAnswer "length") none "gpt-4o")
          (OpenAIStreamTransformer.transform ⟨"gpt-4o", "1", 0⟩ order (parseSent paddedSent)
            (paddedPieces.map .ok)))
      ∧ GeminiChunking (wordChunk "Hi" (some "MAX_TOKENS"))
          (receivedEvents (parseGeminiSent (wordSent "MAX_TOKENS"))
            (geminiPieces (wordSent "MAX_TOKENS")))
      ∧ ¬ ClosedAs (GeminiProvider.transformResponse id "1" 0 (wordChunk "Hi" (some "MAX_TOKENS"))
            "gemini-pro")
          (GeminiStreamTransformer.transform ⟨"gemini-pro", "1", 0⟩ id
            (parseGeminiSent (wordSent "MAX_TOKENS")) ((geminiPieces (wordSent "MAX_TOKENS")).map .ok))
      := by
  have hchat := wordAnswer_chunking "length"
  have hgemini : GeminiChunking (wordChunk "Hi" (some "MAX_TOKENS"))
      (receivedEvents (parseGeminiSent (wordSent "MAX_TOKENS"))
        (geminiPieces (wordSent "MAX_TOKENS"))) := by
    rw [word_received _ (by decide)]
    exact geminiChunking_singleton _
  refine ⟨⟨padded_terminated, hchat, fun h => ?_⟩, hgemini, fun h => ?_⟩
  · have hagrees := (openai_outcome_iff _ none "gpt-4o" padded_terminated hchat).mp h
    exact absurd hagrees.completes (by decide)
  · have hagrees := (gemini_outcome_iff _ id _ _ "1" 0 "gemini-pro" hgemini).mp h
    exact absurd hagrees.completes (by decide)

/-- With a finish reason that completes, both streams have the outcome of the whole answer. -/
theorem streamed_outcome_sample :
    (∀ order, ClosedAs (OpenAIProvider.transformResponse (wordAnswer "stop") none "gpt-4o")
        (OpenAIStreamTransformer.transform ⟨"gpt-4o", "1", 0⟩ order (parseSent paddedSent)
          (paddedPieces.map .ok)))
      ∧ ClosedAs (GeminiProvider.transformResponse id "1" 0 (wordChunk "Hi" (some "STOP"))
          "gemini-pro")
        (GeminiStreamTransformer.transform ⟨"gemini-pro", "1", 0⟩ id
          (parseGeminiSent (wordSent "STOP")) ((geminiPieces (wordSent "STOP")).map .ok)) := by
  have hreceived := word_received "STOP" (by decide)
  have hnone : fragments [textChunk "", textChunk "", textChunk "Hi"] = [] := by decide
  have hcalls : CallsAlike [textChunk "", textChunk "", textChunk "Hi"] := by
    constructor
    all_goals simp [hnone]
  constructor
  · refine ((streamed_outcome_iff (ν := String) _ _ "gpt-4o").1 _ _ _ none padded_terminated
      (wordAnswer_chunking "stop")).mpr ⟨by decide, by decide, hcalls⟩
  · have hnone : calls [wordChunk "Hi" (some "STOP")] = [] := by decide
    refine ((streamed_outcome_iff _ _ "gemini-pro").2 id _ _ "1" 0 ?_).mpr ?_
    · rw [hreceived]
      exact geminiChunking_singleton _
    · rw [hreceived]
      refine ⟨by decide, Or.inl rfl, by decide, ?_⟩
      rw [hnone, sortedFields, List.mergeSort_nil]

end AuraGateway.Provider
