import AuraGateway.Provider.Gemini

/-!
# What Gemini streams give

A chunk gives what its parts queue (`drive_chunk`). What a stream gives is the opening, what
the chunks up to the first finishing one give, the final response, and what later chunks give
(`exists_geminiStreamed`).
-/

set_option autoImplicit false

namespace AuraGateway.Provider

open AuraGateway.Foundations AuraGateway.Foundations.KeyedFolds AuraGateway.Types

variable {ν : Type}

/-! ## What a chunk gives -/

namespace GeminiTransformer

/-- A transformer between two lines: the opening is over and the queue is empty. -/
structure Settled (t : GeminiTransformer) : Prop where
  opened : t.toStreamState.Opened
  empty : t.pending = []

/-- What parts give and leave, by the texts and the function calls they carry. -/
structure Gives (toJson : ν → String) (texts : List String)
    (calls : List (Nat × GeminiFunctionCall ν)) (t : GeminiTransformer) (items : List StreamItem)
    (t' : GeminiTransformer) : Prop where
  opened : t.Opened → t'.Opened
  sent : t'.completedSent = t.completedSent
  completed : items.filterMap Provider.completedResponse = []
  text : deltaText items = String.join texts
  accumulatedText : t'.accumulatedText = t.accumulatedText ++ String.join texts
  accumulatedFunctionCalls : t'.accumulatedFunctionCalls
    = amendAll {} Prod.fst (fun p _ => p.2.entry toJson) t.accumulatedFunctionCalls calls

/-- Parts queue what they give. -/
def Queues (toJson : ν → String) (texts : List String) (calls : List (Nat × GeminiFunctionCall ν))
    (t t' : GeminiTransformer) : Prop :=
  ∃ items, t'.pending = t.pending ++ items ∧ Gives toJson texts calls t items t'

variable {toJson : ν → String} {texts texts' : List String}
  {calls calls' : List (Nat × GeminiFunctionCall ν)} {t t' t'' : GeminiTransformer}

theorem Gives.append {items items' : List StreamItem} (h : Gives toJson texts calls t items t')
    (h' : Gives toJson texts' calls' t' items' t'') :
    Gives toJson (texts ++ texts') (calls ++ calls') t (items ++ items') t'' where
  opened ho := h'.opened (h.opened ho)
  sent := h'.sent.trans h.sent
  completed := by rw [List.filterMap_append, h.completed, h'.completed, List.nil_append]
  text := by
    have htext := h.text
    have htext' := h'.text
    rw [deltaText] at htext htext' ⊢
    rw [List.filterMap_append, String.join_append, String.join_append, htext, htext']
  accumulatedText := by
    rw [h'.accumulatedText, h.accumulatedText, String.join_append, String.append_assoc]
  accumulatedFunctionCalls := by
    rw [h'.accumulatedFunctionCalls, h.accumulatedFunctionCalls, amendAll_append]

theorem Gives.refl (t : GeminiTransformer) : Gives toJson [] [] t [] t where
  opened h := h
  sent := rfl
  completed := rfl
  text := rfl
  accumulatedText := String.append_empty.symm
  accumulatedFunctionCalls := rfl

theorem Queues.refl (t : GeminiTransformer) : Queues toJson [] [] t t :=
  ⟨[], (List.append_nil _).symm, .refl t⟩

theorem Queues.append (h : Queues toJson texts calls t t')
    (h' : Queues toJson texts' calls' t' t'') :
    Queues toJson (texts ++ texts') (calls ++ calls') t t'' := by
  obtain ⟨items, hpending, hgives⟩ := h
  obtain ⟨items', hpending', hgives'⟩ := h'
  exact ⟨items ++ items', by rw [hpending', hpending, List.append_assoc], hgives.append hgives'⟩

variable (toJson)

theorem announceItem_queues (t : GeminiTransformer) : Queues toJson [] [] t t.announceItem := by
  rw [announceItem]
  split
  · exact .refl t
  · exact ⟨_, rfl, fun h => h, rfl, rfl, rfl, String.append_empty.symm, rfl⟩

theorem announcePart_queues (t : GeminiTransformer) : Queues toJson [] [] t t.announcePart := by
  rw [announcePart]
  split
  · exact .refl t
  · exact ⟨_, rfl, fun h => h, rfl, rfl, rfl, String.append_empty.symm, rfl⟩

theorem handleText_queues (text : String) (t : GeminiTransformer) :
    Queues toJson [text] [] t (t.handleText text) := by
  have hjoin : String.join [text] = text := by simp [String.join_cons]
  rw [handleText]
  split
  · rename_i hempty
    have htext : text = "" := String.isEmpty_iff.mp hempty
    subst htext
    exact ⟨[], (List.append_nil _).symm, fun h => h, rfl, rfl, rfl, String.append_empty.symm, rfl⟩
  · have hannounced := (announceItem_queues toJson t).append (announcePart_queues toJson _)
    refine hannounced.append ⟨[.ok (.outputTextDelta 0 0 text)], rfl, ?_⟩
    exact
      { opened := fun h => h
        sent := rfl
        completed := rfl
        text := rfl
        accumulatedText := by rw [hjoin]; rfl
        accumulatedFunctionCalls := rfl }

theorem handleFunctionCall_queues (partIdx : Nat) (fc : GeminiFunctionCall ν)
    (t : GeminiTransformer) :
    Queues toJson [] [(partIdx, fc)] t (t.handleFunctionCall partIdx fc.name (toJson fc.args)) := by
  simp only [handleFunctionCall]
  split
  · exact ⟨[], (List.append_nil _).symm, fun h => h, rfl, rfl, rfl, String.append_empty.symm, rfl⟩
  · exact ⟨_, rfl, fun h => h, rfl, rfl, rfl, String.append_empty.symm, rfl⟩

theorem handlePart_queues (p : GeminiPart ν × Nat) (t : GeminiTransformer) :
    Queues toJson p.1.text?.toList (p.1.functionCall?.map fun fc => (p.2, fc)).toList t
      (handlePart toJson t p) := by
  obtain ⟨part, partIdx⟩ := p
  cases part with
  | text text => exact handleText_queues toJson text t
  | inlineData => exact .refl t
  | fileData => exact .refl t
  | functionCall functionCall => exact handleFunctionCall_queues toJson partIdx functionCall t
  | functionResponse => exact .refl t

theorem handleParts_queues (l : List (GeminiPart ν × Nat)) (t : GeminiTransformer) :
    Queues toJson (l.filterMap fun p => p.1.text?)
      (l.filterMap fun p => p.1.functionCall?.map fun fc => (p.2, fc)) t
      (l.foldl (handlePart toJson) t) := by
  induction l generalizing t with
  | nil => exact .refl t
  | cons p l ih =>
      have hcons : ∀ {α : Type} (f : GeminiPart ν × Nat → Option α),
          (p :: l).filterMap f = (f p).toList ++ l.filterMap f := by
        intro α f
        cases hf : f p <;> simp [hf]
      rw [hcons, hcons, List.foldl_cons]
      exact (handlePart_queues toJson p t).append (ih _)

/-- Parts without text and function calls do nothing. -/
theorem handleParts_quiet (l : List (GeminiPart ν × Nat)) (t : GeminiTransformer)
    (htext : ∀ text ∈ l.filterMap fun p => p.1.text?, text = "")
    (hcalls : l.filterMap (fun p => p.1.functionCall?.map fun fc => (p.2, fc)) = []) :
    l.foldl (handlePart toJson) t = t := by
  induction l with
  | nil => rfl
  | cons p l ih =>
      obtain ⟨part, partIdx⟩ := p
      have hpart : handlePart toJson t (part, partIdx) = t := by
        cases part with
        | text text =>
            have hempty : text = "" := htext text (by simp [GeminiPart.text?])
            subst hempty
            rfl
        | inlineData => rfl
        | fileData => rfl
        | functionCall functionCall => simp [GeminiPart.functionCall?] at hcalls
        | functionResponse => rfl
      rw [List.foldl_cons, hpart]
      refine ih (fun text hmem => htext text ?_) ?_
      · rw [List.filterMap_cons]
        split
        · exact hmem
        · exact List.mem_cons_of_mem _ hmem
      · rw [List.filterMap_cons] at hcalls
        split at hcalls
        · exact hcalls
        · cases hcalls

variable (now : Int) (c : GeminiResponse ν)

theorem processSseData_eq (t : GeminiTransformer) :
    t.processSseData now toJson c
      = (c.parts.zipIdx.foldl (handlePart toJson) (t.noteUsage c.usageMetadata)).handleFinish now
          (c.candidate?.bind (·.finishReason)) := by
  rw [processSseData, GeminiResponse.parts, GeminiResponse.candidate?]
  cases hcandidate : c.candidates.bind List.head? with
  | none => rfl
  | some candidate => rfl

theorem noteUsage_queues (u : Option GeminiUsageMetadata) (t : GeminiTransformer) :
    Queues toJson [] [] t (t.noteUsage u) := by
  cases u with
  | none => exact .refl t
  | some u =>
      exact ⟨[], (List.append_nil _).symm, fun h => h, rfl, rfl, rfl, String.append_empty.symm, rfl⟩

/-- What the parts of a chunk do, without the finish reason. -/
theorem parts_queues (t : GeminiTransformer) :
    Queues toJson c.texts c.calls t
      (c.parts.zipIdx.foldl (handlePart toJson) (t.noteUsage c.usageMetadata)) := by
  have htexts : c.texts = c.parts.zipIdx.filterMap fun p => p.1.text? := by
    have hparts : c.parts = c.parts.zipIdx.map Prod.fst := (List.zipIdx_map_fst 0 c.parts).symm
    rw [GeminiResponse.texts]
    conv_lhs => rw [hparts, List.filterMap_map]
    rfl
  rw [htexts]
  exact (noteUsage_queues toJson c.usageMetadata t).append (handleParts_queues toJson c.parts.zipIdx _)

/-- The finish reason of a chunk that gives no final response. -/
theorem handleFinish_eq (h : c.finishes = false ∨ t.completedSent = true) :
    t.handleFinish now (c.candidate?.bind (·.finishReason)) = t := by
  rw [handleFinish, if_neg]
  rw [Bool.and_eq_true]
  rintro ⟨hfinishes, hopen⟩
  rcases h with h | h
  · exact Bool.noConfusion (h.symm.trans hfinishes)
  · rw [h] at hopen
    cases hopen

/-- A chunk that gives no final response. -/
theorem processSseData_queues (h : c.finishes = false ∨ t.completedSent = true) :
    Queues toJson c.texts c.calls t (t.processSseData now toJson c) := by
  have hqueues := parts_queues toJson c t
  rw [processSseData_eq toJson now c, handleFinish_eq now c]
  · exact hqueues
  · obtain ⟨items, -, hgives⟩ := hqueues
    rw [hgives.sent]
    exact h

/-- A chunk that carries nothing. -/
theorem processSseData_quiet (h : c.finishes = false ∨ t.completedSent = true)
    (htexts : ∀ text ∈ c.texts, text = "") (hcalls : c.calls = []) :
    (t.processSseData now toJson c).pending = t.pending := by
  obtain ⟨items, hpending, hgives⟩ := noteUsage_queues toJson c.usageMetadata t
  have hquiet : c.parts.zipIdx.foldl (handlePart toJson) (t.noteUsage c.usageMetadata)
      = t.noteUsage c.usageMetadata := by
    refine handleParts_quiet toJson _ _ (fun text hmem => htexts text ?_) hcalls
    obtain ⟨p, hp, htext⟩ := List.mem_filterMap.mp hmem
    exact List.mem_filterMap.mpr ⟨p.1, List.fst_mem_of_mem_zipIdx hp, htext⟩
  rw [processSseData_eq toJson now c, hquiet, handleFinish_eq now c]
  · cases c.usageMetadata <;> rfl
  · rw [hgives.sent]
    exact h

/-- The first chunk that finishes. -/
theorem processSseData_finishes (h : c.finishes = true) (hsent : t.completedSent = false) :
    ∃ t', Queues toJson c.texts c.calls t t'
      ∧ t.processSseData now toJson c
        = { t' with completedSent := true }.push (.responseCompleted (t'.completedResponse now)) := by
  have hqueues := parts_queues toJson c t
  refine ⟨_, hqueues, ?_⟩
  obtain ⟨items, -, hgives⟩ := hqueues
  have hopen : (!(c.parts.zipIdx.foldl (handlePart toJson)
      (t.noteUsage c.usageMetadata)).completedSent) = true := by
    rw [hgives.sent, hsent]
    rfl
  rw [processSseData_eq toJson now c, handleFinish, if_pos]
  rw [Bool.and_eq_true]
  exact ⟨h, hopen⟩

/-! ## What a stream gives -/

theorem Settled.ready_eq_none (h : t.Settled) : t.ready now = none := by
  simp [ready, h.opened.opening_eq_none, h.empty]

/-- The queue comes first. -/
theorem drive_pending (events : List StreamItem) (h : t.toStreamState.Opened)
    (rest : List (String ⊕ GeminiResponse ν)) :
    (GeminiStreamTransformer.machine now toJson).drive { t with pending := events } rest
      = events ++ (GeminiStreamTransformer.machine now toJson).drive { t with pending := [] }
          rest := by
  induction events with
  | nil => rfl
  | cons e events ih =>
      have hready : (GeminiStreamTransformer.machine now toJson).ready { t with pending := e :: events }
          = some (e, { t with pending := events }) := by
        simp [GeminiStreamTransformer.machine, ready, h.opening_eq_none]
      rw [PolledStream.Machine.drive_of_ready hready, ih]
      rfl

/-- A chunk gives what it leaves in the queue. -/
theorem drive_chunk (h : t.Settled) (hopened : (t.processSseData now toJson c).Opened)
    (rest : List (String ⊕ GeminiResponse ν)) :
    (GeminiStreamTransformer.machine now toJson).drive t (.inr c :: rest)
      = (t.processSseData now toJson c).pending
        ++ (GeminiStreamTransformer.machine now toJson).drive
            { t.processSseData now toJson c with pending := [] } rest := by
  have hready : (GeminiStreamTransformer.machine now toJson).ready t = none := h.ready_eq_none now
  rw [PolledStream.Machine.drive_line hready, ← drive_pending toJson now _ hopened]
  rfl

/-- What chunks give that give no final response. -/
theorem drive_chunks (cs : List (GeminiResponse ν)) (h : t.Settled)
    (hsent : (∀ c ∈ cs, c.finishes = false) ∨ t.completedSent = true) :
    ∃ items t', Gives toJson (Provider.texts cs) (Provider.calls cs) t items t' ∧ t'.Settled
      ∧ ((∀ text ∈ Provider.texts cs, text = "") → Provider.calls cs = [] → items = [])
      ∧ ∀ rest, (GeminiStreamTransformer.machine now toJson).drive t (cs.map .inr ++ rest)
        = items ++ (GeminiStreamTransformer.machine now toJson).drive t' rest := by
  induction cs generalizing t with
  | nil => exact ⟨[], t, .refl t, h, fun _ _ => rfl, fun rest => rfl⟩
  | cons c cs ih =>
      have hhead : c.finishes = false ∨ t.completedSent = true :=
        hsent.imp_left fun hall => hall c (List.mem_cons_self ..)
      obtain ⟨items, hpending, hgives⟩ := processSseData_queues toJson now c hhead
      rw [h.empty, List.nil_append] at hpending
      have hopened : (t.processSseData now toJson c).Opened := hgives.opened h.opened
      let t' := { t.processSseData now toJson c with pending := [] }
      have hgives' : Gives toJson c.texts c.calls t items t' :=
        { hgives with opened := hgives.opened }
      have htail : (∀ c ∈ cs, c.finishes = false) ∨ t'.completedSent = true := by
        rw [hgives'.sent]
        exact hsent.imp_left fun hall b hb => hall b (List.mem_cons_of_mem _ hb)
      obtain ⟨items', t'', hrest, hsettled, hquiet, hdrive⟩ := ih (t := t') ⟨hopened, rfl⟩ htail
      refine ⟨items ++ items', t'', ?_, hsettled, ?_, fun rest => ?_⟩
      · rw [Provider.texts, Provider.calls, List.flatMap_cons, List.flatMap_cons]
        exact hgives'.append hrest
      · intro htexts hcalls
        rw [Provider.texts, List.flatMap_cons] at htexts
        rw [Provider.calls, List.flatMap_cons, List.append_eq_nil_iff] at hcalls
        have hnone := processSseData_quiet toJson now c hhead
          (fun text hmem => htexts text (List.mem_append_left _ hmem)) hcalls.1
        rw [hpending, h.empty] at hnone
        rw [hnone, hquiet (fun text hmem => htexts text (List.mem_append_right _ hmem)) hcalls.2,
          List.append_nil]
      · rw [List.map_cons, List.cons_append, drive_chunk toJson now c h hopened, hpending, hdrive,
          List.append_assoc]

/-- The end of the source closes the response, if no chunk did and there is content. -/
theorem drive_nil (h : t.Settled) :
    (GeminiStreamTransformer.machine now toJson).drive t []
      = if !t.completedSent && (!t.accumulatedText.isEmpty || !t.accumulatedFunctionCalls.isEmpty)
        then [.ok (.responseCompleted (t.completedResponse now))] else [] := by
  have hready : (GeminiStreamTransformer.machine now toJson).ready t = none := h.ready_eq_none now
  split
  · rename_i hopen
    have hfinish : (GeminiStreamTransformer.machine now toJson).finish t
        = some (.ok (.responseCompleted (t.completedResponse now)),
          { t with completedSent := true }) := if_pos hopen
    have hready' : (GeminiStreamTransformer.machine now toJson).ready
        { t with completedSent := true } = none :=
      Settled.ready_eq_none now (t := { t with completedSent := true }) ⟨h.opened, h.empty⟩
    rw [PolledStream.Machine.drive, PolledStream.Machine.close_of_finish hready hfinish,
      PolledStream.Machine.close_of_none hready' (by rfl)]
  · rename_i hclosed
    exact PolledStream.Machine.close_of_none hready (if_neg hclosed)

end GeminiTransformer

/-- A stream that gives a final response: a chunk finishes, or there is content. -/
def responds (cs : List (GeminiResponse ν)) : Bool :=
  cs.any GeminiResponse.finishes || !(String.join (texts cs)).isEmpty || !(calls cs).isEmpty

/-- What a stream gives: the opening, what the chunks up to the first finishing one give, the
final response, and what the later chunks give. -/
structure GeminiStreamed (env : StreamEnv) (toJson : ν → String) (cs : List (GeminiResponse ν))
    (items : List StreamItem) (t : GeminiTransformer) (items' given : List StreamItem) : Prop where
  given_eq : given = openingItems env "resp_gem_" ++ items
    ++ (if responds cs then [.ok (.responseCompleted (t.completedResponse env.now))] else [])
    ++ items'
  completed : items.filterMap completedResponse = []
  text : deltaText items = String.join (texts (upToFinish cs))
  accumulatedText : t.accumulatedText = String.join (texts (upToFinish cs))
  accumulatedFunctionCalls : t.accumulatedFunctionCalls
    = collect {} Prod.fst (fun p _ => p.2.entry toJson) (calls (upToFinish cs))
  completed' : items'.filterMap completedResponse = []
  text' : deltaText items' = String.join (texts (afterFinish cs))
  quiet' : (∀ text ∈ texts (afterFinish cs), text = "") → calls (afterFinish cs) = [] → items' = []

section Streamed

open GeminiTransformer

variable (env : StreamEnv) (toJson : ν → String) (parse : String → Option (GeminiResponse ν))
  (pieces : List (List UInt8))

/-- What a stream gives is determined by the chunks of its whole body. -/
theorem gemini_transform_eq_drive :
    GeminiStreamTransformer.transform env toJson parse (pieces.map .ok)
      = openingItems env "resp_gem_"
        ++ (GeminiStreamTransformer.machine env.now toJson).drive
            { GeminiStreamTransformer.start env with sentCreated := true, sentInProgress := true }
            ((receivedEvents parse pieces).map .inr) := by
  rw [GeminiStreamTransformer.transform, PolledStream.Machine.run_start,
    PolledStream.Machine.drive_comap, PolledStream.Machine.drive_of_ready (by rfl),
    PolledStream.Machine.drive_of_ready (by rfl)]
  rfl

theorem isEmpty_collect_calls (fcs : List (Nat × GeminiFunctionCall ν)) :
    (collect {} Prod.fst (fun p (_ : PartialFunctionCall) => p.2.entry toJson) fcs).isEmpty
      = fcs.isEmpty := by
  cases fcs with
  | nil => rfl
  | cons p fcs =>
      have hmem : p.1 ∈ (collect {} Prod.fst
          (fun p (_ : PartialFunctionCall) => p.2.entry toJson) (p :: fcs)).map Prod.fst :=
        (mem_keys_collect _ _).mpr (List.mem_cons_self ..)
      cases hcollect : collect {} Prod.fst
          (fun p (_ : PartialFunctionCall) => p.2.entry toJson) (p :: fcs) with
      | nil =>
          rw [hcollect] at hmem
          exact absurd hmem List.not_mem_nil
      | cons q rest => rfl

/-- Chunks, driven from the start: no chunk finishes, or there is a first one that does. -/
theorem exists_driven (cs : List (GeminiResponse ν)) (t₀ : GeminiTransformer) (h : t₀.Settled)
    (hsent : t₀.completedSent = false) (htext : t₀.accumulatedText = "")
    (hcalls : t₀.accumulatedFunctionCalls = []) :
    ∃ items t items',
      Gives toJson (texts (upToFinish cs)) (calls (upToFinish cs)) t₀ items t
        ∧ items'.filterMap completedResponse = []
        ∧ deltaText items' = String.join (texts (afterFinish cs))
        ∧ ((∀ text ∈ texts (afterFinish cs), text = "") → calls (afterFinish cs) = [] → items' = [])
        ∧ (GeminiStreamTransformer.machine env.now toJson).drive t₀ (cs.map .inr)
          = items ++ (if responds cs then
              [.ok (.responseCompleted (t.completedResponse env.now))] else []) ++ items' := by
  rcases finish_cases cs with ⟨hnone, hupto, hafter⟩ | ⟨before, c, hbefore, hc, hupto⟩
  · -- the response is closed at the end
    obtain ⟨items, t, hgives, hsettled, -, hdrive⟩ :=
      drive_chunks toJson env.now cs h (Or.inl hnone)
    have hresponds : responds cs
        = (!t.completedSent && (!t.accumulatedText.isEmpty || !t.accumulatedFunctionCalls.isEmpty)) := by
      have hany : cs.any GeminiResponse.finishes = false :=
        List.any_eq_false.mpr fun c hc => by rw [hnone c hc]; exact Bool.false_ne_true
      have hentries := isEmpty_collect_calls toJson (calls cs)
      rw [hgives.sent, hsent, hgives.accumulatedText, htext, String.empty_append,
        hgives.accumulatedFunctionCalls, hcalls]
      rw [collect] at hentries
      rw [hentries, responds, hany]
      simp
    have hlast := drive_nil toJson env.now hsettled
    rw [← hresponds] at hlast
    refine ⟨items, t, [], by rw [hupto]; exact hgives, rfl, by rw [hafter]; rfl, fun _ _ => rfl, ?_⟩
    rw [← List.append_nil (cs.map Sum.inr), hdrive, hlast, List.append_nil]
  · -- the response is closed by the chunk
    obtain ⟨items₁, t₁, hgives₁, hsettled₁, -, hdrive₁⟩ :=
      drive_chunks toJson env.now before h (Or.inl hbefore)
    have hsent₁ : t₁.completedSent = false := hgives₁.sent.trans hsent
    obtain ⟨t₂, ⟨items₂, hpending, hgives₂⟩, hprocess⟩ :=
      processSseData_finishes toJson env.now c hc hsent₁
    rw [hsettled₁.empty, List.nil_append] at hpending
    have hopened₂ : t₂.Opened := hgives₂.opened hsettled₁.opened
    let t₃ : GeminiTransformer := { t₂ with completedSent := true, pending := [] }
    obtain ⟨items', t₄, hgives₃, hsettled₄, hquiet, hdrive₃⟩ :=
      drive_chunks toJson env.now (t := t₃) (afterFinish cs) ⟨hopened₂, rfl⟩ (Or.inr rfl)
    have hcs : cs = before ++ c :: afterFinish cs := by
      have hsplit := upToFinish_append_afterFinish cs
      rw [hupto, List.append_assoc] at hsplit
      exact hsplit.symm
    have hresponds : responds cs = true := by
      have hany : cs.any GeminiResponse.finishes = true := by
        rw [hcs, List.any_append, List.any_cons, hc, Bool.true_or, Bool.or_true]
      rw [responds, hany, Bool.true_or, Bool.true_or]
    have hlast : (GeminiStreamTransformer.machine env.now toJson).drive t₄ [] = [] := by
      rw [drive_nil toJson env.now hsettled₄, hgives₃.sent]
      rfl
    refine ⟨items₁ ++ items₂, t₂, items', ?_, hgives₃.completed, hgives₃.text, hquiet, ?_⟩
    · rw [hupto, texts, calls, List.flatMap_append, List.flatMap_append, List.flatMap_singleton,
        List.flatMap_singleton]
      exact hgives₁.append hgives₂
    · have hinputs : cs.map (Sum.inr (α := String))
          = before.map .inr ++ .inr c :: ((afterFinish cs).map .inr ++ []) := by
        conv_lhs => rw [hcs]
        rw [List.map_append, List.map_cons, List.append_nil]
      have hpushed : (t₁.processSseData env.now toJson c).pending
          = items₂ ++ [.ok (.responseCompleted (t₂.completedResponse env.now))] := by
        rw [hprocess, push]
        exact congrArg (· ++ _) hpending
      have hleft : { t₁.processSseData env.now toJson c with pending := [] } = t₃ := by
        rw [hprocess]
        rfl
      rw [hinputs, hdrive₁, drive_chunk toJson env.now c hsettled₁ (by rw [hprocess]; exact hopened₂), hpushed,
        hleft, hdrive₃, hlast, hresponds]
      simp only [if_true, List.append_assoc, List.append_nil]

theorem exists_geminiStreamed :
    ∃ items t items', GeminiStreamed env toJson (receivedEvents parse pieces) items t items'
      (GeminiStreamTransformer.transform env toJson parse (pieces.map .ok)) := by
  obtain ⟨items, t, items', hgives, hcompleted, htext, hquiet, hdrive⟩ :=
    exists_driven env toJson (receivedEvents parse pieces)
      { GeminiStreamTransformer.start env with sentCreated := true, sentInProgress := true }
      ⟨⟨rfl, rfl⟩, rfl⟩ rfl rfl rfl
  refine ⟨items, t, items', ?_⟩
  exact
    { given_eq := by
        rw [gemini_transform_eq_drive, hdrive]
        simp only [List.append_assoc]
      completed := hgives.completed
      text := hgives.text
      accumulatedText := hgives.accumulatedText.trans String.empty_append
      accumulatedFunctionCalls := hgives.accumulatedFunctionCalls
      completed' := hcompleted
      text' := htext
      quiet' := hquiet }

end Streamed

end AuraGateway.Provider
