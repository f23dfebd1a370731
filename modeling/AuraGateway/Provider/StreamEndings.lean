import AuraGateway.Foundations.Endings
import AuraGateway.Provider.QueuedStream

/-!
# How chat-completion streams end

A stream is closed by the end marker or by a fault of the connection. Neither the end of the
connection closes it nor does the end marker stop it: it ends once exactly when the connection
delivers one end marker or fault, and after that no chunk that gives an event
(`chat_ends_once_iff`).
-/

set_option autoImplicit false

namespace AuraGateway.Provider

open AuraGateway.Foundations AuraGateway.Foundations.Endings AuraGateway.Foundations.KeyedFolds
  AuraGateway.Types

/-! ## Endings -/

/-- The kind of a terminal event. -/
def terminalKind : StreamItem → Option ResponseStatus
  | .ok (.responseCompleted _) => some .completed
  | .ok (.responseIncomplete _) => some .incomplete
  | .ok (.responseFailed _) => some .failed
  | .ok (.responseCancelled _) => some .cancelled
  | _ => none

/-- How a stream can end. -/
inductive Ending where
  | terminal (kind : ResponseStatus)
  | error
  deriving DecidableEq, Repr

/-- The ending that an item is: a terminal event, or an error. -/
def ending : StreamItem → Option Ending
  | .error _ | .ok (.error _) => some .error
  | item => (terminalKind item).map .terminal

/-- The items that open a stream end nothing. -/
theorem ending_opening (env : StreamEnv) (idPrefix : String) :
    ∀ i ∈ openingItems env idPrefix, ending i = none := by
  intro i hi
  rcases List.mem_pair.mp hi with rfl | rfl
  · rfl
  · rfl

/-! ## What a connection delivers -/

/-- What a connection delivers: messages, and faults between them. -/
def delivered (parse : String → Option StreamChunk) (source : List (Except String (List UInt8))) :
    List (String ⊕ ChatMessage) :=
  (PolledStream.inputs utf8Decoder lineScanner [] [] source).filterMap
    (PolledStream.Machine.readInput (readChat parse))

/-- Without faults, a connection delivers the messages of the whole body. -/
theorem delivered_map_ok (parse : String → Option StreamChunk) (pieces : List (List UInt8)) :
    delivered parse (pieces.map .ok) = (received parse pieces).map .inr := by
  have hnil : utf8Decoder.scan [] = none := Scanner.scan_nil
  rw [delivered, PolledStream.inputs_map_ok hnil, PolledStream.Machine.filterMap_readInput]
  rfl

/-- A chunk that gives an event: it carries content, or arguments of a tool call. -/
def StreamChunk.gives (c : StreamChunk) : Bool :=
  c.content.isSome || c.fragments.any fun tc => tc.arguments.isSome

/-- What a message does to a stream. -/
def chatEffect : String ⊕ ChatMessage → Effect Ending
  | .inl _ => .closing .error
  | .inr .done => .closing (.terminal .completed)
  | .inr (.chunk c) => if c.gives then .passing else .silent

/-- The arguments of a chunk are among the fragments that are reached. -/
theorem argumentDelta_upToArguments_eq_nil_iff (tcs : List StreamToolCall) :
    (upToArguments tcs).filterMap StreamToolCall.argumentDelta = []
      ↔ (tcs.any fun tc => tc.arguments.isSome) = false := by
  induction tcs with
  | nil => simp [upToArguments]
  | cons tc tcs ih =>
      rw [upToArguments, List.any_cons]
      cases h : tc.arguments with
      | none => simpa [StreamToolCall.argumentDelta, h] using ih
      | some args => simp [StreamToolCall.argumentDelta, h]

/-- A chunk without content gives something exactly when a reached fragment carries arguments. -/
theorem StreamChunk.gives_of_no_content {c : StreamChunk} (h : c.content = none) :
    c.gives = false ↔ c.reached.filterMap StreamToolCall.argumentDelta = [] := by
  rw [StreamChunk.reached_of_no_content h, argumentDelta_upToArguments_eq_nil_iff,
    StreamChunk.gives, h]
  rfl

/-! ## One event a line -/

namespace ChatTransformer

variable (p : ChatProvider) (now : Int) (order : HashOrder (Nat × PartialToolCall))

theorem handleChoices_gives (c : StreamChunk) (t : ChatTransformer) :
    (handleChoices c t).1.isSome = c.gives
      ∧ ∀ e ∈ (handleChoices c t).1, ending (.ok e) = none := by
  rw [handleChoices]
  cases hhead : c.choices.head? with
  | none => exact ⟨by simp [StreamChunk.gives, StreamChunk.content, StreamChunk.fragments,
      StreamChunk.delta?, hhead], by simp⟩
  | some choice =>
      obtain ⟨hcontent, hfragments⟩ := StreamChunk.of_choice hhead
      cases hc : choice.delta.content with
      | some content =>
          have hgives : c.gives = true := by simp [StreamChunk.gives, hcontent, hc]
          simp only [hc, hgives]
          split
          · exact ⟨rfl, by rintro e ⟨⟩; rfl⟩
          · split
            · exact ⟨rfl, by rintro e ⟨⟩; rfl⟩
            · exact ⟨rfl, by rintro e ⟨⟩; rfl⟩
      | none =>
          have hgives : c.gives = (choice.delta.toolCalls.getD []).any fun tc => tc.arguments.isSome := by
            simp [StreamChunk.gives, hcontent, hc, hfragments]
          cases ht : choice.delta.toolCalls with
          | none => simp [hc, ht, hgives]
          | some toolCalls =>
              have hnil := argumentDelta_upToArguments_eq_nil_iff toolCalls
              rw [hgives, ht, Option.getD_some]
              simp only [hc, ht, toolCallLoop_eq]
              cases hd : (upToArguments toolCalls).filterMap StreamToolCall.argumentDelta with
              | nil => exact ⟨(hnil.mp hd).symm, by simp⟩
              | cons d ds =>
                  have htrue : (toolCalls.any fun tc => tc.arguments.isSome) = true := by
                    rw [← Bool.not_eq_false, ← hnil, hd]
                    exact List.cons_ne_nil d ds
                  exact ⟨htrue.symm, by rintro e ⟨⟩; rfl⟩

/-- What a stream gives, message by message. -/
theorem drive_blocks (ms : List (String ⊕ ChatMessage)) {t : ChatTransformer} (h : t.Opened) :
    Blocks ending chatEffect ms ((p.machine now order).drive t ms) := by
  induction ms generalizing t with
  | nil =>
      have hnil : (p.machine now order).drive t [] = [] :=
        PolledStream.Machine.close_of_none (M := p.machine now order) (ready_eq_none h now) rfl
      rw [hnil]
      exact .nil
  | cons m ms ih =>
      have hready : (p.machine now order).ready t = none := ready_eq_none h now
      cases m with
      | inl fault =>
          rw [PolledStream.Machine.drive_fault hready]
          exact Blocks.ends rfl rfl (ih h)
      | inr message =>
          rw [PolledStream.Machine.drive_line hready]
          cases message with
          | done =>
              exact Blocks.ends rfl rfl (ih h)
          | chunk c =>
              have hopened := (chunkStep p c t).opened h
              obtain ⟨hgives, hending⟩ := handleChoices_gives c (t.noteUsage p c)
              have haccept : (p.machine now order).accept t (.chunk c)
                  = ((t.handleChunk p c).1.map .ok, (t.handleChunk p c).2) := rfl
              rw [haccept]
              cases he : (t.handleChunk p c).1 with
              | none =>
                  have hsilent : c.gives = false := by
                    rw [← hgives]
                    exact congrArg Option.isSome he
                  exact .silent (by simp [chatEffect, hsilent]) (ih hopened)
              | some e =>
                  have hpassing : c.gives = true := by
                    rw [← hgives]
                    exact congrArg Option.isSome he
                  exact Blocks.passes (by simp [chatEffect, hpassing]) (hending e he) (ih hopened)

end ChatTransformer

/-! ## Queued events -/

namespace QueuedTransformer

variable (p : ChatProvider) (now : Int) (order : HashOrder (Nat × PartialToolCall))

/-- What a chunk gives is no ending, and it is nothing exactly when the chunk gives nothing. -/
theorem ChunkStep.gives {c : StreamChunk} {t t' : QueuedTransformer} {e : Option StreamEvent}
    (h : ChunkStep c t e t') :
    let items : List StreamItem := (e.toList ++ t'.pendingEvents).map .ok
    (items = [] ↔ c.gives = false) ∧ ∀ i ∈ items, ending i = none := by
  intro items
  have hitems : items = (e.toList ++ t'.pendingEvents).map .ok := rfl
  have hevents := h.events
  rw [hitems]
  cases hc : c.content with
  | none =>
      rw [hc] at hevents
      rw [hevents, StreamChunk.gives_of_no_content hc, List.map_map, List.map_eq_nil_iff]
      refine ⟨Iff.rfl, fun i hi => ?_⟩
      obtain ⟨d, -, rfl⟩ := List.mem_map.mp hi
      rfl
  | some content =>
      rw [hc] at hevents
      rw [hevents]
      refine ⟨by simp [StreamChunk.gives, hc], fun i hi => ?_⟩
      rw [QueuedTransformer.announcements] at hi
      obtain ⟨event, hevent, rfl⟩ := List.mem_map.mp hi
      rcases List.mem_append.mp hevent with hevent | hevent
      · rcases List.mem_append.mp hevent with hevent | hevent
        · split at hevent
          · exact absurd hevent List.not_mem_nil
          · rw [List.mem_singleton.mp hevent]
            rfl
        · split at hevent
          · exact absurd hevent List.not_mem_nil
          · rw [List.mem_singleton.mp hevent]
            rfl
      · rw [List.mem_singleton.mp hevent]
        rfl

theorem ending_doneItems (text : String) : ∀ i ∈ doneItems text, ending i = none := by
  intro i hi
  rw [doneItems] at hi
  split at hi
  · exact absurd hi List.not_mem_nil
  · rw [List.mem_singleton.mp hi]
    rfl

/-- What a stream gives, message by message. -/
theorem drive_blocks (ms : List (String ⊕ ChatMessage)) {t : QueuedTransformer} (h : t.Settled) :
    Blocks ending chatEffect ms ((p.queuedMachine now order).drive t ms) := by
  induction ms generalizing t with
  | nil =>
      rw [drive_nil p now order h]
      exact .nil
  | cons m ms ih =>
      cases m with
      | inl fault =>
          have hready : (p.queuedMachine now order).ready t = none := h.ready_eq_none now
          rw [PolledStream.Machine.drive_fault hready]
          exact Blocks.ends rfl rfl (ih h)
      | inr message =>
          cases message with
          | done =>
              rw [drive_done p now order h]
              exact .closing rfl (ending_doneItems _) rfl (ih ⟨h.opened, rfl⟩)
          | chunk c =>
              have hstep := chunkStep p c h.empty
              obtain ⟨hnil, hending⟩ := hstep.gives
              have hrest := ih (t := { (t.handleChunk p c).2 with pendingEvents := [] })
                ⟨hstep.opened h.opened, rfl⟩
              rw [drive_chunk p now order c h]
              cases hgives : c.gives with
              | false =>
                  rw [hnil.mpr hgives, List.nil_append]
                  exact .silent (by simp [chatEffect, hgives]) hrest
              | true =>
                  refine .passing (by simp [chatEffect, hgives]) (fun heq => ?_) hending hrest
                  rw [hnil.mp heq] at hgives
                  cases hgives

end QueuedTransformer

end AuraGateway.Provider
