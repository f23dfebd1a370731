import AuraGateway.Proxy.Replies

/-!
# Replaying a response as a stream

The events that are made from a collected response always come in the canonical order, but they
announce one message and give one text: the first text part of the first message that has one. So
they replay the response exactly when its output is a single message whose other texts are empty
(`replays_iff`).
-/

set_option autoImplicit false

namespace AuraGateway.Proxy

open AuraGateway.Types

/-! ## What a stream tells -/

/-- The pieces of text that are streamed. -/
def outputTextDeltas (events : List StreamEvent) : List String :=
  events.filterMap fun
    | .outputTextDelta _ _ delta => some delta
    | _ => none

/-- The items that are announced, with their output indices. -/
def announcements (events : List StreamEvent) : List (Nat × Item) :=
  events.filterMap fun
    | .outputItemAdded outputIndex item => some (outputIndex, item)
    | _ => none

/-- An event about an output item or one of its parts. -/
def isItemEvent : StreamEvent → Bool
  | .outputItemAdded .. | .outputItemDone .. | .contentPartAdded .. | .outputTextDelta ..
  | .outputTextDone .. | .contentPartDone .. | .functionCallArgumentsDelta ..
  | .functionCallArgumentsDone .. | .reasoningDelta .. | .reasoningDone .. => true
  | _ => false

/-- The type and the id of an item, by which an announcement is recognised. -/
def itemHeading : Item → String × String
  | .message id _ _ _ => ("message", id)
  | .functionCall id _ _ _ _ => ("function_call", id)
  | .functionCallOutput id _ _ _ => ("function_call_output", id)
  | .reasoning id _ _ _ => ("reasoning", id)

/-- Events replay a response: the streamed text is its text, each output item is announced once
under its own index, and between the opening and a terminal event are those of items and parts. -/
structure Replays (r : Response) (events : List StreamEvent) : Prop where
  text : String.join (outputTextDeltas events) = r.text
  items : ((announcements events).map fun a => (a.1, itemHeading a.2)).Perm
    (r.output.zipIdx.map fun i => (i.2, itemHeading i.1))
  order : ∃ body last, events = .responseCreated r :: .responseInProgress r :: (body ++ [last])
    ∧ (∀ e ∈ body, isItemEvent e = true) ∧ last.isTerminal = true

/-! ## The stream made from a response -/

/-- The text of a part. -/
def partText : ContentPart → Option String
  | .text t => some t
  | _ => none

/-- The output is one message, and only its first text says anything. -/
def SingleText (r : Response) : Prop :=
  ∃ id role content status, r.output = [.message id role content status]
    ∧ ∀ t ∈ (content.filterMap partText).tail, t = ""

variable {r : Response}

/-- The first text of a message. -/
theorem assistantText_of_message {id : String} {role : Role} {content : List ContentPart}
    {status : ItemStatus} (h : r.output = [.message id role content status]) :
    assistantText r = (content.filterMap partText).head?.getD "" := by
  have hfirst : ∀ (read : ContentPart → Option String) (parts : List ContentPart),
      (∀ part, read part = partText part) →
        parts.findSome? read = (parts.filterMap partText).head? := by
    intro read parts hread
    induction parts with
    | nil => rfl
    | cons part parts ih =>
        rw [List.findSome?_cons, List.filterMap_cons, hread]
        cases partText part with
        | none => exact ih
        | some t => rfl
  rw [assistantText, h]
  simp only [List.findSome?_cons]
  rw [hfirst _ content fun part => by cases part <;> rfl]
  cases (content.filterMap partText).head? <;> rfl

/-- The text of a response that is one message. -/
theorem text_of_message {id : String} {role : Role} {content : List ContentPart}
    {status : ItemStatus} (h : r.output = [.message id role content status]) :
    r.text = String.join (content.filterMap partText) := by
  have hparts : ∀ read : ContentPart → Option String, (∀ part, read part = partText part) →
      content.filterMap read = content.filterMap partText := by
    intro read hread
    apply List.filterMap_congr
    intro part _
    exact hread part
  rw [Response.text, h, List.map_singleton, Item.text,
    hparts _ fun part => by cases part <;> rfl, String.join_cons, String.join_nil,
    String.append_empty]

/-- Joined texts are the first one exactly when the others are empty. -/
theorem head_eq_join_iff (texts : List String) :
    texts.head?.getD "" = String.join texts ↔ ∀ t ∈ texts.tail, t = "" := by
  cases texts with
  | nil => exact iff_of_true rfl fun t ht => absurd ht List.not_mem_nil
  | cons t texts =>
      have hjoin : ∀ l : List String, String.join l = "" ↔ ∀ u ∈ l, u = "" := by
        intro l
        induction l with
        | nil => exact iff_of_true rfl fun u hu => absurd hu List.not_mem_nil
        | cons u l ih =>
            rw [String.join_cons, String.append_eq_empty_iff, ih, List.forall_mem_cons]
      rw [List.head?_cons, Option.getD_some, List.tail_cons, String.join_cons, ← hjoin]
      constructor
      · intro h
        have happend : t ++ "" = t ++ String.join texts := by
          rw [String.append_empty]
          exact h
        exact ((String.append_right_inj t).mp happend).symm
      · intro h
        rw [h, String.append_empty]

theorem announcements_synthesize (r : Response) :
    announcements (synthesizeSseResponse r)
      = [(0, .assistant (assistantId r) (assistantText r))] := rfl

theorem outputTextDeltas_synthesize (r : Response) :
    outputTextDeltas (synthesizeSseResponse r) = [assistantText r] := rfl

/-- The events made from a response are in the canonical order. -/
theorem synthesize_order (r : Response) :
    ∃ body last, synthesizeSseResponse r
        = .responseCreated r :: .responseInProgress r :: (body ++ [last])
      ∧ (∀ e ∈ body, isItemEvent e = true) ∧ last.isTerminal = true := by
  refine ⟨[.outputItemAdded 0 (.assistant (assistantId r) (assistantText r)),
    .contentPartAdded 0 0 "text", .outputTextDelta 0 0 (assistantText r),
    .outputTextDone 0 0 (assistantText r)], .responseCompleted r, rfl, ?_, rfl⟩
  intro e he
  simp only [List.mem_cons, List.not_mem_nil, or_false] at he
  rcases he with rfl | rfl | rfl | rfl <;> rfl

/-- Each output item is announced exactly when there is one, and it is a message. -/
theorem synthesize_items_iff (r : Response) :
    ((announcements (synthesizeSseResponse r)).map fun a => (a.1, itemHeading a.2)).Perm
        (r.output.zipIdx.map fun i => (i.2, itemHeading i.1)) ↔
      ∃ id role content status, r.output = [.message id role content status] := by
  rw [announcements_synthesize]
  constructor
  · intro hperm
    have hlength := hperm.length_eq
    rw [List.length_map, List.length_map, List.length_zipIdx] at hlength
    obtain ⟨item, hitem⟩ := List.length_eq_one_iff.mp hlength.symm
    rw [hitem] at hperm
    have hheading : (itemHeading item).1 = "message" := by
      have hboth := List.perm_singleton.mp hperm.symm
      have hpair := List.head_eq_of_cons_eq hboth
      exact congrArg (fun a => a.2.1) hpair
    cases item with
    | message id role content status => exact ⟨id, role, content, status, hitem⟩
    | functionCall => simp [itemHeading] at hheading
    | functionCallOutput => simp [itemHeading] at hheading
    | reasoning => simp [itemHeading] at hheading
  · rintro ⟨id, role, content, status, houtput⟩
    have hid : assistantId r = id := by
      rw [assistantId, houtput]
      rfl
    rw [houtput, hid]
    exact List.Perm.refl _

/-- The events made from a response replay it exactly when its output is one message in which every
text but the first is empty. -/
theorem replays_iff (r : Response) : Replays r (synthesizeSseResponse r) ↔ SingleText r := by
  have htext : ∀ {id : String} {role : Role} {content : List ContentPart} {status : ItemStatus},
      r.output = [.message id role content status] →
        (String.join (outputTextDeltas (synthesizeSseResponse r)) = r.text ↔
          ∀ t ∈ (content.filterMap partText).tail, t = "") := by
    intro id role content status houtput
    rw [outputTextDeltas_synthesize, assistantText_of_message houtput, text_of_message houtput,
      ← head_eq_join_iff, String.join_cons, String.join_nil, String.append_empty]
  constructor
  · intro h
    obtain ⟨id, role, content, status, houtput⟩ := (synthesize_items_iff r).mp h.items
    exact ⟨id, role, content, status, houtput, (htext houtput).mp h.text⟩
  · rintro ⟨id, role, content, status, houtput, hempty⟩
    exact
      { text := (htext houtput).mpr hempty
        items := (synthesize_items_iff r).mpr ⟨id, role, content, status, houtput⟩
        order := synthesize_order r }

/-! ### A response with a tool call -/

/-- A winner of a fan-out that says something and calls a function. -/
def responseWithCall : Response :=
  { Response.builder "resp_1" "gpt-5.4-mini" 0 with
    status := .completed
    output :=
      [.assistant "msg_0" "Let me look.", .newFunctionCall "fc_0" "call_1" "get_time" "{}"] }

/-- Its function call is never announced. -/
theorem responseWithCall_not_replayed :
    responseWithCall.status = .completed
      ∧ (announcements (synthesizeSseResponse responseWithCall)).map (·.1) = [0]
      ∧ ¬ Replays responseWithCall (synthesizeSseResponse responseWithCall) := by
  refine ⟨rfl, rfl, fun h => ?_⟩
  have hlength := h.items.length_eq
  exact absurd hlength (by decide)

end AuraGateway.Proxy
