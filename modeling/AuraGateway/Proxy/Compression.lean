import AuraGateway.Proxy.ResponseHandling

/-!
# What compression changes

Preprocessing rewrites the input of a request item by item. Calls and outputs of functions stay,
and so do the role and the place of every message (`preprocessRequest_frame`). The text of a
message is replaced by one compressed string, whatever its content was: other parts than text
are dropped, and text that does not get shorter is rewritten as well. So only the text changes,
and only where compression shortens it, exactly for requests without such messages
(`only_text_changes_iff`).
-/

set_option autoImplicit false

namespace AuraGateway.Proxy

open AuraGateway.Types

/-- The parts of a message that are no text. -/
def nonText : InputContent → List ContentPart
  | .text _ => []
  | .parts parts => parts.filter fun
      | .text _ => false
      | _ => true

/-- Compression makes the text of a message shorter. -/
def Shortens (p : Preprocessor) (config : Json) (content : InputContent) : Prop :=
  ∃ output, p.compress config (compressedText content) = some output
    ∧ output.utf8ByteSize < (compressedText content).utf8ByteSize

/-- An item as it was, but for the text of a message that compression shortens. -/
def OnlyTextChanged (p : Preprocessor) (config : Json) (original processed : InputItem) : Prop :=
  match original with
  | .message role content =>
      ∃ content', processed = .message role content' ∧ nonText content' = nonText content
        ∧ (¬ Shortens p config content → content' = content)
  | other => processed = other

/-- A message that survives compression: it cannot be compressed, or it has only text, and this
text gets shorter or is given back as the one string that it was. -/
def Survives (p : Preprocessor) (config : Json) : InputItem → Prop
  | .message _ content => ∀ output, p.compress config (compressedText content) = some output →
      nonText content = [] ∧
        (output.utf8ByteSize < (compressedText content).utf8ByteSize ∨ content = .text output)
  | _ => True

section Frame

variable {p : Preprocessor} {config : Json} {request : CreateResponseRequest}

theorem preprocessRequest_input (hconfig : request.compression = some config)
    (henabled : p.compressionEnabled config = true) :
    (preprocessRequest p request).input = request.input.map (compressItem p config) := by
  simp only [preprocessRequest, hconfig, henabled, if_true]

/-- The items that are not messages. -/
def functionItems (items : List InputItem) : List InputItem :=
  items.filter fun
    | .message _ _ => false
    | _ => true

/-- The roles of the messages. -/
def roles (items : List InputItem) : List (Option Role) :=
  items.map fun
    | .message role _ => some role
    | _ => none

theorem compressItem_message (p : Preprocessor) (config : Json) (role : Role)
    (content : InputContent) :
    ∃ content', compressItem p config (.message role content) = .message role content' := by
  simp only [compressItem]
  split
  · exact ⟨_, rfl⟩
  · exact ⟨_, rfl⟩

/-- A property of items that does not look into messages is the same before and after. -/
theorem map_compressItem {β : Type} (f : InputItem → β)
    (hf : ∀ role content content', f (.message role content) = f (.message role content'))
    (items : List InputItem) : (items.map (compressItem p config)).map f = items.map f := by
  rw [List.map_map]
  apply List.map_congr_left
  intro item _
  cases item with
  | message role content =>
      obtain ⟨content', heq⟩ := compressItem_message p config role content
      rw [Function.comp_apply, heq]
      exact hf role content' content
  | functionCall | functionCallOutput => rfl

theorem functionItems_compress (items : List InputItem) :
    functionItems (items.map (compressItem p config)) = functionItems items := by
  induction items with
  | nil => rfl
  | cons item items ih =>
      cases item with
      | message role content =>
          obtain ⟨content', heq⟩ := compressItem_message p config role content
          rw [List.map_cons, heq]
          exact ih
      | functionCall | functionCallOutput =>
          simp only [List.map_cons, compressItem, functionItems, List.filter_cons, if_true]
          exact congrArg _ ih

/-- Whatever the settings, preprocessing keeps the number of the items, the function items, and
the role and the place of every message. -/
theorem preprocessRequest_frame (p : Preprocessor) (request : CreateResponseRequest) :
    (preprocessRequest p request).input.length = request.input.length
      ∧ functionItems (preprocessRequest p request).input = functionItems request.input
      ∧ roles (preprocessRequest p request).input = roles request.input := by
  simp only [preprocessRequest]
  split
  · split
    · refine ⟨List.length_map _, functionItems_compress _, ?_⟩
      apply map_compressItem
      intro role content content'
      rfl
    · exact ⟨rfl, rfl, rfl⟩
  · exact ⟨rfl, rfl, rfl⟩

theorem onlyTextChanged_iff (item : InputItem) :
    OnlyTextChanged p config item (compressItem p config item) ↔ Survives p config item := by
  cases item with
  | functionCall | functionCallOutput => exact iff_of_true rfl trivial
  | message role content =>
      simp only [OnlyTextChanged, Survives, compressItem]
      cases hcompress : p.compress config (compressedText content) with
      | none =>
          refine iff_of_true ⟨content, rfl, rfl, fun _ => rfl⟩ ?_
          intro output h
          cases h
      | some output =>
          constructor
          · rintro ⟨content', heq, hparts, hsame⟩ output' houtput
            obtain rfl := Option.some.inj houtput
            injection heq with _ hcontent
            subst hcontent
            refine ⟨hparts.symm, ?_⟩
            by_cases hshort : output.utf8ByteSize < (compressedText content).utf8ByteSize
            · exact .inl hshort
            · refine .inr (hsame ?_).symm
              rintro ⟨output', houtput, hlt⟩
              rw [hcompress] at houtput
              obtain rfl := Option.some.inj houtput
              exact hshort hlt
          · intro h
            obtain ⟨hparts, hor⟩ := h output rfl
            refine ⟨.text output, rfl, hparts.symm, ?_⟩
            intro hnot
            rcases hor with hshort | hsame
            · exact absurd ⟨output, hcompress, hshort⟩ hnot
            · exact hsame.symm

/-- With compression enabled, only text changes, and only where it gets shorter, exactly when
every message survives. -/
theorem only_text_changes_iff (hconfig : request.compression = some config)
    (henabled : p.compressionEnabled config = true) :
    List.Forall₂ (OnlyTextChanged p config) request.input (preprocessRequest p request).input
      ↔ ∀ item ∈ request.input, Survives p config item := by
  rw [preprocessRequest_input hconfig henabled, List.forall₂_map_right_iff]
  simp only [onlyTextChanged_iff, List.forall₂_same]

end Frame

/-! ### A picture and its question -/

namespace Sample

/-- Compression of plain text: it is given back. -/
def plainText : Preprocessor where
  compressionEnabled _ := true
  compress _ text := some text
  augment _ _ instructions := instructions

def pictureRequest : CreateResponseRequest :=
  { model := "gpt-4o"
    input := [.message .user (.parts [.text "What is this?",
      .image (some "https://example.com/cat.png") none none])]
    compression := some (.object [("enabled", .bool true)]) }

def questionRequest : CreateResponseRequest :=
  { pictureRequest with input := [.user "What is this?"] }

end Sample

/-- The picture is gone, although the text did not get shorter. -/
theorem picture_dropped :
    (preprocessRequest Sample.plainText Sample.pictureRequest).input = [.user "What is this?"]
      ∧ ¬ List.Forall₂ (OnlyTextChanged Sample.plainText (.object [("enabled", .bool true)]))
          Sample.pictureRequest.input
          (preprocessRequest Sample.plainText Sample.pictureRequest).input := by
  refine ⟨by decide, ?_⟩
  intro h
  obtain ⟨content', heq, hparts, -⟩ := (List.forall₂_cons.mp h).1
  injection heq with _ hcontent
  rw [← hcontent] at hparts
  exact absurd hparts (by decide)

theorem only_text_changes_sample :
    List.Forall₂ (OnlyTextChanged Sample.plainText (.object [("enabled", .bool true)]))
        Sample.questionRequest.input
        (preprocessRequest Sample.plainText Sample.questionRequest).input
      ↔ ∀ item ∈ Sample.questionRequest.input,
          Survives Sample.plainText (.object [("enabled", .bool true)]) item :=
  only_text_changes_iff rfl rfl

end AuraGateway.Proxy
