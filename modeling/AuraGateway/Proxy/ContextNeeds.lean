import AuraGateway.Proxy.Eligibility

/-!
# The length of a request

A model must have room for the text of a request and for the output it asks for
(`contextRequirement`). The oracle counts the text while it looks for an image, and stops at the
first one: text behind it is not counted (`scanInput_add_behind`). So the oracle's requirement
is that of the request exactly when the text behind the first image makes no difference to the
estimate.
-/

set_option autoImplicit false

namespace AuraGateway.Proxy

open AuraGateway.RustStd AuraGateway.Types AuraGateway.Router

/-! ## The text of a request -/

/-- Bytes of text in a part. -/
def partBytes : ContentPart → Nat
  | .text t => t.utf8ByteSize
  | .image _ _ _ => 0
  | .audio _ _ => 0

/-- Bytes of text in an item: messages and function-call outputs. -/
def itemBytes : InputItem → Nat
  | .message _ (.parts parts) => (parts.map partBytes).sum
  | .message _ (.text t) => t.utf8ByteSize
  | .functionCallOutput _ output => output.utf8ByteSize
  | .functionCall _ _ _ => 0

/-- Bytes of all text of a request. -/
def requestBytes (request : CreateResponseRequest) : Nat :=
  (request.instructions.map String.utf8ByteSize).getD 0 + (request.input.map itemBytes).sum

/-- Tokens for some bytes of text, at most 4,000,000 of them, and the requested output. -/
def tokensNeeded (bytes : Nat) (maxOutputTokens : Option Nat) : Nat :=
  saturatingAddU32 (tokensForChars (min bytes 4000000)) (maxOutputTokens.getD 0)

/-- What a model must have room for: all text of the request and the requested output. -/
def contextRequirement (request : CreateResponseRequest) : Nat :=
  tokensNeeded (requestBytes request) request.maxOutputTokens

/-- An image is added to a message of parts. -/
def AddsImage (input input' : List InputItem) : Prop :=
  ∃ before after role parts parts' url data mediaType,
    input = before ++ .message role (.parts (parts ++ parts')) :: after
      ∧ input' = before ++ .message role (.parts (parts ++ .image url data mediaType :: parts')) :: after

/-- The order of the items does not matter. -/
theorem contextRequirement_perm (request : CreateResponseRequest) {input' : List InputItem}
    (h : request.input.Perm input') :
    contextRequirement { request with input := input' } = contextRequirement request := by
  have hsum : (input'.map itemBytes).sum = (request.input.map itemBytes).sum :=
    (h.symm.map itemBytes).sum_eq
  rw [contextRequirement, contextRequirement, requestBytes, requestBytes, hsum]

/-- Images do not matter. -/
theorem contextRequirement_addsImage (request : CreateResponseRequest) {input' : List InputItem}
    (h : AddsImage request.input input') :
    contextRequirement { request with input := input' } = contextRequirement request := by
  obtain ⟨before, after, role, parts, parts', url, data, mediaType, hinput, rfl⟩ := h
  have hsum : ((before ++ .message role (.parts (parts ++ .image url data mediaType :: parts'))
      :: after).map itemBytes).sum = (request.input.map itemBytes).sum := by
    rw [hinput]
    simp [itemBytes, partBytes]
  rw [contextRequirement, contextRequirement, requestBytes, requestBytes, hsum]

/-! ## The text behind the first image -/

def isImage : ContentPart → Bool
  | .image _ _ _ => true
  | _ => false

/-- Bytes of text behind the first image of some parts. -/
def partsBehind : List ContentPart → Nat
  | [] => 0
  | p :: rest => if isImage p then (rest.map partBytes).sum else partsBehind rest

/-- Bytes of text behind the first image of the input. -/
def inputBehind : List InputItem → Nat
  | [] => 0
  | .message _ (.parts parts) :: rest =>
      if parts.any isImage then partsBehind parts + (rest.map itemBytes).sum else inputBehind rest
  | _ :: rest => inputBehind rest

theorem scanParts_fst (parts : List ContentPart) : (scanParts parts).1 = parts.any isImage := by
  induction parts with
  | nil => rfl
  | cons p parts ih =>
      cases p with
      | text t => exact ih
      | image url data mediaType => rfl
      | audio data mediaType => exact ih

theorem scanParts_add_behind (parts : List ContentPart) :
    (scanParts parts).2 + partsBehind parts = (parts.map partBytes).sum := by
  induction parts with
  | nil => rfl
  | cons p parts ih =>
      rw [List.map_cons, List.sum_cons, ← ih]
      cases p with
      | text t => exact Nat.add_assoc ..
      | image url data mediaType =>
          -- the scan stops, and the rest is behind
          have hbehind : partsBehind (.image url data mediaType :: parts)
              = (parts.map partBytes).sum := rfl
          rw [ih, hbehind]
          rfl
      | audio data mediaType => exact (Nat.zero_add _).symm

theorem partsBehind_of_no_image {parts : List ContentPart} (h : parts.any isImage = false) :
    partsBehind parts = 0 := by
  induction parts with
  | nil => rfl
  | cons p parts ih =>
      rw [List.any_cons, Bool.or_eq_false_iff] at h
      rw [partsBehind, h.1, if_neg Bool.false_ne_true]
      exact ih h.2

/-- The scan counts the text in front of the first image. -/
theorem scanInput_add_behind (input : List InputItem) :
    (scanInput input).2 + inputBehind input = (input.map itemBytes).sum := by
  induction input with
  | nil => rfl
  | cons item rest ih =>
      rw [List.map_cons, List.sum_cons, ← ih]
      cases item with
      | functionCall callId name arguments => exact (Nat.zero_add _).symm
      | functionCallOutput callId output => exact Nat.add_assoc ..
      | message role content =>
          cases content with
          | text t => exact Nat.add_assoc ..
          | parts parts =>
              have hparts := scanParts_add_behind parts
              rw [scanInput, inputBehind, scanParts_fst, itemBytes, ← hparts]
              by_cases himage : parts.any isImage = true
              · rw [if_pos himage, if_pos himage, ih]
                omega
              · have hnone := partsBehind_of_no_image (Bool.eq_false_iff.mpr himage)
                rw [if_neg himage, if_neg himage, hnone]
                dsimp only
                omega

/-! ## Where the oracle's requirement is that of the request -/

/-- The text behind the first image makes no difference: none of it moves the estimate (there is
none, it fits into the last token in front, or the cap is reached in front), or the sum is at
its limit without it. -/
def BehindImageHarmless (request : CreateResponseRequest) : Prop :=
  let front := tokensForChars (min (requestBytes request - inputBehind request.input) 4000000)
  tokensForChars (min (requestBytes request) 4000000) = front
    ∨ 2 ^ 32 - 1 ≤ front + request.maxOutputTokens.getD 0

theorem needsContext_eq (state : AppState) (now : Instant) (request : CreateResponseRequest) :
    (GatewayEligibility.forRequest state now request).needsContext =
      tokensNeeded (requestBytes request - inputBehind request.input) request.maxOutputTokens := by
  have hscan := scanInput_add_behind request.input
  have hfront : requestBytes request - inputBehind request.input
      = (request.instructions.map String.utf8ByteSize).getD 0 + (scanInput request.input).2 := by
    rw [requestBytes, ← hscan]
    omega
  rw [hfront]
  rfl

/-- The requirement of a request does not depend on the order of its items or on its images, and
it is the oracle's exactly when the text behind the first image makes no difference. -/
theorem needsContext_eq_contextRequirement_iff (state : AppState) (now : Instant)
    (request : CreateResponseRequest) :
    ((GatewayEligibility.forRequest state now request).needsContext = contextRequirement request
      ↔ BehindImageHarmless request)
    ∧ (∀ input', request.input.Perm input' →
        contextRequirement { request with input := input' } = contextRequirement request)
    ∧ ∀ input', AddsImage request.input input' →
        contextRequirement { request with input := input' } = contextRequirement request := by
  refine ⟨?_, fun _ h => contextRequirement_perm request h,
    fun _ h => contextRequirement_addsImage request h⟩
  have hle : tokensForChars (min (requestBytes request - inputBehind request.input) 4000000)
      ≤ tokensForChars (min (requestBytes request) 4000000) := by
    rw [tokensForChars, tokensForChars]
    omega
  rw [needsContext_eq, contextRequirement, tokensNeeded, tokensNeeded, saturatingAddU32,
    saturatingAddU32, BehindImageHarmless]
  omega

/-! ### An image in front of a text -/

namespace Sample

/-- A question about an image. -/
def question (image : List ContentPart) : CreateResponseRequest where
  model := "auto"
  input := [.message .user (.parts (image ++ [.text "What does this picture show?"]))]

end Sample

/-- The image in front takes the question out of the count. -/
theorem image_lowers_needsContext :
    contextRequirement (Sample.question [.image none none none]) = 7
      ∧ (∀ state now, (GatewayEligibility.forRequest state now
          (Sample.question [])).needsContext = 7)
      ∧ ∀ state now, (GatewayEligibility.forRequest state now
          (Sample.question [.image none none none])).needsContext = 0 := by
  refine ⟨by decide +kernel, fun state now => ?_, fun state now => ?_⟩
  · rw [needsContext_eq]
    decide +kernel
  · rw [needsContext_eq]
    decide +kernel

end AuraGateway.Proxy
