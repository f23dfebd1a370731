import AuraGateway.Proxy.Eligibility

/-!
# Outgoing provider calls

A call names the provider it is sent to, the request it sends and the texts of the
client's prompt that the payload quotes. Every quoted text occurs in the payload
(`ProviderCall.quotes`), so a call cannot claim to quote what it does not send.

The texts of a request are the places of its body that hold free text: instructions,
message texts, function arguments and function outputs.
-/

set_option autoImplicit false

namespace AuraGateway.Proxy

open AuraGateway.RustStd AuraGateway.Types AuraGateway.Router

/-! ## Texts of a request -/

/-- Texts of a message's content. -/
def contentTexts : InputContent → List String
  | .text t => [t]
  | .parts parts =>
      parts.filterMap fun
        | .text t => some t
        | _ => none

/-- Texts of an input item. -/
def itemTexts : InputItem → List String
  | .message _ content => contentTexts content
  | .functionCall _ _ arguments => [arguments]
  | .functionCallOutput _ output => [output]

/-- All free text a request carries. -/
def requestTexts (request : CreateResponseRequest) : List String :=
  request.instructions.toList ++ request.input.flatMap itemTexts

/-- Last user message text of a request, if any; the text parts of a message are joined
with blanks. -/
def lastUserText (request : CreateResponseRequest) : Option String :=
  request.input.reverse.findSome? fun
    | .message .user (.text t) => some t
    | .message .user (.parts parts) => some (" ".intercalate (contentTexts (.parts parts)))
    | _ => none

/-- `s.chars().take(n).collect()`. -/
def takeChars (n : Nat) (s : String) : String := String.ofList (s.toList.take n)

/-! ## Calls -/

/-- A text occurs in another. -/
def Occurs (q t : String) : Prop := ∃ a b, t = a ++ q ++ b

/-- A call to a provider. -/
structure ProviderCall where
  provider : Provider
  request : CreateResponseRequest
  quoted : List String
  quotes : ∀ q ∈ quoted, ∃ t ∈ requestTexts request, Occurs q t

/-- The call carries some text of the client's prompt. -/
def ProviderCall.CarriesPrompt (c : ProviderCall) : Prop := ∃ q ∈ c.quoted, q ≠ ""

/-- The options, when given, permit the called model for the provider that serves it. -/
def ProviderCall.PermittedBy (c : ProviderCall) (options : Option RoutingOptions) : Prop :=
  ∀ opts ∈ options, opts.permits c.provider.name c.request.model = .ok true

/-- Send the client's own request. -/
def forward (provider : Provider) (request : CreateResponseRequest) : ProviderCall where
  provider
  request
  quoted := requestTexts request
  quotes := fun q hq => ⟨q, hq, "", "", by simp⟩

/-- Send a prompt that quotes one text. -/
def quoting (provider : Provider) (request : CreateResponseRequest) (before q after : String)
    (h : request.input = [.user (before ++ q ++ after)]) : ProviderCall where
  provider
  request
  quoted := [q]
  quotes := by
    intro q' hq
    obtain rfl := List.mem_singleton.mp hq
    refine ⟨before ++ q' ++ after, ?_, before, after, rfl⟩
    simp only [requestTexts]
    rw [h]
    simp [itemTexts, contentTexts, InputItem.user]

/-! ## Dispatch -/

/-- `DEFAULT_FANOUT_TEMPERATURE`. -/
def defaultFanoutTemperature : Float32 := 0.7

/-- Whether the validation settings ask for several candidates. -/
def needsFanout (request : CreateResponseRequest) : Bool :=
  match request.validation with
  | some v => v.strategy == .bestOfN || v.strategy == .selfConsistency
  | none => false

/-- Number of candidates: three unless given, between one and eight. -/
def fanoutSize (request : CreateResponseRequest) : Nat :=
  max 1 (min 8 ((request.validation.bind (·.n)).getD 3))

/-- The request each fan-out candidate is sent; only a proper fan-out sets a
temperature. -/
def fanoutRequest (request : CreateResponseRequest) : CreateResponseRequest :=
  -- a fan-out of one is an ordinary call
  if fanoutSize request = 1 then { request with stream := false }
  else
    { request with
      stream := false
      temperature := request.temperature.or (some defaultFanoutTemperature) }

/-- The calls of one dispatch: the candidates of a fan-out, or the request itself. -/
def dispatchCalls (provider : Provider) (request : CreateResponseRequest) : List ProviderCall :=
  if needsFanout request then
    List.replicate (fanoutSize request) (forward provider (fanoutRequest request))
  else [forward provider request]

/-- Every call of a dispatch goes to the given provider and asks for the request's
model. -/
theorem mem_dispatchCalls {provider : Provider} {request : CreateResponseRequest}
    {c : ProviderCall} (h : c ∈ dispatchCalls provider request) :
    c.provider = provider ∧ c.request.model = request.model := by
  simp only [dispatchCalls] at h
  split at h
  · rw [List.eq_of_mem_replicate h]
    refine ⟨rfl, ?_⟩
    show (fanoutRequest request).model = request.model
    simp only [fanoutRequest]
    split <;> rfl
  · rw [List.mem_singleton.mp h]
    exact ⟨rfl, rfl⟩

end AuraGateway.Proxy
