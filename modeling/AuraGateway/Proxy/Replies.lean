import AuraGateway.Proxy.TenantIsolation
import AuraGateway.Provider.StreamEndings

/-!
# Replies to response requests

A successful request is answered with JSON or with server-sent events. A fan-out runs without
streaming whatever the client sent; where it did ask for a stream, the events are made from
the collected response (`synthesizeSseResponse`). The exit of a cache hit does not ask: it
always answers with JSON, so a streamed fan-out that hits the cache is the one request whose
reply has the wrong form (`reply_streams_iff`).
-/

set_option autoImplicit false

namespace AuraGateway.Proxy

open AuraGateway.RustStd AuraGateway.Types AuraGateway.Storage
open AuraGateway.Foundations.Endings AuraGateway.Provider

/-! ## A stream made from a response -/

/-- The first text of the first message that has one. -/
def assistantText (r : Response) : String :=
  (r.output.findSome? fun
    | .message _ _ content _ => content.findSome? fun
        | .text t => some t
        | _ => none
    | _ => none).getD ""

/-- The id of the first message. -/
def assistantId (r : Response) : String :=
  (r.output.findSome? fun
    | .message id _ _ _ => some id
    | _ => none).getD "msg_0"

/-- Build a single-chunk stream from a completed response. -/
def synthesizeSseResponse (r : Response) : List StreamEvent :=
  [.responseCreated r, .responseInProgress r,
    .outputItemAdded 0 (.assistant (assistantId r) (assistantText r)),
    .contentPartAdded 0 0 "text", .outputTextDelta 0 0 (assistantText r),
    .outputTextDone 0 0 (assistantText r), .responseCompleted r]

/-- A stream made from a response ends once, as completed. -/
theorem synthesizeSseResponse_endsOnce (r : Response) :
    EndsOnce terminalKind .completed ((synthesizeSseResponse r).map .ok) := by
  refine ⟨(synthesizeSseResponse r).dropLast.map .ok, .ok (.responseCompleted r), rfl, rfl, ?_⟩
  intro i hi
  obtain ⟨e, he, rfl⟩ := List.mem_map.mp hi
  simp only [synthesizeSseResponse, List.dropLast, List.mem_cons, List.not_mem_nil, or_false]
    at he
  rcases he with rfl | rfl | rfl | rfl | rfl | rfl <;> rfl

/-! ## Replies -/

/-- The body of a successful reply. -/
inductive ReplyBody where
  | cached (response : CachedResponse)
  | json (response : Response)
  | eventStream (events : List StreamEvent)

/-- Whether the body is a stream of server-sent events. -/
def ReplyBody.isEventStream : ReplyBody → Bool
  | .eventStream _ => true
  | _ => false

/-- What the provider gives: the response of a call or a fan-out, and the events of a streamed
answer. -/
structure ProviderAnswer where
  response : Response
  events : List StreamEvent

/-- The reply to a request that ends so; none when it fails. -/
def reply (wantedStreaming : Bool) (answer : ProviderAnswer) : Ending → Option ReplyBody
  | .refused _ => none
  | .fromCache response _ => some (.cached response)
  | .fromProvider _ streamed sent =>
      if sent.error.isSome then none
      else if streamed then some (.eventStream answer.events)
      else if wantedStreaming then some (.eventStream (synthesizeSseResponse answer.response))
      else some (.json answer.response)

/-- `POST /v1/responses`, down to the body of the reply. -/
def postResponse (gw : Gateway) (auth : Option AuthContext) (turn : Turn) (stored : Stored)
    (answer : ProviderAnswer) (request : CreateResponseRequest) : Checked (Option ReplyBody) :=
  if scopeMissing auth then .ok none
  else do
    let p ← prepare gw auth turn stored.db request
    -- what the client asked for, before a fan-out is degraded
    let wantedStreaming := p.resolution.request.stream
    let ending ← conclude gw turn stored p.resolution
    .ok (reply wantedStreaming answer ending)

/-- A cached response is found for the request, as it is resolved and degraded. -/
def CacheAnswers (gw : Gateway) (auth : Option AuthContext) (turn : Turn) (stored : Stored)
    (request : CreateResponseRequest) : Prop :=
  ∃ p hit, prepare gw auth turn stored.db request = .ok p ∧
    consultCache gw turn stored.cache (degradeStream p.resolution.request) = some hit

/-- A request that streams is not looked up. -/
theorem consultCache_of_stream {gw : Gateway} {turn : Turn} {cache : List CacheEntry}
    {request : CreateResponseRequest} (h : request.stream = true) :
    consultCache gw turn cache request = none := by
  simp [consultCache, shouldSkipCache, h]

/-- A degraded request streams if the client streams and nothing is fanned out. -/
theorem degradeStream_stream (request : CreateResponseRequest) :
    (degradeStream request).stream = (request.stream && !needsFanout request) := by
  simp only [degradeStream]
  cases h : needsFanout request <;> simp

section Reply

variable {gw : Gateway} {auth : Option AuthContext} {turn : Turn} {stored : Stored}
  {answer : ProviderAnswer} {request : CreateResponseRequest} {body : ReplyBody}

/-- The reply follows from how the request ends. -/
theorem postResponse_eq (gw : Gateway) (auth : Option AuthContext) (turn : Turn)
    (stored : Stored) (answer : ProviderAnswer) (request : CreateResponseRequest) :
    postResponse gw auth turn stored answer request =
      (createResponse gw auth turn stored request).map
        fun o => reply request.stream answer o.ending := by
  simp only [postResponse, createResponse]
  split
  · rfl
  · cases hp : prepare gw auth turn stored.db request with
    | error e => rfl
    | ok p =>
        obtain ⟨model, input, instructions, routing, hreq⟩ := prepare_rewrites hp
        rw [checked_ok_bind, checked_ok_bind, show p.resolution.request.stream = request.stream by
          rw [hreq]]
        cases conclude gw turn stored p.resolution <;> rfl

/-- How a request that is answered was prepared and how it ended. -/
theorem postResponse_some (h : postResponse gw auth turn stored answer request = .ok (some body)) :
    ∃ p decision provider ending, prepare gw auth turn stored.db request = .ok p ∧
      Proxy.answer gw turn stored p.resolution.request decision provider = .ok ending ∧
      reply p.resolution.request.stream answer ending = some body := by
  simp only [postResponse] at h
  split at h
  · cases h
  · rw [checked_bind_eq_ok] at h
    obtain ⟨p, hp, h⟩ := h
    rw [checked_bind_eq_ok] at h
    obtain ⟨ending, hending, h⟩ := h
    have hreply := Except.ok.inj h
    simp only [conclude] at hending
    split at hending
    · obtain rfl := Except.ok.inj hending
      cases hreply
    · split at hending
      · obtain rfl := Except.ok.inj hending
        cases hreply
      · exact ⟨p, _, _, ending, hp, hending, hreply⟩

/-- A resolved request is answered with events if it streams, unless it is fanned out and the
cache answers it. -/
theorem reply_answer_iff {resolved : CreateResponseRequest} {decision : Option Router.AutoDecision}
    {provider : Provider} {ending : Ending}
    (hanswer : Proxy.answer gw turn stored resolved decision provider = .ok ending)
    (hreply : reply resolved.stream answer ending = some body) :
    body.isEventStream =
      (resolved.stream && (consultCache gw turn stored.cache (degradeStream resolved)).isNone) := by
  simp only [Proxy.answer] at hanswer
  split at hanswer
  · -- a cache hit
    rename_i hit hcache
    obtain rfl := Except.ok.inj hanswer
    obtain rfl := Option.some.inj hreply
    rw [hcache]
    simp [ReplyBody.isEventStream]
  · rename_i hcache
    rw [checked_bind_eq_ok] at hanswer
    obtain ⟨thread, -, hanswer⟩ := hanswer
    rw [checked_bind_eq_ok] at hanswer
    obtain ⟨sent, -, hanswer⟩ := hanswer
    obtain rfl := Except.ok.inj hanswer
    simp only [reply, degradeStream_stream] at hreply
    rw [hcache]
    split at hreply
    · cases hreply
    · split at hreply
      · rename_i hstreams
        obtain rfl := Option.some.inj hreply
        rw [(Bool.and_eq_true_iff.mp hstreams).1]
        rfl
      · split at hreply
        · rename_i hwanted
          obtain rfl := Option.some.inj hreply
          rw [hwanted]
          rfl
        · rename_i hwanted
          obtain rfl := Option.some.inj hreply
          rw [Bool.not_eq_true] at hwanted
          rw [hwanted]
          rfl

/-- A successful request is answered with server-sent events exactly when the client sent
`stream: true`, unless it streams a fan-out that the cache answers. -/
theorem reply_streams_iff (gw : Gateway) (auth : Option AuthContext) (turn : Turn)
    (stored : Stored) (answer : ProviderAnswer) (request : CreateResponseRequest)
    (body : ReplyBody) (h : postResponse gw auth turn stored answer request = .ok (some body)) :
    (body.isEventStream = true ↔ request.stream = true) ↔
      ¬ (request.stream = true ∧ needsFanout request = true ∧
        CacheAnswers gw auth turn stored request) := by
  obtain ⟨p, decision, provider, ending, hp, hanswer, hreply⟩ := postResponse_some h
  obtain ⟨model, input, instructions, routing, hreq⟩ := prepare_rewrites hp
  have hstream : p.resolution.request.stream = request.stream := by rw [hreq]
  have hfanout : needsFanout p.resolution.request = needsFanout request := by
    rw [hreq]
    rfl
  have hcache : CacheAnswers gw auth turn stored request ↔
      (consultCache gw turn stored.cache (degradeStream p.resolution.request)).isNone = false := by
    constructor
    · rintro ⟨p', hit, hp', hhit⟩
      obtain rfl := Except.ok.inj (hp.symm.trans hp')
      rw [hhit]
      rfl
    · intro hsome
      obtain ⟨hit, hhit⟩ := Option.ne_none_iff_exists'.mp
        (show consultCache gw turn stored.cache (degradeStream p.resolution.request) ≠ none by
          rintro hnone
          rw [hnone] at hsome
          cases hsome)
      exact ⟨p, hit, hp, hhit⟩
  rw [reply_answer_iff hanswer hreply, hcache, hstream]
  cases hs : request.stream with
  | false => simp
  | true =>
      cases hf : needsFanout request with
      | true => cases (consultCache gw turn stored.cache
          (degradeStream p.resolution.request)).isNone <;> simp
      | false =>
          -- without a fan-out the request still streams, and skips the cache
          rw [consultCache_of_stream (by rw [degradeStream_stream, hstream, hfanout, hs, hf]; rfl)]
          simp

end Reply

/-! ### A streamed request, and a streamed fan-out -/

namespace TwoTenants

/-- What the provider gives for `hi`. -/
def providerAnswer : ProviderAnswer :=
  { response :=
      { Response.builder "resp_c" "gpt-4o" 0 with
        status := .completed
        output := [.assistant "msg_0" "hello"] }
    events := [.outputTextDelta 0 0 "hello"] }

/-- The form of a reply. -/
def replyForm (reply : Checked (Option ReplyBody)) : Option Bool :=
  match reply with
  | .ok body => body.map ReplyBody.isEventStream
  | .error _ => none

theorem exists_of_replyForm {reply : Checked (Option ReplyBody)} {b : Bool}
    (h : replyForm reply = some b) : ∃ body, reply = .ok (some body) ∧ body.isEventStream = b := by
  rcases reply with e | (_ | body)
  · cases h
  · cases h
  · exact ⟨body, rfl, Option.some.inj h⟩

end TwoTenants

open TwoTenants in
theorem reply_streams_sample :
    ∃ body, postResponse gateway (some key) turn others providerAnswer { hi with stream := true }
        = .ok (some body) ∧ body.isEventStream = true := by
  obtain ⟨body, hbody, -⟩ := exists_of_replyForm
    (show replyForm (postResponse gateway (some key) turn others providerAnswer
      { hi with stream := true }) = some true by decide +kernel)
  have hiff := reply_streams_iff gateway (some key) turn others providerAnswer
    { hi with stream := true } body hbody
  refine ⟨body, hbody, (hiff.mpr ?_).mpr rfl⟩
  rintro ⟨-, hfanout, -⟩
  cases hfanout

open TwoTenants in
/-- A streamed fan-out whose answer is cached is answered with JSON. -/
theorem cached_fanout_not_streamed :
    ∃ body, postResponse gateway (some key) turn others providerAnswer
        { hi with stream := true, validation := some { strategy := .bestOfN } } = .ok (some body) ∧
      ¬ (body.isEventStream = true ↔
        ({ hi with stream := true, validation := some { strategy := .bestOfN } } :
          CreateResponseRequest).stream = true) := by
  obtain ⟨body, hbody, hform⟩ := exists_of_replyForm
    (show replyForm (postResponse gateway (some key) turn others providerAnswer
      { hi with stream := true, validation := some { strategy := .bestOfN } }) = some false by
        decide +kernel)
  refine ⟨body, hbody, fun hiff => ?_⟩
  rw [hiff.mpr rfl] at hform
  cases hform

end AuraGateway.Proxy
