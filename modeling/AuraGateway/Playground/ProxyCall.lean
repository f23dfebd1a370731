import AuraGateway.Foundations.HeaderList
import AuraGateway.Foundations.KeyedFolds
import AuraGateway.Playground.MintRuns
import AuraGateway.Standard.JsStd

/-!
# The playground proxy

The browser calls the proxy with a session cookie and no gateway key. A call finds the user of the
session, looks the user's key up, mints one where there is none, and forwards the request with that
key: without the cookie, without whatever `authorization` the browser sent, and to the gateway.

Calls run beside the mints they started, and any of them may fail. In every run what is forwarded
for a user bears the one key of that user, and each call is forwarded at most once, a retry after a
stale socket included (`proxy_safe`). A request for a response names a user, the client's own or that
of the session (`responses_name_user`).
-/

set_option autoImplicit false

namespace AuraGateway.Playground

open AuraGateway.RustStd (toAsciiLowercase)
open AuraGateway.Types AuraGateway.Storage AuraGateway.Auth
open AuraGateway.Foundations AuraGateway.Foundations.LabelledRuns
open AuraGateway.Foundations.UniqueInserts

universe v w

/-! ## The gateway's address -/

/-- `GATEWAY_BASE_URL`, trimmed and without slashes at its end. -/
def gatewayBaseUrl (env : Option String) : String :=
  let url := orElse (env.getD "") "https://api.aura-llm.dev"
  String.ofList (((JsStd.trim url.toList).reverse.dropWhile (· == '/')).reverse)

/-- A URL, as far as the handler reads it. Of the request targets that Node accepts the path is
empty or begins with a slash. -/
structure Url where
  pathname : String
  searchParams : List (String × String)
  rooted : pathname = "" ∨ ∃ rest, pathname = "/" ++ rest

/-- `new URL(url, 'http://placeholder')`, the text of search parameters, and JSON. -/
structure Platform where
  parseUrl : String → Option Url
  searchText : List (String × String) → String
  parseJson : String → Option Json
  stringify : Json → String

/-- `pathname.replace(/^\/api\/proxy\/?/, '/')`. -/
def stripPrefix (pathname : String) : String :=
  let head := "/api/proxy".toList
  if head.isPrefixOf pathname.toList then
    match pathname.toList.drop head.length with
    | '/' :: rest => "/" ++ String.ofList rest
    | rest => "/" ++ String.ofList rest
  else pathname

/-- `URL.search`. -/
def search (p : Platform) (params : List (String × String)) : String :=
  let text := p.searchText params
  if text = "" then "" else "?" ++ text

/-- Path and search of the request upstream, without the parameter that the rewrite adds. -/
def upstreamPath (p : Platform) (url : Url) : String :=
  stripPrefix url.pathname ++ search p (url.searchParams.filter fun q => q.1 ≠ "path")

/-- What comes behind the address of the gateway cannot change its host. -/
theorem upstreamPath_rooted (p : Platform) (url : Url) :
    upstreamPath p url = "" ∨ ∃ rest, upstreamPath p url = "/" ++ rest ∨
      upstreamPath p url = "?" ++ rest := by
  have hpath : stripPrefix url.pathname = "" ∨ ∃ rest, stripPrefix url.pathname = "/" ++ rest := by
    simp only [stripPrefix]
    split
    · refine .inr ?_
      split
      · exact ⟨_, rfl⟩
      · exact ⟨_, rfl⟩
    · exact url.rooted
  rw [upstreamPath]
  obtain hempty | ⟨rest, hrest⟩ := hpath
  · rw [hempty, String.empty_append]
    simp only [search]
    split
    · exact .inl rfl
    · exact .inr ⟨_, .inr rfl⟩
  · rw [hrest, String.append_assoc]
    exact .inr ⟨_, .inl rfl⟩

/-! ## Headers -/

/-- A header as Node gives it. -/
inductive HeaderValue where
  | undefined
  | one (value : String)
  | many (values : List String)

/-- Headers that concern one connection only. -/
def hopByHopHeaders : List String :=
  ["connection", "keep-alive", "proxy-authenticate", "proxy-authorization", "te", "trailer",
    "transfer-encoding", "upgrade"]

/-- Headers of the browser's request that are not for the gateway. -/
def requestHeadersToDrop : List String := ["cookie", "authorization", "host", "content-length"]

/-- Whether a header, by its lowercase name, stays behind. -/
def stays (lower : String) : Bool :=
  requestHeadersToDrop.contains lower || hopByHopHeaders.contains lower

/-- Forward one header; names are ASCII. -/
def forwardHeader (headers : List (String × String)) (entry : String × HeaderValue) :
    List (String × String) :=
  let lower := toAsciiLowercase entry.1
  if stays lower then headers
  else
    match entry.2 with
    | .undefined => headers
    | .one v => HeaderList.set headers lower v
    | .many vs => vs.foldl (fun headers v => HeaderList.append headers lower v) headers

/-- The headers of the request upstream. -/
def upstreamHeaders (headers : List (String × HeaderValue)) (apiKey : String) :
    List (String × String) :=
  HeaderList.set (headers.foldl forwardHeader []) "authorization" ("Bearer " ++ apiKey)

/-- A header that stays behind has the values it had. -/
theorem values_forwardHeader (headers : List (String × String)) (entry : String × HeaderValue)
    {name : String} (h : stays name) :
    HeaderList.values (forwardHeader headers entry) name = HeaderList.values headers name := by
  obtain ⟨key, value⟩ := entry
  simp only [forwardHeader]
  split
  · rfl
  · next hforward =>
      have hne : toAsciiLowercase key ≠ name := fun heq => hforward (heq ▸ h)
      cases value with
      | undefined => rfl
      | one v => exact (HeaderList.values_set headers _ v name).trans (if_neg hne)
      | many vs =>
          dsimp only
          induction vs generalizing headers with
          | nil => rfl
          | cons v vs ih => rw [List.foldl_cons, ih, HeaderList.values_append, if_neg hne]

theorem values_forwarded (entries : List (String × HeaderValue)) (headers : List (String × String))
    {name : String} (h : stays name) :
    HeaderList.values (entries.foldl forwardHeader headers) name
      = HeaderList.values headers name := by
  induction entries generalizing headers with
  | nil => rfl
  | cons e entries ih => rw [List.foldl_cons, ih, values_forwardHeader headers e h]

theorem authorization_upstream (headers : List (String × HeaderValue)) (apiKey : String) :
    HeaderList.values (upstreamHeaders headers apiKey) "authorization" = ["Bearer " ++ apiKey] := by
  rw [upstreamHeaders, HeaderList.values_set, if_pos rfl]

/-- Names that the gateway never gets from a browser. -/
def withheldHeaders : List String := ["cookie", "host", "content-length"] ++ hopByHopHeaders

theorem withheld_upstream (headers : List (String × HeaderValue)) (apiKey : String) :
    ∀ name ∈ withheldHeaders, HeaderList.values (upstreamHeaders headers apiKey) name = [] := by
  intro name hname
  have hstays : stays name = true ∧ name ≠ "authorization" := by
    revert name
    decide
  rw [upstreamHeaders, HeaderList.values_set, if_neg hstays.2.symm,
    values_forwarded headers [] hstays.1, HeaderList.values_nil]

/-! ## The request upstream -/

/-- What the browser sends. -/
structure IncomingMessage where
  method : Option String
  url : Option String
  headers : List (String × HeaderValue)
  body : String

/-- What the gateway is sent. -/
structure UpstreamRequest where
  method : String
  url : String
  headers : List (String × String)
  body : Option String

/-- Assign a property of an object; what is assigned to an array is not part of its text. -/
def assign (key : String) (value : Json) : Json → Json
  | .object fields => .object (KeyedFolds.amend value key (fun _ => value) fields)
  | other => other

/-- The `user` of a body, if it is a string. -/
def userOf (body : Json) : Option String := (body.get "user").bind Json.asStr

/-- Inject `user` into a body, unless it has one or is not an object. -/
def injectUser (p : Platform) (userId body : String) : String :=
  match p.parseJson body with
  | none => body
  | some parsed =>
      match parsed with
      | .object _ | .array _ =>
          if (userOf parsed).isSome then body
          else p.stringify (assign "user" (.string userId) parsed)
      | _ => body

/-- Steps 3 to 5 of the handler: the request upstream, if its URL can be parsed. -/
def buildRequest (p : Platform) (baseUrl userId apiKey : String) (req : IncomingMessage) :
    Option UpstreamRequest :=
  (p.parseUrl (req.url.getD "/")).map fun url =>
    let path := upstreamPath p url
    { method := req.method.getD "GET"
      url := baseUrl ++ path
      headers := upstreamHeaders req.headers apiKey
      body :=
        if req.method = some "GET" ∨ req.method = some "HEAD" then none
        else if "/v1/responses".toList.isPrefixOf path.toList ∧ req.body ≠ "" then
          some (injectUser p userId req.body)
        else some req.body }

theorem get_assign (key name : String) (value : Json) (fields : List (String × Json)) :
    (assign key value (.object fields)).get name
      = if name = key then some value else (Json.object fields).get name :=
  KeyedFolds.lookup_amend key name (fun _ => value) fields

/-- An object that is sent names a user: its own, or the one of the session. Nothing else of it
changes. -/
theorem injectUser_object (p : Platform) (userId : String) {body : String}
    {fields : List (String × Json)} (h : p.parseJson body = some (.object fields)) :
    ∃ sent : Json,
      (injectUser p userId body = body ∧ sent = .object fields ∨
        injectUser p userId body = p.stringify sent) ∧
      userOf sent = some ((userOf (.object fields)).getD userId) ∧
      ∀ name ≠ "user", sent.get name = (Json.object fields).get name := by
  simp only [injectUser, h]
  by_cases hown : (userOf (.object fields)).isSome
  · obtain ⟨own, hown⟩ := Option.isSome_iff_exists.mp hown
    refine ⟨.object fields, .inl ⟨?_, rfl⟩, ?_, fun _ _ => rfl⟩
    · rw [if_pos (by rw [hown]; rfl)]
    · rw [hown]
      rfl
  · refine ⟨assign "user" (.string userId) (.object fields), .inr ?_, ?_, fun name hname => ?_⟩
    · rw [if_neg hown]
    · rw [Option.not_isSome_iff_eq_none.mp hown, userOf, get_assign, if_pos rfl]
      rfl
    · rw [get_assign, if_neg hname]

/-! ## Calls -/

/-- What `fetch` comes to. Of a stale socket no byte has left. -/
inductive FetchResult where
  | response (status : Nat)
  | staleSocket
  | failed
  deriving DecidableEq

/-- The attempts of `fetchWithStaleSocketRetry`: a second one after a stale socket. -/
def attempts (first second : FetchResult) : List FetchResult :=
  if first = .staleSocket then [first, second] else [first]

/-- What `fetchWithStaleSocketRetry` comes to. -/
def fetchWithStaleSocketRetry (first second : FetchResult) : FetchResult :=
  if first = .staleSocket then second else first

/-- The status a call ends with. -/
def FetchResult.status : FetchResult → Nat
  | .response status => status
  | _ => 502

/-- How far a call of the proxy has come. -/
inductive ProxyStage (ι : Type v) where
  | getSession
  | getUserApiKey (user : SessionUser)
  | mintPlaygroundApiKey (user : SessionUser) (i : ι)
  | getUserApiKeyAgain (user : SessionUser)
  | forward (user : SessionUser) (apiKey : String)
  | replied (status : Nat)

namespace ProxyStage

variable {ι : Type v}

def ended : ProxyStage ι → Bool
  | .replied _ => true
  | _ => false

/-- A call without a user is unauthorized. -/
def afterSession : Option SessionUser → ProxyStage ι
  | some user => if user.id = "" then .replied 401 else .getUserApiKey user
  | none => .replied 401

/-- With a key the request is forwarded; an empty key is none. -/
def afterLookup (user : SessionUser) (missing : ProxyStage ι) : Option String → ProxyStage ι
  | some apiKey => if apiKey = "" then missing else .forward user apiKey
  | none => missing

end ProxyStage

/-- A request that may have reached the gateway. -/
structure Forwarded (κ : Type w) where
  call : κ
  user : SessionUser
  request : UpstreamRequest

/-- The mints, every call of the proxy with its stage, and what has been forwarded. -/
structure ProxyState (ι : Type v) (κ : Type w) where
  mint : State ι
  stage : κ → ProxyStage ι
  forwarded : List (Forwarded κ)

variable {ι : Type v} [DecidableEq ι] {κ : Type w} [DecidableEq κ]

namespace ProxyState

def setStage (s : ProxyState ι κ) (j : κ) (x : ProxyStage ι) : ProxyState ι κ :=
  { s with stage := Function.update s.stage j x }

omit [DecidableEq ι] in
@[simp] theorem stage_setStage_self (s : ProxyState ι κ) (j : κ) (x : ProxyStage ι) :
    (s.setStage j x).stage j = x := by
  simp [setStage]

omit [DecidableEq ι] in
@[simp] theorem stage_setStage_of_ne (s : ProxyState ι κ) (j k : κ) (x : ProxyStage ι)
    (h : k ≠ j) : (s.setStage j x).stage k = s.stage k := by
  simp [setStage, h]

/-- The key that a lookup finds. -/
def keyOf (s : ProxyState ι κ) (user : SessionUser) : Option String :=
  Playground.getUserApiKey user.id s.mint.store.committed

end ProxyState

/-- What happens next. -/
inductive ProxyEvent (ι : Type v) (κ : Type w) where
  | mint (ev : Event ι)
  | call (j : κ)

/-- The process, and what its calls were sent. -/
structure Proxy (κ : Type w) where
  sha256Hex : String → String
  platform : Platform
  baseUrl : String
  incoming : κ → IncomingMessage

/-- One step of a mint or of a call. Everything a call waits for may fail. -/
inductive ProxyStep (x : Proxy κ) (s : ProxyState ι κ) :
    ProxyEvent ι κ → ProxyState ι κ → Prop where
  | mint {ev : Event ι} {m : State ι} (h : Step x.sha256Hex s.mint ev m) :
      ProxyStep x s (.mint ev) { s with mint := m }
  | getSession {j : κ} (h : s.stage j = .getSession) (session : Option SessionUser) :
      ProxyStep x s (.call j) (s.setStage j (.afterSession session))
  | getUserApiKey {j : κ} {user : SessionUser} (h : s.stage j = .getUserApiKey user) (i : ι) :
      ProxyStep x s (.call j)
        (s.setStage j (.afterLookup user (.mintPlaygroundApiKey user i) (s.keyOf user)))
  | minted {j : κ} {user : SessionUser} {i : ι} (h : s.stage j = .mintPlaygroundApiKey user i)
      (hended : (s.mint.stage i).ended = true) :
      ProxyStep x s (.call j) (s.setStage j (.getUserApiKeyAgain user))
  | getUserApiKeyAgain {j : κ} {user : SessionUser} (h : s.stage j = .getUserApiKeyAgain user) :
      ProxyStep x s (.call j) (s.setStage j (.afterLookup user (.replied 500) (s.keyOf user)))
  | forward {j : κ} {user : SessionUser} {apiKey : String} (h : s.stage j = .forward user apiKey)
      {request : UpstreamRequest}
      (hrequest : buildRequest x.platform x.baseUrl user.id apiKey (x.incoming j) = some request)
      (first second : FetchResult) :
      ProxyStep x s (.call j)
        { s.setStage j (.replied (fetchWithStaleSocketRetry first second).status) with
          forwarded := s.forwarded ++
            ((attempts first second).filter (· ≠ .staleSocket)).map fun _ => ⟨j, user, request⟩ }
  | failed {j : κ} (hrunning : (s.stage j).ended = false) :
      ProxyStep x s (.call j) (s.setStage j (.replied 500))

/-- No call has begun and nothing has been forwarded; keys may be there, each of them once. -/
structure ProxyState.Quiet (s : ProxyState ι κ) : Prop where
  mints : ∀ i, s.mint.stage i = .getSession
  sessions : ∀ i, s.mint.store.session i = .idle
  unique : (s.mint.store.committed.map Row.key).Nodup
  calls : ∀ j, s.stage j = .getSession
  nothing : s.forwarded = []

/-! ## Runs -/

/-- A key that is found stays the one that is found. -/
theorem getUserApiKey_later {userId apiKey : String} {rows later : List Row}
    (hunique : (later.map Row.key).Nodup) (hgrown : rows <+: later)
    (h : getUserApiKey userId rows = some apiKey) : getUserApiKey userId later = some apiKey := by
  rw [getUserApiKey, Option.map_eq_some_iff] at h
  obtain ⟨k, hk, rfl⟩ := h
  obtain ⟨hrow, rfl⟩ := (mem_userApiKeys rows).mp (List.mem_of_mem_head? hk)
  exact getUserApiKey_of_mem hunique (hgrown.subset hrow)

/-- What a call has found holds: the key it forwards with is that of its user, what was forwarded
bears it, and a call that is not over has forwarded nothing. -/
structure ProxyState.Sound (x : Proxy κ) (start : State ι) (s : ProxyState ι κ) : Prop where
  mint : Consistent start s.mint
  holds : ∀ j user apiKey, s.stage j = .forward user apiKey → s.keyOf user = some apiKey
  bears : ∀ f ∈ s.forwarded, ∃ apiKey, s.keyOf f.user = some apiKey ∧
    buildRequest x.platform x.baseUrl f.user.id apiKey (x.incoming f.call) = some f.request
  once : ∀ j, (s.forwarded.filter fun f => f.call = j).length ≤ 1
  pending : ∀ j, (s.stage j).ended = false → ∀ f ∈ s.forwarded, f.call ≠ j

omit [DecidableEq ι] in
theorem afterLookup_forward {user user' : SessionUser} {missing : ProxyStage ι}
    {found : Option String} {apiKey : String} (hmissing : ∀ u k, missing ≠ .forward u k)
    (h : ProxyStage.afterLookup user missing found = .forward user' apiKey) :
    user' = user ∧ found = some apiKey := by
  cases found with
  | none =>
      apply absurd h
      exact hmissing user' apiKey
  | some k =>
      rw [ProxyStage.afterLookup] at h
      split at h
      · apply absurd h
        exact hmissing user' apiKey
      · obtain ⟨rfl, rfl⟩ := ProxyStage.forward.inj h
        exact ⟨rfl, rfl⟩

theorem length_attempts_le (first second : FetchResult) :
    ((attempts first second).filter (· ≠ .staleSocket)).length ≤ 1 := by
  rw [attempts]
  split
  · next hstale =>
      -- the first attempt does not count, the second may
      rw [List.filter_cons_of_neg (by simpa using hstale)]
      exact List.length_filter_le _ [second]
  · exact List.length_filter_le _ [first]

namespace ProxyState.Sound

variable {x : Proxy κ} {start : State ι} {s : ProxyState ι κ}

omit [DecidableEq ι] in
/-- A call that is not over goes on, with the key of its user if with any. -/
theorem setStage (h : s.Sound x start) {j : κ} (hrunning : (s.stage j).ended = false)
    {y : ProxyStage ι} (hy : ∀ user apiKey, y = .forward user apiKey → s.keyOf user = some apiKey) :
    (s.setStage j y).Sound x start where
  mint := h.mint
  holds k user apiKey hk := by
    by_cases hkj : k = j
    · subst hkj
      rw [stage_setStage_self] at hk
      exact hy user apiKey hk
    · rw [stage_setStage_of_ne _ _ _ _ hkj] at hk
      exact h.holds k user apiKey hk
  bears := h.bears
  once := h.once
  pending k hk := by
    by_cases hkj : k = j
    · subst hkj
      exact h.pending k hrunning
    · rw [stage_setStage_of_ne _ _ _ _ hkj] at hk
      exact h.pending k hk

omit [DecidableEq ι] in
/-- A lookup goes on with the key that it finds. -/
theorem lookUp (h : s.Sound x start) {j : κ} (hrunning : (s.stage j).ended = false)
    (user : SessionUser) {missing : ProxyStage ι} (hmissing : ∀ u k, missing ≠ .forward u k) :
    (s.setStage j (.afterLookup user missing (s.keyOf user))).Sound x start := by
  apply h.setStage hrunning
  intro user' apiKey hy
  obtain ⟨rfl, hfound⟩ := afterLookup_forward hmissing hy
  exact hfound

/-- The rows that mints commit leave what was found. -/
theorem mintStep (h : s.Sound x start) {ev : Event ι} {m : State ι}
    (hstep : Step x.sha256Hex s.mint ev m) : ({ s with mint := m } : ProxyState ι κ).Sound x start := by
  have hconsistent := h.mint.step hstep
  have hlater : ∀ {user apiKey}, s.keyOf user = some apiKey →
      ({ s with mint := m } : ProxyState ι κ).keyOf user = some apiKey :=
    getUserApiKey_later hconsistent.unique.committed hstep.committed_prefix
  exact
    { mint := hconsistent
      holds := fun j user apiKey hj => hlater (h.holds j user apiKey hj)
      bears := fun f hf => by
        obtain ⟨apiKey, hkey, hrequest⟩ := h.bears f hf
        exact ⟨apiKey, hlater hkey, hrequest⟩
      once := h.once
      pending := h.pending }

omit [DecidableEq ι] in
/-- A call forwards its request and is over. -/
theorem forward (h : s.Sound x start) {j : κ} {user : SessionUser} {apiKey : String}
    (hj : s.stage j = .forward user apiKey) {request : UpstreamRequest}
    (hrequest : buildRequest x.platform x.baseUrl user.id apiKey (x.incoming j) = some request)
    (status : Nat) {sent : List FetchResult} (hsent : sent.length ≤ 1) :
    ({ s.setStage j (.replied status) with
        forwarded := s.forwarded ++ sent.map fun _ => ⟨j, user, request⟩ } :
      ProxyState ι κ).Sound x start := by
  have hrunning : (s.stage j).ended = false := by
    rw [hj]
    rfl
  have hstays := h.setStage hrunning (y := .replied status) fun _ _ hy => by cases hy
  refine
    { mint := hstays.mint
      holds := hstays.holds
      bears := ?_
      once := ?_
      pending := ?_ }
  · intro f hf
    obtain hf | hf := List.mem_append.mp hf
    · exact h.bears f hf
    · obtain ⟨_, -, rfl⟩ := List.mem_map.mp hf
      exact ⟨apiKey, h.holds j user apiKey hj, hrequest⟩
  · intro k
    rw [List.filter_append, List.length_append]
    by_cases hkj : k = j
    · -- nothing was forwarded for the call before
      subst hkj
      rw [List.filter_eq_nil_iff.mpr fun f hf => by simpa using h.pending k hrunning f hf,
        List.length_nil, Nat.zero_add]
      exact (List.length_filter_le _ _).trans (by rwa [List.length_map])
    · -- and nothing is forwarded for the others now
      have hnone : ((sent.map fun _ => (⟨j, user, request⟩ : Forwarded κ)).filter
          fun f => f.call = k) = [] := by
        rw [List.filter_eq_nil_iff]
        intro f hf
        obtain ⟨_, -, rfl⟩ := List.mem_map.mp hf
        simpa using Ne.symm hkj
      rw [hnone, List.length_nil, Nat.add_zero]
      exact h.once k
  · intro k hk f hf
    obtain hf | hf := List.mem_append.mp hf
    · exact hstays.pending k hk f hf
    · obtain ⟨_, -, rfl⟩ := List.mem_map.mp hf
      rintro rfl
      simp [ProxyState.setStage, ProxyStage.ended] at hk

theorem step (h : s.Sound x start) {ev : ProxyEvent ι κ} {s' : ProxyState ι κ}
    (hstep : ProxyStep x s ev s') : s'.Sound x start := by
  cases hstep with
  | mint hmint => exact h.mintStep hmint
  | @getSession j hj session =>
      -- whoever the session is of, no key is there yet
      apply h.setStage (by rw [hj]; rfl)
      intro user apiKey hy
      cases session with
      | none => cases hy
      | some user =>
          rw [ProxyStage.afterSession] at hy
          split at hy <;> cases hy
  | @getUserApiKey j user hj i =>
      exact h.lookUp (by rw [hj]; rfl) user fun _ _ hmissing => by cases hmissing
  | @minted j user i hj hended =>
      exact h.setStage (by rw [hj]; rfl) fun _ _ hy => by cases hy
  | @getUserApiKeyAgain j user hj =>
      exact h.lookUp (by rw [hj]; rfl) user fun _ _ hmissing => by cases hmissing
  | forward hj hrequest first second =>
      exact h.forward hj hrequest _ (length_attempts_le first second)
  | failed hrunning => exact h.setStage hrunning fun _ _ hy => by cases hy

end ProxyState.Sound

omit [DecidableEq ι] in
theorem ProxyState.Quiet.sound {s : ProxyState ι κ} (h : s.Quiet) (x : Proxy κ) :
    s.Sound x s.mint where
  mint :=
    { unique := Unique.of_idle h.sessions h.unique
      sessions := fun i => by
        rw [h.mints i]
        exact h.sessions i
      committed := ⟨[], (List.append_nil _).symm⟩ }
  holds j user apiKey hj := by
    rw [h.calls j] at hj
    cases hj
  bears f hf := by
    rw [h.nothing] at hf
    cases hf
  once j := by
    rw [h.nothing]
    exact Nat.zero_le 1
  pending j _ f hf := by
    rw [h.nothing] at hf
    cases hf

theorem ProxyState.Quiet.run {x : Proxy κ} {start s : ProxyState ι κ} (h : start.Quiet)
    {evs : List (ProxyEvent ι κ)} (hrun : Run (ProxyStep x) start evs s) :
    s.Sound x start.mint := by
  apply hrun.stateInvariant (ProxyState.Sound x start.mint) (h.sound x)
  intro a ev b ha hstep
  exact ha.step hstep

/-- In every run, with any number of calls and mints at the same time and any failures: what was
forwarded for a user bears the key that the user's row names, and no other credentials; it goes to
the gateway; and no call has been forwarded twice. -/
theorem proxy_safe (x : Proxy κ) (start : ProxyState ι κ) (hquiet : start.Quiet)
    (evs : List (ProxyEvent ι κ)) (s : ProxyState ι κ) (hrun : Run (ProxyStep x) start evs s) :
    (∀ f ∈ s.forwarded, ∃ apiKey, s.keyOf f.user = some apiKey ∧
      HeaderList.values f.request.headers "authorization" = ["Bearer " ++ apiKey] ∧
      (∀ name ∈ withheldHeaders, HeaderList.values f.request.headers name = []) ∧
      ∃ path, f.request.url = x.baseUrl ++ path ∧
        (path = "" ∨ ∃ rest, path = "/" ++ rest ∨ path = "?" ++ rest)) ∧
    ∀ j, (s.forwarded.filter fun f => f.call = j).length ≤ 1 := by
  have hsound : s.Sound x start.mint := hquiet.run hrun
  refine ⟨fun f hf => ?_, hsound.once⟩
  obtain ⟨apiKey, hkey, hrequest⟩ := hsound.bears f hf
  obtain ⟨url, -, hbuilt⟩ := Option.map_eq_some_iff.mp hrequest
  rw [← hbuilt]
  exact ⟨apiKey, hkey, authorization_upstream _ _, withheld_upstream _ _,
    _, rfl, upstreamPath_rooted _ _⟩

namespace Sample

/-- The URL that the rewrite makes of a request for a response. -/
def url : Url where
  pathname := "/api/proxy/v1/responses"
  searchParams := [("path", "v1/responses")]
  rooted := .inr ⟨"api/proxy/v1/responses", rfl⟩

def parsedBody : List (String × Json) := [("input", .string "Hello")]

/-- The platform, on one request. -/
def platform : Platform where
  parseUrl _ := some url
  searchText params := "&".intercalate (params.map fun q => q.1 ++ "=" ++ q.2)
  parseJson _ := some (.object parsedBody)
  stringify _ := "\x7b\"input\":\"Hello\",\"user\":\"u1\"\x7d"

def incoming : IncomingMessage where
  method := some "POST"
  url := some "/api/proxy/v1/responses?path=v1/responses"
  headers := [("cookie", .one "session"), ("Authorization", .one "Bearer mine")]
  body := "\x7b\"input\":\"Hello\"\x7d"

def proxy : Proxy Unit where
  sha256Hex := hash
  platform := platform
  baseUrl := gatewayBaseUrl none
  incoming := fun _ => incoming

def start : ProxyState Bool Unit where
  mint := twoCalls
  stage := fun _ => .getSession
  forwarded := []

theorem quiet : start.Quiet where
  mints _ := rfl
  sessions _ := rfl
  unique := List.nodup_nil
  calls _ := rfl
  nothing := rfl

/-- What mints do, they do beside the proxy. -/
theorem run_mints {evs : List (Event Bool)} {a b : State Bool} (h : Run (Step hash) a evs b)
    (t : ProxyState Bool Unit) :
    Run (ProxyStep proxy) { t with mint := a } (evs.map .mint) { t with mint := b } := by
  induction h with
  | nil => exact .nil
  | snoc _ hstep ih =>
      rw [List.map_append]
      exact ih.snoc (.mint hstep)

/-- After a mint a call finds the key; its first attempt meets a stale socket. -/
theorem run_to_forward :
    ∃ evs s request, Run (ProxyStep proxy) start evs s ∧ s.forwarded = [⟨(), user, request⟩] := by
  obtain ⟨_, _, m, hrun, hcommit, hkey⟩ := mint_safe_sample
  have h₁ : Run (ProxyStep proxy) start _ { start with mint := m } :=
    run_mints (hrun.snoc hcommit) start
  have h₂ := h₁.snoc (.getSession (j := ()) rfl (some user))
  have h₃ := h₂.snoc (.getUserApiKey (j := ()) rfl true)
  have hfound : (ProxyStage.afterLookup user (.mintPlaygroundApiKey user true)
      (getUserApiKey user.id m.store.committed) : ProxyStage Bool)
        = .forward user mint.generated.key := by
    have hne : mint.generated.key ≠ "" := by decide
    rw [show getUserApiKey user.id m.store.committed = some mint.generated.key from hkey,
      ProxyStage.afterLookup, if_neg hne]
  have h₄ := h₃.snoc (.forward (j := ()) hfound rfl .staleSocket (.response 200))
  exact ⟨_, _, _, h₄, rfl⟩

end Sample

/-- A call forwards its request with the user's key, once. -/
theorem proxy_safe_sample :
    ∃ evs s f, Run (ProxyStep Sample.proxy) Sample.start evs s ∧ s.forwarded = [f] ∧
      HeaderList.values f.request.headers "cookie" = [] := by
  obtain ⟨evs, s, request, hrun, hforwarded⟩ := Sample.run_to_forward
  obtain ⟨hsafe, -⟩ := proxy_safe Sample.proxy Sample.start Sample.quiet evs s hrun
  obtain ⟨-, -, -, hwithheld, -⟩ := hsafe ⟨(), Sample.user, request⟩ (by simp [hforwarded])
  exact ⟨evs, s, _, hrun, hforwarded, hwithheld "cookie" (by decide)⟩

/-- In every run each request for a response that was forwarded, if its body is an object, names a
user: the one the client named, or else the one of the session. The other fields are the client's. -/
theorem responses_name_user (x : Proxy κ) (start : ProxyState ι κ) (hquiet : start.Quiet)
    (evs : List (ProxyEvent ι κ)) (s : ProxyState ι κ) (hrun : Run (ProxyStep x) start evs s)
    (f : Forwarded κ) (hf : f ∈ s.forwarded) (url : Url)
    (hurl : x.platform.parseUrl ((x.incoming f.call).url.getD "/") = some url)
    (hpath : "/v1/responses".toList.isPrefixOf (upstreamPath x.platform url).toList)
    (hmethod : (x.incoming f.call).method ≠ some "GET" ∧ (x.incoming f.call).method ≠ some "HEAD")
    (hbody : (x.incoming f.call).body ≠ "") (fields : List (String × Json))
    (hparse : x.platform.parseJson (x.incoming f.call).body = some (.object fields)) :
    ∃ sent : Json,
      (f.request.body = some (x.incoming f.call).body ∧ sent = .object fields ∨
        f.request.body = some (x.platform.stringify sent)) ∧
      userOf sent = some ((userOf (.object fields)).getD f.user.id) ∧
      ∀ name ≠ "user", sent.get name = (Json.object fields).get name := by
  have hsound : s.Sound x start.mint := hquiet.run hrun
  obtain ⟨apiKey, -, hrequest⟩ := hsound.bears f hf
  rw [buildRequest, hurl, Option.map_some] at hrequest
  have hsent : f.request.body
      = some (injectUser x.platform f.user.id (x.incoming f.call).body) := by
    rw [← Option.some.inj hrequest]
    dsimp only
    rw [if_neg fun h => h.elim hmethod.1 hmethod.2, if_pos ⟨hpath, hbody⟩]
  obtain ⟨sent, htext, huser, hothers⟩ := injectUser_object x.platform f.user.id hparse
  refine ⟨sent, ?_, huser, hothers⟩
  rw [hsent]
  exact htext.imp (fun h => ⟨congrArg some h.1, h.2⟩) (congrArg some)

/-- The body of the sample names the user of the session. -/
theorem responses_name_user_sample :
    ∃ evs s f sent, Run (ProxyStep Sample.proxy) Sample.start evs s ∧ s.forwarded = [f] ∧
      f.request.body = some (Sample.platform.stringify sent) ∧ userOf sent = some "u1" := by
  obtain ⟨evs, s, request, hrun, hforwarded⟩ := Sample.run_to_forward
  have hmethod : Sample.incoming.method ≠ some "GET" ∧ Sample.incoming.method ≠ some "HEAD" := by
    decide
  have hbody : Sample.incoming.body ≠ "" := by decide
  obtain ⟨sent, hbody, huser, -⟩ :=
    responses_name_user Sample.proxy Sample.start Sample.quiet evs s hrun ⟨(), Sample.user, request⟩
      (by simp [hforwarded]) Sample.url rfl (by decide) hmethod hbody Sample.parsedBody rfl
  refine ⟨evs, s, _, sent, hrun, hforwarded, ?_, huser⟩
  obtain ⟨-, rfl⟩ | hbody := hbody
  · -- the client named nobody
    cases huser
  · exact hbody

end AuraGateway.Playground
