import AuraGateway.Proxy.RouterBuild
import AuraGateway.Router.SelectionSafety

/-!
# Applying and storing gateway settings

A settings request is parsed and validated, stored when there is a database, and then
applied: the runtime flags are set, the auto router is rebuilt and the overrides are
kept for display. Every value is computed from the boot configuration and the request's
document, never from the values in force.

`settings_history_free` is the law: after any sequence of requests, one at a time, the
process is where the last accepted document takes it from the boot state. Requests that
are refused or fail change nothing, and a restart on the stored document ends in the
same state.
-/

set_option autoImplicit false

namespace AuraGateway.Settings

open AuraGateway.RustStd AuraGateway.Types AuraGateway.Router AuraGateway.Proxy

/-! ## The boot configuration -/

/-- `AURA_REPLAY_TOOL_CONTEXT`: on unless it is set to a negative word. -/
def toolContextReplayFromEnv : Option String → Bool
  | some v =>
      let v := toAsciiLowercase (trim v)
      !(v == "0" || v == "false" || v == "no" || v == "off")
  | none => true

/-- `cache::DEFAULT_CACHE_TTL`. -/
def defaultCacheTtl : Nat := 300

/-- Requests per minute for API keys without their own limit. -/
def defaultRateLimitRpm : Nat := 60

/-- What is fixed when the process starts, as far as settings are concerned. -/
structure Boot where
  engine : TextEngine
  payloadCapture : Bool
  replayToolContextEnv : Option String
  auto : AutoRoutingConfig
  catalog : List CatalogEntry
  registry : ProviderRegistry
  hasDatabase : Bool

/-- Runtime-adjustable switches. -/
structure RuntimeFlags where
  payloadCapture : Bool
  replayToolContext : Bool
  cacheEnabled : Bool
  cacheTtlSecs : Nat
  rateLimitEnabled : Bool
  defaultRateLimitRpm : Nat
  deriving DecidableEq, Repr

/-- Boot values of the switches. -/
def RuntimeFlags.fromConfig (boot : Boot) : RuntimeFlags :=
  { payloadCapture := boot.payloadCapture
    replayToolContext := toolContextReplayFromEnv boot.replayToolContextEnv
    cacheEnabled := true
    cacheTtlSecs := defaultCacheTtl
    rateLimitEnabled := true
    defaultRateLimitRpm := Settings.defaultRateLimitRpm }

/-- Overrides on top of the boot values. -/
def RuntimeFlags.apply (boot : Boot) (s : GatewaySettings) : RuntimeFlags :=
  let base := RuntimeFlags.fromConfig boot
  { payloadCapture := s.features.payloadCapture.getD base.payloadCapture
    replayToolContext := s.features.replayToolContext.getD base.replayToolContext
    cacheEnabled := s.cache.enabled.getD base.cacheEnabled
    rateLimitEnabled := s.rateLimit.enabled.getD base.rateLimitEnabled
    cacheTtlSecs := s.cache.defaultTtlSecs.getD base.cacheTtlSecs
    defaultRateLimitRpm := s.rateLimit.defaultRpm.getD base.defaultRateLimitRpm }

/-! ## The running process -/

/-- The part of the process that settings change. -/
structure Process where
  runtime : RuntimeFlags
  autoRouter : Option AutoRouter
  routerDropped : List String
  gatewaySettings : GatewaySettings

/-- The process as it starts, before any stored overrides are loaded. -/
def bootProcess (boot : Boot) : Process :=
  let built := buildAutoRouter boot.engine boot.auto boot.catalog boot.registry
  { runtime := RuntimeFlags.fromConfig boot
    autoRouter := built.1
    routerDropped := built.2
    gatewaySettings := {} }

/-- Apply runtime overrides: set the flags, rebuild the router, keep the overrides. -/
def applyGatewaySettings (boot : Boot) (s : GatewaySettings) : Process :=
  let built :=
    buildAutoRouter boot.engine (s.applyToAuto boot.auto) boot.catalog boot.registry
  { runtime := RuntimeFlags.apply boot s
    autoRouter := built.1
    routerDropped := built.2
    gatewaySettings := s }

/-- The auto-routing configuration in force, before pruning. -/
def effectiveAutoConfig (boot : Boot) (p : Process) : AutoRoutingConfig :=
  p.gatewaySettings.applyToAuto boot.auto

/-- Without overrides the process stays as it started. -/
theorem applyGatewaySettings_empty (boot : Boot) :
    applyGatewaySettings boot {} = bootProcess boot := rfl

/-! ## Storing and loading -/

/-- Reading and writing a settings document as JSON. -/
structure SettingsCodec where
  decode : Json → Except String GatewaySettings
  encode : GatewaySettings → Json

/-- The document is read back as it was written. -/
def SettingsCodec.RoundTrips (codec : SettingsCodec) (s : GatewaySettings) : Prop :=
  codec.decode (codec.encode s) = .ok s

/-- A gateway: the process, and the `gateway_settings` row of its database. -/
structure Gateway where
  process : Process
  row : Option Json

section Handlers

variable (boot : Boot) (codec : SettingsCodec)

/-- The stored overrides, when there are any to apply. -/
def storedSettings (row : Option Json) : Except String (Option GatewaySettings) :=
  if boot.hasDatabase then
    match row with
    | none => .ok none
    | some value =>
        match codec.decode value with
        | .error e => .error ("stored gateway_settings: " ++ e)
        | .ok s =>
            -- an empty document is not applied at all
            if s.isEmpty then .ok none
            else s.validate.map fun _ => some s
  else .ok none

/-- Start the process on a database row; a document that cannot be loaded is reported and
leaves the boot values. -/
def startProcess (row : Option Json) : Process :=
  match storedSettings boot codec row with
  | .ok (some s) => applyGatewaySettings boot s
  | _ => bootProcess boot

/-- Restart the gateway on the row it has stored. -/
def Gateway.restart (g : Gateway) : Gateway :=
  { g with process := startProcess boot codec g.row }

/-- Persist overrides; says whether they were stored. Nothing is stored without a database
or by a failed statement. -/
def saveGatewaySettings (g : Gateway) (s : GatewaySettings) (failure : Option String) :
    Gateway × Except String Bool :=
  if boot.hasDatabase then
    match failure with
    | some e => (g, .error e)
    | none => ({ g with row := some (codec.encode s) }, .ok true)
  else (g, .ok false)

/-- Why a settings request was refused. -/
inductive PutError where
  | badRequest (message : String)
  | internal (message : String)
  deriving DecidableEq, Repr

/-- Whether auto routing is on in the configuration shown as effective. -/
def effectiveEnabled (p : Process) : Bool :=
  match p.autoRouter with
  | some r => r.config.enabled
  | none => (effectiveAutoConfig boot p).enabled

/-- What a settings request is warned about. -/
def putWarnings (p : Process) (persisted : Bool) : List String :=
  (if p.routerDropped.isEmpty then []
    else ["dropped tier models this gateway cannot serve: "
      ++ String.intercalate ", " p.routerDropped])
    ++ (if persisted then []
      else ["no database configured: these settings last until the next restart"])
    ++ (if effectiveEnabled boot p && p.autoRouter.isNone then
        ["auto routing is enabled but no tier has a model this gateway can serve"]
      else [])

/-- A settings request: its body, and the error of the database statement if it fails. -/
structure Put where
  body : Json
  failure : Option String := none

/-- Parse and validate a document. -/
def admitSettings (body : Json) : Except PutError GatewaySettings :=
  match codec.decode body with
  | .error e => .error (.badRequest ("invalid settings: " ++ e))
  | .ok s =>
      match s.validate with
      | .error e => .error (.badRequest e)
      | .ok () => .ok s

/-- `PUT /admin/settings`: replace the overrides. The document is stored first, so that a
database error leaves the running gateway as it was. -/
def putSettings (g : Gateway) (put : Put) : Gateway × Except PutError (List String) :=
  match admitSettings codec put.body with
  | .error e => (g, .error e)
  | .ok s =>
      match saveGatewaySettings boot codec g s put.failure with
      -- the process is untouched: nothing has been applied yet
      | (g, .error e) => (g, .error (.internal ("failed to store settings: " ++ e)))
      | (g, .ok persisted) =>
          let p := applyGatewaySettings boot s
          ({ g with process := p }, .ok (putWarnings boot p persisted))

/-- Serve requests one at a time. -/
def serveAll (g : Gateway) (puts : List Put) : Gateway :=
  puts.foldl (fun g put => (putSettings boot codec g put).1) g

/-- The document of a request that is answered with success. -/
def acceptedSettings (g : Gateway) (put : Put) : Option GatewaySettings :=
  match (putSettings boot codec g put).2, admitSettings codec put.body with
  | .ok _, .ok s => some s
  | _, _ => none

/-- The document accepted last. -/
def lastAccepted (g : Gateway) : List Put → Option GatewaySettings
  | [] => none
  | put :: rest =>
      (lastAccepted (putSettings boot codec g put).1 rest).or (acceptedSettings boot codec g put)

end Handlers

/-! ## One request -/

section Laws

variable {boot : Boot} {codec : SettingsCodec} {g : Gateway} {put : Put} {s : GatewaySettings}

theorem admitSettings_valid (h : admitSettings codec put.body = .ok s) : s.validate = .ok () := by
  simp only [admitSettings] at h
  split at h
  · cases h
  · split at h
    · cases h
    · rename_i hv
      obtain rfl := Except.ok.inj h
      exact hv

/-- What a request does: it is refused and changes nothing, or its document is stored,
given a database, and applied. -/
theorem putSettings_cases (boot : Boot) (codec : SettingsCodec) (g : Gateway) (put : Put) :
    (∃ e, putSettings boot codec g put = (g, .error e) ∧
      acceptedSettings boot codec g put = none) ∨
    (∃ s w, admitSettings codec put.body = .ok s ∧ acceptedSettings boot codec g put = some s ∧
      putSettings boot codec g put
        = ({ process := applyGatewaySettings boot s
             row := if boot.hasDatabase then some (codec.encode s) else g.row }, .ok w)) := by
  cases ha : admitSettings codec put.body with
  | error e => exact Or.inl ⟨e, by simp [putSettings, ha], by simp [acceptedSettings, putSettings, ha]⟩
  | ok s =>
      -- with a database the statement decides; without one nothing can fail any more
      by_cases hdb : boot.hasDatabase = true
      · cases hf : put.failure with
        | some e =>
            left
            refine ⟨.internal ("failed to store settings: " ++ e), ?_, ?_⟩
            · simp [putSettings, ha, saveGatewaySettings, hdb, hf]
            · simp [acceptedSettings, putSettings, ha, saveGatewaySettings, hdb, hf]
        | none =>
            right
            refine ⟨s, putWarnings boot (applyGatewaySettings boot s) true, rfl, ?_, ?_⟩
            · simp [acceptedSettings, putSettings, ha, saveGatewaySettings, hdb, hf]
            · simp [putSettings, ha, saveGatewaySettings, hdb, hf]
      · right
        refine ⟨s, putWarnings boot (applyGatewaySettings boot s) false, rfl, ?_, ?_⟩
        · simp [acceptedSettings, putSettings, ha, saveGatewaySettings, hdb]
        · simp [putSettings, ha, saveGatewaySettings, hdb]

/-- A refused request changes nothing. -/
theorem putSettings_refused {e : PutError} (h : (putSettings boot codec g put).2 = .error e) :
    (putSettings boot codec g put).1 = g := by
  rcases putSettings_cases boot codec g put with ⟨e', hput, -⟩ | ⟨s, w, -, -, hput⟩
  · rw [hput]
  · rw [hput] at h
    cases h

theorem serveAll_snoc (done : List Put) :
    serveAll boot codec g (done ++ [put])
      = (putSettings boot codec (serveAll boot codec g done) put).1 := by
  simp only [serveAll]
  rw [List.foldl_append, List.foldl_cons, List.foldl_nil]

/-- The process started on a stored document is the one the document was applied to. -/
theorem startProcess_encode (hdb : boot.hasDatabase = true) (hv : s.validate = .ok ())
    (hr : codec.RoundTrips s) :
    startProcess boot codec (some (codec.encode s)) = applyGatewaySettings boot s := by
  simp only [startProcess, storedSettings]
  simp only [SettingsCodec.RoundTrips] at hr
  simp only [hdb, if_true, hr]
  by_cases he : s.isEmpty = true
  · -- an empty document is not applied, and would change nothing
    obtain rfl := GatewaySettings.isEmpty_iff.mp he
    rw [if_pos he, applyGatewaySettings_empty]
  · rw [if_neg he, hv]
    rfl

end Laws

/-! ## Histories -/

/-- The process is where `last` takes it from the boot state, and a restart leads there. -/
structure SettledOn (boot : Boot) (codec : SettingsCodec) (last : GatewaySettings)
    (g : Gateway) : Prop where
  process : g.process = applyGatewaySettings boot last
  restart : boot.hasDatabase = true → startProcess boot codec g.row = g.process

/-- The document a process has loaded at its start. -/
def loadedSettings (boot : Boot) (codec : SettingsCodec) (row : Option Json) : GatewaySettings :=
  match storedSettings boot codec row with
  | .ok (some s) => s
  | _ => {}

section History

variable {boot : Boot} {codec : SettingsCodec}

theorem SettledOn.start (boot : Boot) (codec : SettingsCodec) (row : Option Json) :
    SettledOn boot codec (loadedSettings boot codec row)
      { process := startProcess boot codec row, row } where
  process := by
    simp only [startProcess, loadedSettings]
    split
    · rfl
    · rfl
  restart := fun _ => rfl

/-- A request leaves the process settled, on its own document when it is accepted. -/
theorem SettledOn.put {last : GatewaySettings} {g : Gateway} (h : SettledOn boot codec last g)
    (put : Put) (hr : ∀ s, admitSettings codec put.body = .ok s → codec.RoundTrips s) :
    SettledOn boot codec ((acceptedSettings boot codec g put).getD last)
      (putSettings boot codec g put).1 := by
  rcases putSettings_cases boot codec g put with ⟨e, hput, hacc⟩ | ⟨s, w, hv, hacc, hput⟩
  · rw [hput, hacc]
    exact h
  · rw [hput, hacc]
    refine ⟨rfl, ?_⟩
    intro hdb
    simp only [hdb, if_true]
    exact startProcess_encode hdb (admitSettings_valid hv) (hr s hv)

theorem SettledOn.serveAll {last : GatewaySettings} {g : Gateway}
    (h : SettledOn boot codec last g) {puts : List Put}
    (hr : ∀ put ∈ puts, ∀ s, admitSettings codec put.body = .ok s → codec.RoundTrips s) :
    SettledOn boot codec ((lastAccepted boot codec g puts).getD last)
      (serveAll boot codec g puts) := by
  -- over the requests; the gateway they are served on and its last document vary
  induction puts generalizing g last with
  | nil => exact h
  | cons put rest ih =>
      rw [List.forall_mem_cons] at hr
      have hrest := ih (h.put put hr.1) hr.2
      simp only [lastAccepted]
      rw [Option.getD_or]
      exact hrest

end History

/-- A gateway started on any stored row serves settings requests one at a time, with
documents that JSON carries faithfully. Its process is then the one the last accepted
document takes from the boot state (the loaded document when none was accepted); every
refused request left the gateway as it was; and with a database a restart on what is
stored reaches the same process. -/
theorem settings_history_free (boot : Boot) (codec : SettingsCodec) (row : Option Json)
    (puts : List Put)
    (hr : ∀ put ∈ puts, ∀ s, admitSettings codec put.body = .ok s → codec.RoundTrips s) :
    let start : Gateway := { process := startProcess boot codec row, row }
    let final := serveAll boot codec start puts
    final.process = applyGatewaySettings boot
        ((lastAccepted boot codec start puts).getD (loadedSettings boot codec row)) ∧
      (∀ done put rest e, puts = done ++ put :: rest →
        (putSettings boot codec (serveAll boot codec start done) put).2 = .error e →
        serveAll boot codec start (done ++ [put]) = serveAll boot codec start done) ∧
      (boot.hasDatabase = true → (final.restart boot codec).process = final.process) := by
  have hsettled := (SettledOn.start boot codec row).serveAll hr
  refine ⟨hsettled.process, ?_, hsettled.restart⟩
  rintro done put rest e - he
  rw [serveAll_snoc, putSettings_refused he]

namespace Sample

/-- Payload capture switched on. -/
def capture : GatewaySettings := { features := { payloadCapture := some true } }

/-- JSON for one document: as an operator sends it, and as the gateway stores it. -/
def codec : SettingsCodec where
  decode
    | .object [("features", .object [("payload_capture", .bool true)])] => .ok capture
    | .object [("routing", .object []), ("features", .object [("payload_capture", .bool true)]),
        ("cache", .object []), ("rate_limit", .object [])] => .ok capture
    | _ => .error "unknown field"
  encode _ :=
    .object [("routing", .object []), ("features", .object [("payload_capture", .bool true)]),
      ("cache", .object []), ("rate_limit", .object [])]

/-- A gateway with a database and no providers. -/
def boot : Boot where
  engine := Router.Sample.engine
  payloadCapture := false
  replayToolContextEnv := none
  auto := Router.Sample.config
  catalog := []
  registry := .empty
  hasDatabase := true

/-- A document, and a body that is no settings document. -/
def puts : List Put :=
  [{ body := .object [("features", .object [("payload_capture", .bool true)])] },
    { body := .object [("enabld", .bool true)] }]

end Sample

/-- The sample gateway captures payloads after the two requests, also after a restart. -/
theorem settings_history_free_sample :
    (serveAll Sample.boot Sample.codec
        { process := startProcess Sample.boot Sample.codec none, row := none }
        Sample.puts).process.runtime.payloadCapture = true ∧
      ((serveAll Sample.boot Sample.codec
        { process := startProcess Sample.boot Sample.codec none, row := none }
        Sample.puts).restart Sample.boot Sample.codec).process.runtime.payloadCapture = true := by
  obtain ⟨hprocess, -, hrestart⟩ := settings_history_free Sample.boot Sample.codec none
    Sample.puts (by
      intro put hput s hs
      have hdoc : s = Sample.capture := by
        rcases List.mem_cons.mp hput with rfl | hput
        · exact (Except.ok.inj hs).symm
        · obtain rfl := List.mem_singleton.mp hput
          cases hs
      subst hdoc
      rfl)
  have hon : (serveAll Sample.boot Sample.codec
      { process := startProcess Sample.boot Sample.codec none, row := none }
      Sample.puts).process.runtime.payloadCapture = true := by
    rw [hprocess]
    rfl
  exact ⟨hon, by rw [hrestart rfl]; exact hon⟩

end AuraGateway.Settings
