import AuraGateway.Proxy.EscalationRuns
import AuraGateway.Proxy.ResponseHandling
import AuraGateway.Router.OrgSettings

/-!
# The organization's routing policy

An update merges a patch into the settings of an organization; a later request of the
organization reads the section `routing.auto` back and is decided under its own options
merged with it.

`org_policy_applies` says when: the settings must have been read and the section must
parse as a whole. When the read fails, or one field of the section is malformed, the
request is decided under its own options alone (`org_policy_dropped`).
-/

set_option autoImplicit false

namespace AuraGateway.Proxy

open AuraGateway.RustStd AuraGateway.Types AuraGateway.Router AuraGateway.Storage
  AuraGateway.Foundations.OwnedRows

/-! ## What an update stores -/

/-- A field of the patch is a field of the merged object. -/
theorem jsonbConcat_get {fields : List (String × Json)} {patch v : Json} {key : String}
    (h : patch.get key = some v) : (jsonbConcat (.object fields) patch).get key = some v := by
  cases patch with
  | object entries =>
      have hlookup : entries.lookup key = some v := h
      -- the patch has the key, so the old fields lose theirs
      have hdropped : (fields.filter fun e => !(entries.any fun e' => e'.1 == e.1)).lookup key
          = none := by
        have hsome : (entries.lookup key).isSome = true := by rw [hlookup, Option.isSome_some]
        obtain ⟨e', he', hkey⟩ := List.lookup_isSome_iff.mp hsome
        rw [List.lookup_eq_none_iff]
        intro e he
        obtain ⟨-, hno⟩ := List.mem_filter.mp he
        rw [bne_iff_ne]
        rintro rfl
        have hany : (entries.any fun e'' => e''.1 == e.1) = true :=
          List.any_eq_true.mpr ⟨e', he', BEq.comm.trans hkey⟩
        rw [hany] at hno
        cases hno
      show ((fields.filter _) ++ entries).lookup key = some v
      rw [List.lookup_append, hdropped, Option.none_or, hlookup]
  | _ => cases h

section Update

variable {s : Session} {db db' : Database} {orgId : Uuid} {name : Option String}
  {settings : Option Json} {row : Organization}

/-- The row found after an update is the patched one. -/
theorem findById_update
    (h : OrganizationRepo.update s orgId name settings db = .ok (row, db')) :
    ∃ o, OrganizationRepo.findById orgId db = some o ∧
      OrganizationRepo.findById orgId db' = some (OrganizationRepo.patched s name settings o) := by
  simp only [OrganizationRepo.update] at h
  split at h
  · cases h
  · rename_i o ho
    obtain ⟨-, rfl⟩ := Prod.mk.inj (Except.ok.inj h)
    refine ⟨o, ho, ?_⟩
    show (updateWhere _ _ db.organizations).find? _ = _
    rw [find?_updateWhere (f := OrganizationRepo.patched s name settings) fun _ => rfl]
    exact congrArg (Option.map _) ho

/-- After an accepted update of settings that were missing or an object, the column has
every field of the patch. -/
theorem getSettings_update {patch v : Json} {key : String}
    (h : OrganizationRepo.update s orgId name (some patch) db = .ok (row, db'))
    (hstored : ∀ old, OrganizationRepo.getSettings orgId db = some old → ∃ fields, old = .object fields)
    (hv : patch.get key = some v) :
    ∃ settings, OrganizationRepo.getSettings orgId db' = some settings ∧ settings.get key = some v := by
  obtain ⟨o, ho, ho'⟩ := findById_update h
  -- the statement merges into an empty object when the column is null
  obtain ⟨fields, hold⟩ : ∃ fields, o.settings.getD (.object []) = .object fields := by
    cases hset : o.settings with
    | none => exact ⟨[], rfl⟩
    | some old =>
        have hget : OrganizationRepo.getSettings orgId db = some old := by
          rw [OrganizationRepo.getSettings, ho, Option.bind_some, hset]
        exact hstored old hget
  refine ⟨jsonbConcat (.object fields) patch, ?_, jsonbConcat_get hv⟩
  rw [OrganizationRepo.getSettings, ho', Option.bind_some, ← hold]
  rfl

end Update

/-! ## What a later request reads -/

open OrgAutoRoutingOverride in
/-- The section of an accepted update is the section of the column. -/
theorem autoSection_update {s : Session} {db db' : Database} {orgId : Uuid}
    {name : Option String} {patch sect : Json} {row : Organization}
    (h : OrganizationRepo.update s orgId name (some patch) db = .ok (row, db'))
    (hstored : ∀ old, OrganizationRepo.getSettings orgId db = some old → ∃ fields, old = .object fields)
    (hsect : autoSection patch = some sect) :
    ∃ settings, OrganizationRepo.getSettings orgId db' = some settings ∧
      autoSection settings = some sect := by
  obtain ⟨routing, hrouting, hauto⟩ := Option.bind_eq_some_iff.mp hsect
  obtain ⟨settings, hget, hfield⟩ := getSettings_update h hstored hrouting
  refine ⟨settings, hget, ?_⟩
  rw [autoSection, hfield, Option.bind_some, hauto]

/-- The settings are available to a request: a fresh copy is kept, or the read succeeds. -/
def SettingsRead (turn : Turn) : Prop :=
  turn.cachedSettings.isSome = true ∨ turn.fails .settings = false

section Later

variable {numbers : JsonNumbers} {gw : Gateway} {turn : Turn} {db : Database} {orgId : Uuid}
  {settings sect : Json}

theorem orgSettings_of_read (hdb : gw.state.hasDatabase = true)
    (hget : OrganizationRepo.getSettings orgId db = some settings) (hnull : settings ≠ .null)
    (hcopy : ∀ v ∈ turn.cachedSettings, OrganizationRepo.getSettings orgId db = some v)
    (hread : SettingsRead turn) : orgSettings gw turn db orgId = some settings := by
  cases hc : turn.cachedSettings with
  | some v =>
      have hv := hcopy v hc
      rw [hget] at hv
      simp [orgSettings, hdb, hc, hv]
  | none =>
      -- without a kept copy only a successful read is left
      have hf : turn.fails .settings = false := by
        rcases hread with h | h
        · rw [hc] at h
          cases h
        · exact h
      cases settings with
      | null => exact absurd rfl hnull
      | _ => simp [orgSettings, hdb, hc, hf, hget]

theorem orgSettings_of_not_read (hread : ¬SettingsRead turn) :
    orgSettings gw turn db orgId = none := by
  obtain ⟨hcopy, hfails⟩ := not_or.mp hread
  rw [Option.not_isSome_iff_eq_none] at hcopy
  simp [orgSettings, hcopy, Bool.not_eq_false _ ▸ hfails]

end Later

/-! ## The options of the decision -/

/-- A decision of the resolution was made by the router in force under `options`, and the
request goes on under the same options. -/
def DecidedUnder (state : AppState) (env : ResolveEnv) (res : Resolution)
    (options : Option RoutingOptions) : Prop :=
  ∀ d, res.result = .ok (some d) → ∃ router ∈ state.autoRouter, ∃ shadow ctx merged,
    Routed state router env shadow ctx merged res ∧ ctx.options = options ∧
      res.request.routing = options

theorem decidedUnder_merged {state : AppState} {env : ResolveEnv}
    {request : CreateResponseRequest} {res : Resolution}
    (h : resolveAutoModel state env request = .ok res) :
    DecidedUnder state env res
      (mergeOrg env.org ((parseAutoModel request.model).bind (·.mode)) request).routing := by
  intro d hd
  rcases resolveAutoModel_cases h with ⟨-, -, hno, -⟩ | ⟨router, hr, ctx, merged, hm, hctx, hrouted⟩
  · exact absurd hd (hno d)
  · refine ⟨router, hr, _, ctx, merged, hrouted, ?_, ?_⟩
    · rw [hctx, hm]
      rfl
    · obtain ⟨model, hrequest⟩ := hrouted.request
      rw [hrequest, hm]

theorem mergeOrg_strict {org : OrgAutoRoutingOverride} {aliasMode : Option RoutingMode}
    {request : CreateResponseRequest} (hb : ∀ b ∈ org.maxCostUsd, b.isNaN = false) :
    AtLeastAsStrict org ((mergeOrg org aliasMode request).routing.getD {}) := by
  by_cases hempty : org.isEmpty = true
  · obtain rfl : org = {} := of_decide_eq_true hempty
    exact strict_empty _
  · rw [mergeOrg, if_neg hempty]
    exact mergedWith_strict org request.routing aliasMode hb

theorem mergeOrg_empty (aliasMode : Option RoutingMode) (request : CreateResponseRequest) :
    mergeOrg {} aliasMode request = request := rfl

/-- A prepared request was decided under the options that the merge with the
organization's override leaves. -/
theorem prepare_decidedUnder {gw : Gateway} {auth : Option AuthContext} {turn : Turn}
    {db : Database} {request : CreateResponseRequest} {p : Prepared}
    (h : prepare gw auth turn db request = .ok p) :
    ∃ (aliasMode : Option RoutingMode) (request' : CreateResponseRequest),
      request'.routing = request.routing ∧
      DecidedUnder gw.state (resolveEnv gw auth turn db) p.resolution
        (mergeOrg (resolveEnv gw auth turn db).org aliasMode request').routing := by
  simp only [prepare] at h
  rw [checked_bind_eq_ok] at h
  obtain ⟨res, hres, hp⟩ := h
  obtain rfl := Except.ok.inj hp
  refine ⟨_, _, ?_, decidedUnder_merged hres⟩
  rfl

/-- An update with a section `routing.auto` was accepted for an organization whose
settings were missing or an object; the column is still as the update left it, and a kept
copy is a copy of it. Every decision for a later request of the organization is made under
one set of options. If the settings are read and the section parses, these are at least as
strict as the section; if the read fails or the section does not parse, they are the
request's own. -/
theorem org_policy_applies (numbers : JsonNumbers) (gw : Gateway)
    (hgw : gw.readOverride = OrgAutoRoutingOverride.fromOrgSettings numbers)
    (hdb : gw.state.hasDatabase = true) (s : Session) (orgId : Uuid) (name : Option String)
    (patch sect : Json) (hsect : OrgAutoRoutingOverride.autoSection patch = some sect)
    (db db' later : Database) (row : Organization)
    (hstored : ∀ old, OrganizationRepo.getSettings orgId db = some old → ∃ fields, old = .object fields)
    (hupdate : OrganizationRepo.update s orgId name (some patch) db = .ok (row, db'))
    (hlater : OrganizationRepo.getSettings orgId later = OrganizationRepo.getSettings orgId db')
    (auth : AuthContext) (horg : auth.organizationId = some orgId) (turn : Turn)
    (hcopy : ∀ v ∈ turn.cachedSettings, OrganizationRepo.getSettings orgId later = some v)
    (request : CreateResponseRequest) (p : Prepared)
    (hp : prepare gw (some auth) turn later request = .ok p) :
    ∃ options, DecidedUnder gw.state (resolveEnv gw (some auth) turn later) p.resolution options ∧
      (SettingsRead turn → ∀ o, OrgAutoRoutingOverride.fromValue numbers sect = some o →
        AtLeastAsStrict o (options.getD {})) ∧
      (¬SettingsRead turn ∨ OrgAutoRoutingOverride.fromValue numbers sect = none →
        options = request.routing) := by
  obtain ⟨aliasMode, request', hrouting, hdecided⟩ := prepare_decidedUnder hp
  obtain ⟨settings, hget, hfield⟩ := autoSection_update hupdate hstored hsect
  rw [← hlater] at hget
  have hnull : settings ≠ .null := by
    rintro rfl
    cases hfield
  -- what the request reads is the section, or nothing
  have horgRead : SettingsRead turn → (resolveEnv gw (some auth) turn later).org
      = (OrgAutoRoutingOverride.fromValue numbers sect).getD {} := by
    intro hread
    simp [resolveEnv, orgAutoRoutingOverride, horg, hgw,
      orgSettings_of_read hdb hget hnull hcopy hread, OrgAutoRoutingOverride.fromOrgSettings, hfield]
  have horgNone : ¬SettingsRead turn → (resolveEnv gw (some auth) turn later).org = {} := by
    intro hread
    simp [resolveEnv, orgAutoRoutingOverride, horg, orgSettings_of_not_read hread]
  refine ⟨_, hdecided, ?_, ?_⟩
  · intro hread o ho
    rw [horgRead hread, ho, Option.getD_some]
    exact mergeOrg_strict (fromValue_notNaN ho)
  · intro hdrop
    have hempty : (resolveEnv gw (some auth) turn later).org = {} := by
      by_cases hread : SettingsRead turn
      · rw [horgRead hread, hdrop.resolve_left (not_not_intro hread), Option.getD_none]
      · exact horgNone hread
    rw [hempty, mergeOrg_empty]
    exact hrouting

/-! ### One organization -/

namespace OrgSections

/-- Numbers of documents that have none. -/
def numbers : JsonNumbers := { asF64 := fun _ => none, notNaN := fun _ _ h => by cases h }

/-- The gateway of the sample router, with a database and without preprocessing. -/
def gateway : Gateway :=
  { state := { Sample.state with hasDatabase := true }
    codec :=
      { inputJson := fun _ => "", toolsJson := fun _ => "", toolChoiceJson := fun _ => ""
        sha256Hex := id, parseResponse := fun _ => none }
    preprocessor :=
      { compressionEnabled := fun _ => false, compress := fun _ _ => none
        augment := fun _ _ instructions => instructions }
    readOverride := OrgAutoRoutingOverride.fromOrgSettings numbers }

def session : Session where
  engine :=
    { errorText := fun _ => "", collate := fun a b => decide (a ≤ b)
      textMatches := fun _ _ => false, textRank := fun _ _ => 0 }
  now := 0
  newId := 0

/-- A database with one organization, without settings. -/
def database : Database :=
  { organizations :=
      [{ id := 1, name := "acme", slug := "acme", ownerId := "owner", settings := none,
         createdAt := 0, updatedAt := 0 }] }

/-- A section that denies the provider of every model. -/
def denied : Json := .object [("deny", .array [.string "openai/*"])]

/-- The same section with a tier that does not exist. -/
def misspelt : Json :=
  .object [("deny", .array [.string "openai/*"]), ("min_tier", .string "high")]

/-- A section that starts at the complex tier. -/
def fromComplex : Json := .object [("min_tier", .string "complex")]

/-- Settings with a section. -/
def withSection (sect : Json) : Json := .object [("routing", .object [("auto", sect)])]

/-- The database after an update with a section. -/
def updated (sect : Json) : Database :=
  { database with
    organizations := updateWhere (fun o => o.id == 1)
      (OrganizationRepo.patched session none (some (withSection sect))) database.organizations }

/-- A key of the organization. -/
def key : AuthContext := { organizationId := some 1, scopes := ["responses:create"] }

/-- A request whose settings read fails or not, without a kept copy. -/
def turn (failing : Bool) : Turn :=
  { now := 0, decision := Router.Sample.env, newId := 0, timestamp := 0
    fails := fun l => failing && decide (l = .settings) }

/-- The model a prepared request was decided for, or the code it was refused with. -/
def outcome (p : Checked Prepared) : Option (String ⊕ String) :=
  match p with
  | .ok p =>
      match p.resolution.result with
      | .ok decision => decision.map fun d => .inl d.selected
      | .error e => some (.inr e.code)
  | .error _ => none

theorem exists_of_outcome {x : Checked Prepared} {o : String ⊕ String}
    (h : outcome x = some o) : ∃ p, x = .ok p ∧ outcome (.ok p) = some o := by
  cases x with
  | error _ => cases h
  | ok p => exact ⟨p, rfl, h⟩

end OrgSections

open OrgSections in
/-- Under a section that starts at the complex tier, a short question is decided for the
model of that tier, and the options name it. -/
theorem org_policy_applies_sample :
    ∃ p options, prepare gateway (some key) (turn false) (updated fromComplex)
        Router.Sample.request = .ok p ∧
      outcome (.ok p) = some (.inl "c") ∧
      DecidedUnder gateway.state (resolveEnv gateway (some key) (turn false) (updated fromComplex))
        p.resolution options ∧
      ∃ t ∈ (options.getD {}).minTier, Tier.complex ≤ t := by
  obtain ⟨p, hp, hc⟩ := exists_of_outcome
    (show outcome (prepare gateway (some key) (turn false) (updated fromComplex)
      Router.Sample.request) = some (.inl "c") by decide +kernel)
  obtain ⟨options, hdecided, hstrict, -⟩ := org_policy_applies numbers gateway rfl rfl session 1
    none (withSection fromComplex) fromComplex rfl database (updated fromComplex)
    (updated fromComplex) _ (fun _ hold => by cases hold) rfl rfl key rfl (turn false)
    (fun _ hv => by cases hv) Router.Sample.request p hp
  have ho := hstrict (Or.inr rfl) { minTier := some .complex } rfl
  exact ⟨p, options, hp, hc, hdecided, ho.minTier .complex rfl⟩

open OrgSections in
/-- The update of an organization that denies the provider of every model is accepted.
When the read fails, or when the section also names a tier that does not exist, a request
is still decided for a denied model; otherwise it is refused. -/
theorem org_policy_dropped :
    (∀ sect, (OrganizationRepo.update session 1 none (some (withSection sect)) database).map
        Prod.snd = .ok (updated sect)) ∧
      (gateway.state.getProvider "s").map (·.name) = some "openai" ∧
      patternMatches "openai/*" "openai" "s" = .ok true ∧
      outcome (prepare gateway (some key) (turn true) (updated denied) Router.Sample.request)
        = some (.inl "s") ∧
      outcome (prepare gateway (some key) (turn false) (updated misspelt) Router.Sample.request)
        = some (.inl "s") ∧
      outcome (prepare gateway (some key) (turn false) (updated denied) Router.Sample.request)
        = some (.inr "no_eligible_model") := by
  refine ⟨fun _ => rfl, ?_⟩
  decide +kernel

end AuraGateway.Proxy
