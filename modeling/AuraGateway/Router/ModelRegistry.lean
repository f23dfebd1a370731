import AuraGateway.Foundations.Resumptions
import AuraGateway.Router.CostModel

/-!
# The registry of trained models

Classifiers and cost models are rows of one table, at most one of each kind active, and the
gateway serves with a copy in memory of each kind. The four requests that change them are tasks of
atomic steps: statements of the database, reads of a weights file, writes of one of the two copies.

Whatever tasks interleave, fail or are lost, no two rows have one name and version, no two rows of
a kind are active, and what is in memory has been validated, so scoring with it never panics
(`registry_safe`).
-/

set_option autoImplicit false

namespace AuraGateway.Router.Learned

open AuraGateway.Foundations.Resumptions AuraGateway.RustStd AuraGateway.Types Scoring

/-! ## The table -/

abbrev Uuid := Nat

/-- A stored model. -/
structure RouterModel where
  id : Uuid
  name : String
  version : String
  kind : String
  weights : Json
  metrics : Json
  isActive : Bool

/-- New trained model for insertion. -/
structure NewRouterModel where
  name : String
  version : String
  kind : String
  weights : Json
  metrics : Json

/-- A stored model without its weights. -/
structure RouterModelSummary where
  id : Uuid
  name : String
  version : String
  kind : String
  metrics : Json
  isActive : Bool

def RouterModel.summary (r : RouterModel) : RouterModelSummary :=
  ⟨r.id, r.name, r.version, r.kind, r.metrics, r.isActive⟩

/-- Kind label of classifiers. -/
def learnedKind : String := "learned_lr"

namespace RouterModelRepo

/-- The row a name and version belong to. -/
def isVersion (new : NewRouterModel) (r : RouterModel) : Bool :=
  r.name == new.name && r.version == new.version

/-- Insert, or replace the weights and metrics of, a model version. `none` is a refusal: a name
or version over its 100 characters, an id that is taken. -/
def upsert (freshId : Uuid) (table : List RouterModel) (new : NewRouterModel) :
    Option (List RouterModel × RouterModelSummary) :=
  if 100 < new.name.length || 100 < new.version.length then none
  else match table.find? (isVersion new) with
    | some r =>
      some (table.map fun r =>
          if isVersion new r then { r with weights := new.weights, metrics := new.metrics } else r,
        { r with weights := new.weights, metrics := new.metrics : RouterModel }.summary)
    | none =>
      if table.any fun r => r.id == freshId then none
      else
        let r : RouterModel :=
          { id := freshId
            name := new.name
            version := new.version
            kind := new.kind
            weights := new.weights
            metrics := new.metrics
            isActive := false }
        some (table ++ [r], r.summary)

/-- The active model of a kind. -/
def active (table : List RouterModel) (kind : String) : Option RouterModel :=
  table.find? fun r => r.isActive && r.kind == kind

/-- Make one model active and every other model of the same kind inactive, in one transaction. -/
def activate (table : List RouterModel) (id : Uuid) : List RouterModel × Option String :=
  match table.find? fun r => r.id == id with
  | none => (table, none)
  | some found =>
    let off := table.map fun r =>
      if r.isActive && r.kind == found.kind then { r with isActive := false } else r
    (off.map fun r => if r.id == id then { r with isActive := true } else r, some found.kind)

/-- Deactivate every model, or only those of one kind. -/
def deactivate (table : List RouterModel) (kind : Option String) : List RouterModel :=
  table.map fun r =>
    if r.isActive && (kind.isNone || kind == some r.kind) then { r with isActive := false } else r

end RouterModelRepo

/-! ## The state and its environment -/

/-- The table, and what the gateway has in memory. -/
structure Registry where
  table : List RouterModel
  learned : Option (LearnedModel Float)
  cost : Option (CostModel Float)

/-- What a step meets: whether the database answers, what it says when it does not and whether the
statement then took effect all the same, the id it draws, and the contents of the files. -/
structure Answer where
  dbFails : Bool
  applied : Bool
  message : String
  freshId : Uuid
  file : String → Except String Json

/-- What the gateway is started with. -/
structure Setup where
  hasDatabase : Bool
  learnedWeightsFile : Option String
  costWeightsFile : Option String
  readLearned : Json → Except String (LearnedModel Float)
  readCost : Json → Except String (CostModel Float)

/-- The answer to a request. -/
inductive Reply where
  | summary (r : RouterModelSummary)
  | activated (id : Uuid) (kind : String) (loaded : Option String)
  | loaded (classifier costModel : Option String)
  | failed (status : Nat) (error : String)

abbrev Work := Task Answer Registry Reply

namespace Registry

def setLearnedModel (m : Option (LearnedModel Float)) (s : Registry) : Registry :=
  { s with learned := m }

def setCostModel (m : Option (CostModel Float)) (s : Registry) : Registry := { s with cost := m }

end Registry

/-- A statement of the database, which may refuse it or fail. -/
def statement {α : Type} (f : Answer → List RouterModel → Option (List RouterModel × α)) (o : Answer)
    (s : Registry) : Except String α × Registry :=
  match f o s.table with
  | none => (.error o.message, s)
  | some (table, a) =>
    if o.dbFails then (.error o.message, if o.applied then { s with table } else s)
    else (.ok a, { s with table })

def dbUnavailable : Reply := .failed 503 "Database not configured"

def databaseError (e : String) : Reply := .failed 500 ("Database error: " ++ e)

/-! ## Loading -/

variable (g : Setup)

/-- Weights from the configured file. -/
def readWeightsFile (file : Option String) (k : Except String (Option Json) → Work) : Work :=
  match (file.map trim).filter fun p => !p.isEmpty with
  | none => k (.ok none)
  | some path => .act (fun o s => (o.file path, s)) fun r =>
      match r with
      | .error e => k (.error (path ++ ": " ++ e))
      | .ok json => k (.ok (some json))

/-- Weights for a kind: the active row when there is a database, else the configured file. -/
def loadModelWeights (kind : String) (file : Option String)
    (k : Except String (Option Json) → Work) : Work :=
  if g.hasDatabase then
    .act (statement fun _ table => some (table, RouterModelRepo.active table kind)) fun r =>
      match r with
      | .error e => k (.error ("failed to read router_models: " ++ e))
      | .ok (some row) => k (.ok (some row.weights))
      | .ok none => readWeightsFile file k
  else readWeightsFile file k

/-- Put the model of the weights that were found in memory, or none. -/
def installWeights {M : Type} (fromJson : Json → Except String M)
    (set : Option M → Registry → Registry) (label : M → String)
    (k : Except String (Option String) → Work) (r : Except String (Option Json)) : Work :=
  match r with
  | .error e => k (.error e)
  | .ok (some json) =>
    match fromJson json with
    | .error e => k (.error e)
    | .ok m => .act (fun _ s => ((), set (some m) s)) fun _ => k (.ok (some (label m)))
  | .ok none => .act (fun _ s => ((), set none s)) fun _ => k (.ok none)

/-- Load the model of a kind into memory, and describe it. -/
def reloadModel {M : Type} (kind : String) (file : Option String)
    (fromJson : Json → Except String M) (set : Option M → Registry → Registry) (label : M → String)
    (k : Except String (Option String) → Work) : Work :=
  loadModelWeights g kind file (installWeights fromJson set label k)

def reloadLearnedModel : (Except String (Option String) → Work) → Work :=
  reloadModel g learnedKind g.learnedWeightsFile (LearnedModel.fromJson g.readLearned)
    Registry.setLearnedModel LearnedModel.classifierLabel

def reloadCostModel : (Except String (Option String) → Work) → Work :=
  reloadModel g costModelKind g.costWeightsFile (CostModel.fromJson g.readCost)
    Registry.setCostModel CostModel.label

/-! ## Requests -/

/-- A validated upload of either kind. -/
inductive ParsedRouterModel where
  | classifier (m : LearnedModel Float)
  | cost (m : CostModel Float)

namespace ParsedRouterModel

def newRow (weights : Json) : ParsedRouterModel → NewRouterModel
  | .classifier m => ⟨m.name, m.version, learnedKind, weights, m.metrics⟩
  | .cost m => ⟨m.name, m.version, costModelKind, weights, m.metrics⟩

/-- Put the model in memory. -/
def install : ParsedRouterModel → Registry → Registry
  | .classifier m => Registry.setLearnedModel (some m)
  | .cost m => Registry.setCostModel (some m)

end ParsedRouterModel

/-- Validate an upload. The `kind` of the weights decides how; without one it is a classifier. -/
def parseUpload (weights : Json) : Except String ParsedRouterModel :=
  let kind := ((weights.get "kind").bind Json.asStr).getD learnedKind
  if kind == costModelKind then (CostModel.fromJson g.readCost weights).map .cost
  else if kind == learnedKind then (LearnedModel.fromJson g.readLearned weights).map .classifier
  else .error ("unknown router model kind `" ++ kind ++ "` (expected learned_lr or cost_lr)")

/-- Store a trained model and, if asked for, activate it. -/
def uploadRouterModel (weights : Json) (activate : Bool) : Work :=
  if !g.hasDatabase then .done dbUnavailable
  else match parseUpload g weights with
    | .error e => .done (.failed 400 e)
    | .ok model =>
      .act (statement fun o table => RouterModelRepo.upsert o.freshId table (model.newRow weights))
        fun r => match r with
        | .error e => .done (databaseError e)
        | .ok summary =>
          if activate then
            .act (statement fun _ table => some (RouterModelRepo.activate table summary.id)) fun r =>
              match r with
              | .error e => .done (databaseError e)
              | .ok _ => .act (fun _ s => ((), model.install s)) fun _ =>
                  .done (.summary { summary with isActive := true })
          else .done (.summary summary)

/-- Activate a stored model and load it. -/
def activateRouterModel (id : Uuid) : Work :=
  if !g.hasDatabase then .done dbUnavailable
  else .act (statement fun _ table => some (RouterModelRepo.activate table id)) fun r =>
    match r with
    | .error e => .done (databaseError e)
    | .ok none => .done (.failed 404 "router model not found")
    | .ok (some kind) =>
      let finish (r : Except String (Option String)) : Work :=
        match r with
        | .ok loaded => .done (.activated id kind loaded)
        | .error e => .done (.failed 422 e)
      if kind == costModelKind then reloadCostModel g finish else reloadLearnedModel g finish

/-- Load both kinds again. -/
def reloadRouterModel : Work :=
  reloadLearnedModel g fun r =>
    match r with
    | .error e => .done (.failed 422 e)
    | .ok classifier => reloadCostModel g fun r =>
        match r with
        | .error e => .done (.failed 422 e)
        | .ok costModel => .done (.loaded classifier costModel)

/-- The labels of what is in memory. -/
def reportLoaded : Work :=
  .act (fun _ s => (s.learned.map LearnedModel.classifierLabel, s)) fun classifier =>
    .act (fun _ s => (s.cost.map CostModel.label, s)) fun costModel =>
      .done (.loaded classifier costModel)

/-- Clear one of the two models in memory, if the kind asked for is its own or none. -/
def unload (kind : Option String) (own : String) (clear : Registry → Registry) (rest : Work) : Work :=
  if kind.isNone || kind == some own then .act (fun _ s => ((), clear s)) fun _ => rest else rest

/-- Deactivate stored models, of one kind or of every kind, and unload those in memory. -/
def deactivateRouterModels (kind : Option String) : Work :=
  let rest : Work := unload kind learnedKind (fun s => s.setLearnedModel none)
    (unload kind costModelKind (fun s => s.setCostModel none) reportLoaded)
  if g.hasDatabase then
    .act (statement fun _ table => some (RouterModelRepo.deactivate table kind, ())) fun r =>
      match r with
      | .error e => .done (databaseError e)
      | .ok () => rest
  else rest

/-- At the start of the process: load both kinds, whatever comes of it. -/
def boot : Work :=
  reloadLearnedModel g fun classifier => reloadCostModel g fun costModel =>
    .done (.loaded (classifier.toOption.getD none) (costModel.toOption.getD none))

/-! ## Whatever happens -/

/-- A request, or the start of the process. -/
inductive Request where
  | upload (weights : Json) (activate : Bool)
  | activate (id : Uuid)
  | reload
  | deactivate (kind : Option String)
  | boot

def Request.task : Request → Work
  | .upload weights now => uploadRouterModel g weights now
  | .activate id => activateRouterModel g id
  | .reload => reloadRouterModel g
  | .deactivate kind => deactivateRouterModels g kind
  | .boot => Learned.boot g

/-- A request begins, a task takes a step, or the process is lost with its memory. -/
inductive GatewayEvent where
  | request (r : Request)
  | resume (i : Nat) (answer : Answer)
  | restart

def GatewayEvent.toEvent : GatewayEvent → Event Answer Registry Reply
  | .request r => .start (r.task g)
  | .resume i answer => .resume i answer
  | .restart => .crash fun s => { s with learned := none, cost := none }

/-- Rows differ in their ids and in name and version, and no two of a kind are active. -/
def Distinct (a b : RouterModel) : Prop :=
  a.id ≠ b.id ∧ ¬ (a.name = b.name ∧ a.version = b.version)
    ∧ ¬ (a.isActive = true ∧ b.isActive = true ∧ a.kind = b.kind)

instance : Std.Symm Distinct where
  symm _ _ h := ⟨h.1.symm, fun hv => h.2.1 ⟨hv.1.symm, hv.2.symm⟩,
    fun ha => h.2.2 ⟨ha.2.1, ha.1, ha.2.2.symm⟩⟩

/-- The same row of the table, at most as active. -/
structure SameRow (r' r : RouterModel) : Prop where
  id : r'.id = r.id
  name : r'.name = r.name
  version : r'.version = r.version
  kind : r'.kind = r.kind
  isActive : r'.isActive = true → r.isActive = true

theorem distinct_map {table : List RouterModel} {f : RouterModel → RouterModel}
    (hf : ∀ r, SameRow (f r) r) (h : table.Pairwise Distinct) :
    (table.map f).Pairwise Distinct := by
  refine List.pairwise_map.mpr (h.imp fun {a b} hab => ⟨?_, ?_, ?_⟩)
  · rw [(hf a).id, (hf b).id]
    exact hab.1
  · rw [(hf a).name, (hf b).name, (hf a).version, (hf b).version]
    exact hab.2.1
  · rw [(hf a).kind, (hf b).kind]
    exact fun hboth => hab.2.2 ⟨(hf a).isActive hboth.1, (hf b).isActive hboth.2.1, hboth.2.2⟩

/-- What holds whatever happens. -/
structure Sound (s : Registry) : Prop where
  table : s.table.Pairwise Distinct
  learned : ∀ m ∈ s.learned, m.validate = .ok ()
  cost : ∀ m ∈ s.cost, m.validate = .ok ()

namespace RouterModelRepo

theorem upsert_distinct {freshId : Uuid} {table : List RouterModel} {new : NewRouterModel}
    {r : List RouterModel × RouterModelSummary} (h : table.Pairwise Distinct)
    (hr : upsert freshId table new = some r) : r.1.Pairwise Distinct := by
  simp only [upsert] at hr
  split at hr
  · cases hr
  split at hr
  · -- the row of the version keeps its id and its kind
    cases hr
    refine distinct_map (fun r => ?_) h
    split <;> exact ⟨rfl, rfl, rfl, rfl, id⟩
  next hfind =>
  split at hr
  · cases hr
  next hfresh =>
  cases hr
  refine List.pairwise_append.mpr ⟨h, List.pairwise_singleton _ _, fun a ha b hb => ?_⟩
  rw [List.mem_singleton.mp hb]
  refine ⟨fun hid => hfresh (List.any_eq_true.mpr ⟨a, ha, by simpa using hid⟩), fun hversion => ?_,
    fun hactive => by simp at hactive⟩
  have hnone := List.find?_eq_none.mp hfind a ha
  simp [isVersion, hversion.1, hversion.2] at hnone

/-- What activation makes of one row. -/
def switched (found : RouterModel) (id : Uuid) (r : RouterModel) : RouterModel :=
  { r with isActive := r.id == id || (r.isActive && r.kind != found.kind) }

theorem activate_eq {table : List RouterModel} {id : Uuid} {found : RouterModel}
    (h : table.find? (fun r => r.id == id) = some found) :
    activate table id = (table.map (switched found id), some found.kind) := by
  simp only [activate, h, List.map_map]
  congr 1
  refine List.map_congr_left fun r _ => ?_
  obtain ⟨rid, name, version, kind, weights, metrics, isActive⟩ := r
  by_cases hid : rid = id <;> by_cases hkind : kind = found.kind <;> cases isActive <;>
    simp [switched, hid, hkind]

theorem activate_distinct {table : List RouterModel} (id : Uuid) (h : table.Pairwise Distinct) :
    (activate table id).1.Pairwise Distinct := by
  cases hfind : table.find? fun r => r.id == id with
  | none => simpa only [activate, hfind] using h
  | some found =>
      have hfound : found.id = id := by simpa using List.find?_some hfind
      have hmem := List.mem_of_find?_eq_some hfind
      have hunique : ∀ r ∈ table, r.id = id → r.kind = found.kind := by
        intro r hr hid
        by_contra hne
        have hdistinct := h.forall hr hmem fun heq => hne (heq ▸ rfl)
        exact hdistinct.1 (hid.trans hfound.symm)
      rw [activate_eq hfind]
      refine List.pairwise_map.mpr (h.imp_of_mem fun {a b} ha hb hab => ?_)
      refine ⟨hab.1, hab.2.1, fun hboth => ?_⟩
      simp only [switched, Bool.or_eq_true, Bool.and_eq_true, beq_iff_eq, bne_iff_ne] at hboth
      obtain ⟨ha' | ha', hb' | hb', hkind⟩ := hboth
      · exact hab.1 (ha'.trans hb'.symm)
      · exact hb'.2 (hkind ▸ hunique a ha ha')
      · exact ha'.2 (hkind ▸ hunique b hb hb')
      · exact hab.2.2 ⟨ha'.1, hb'.1, hkind⟩

theorem deactivate_distinct {table : List RouterModel} (kind : Option String)
    (h : table.Pairwise Distinct) : (deactivate table kind).Pairwise Distinct := by
  refine distinct_map (fun r => ?_) h
  split
  · exact ⟨rfl, rfl, rfl, rfl, fun hfalse => by cases hfalse⟩
  · exact ⟨rfl, rfl, rfl, rfl, id⟩

end RouterModelRepo

section Handlers

variable {g : Setup}

theorem sound_table {s : Registry} {table : List RouterModel} (h : Sound s)
    (htable : table.Pairwise Distinct) : Sound { s with table } :=
  ⟨htable, h.learned, h.cost⟩

/-- A statement keeps what holds, whether it fails or not. -/
theorem statement_sound {α : Type} {f : Answer → List RouterModel → Option (List RouterModel × α)}
    (hf : ∀ o table r, table.Pairwise Distinct → f o table = some r → r.1.Pairwise Distinct)
    (o : Answer) {s : Registry} (hs : Sound s) : Sound (statement f o s).2 := by
  simp only [statement]
  split
  · exact hs
  next table a hsome =>
  have hsound := sound_table hs (hf o s.table (table, a) hs.table hsome)
  split
  · split
    · exact hsound
    · exact hs
  · exact hsound

theorem sound_act {α : Type} {f : Answer → Registry → α × Registry} {k : α → Work}
    (hf : ∀ o s, Sound s → Sound (f o s).2) (hk : ∀ a, (k a).Respects Sound) :
    (Task.act f k).Respects Sound :=
  Task.respects_act fun o s hs => ⟨hf o s hs, hk _⟩

theorem sound_statement {α : Type} {f : Answer → List RouterModel → Option (List RouterModel × α)}
    {k : Except String α → Work}
    (hf : ∀ o table r, table.Pairwise Distinct → f o table = some r → r.1.Pairwise Distinct)
    (hk : ∀ a, (k a).Respects Sound) : (Task.act (statement f) k).Respects Sound :=
  sound_act (fun o _ hs => statement_sound hf o hs) hk

theorem readWeightsFile_sound {file : Option String} {k : Except String (Option Json) → Work}
    (hk : ∀ r, (k r).Respects Sound) : (readWeightsFile file k).Respects Sound := by
  rw [readWeightsFile]
  split
  · exact hk _
  · refine sound_act (fun _ _ hs => hs) fun r => ?_
    cases r <;> exact hk _

theorem loadModelWeights_sound {kind : String} {file : Option String}
    {k : Except String (Option Json) → Work} (hk : ∀ r, (k r).Respects Sound) :
    (loadModelWeights g kind file k).Respects Sound := by
  rw [loadModelWeights]
  split
  · refine sound_statement (fun o table r h hr => ?_) fun r => ?_
    · cases hr
      exact h
    · match r with
      | .error e => exact hk _
      | .ok none => exact readWeightsFile_sound hk
      | .ok (some row) => exact hk _
  · exact readWeightsFile_sound hk

theorem reloadModel_sound {M : Type} {kind : String} {file : Option String}
    {fromJson : Json → Except String M} {set : Option M → Registry → Registry} {label : M → String}
    {k : Except String (Option String) → Work}
    (hset : ∀ m s, (∀ m' ∈ m, ∃ json, fromJson json = .ok m') → Sound s → Sound (set m s))
    (hk : ∀ r, (k r).Respects Sound) :
    (reloadModel g kind file fromJson set label k).Respects Sound := by
  refine loadModelWeights_sound fun r => ?_
  match r with
  | .error e => exact hk _
  | .ok none => exact sound_act (fun _ s hs => hset none s (fun _ h => by cases h) hs) fun _ => hk _
  | .ok (some json) =>
      cases hm : fromJson json with
      | error e => simpa only [installWeights, hm] using hk (.error e)
      | ok m =>
          simp only [installWeights, hm]
          refine sound_act (fun _ s hs => hset (some m) s (fun m' h => ?_) hs) fun _ => hk _
          cases h
          exact ⟨json, hm⟩

theorem setLearnedModel_sound (m : Option (LearnedModel Float)) (s : Registry)
    (hm : ∀ m' ∈ m, ∃ json, LearnedModel.fromJson g.readLearned json = .ok m') (h : Sound s) :
    Sound (s.setLearnedModel m) := by
  refine ⟨h.table, fun m' hm' => ?_, h.cost⟩
  obtain ⟨json, hjson⟩ := hm m' hm'
  exact LearnedModel.validate_of_fromJson hjson

theorem setCostModel_sound (m : Option (CostModel Float)) (s : Registry)
    (hm : ∀ m' ∈ m, ∃ json, CostModel.fromJson g.readCost json = .ok m') (h : Sound s) :
    Sound (s.setCostModel m) := by
  refine ⟨h.table, h.learned, fun m' hm' => ?_⟩
  obtain ⟨json, hjson⟩ := hm m' hm'
  exact CostModel.validate_of_fromJson hjson

theorem reloadLearnedModel_sound {k : Except String (Option String) → Work}
    (hk : ∀ r, (k r).Respects Sound) : (reloadLearnedModel g k).Respects Sound :=
  reloadModel_sound setLearnedModel_sound hk

theorem reloadCostModel_sound {k : Except String (Option String) → Work}
    (hk : ∀ r, (k r).Respects Sound) : (reloadCostModel g k).Respects Sound :=
  reloadModel_sound setCostModel_sound hk

/-- A parsed upload was read by the reader of its kind. -/
theorem parseUpload_ok {weights : Json} {model : ParsedRouterModel}
    (h : parseUpload g weights = .ok model) :
    (∃ m, model = .classifier m ∧ LearnedModel.fromJson g.readLearned weights = .ok m)
      ∨ ∃ m, model = .cost m ∧ CostModel.fromJson g.readCost weights = .ok m := by
  simp only [parseUpload] at h
  split at h
  · cases hm : CostModel.fromJson g.readCost weights with
    | error e => rw [hm] at h; cases h
    | ok m => rw [hm] at h; cases h; exact .inr ⟨m, rfl, rfl⟩
  split at h
  · cases hm : LearnedModel.fromJson g.readLearned weights with
    | error e => rw [hm] at h; cases h
    | ok m => rw [hm] at h; cases h; exact .inl ⟨m, rfl, rfl⟩
  · cases h

theorem install_sound {weights : Json} {model : ParsedRouterModel}
    (h : parseUpload g weights = .ok model) {s : Registry} (hs : Sound s) :
    Sound (model.install s) := by
  obtain ⟨m, rfl, hm⟩ | ⟨m, rfl, hm⟩ := parseUpload_ok h
  · exact setLearnedModel_sound (g := g) (some m) s (fun m' h => by cases h; exact ⟨_, hm⟩) hs
  · exact setCostModel_sound (g := g) (some m) s (fun m' h => by cases h; exact ⟨_, hm⟩) hs

theorem uploadRouterModel_sound (weights : Json) (now : Bool) :
    (uploadRouterModel g weights now).Respects Sound := by
  simp only [uploadRouterModel]
  split
  · trivial
  split
  · trivial
  next model hmodel =>
  refine sound_statement (fun _ _ _ h hr => RouterModelRepo.upsert_distinct h hr) fun r => ?_
  match r with
  | .error e => trivial
  | .ok summary =>
      dsimp only
      split
      · refine sound_statement (fun o table r h hr => ?_) fun r => ?_
        · cases hr
          exact RouterModelRepo.activate_distinct summary.id h
        · match r with
          | .error e => trivial
          | .ok _ => exact sound_act (fun _ _ hs => install_sound hmodel hs) fun _ => trivial
      · trivial

theorem activateRouterModel_sound (id : Uuid) : (activateRouterModel g id).Respects Sound := by
  simp only [activateRouterModel]
  split
  · trivial
  refine sound_statement (fun o table r h hr => ?_) fun r => ?_
  · cases hr
    exact RouterModelRepo.activate_distinct id h
  match r with
  | .error e => trivial
  | .ok none => trivial
  | .ok (some kind) =>
      dsimp only
      split
      · exact reloadCostModel_sound fun r => by cases r <;> trivial
      · exact reloadLearnedModel_sound fun r => by cases r <;> trivial

theorem reloadRouterModel_sound : (reloadRouterModel g).Respects Sound := by
  refine reloadLearnedModel_sound fun r => ?_
  match r with
  | .error e => trivial
  | .ok classifier => exact reloadCostModel_sound fun r => by cases r <;> trivial

theorem unload_sound {kind : Option String} {own : String} {clear : Registry → Registry}
    {rest : Work} (hclear : ∀ s, Sound s → Sound (clear s)) (hrest : rest.Respects Sound) :
    (unload kind own clear rest).Respects Sound := by
  rw [unload]
  split
  · exact sound_act (fun _ s hs => hclear s hs) fun _ => hrest
  · exact hrest

theorem deactivateRouterModels_sound (kind : Option String) :
    (deactivateRouterModels g kind).Respects Sound := by
  have hreport : reportLoaded.Respects Sound :=
    sound_act (fun _ _ hs => hs) fun _ => sound_act (fun _ _ hs => hs) fun _ => trivial
  have hcost : (unload kind costModelKind (fun s => s.setCostModel none) reportLoaded).Respects
      Sound :=
    unload_sound (fun s hs => ⟨hs.table, hs.learned, fun _ h => by cases h⟩) hreport
  have hrest : (unload kind learnedKind (fun s => s.setLearnedModel none)
      (unload kind costModelKind (fun s => s.setCostModel none) reportLoaded)).Respects Sound :=
    unload_sound (fun s hs => ⟨hs.table, fun _ h => (by cases h), hs.cost⟩) hcost
  simp only [deactivateRouterModels]
  split
  · refine sound_statement (fun o table r h hr => ?_) fun r => ?_
    · cases hr
      exact RouterModelRepo.deactivate_distinct kind h
    · match r with
      | .error e => trivial
      | .ok () => exact hrest
  · exact hrest

theorem boot_sound : (boot g).Respects Sound :=
  reloadLearnedModel_sound fun _ => reloadCostModel_sound fun _ => trivial

theorem Request.task_sound (r : Request) : (r.task g).Respects Sound := by
  cases r with
  | upload weights now => exact uploadRouterModel_sound weights now
  | activate id => exact activateRouterModel_sound id
  | reload => exact reloadRouterModel_sound
  | deactivate kind => exact deactivateRouterModels_sound kind
  | boot => exact boot_sound

theorem GatewayEvent.keeps (e : GatewayEvent) : (e.toEvent g).Keeps Sound := by
  cases e with
  | request r => exact r.task_sound
  | resume i answer => trivial
  | restart => exact fun s hs => ⟨hs.table, fun _ h => (by cases h), fun _ h => (by cases h)⟩

end Handlers

/-- A gateway that starts with an empty table. -/
def start : Pool Answer Registry Reply := ⟨[], ⟨[], none, none⟩⟩

/-- The state after the events. -/
def after (es : List GatewayEvent) : Registry := (start.run (es.map (GatewayEvent.toEvent g))).state

theorem sound_after (es : List GatewayEvent) : Sound (after g es) := by
  have hstart : start.Keeps Sound :=
    ⟨⟨List.Pairwise.nil, fun _ h => (by cases h), fun _ h => (by cases h)⟩,
      fun _ h => (by cases h)⟩
  refine (hstart.run fun e he => ?_).state
  obtain ⟨e', -, rfl⟩ := List.mem_map.mp he
  exact e'.keeps

/-- Whatever requests interleave, fail or are lost: name and version belong to one row, a kind has
at most one active row, and the models in memory answer every request without a panic. -/
theorem registry_safe (es : List GatewayEvent) (expM1 : Float → Float) :
    ((after g es).table.map fun r => (r.name, r.version)).Nodup
      ∧ (∀ kind, ((after g es).table.filter fun r => r.isActive && r.kind == kind).length ≤ 1)
      ∧ (∀ m, (after g es).learned = some m → ∀ f mode boundaries offsets,
        ∃ r, m.classify f mode boundaries offsets = some r)
      ∧ ∀ m, (after g es).cost = some m → ∀ f model prices,
        (∃ p, m.predictCost expM1 f model prices = some p)
          ∧ ∃ tokens own, m.predictOutputTokens expM1 f model = some (tokens, own)
            ∧ (tokens.isNaN = true ∨ (1.0 ≤ tokens ∧ tokens ≤ 200000.0)) := by
  have hsound := sound_after g es
  refine ⟨?_, fun kind => ?_, fun m hm f mode boundaries offsets => ?_,
    fun m hm f model prices => ⟨?_, ?_⟩⟩
  · refine List.pairwise_map.mpr (hsound.table.imp fun hab heq => hab.2.1 ?_)
    exact ⟨congrArg Prod.fst heq, congrArg Prod.snd heq⟩
  · -- two active rows of the kind would not be distinct
    have hactive := hsound.table.filter fun r => r.isActive && r.kind == kind
    cases hrows : (after g es).table.filter fun r => r.isActive && r.kind == kind with
    | nil => exact Nat.zero_le 1
    | cons a rest =>
        cases rest with
        | nil => exact le_rfl
        | cons b rest =>
            have hmem : ∀ r ∈ a :: b :: rest, r.isActive = true ∧ r.kind = kind := by
              intro r hr
              rw [← hrows] at hr
              simpa using (List.mem_filter.mp hr).2
            have ha := hmem a List.mem_cons_self
            have hb := hmem b (List.mem_cons_of_mem a List.mem_cons_self)
            rw [hrows] at hactive
            have hab := List.rel_of_pairwise_cons hactive List.mem_cons_self
            exact absurd ⟨ha.1, hb.1, ha.2.trans hb.2.symm⟩ hab.2.2
  · obtain ⟨-, r, -, hr, -⟩ :=
      LearnedModel.classify_of_validate (hsound.learned m hm) f mode boundaries offsets
    exact ⟨r, hr⟩
  · exact CostModel.predictCost_of_validate (hsound.cost m hm) f model prices
  · obtain ⟨z, hz⟩ : ∃ z, m.predictOutputTokens expM1 f model = some (clamp (expM1 z) _ _, _) :=
      CostModel.predictOutputTokens_of_validate (hsound.cost m hm) f model
    exact ⟨_, _, hz, clamp_float (by decide +kernel) (by decide +kernel) (by decide +kernel)⟩

end AuraGateway.Router.Learned
