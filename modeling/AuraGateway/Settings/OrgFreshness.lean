import AuraGateway.Foundations.LabelledRuns
import AuraGateway.Management.Routes
import AuraGateway.Proxy.ResponseHandling

/-!
# Freshness of organization settings

A lookup of an organization's settings is answered from a copy that is kept for a minute,
or reads the column and keeps what it has read. An update stores the merged settings and
then drops the copy. Every database statement and every access to the copy is a step of
its own, and the steps of lookups and updates interleave.

A lookup may keep what it read before an update although that update has dropped the copy
since; later lookups are then answered from before the update (`org_settings_stale`). In
every run in which no lookup does so, a lookup that starts after an update has returned is
answered with the settings of that update or of a later one (`org_settings_fresh`).
-/

set_option autoImplicit false

namespace AuraGateway.Settings

open AuraGateway.Foundations.LabelledRuns AuraGateway.Types AuraGateway.Storage
  AuraGateway.Management AuraGateway.Proxy

/-! ## Calls in flight -/

/-- `ORG_SETTINGS_TTL`. -/
def orgSettingsTtl : Nat := fromSecs 60

/-- Settings as they were read: a missing column is null. `version` counts the updates
stored before the read; no step depends on it. -/
structure Copy where
  value : Json
  version : Nat

/-- A kept copy, and when it was kept. -/
structure KeptCopy where
  keptAt : Instant
  copy : Copy

/-- How far a lookup has come. `floor` is the newest update that had returned when the
lookup started; no step depends on it. -/
inductive Reader where
  | idle
  | started (floor : Nat)
  | missed (floor : Nat)
  | fetched (floor : Nat) (copy : Copy)
  | returned (floor : Nat) (answer : Option Json) (version : Nat)
  | failed

/-- How far an update has come; `version` is its place among the updates stored. -/
inductive Updater where
  | idle
  | stored (version : Nat)
  | dropped (version : Nat)
  | returned (version : Nat)
  | failed

/-- The answer of a finished lookup. A failed read is answered like missing settings. -/
def Reader.answer : Reader → Option (Option Json)
  | .returned _ answer _ => some answer
  | .failed => some none
  | _ => none

/-- What a lookup answers with the column it has read. -/
def Copy.settings (c : Copy) : Option Json :=
  match c.value with
  | .null => none
  | value => some value

theorem Copy.settings_getD (c : Copy) : c.settings.getD .null = c.value := by
  simp only [settings]
  split
  · rename_i h
    rw [h, Option.getD_none]
  · rw [Option.getD_some]

/-- The gateway with the lookups and updates of one organization in flight. The last three
fields only record the run: the columns that updates have replaced, the newest update that
has dropped the copy, and the newest one that has returned. -/
structure InService (ι κ : Type) where
  now : Instant
  db : Database
  kept : Option KeptCopy := none
  reader : ι → Reader
  updater : κ → Updater
  replaced : List (Option Json) := []
  dropped : Nat := 0
  returned : Nat := 0

namespace InService

variable {ι κ : Type} (orgId : Uuid) (σ : InService ι κ)

/-- How many updates have been stored. -/
def version : Nat := σ.replaced.length

/-- The settings column after each number of updates. -/
def columns : List (Option Json) := σ.replaced ++ [OrganizationRepo.getSettings orgId σ.db]

/-- The kept copy, while it is younger than the TTL. -/
def freshCopy : Option Copy :=
  (σ.kept.filter fun k => decide (σ.now - k.keptAt < orgSettingsTtl)).map (·.copy)

/-- The copy of the column that a read takes now. -/
def read : Copy :=
  { value := (OrganizationRepo.getSettings orgId σ.db).getD .null, version := σ.version }

/-- A process that has just started. -/
def start (now : Instant) (db : Database) : InService ι κ :=
  { now, db, reader := fun _ => .idle, updater := fun _ => .idle }

end InService

/-- One step of a lookup, of an update or of the clock. -/
inductive ServiceStep (ι κ : Type) where
  | call (i : ι)
  | hit (i : ι)
  | miss (i : ι)
  | fetch (i : ι)
  | fetchFails (i : ι)
  | keep (i : ι)
  | store (k : κ)
  | storeFails (k : κ)
  | drop (k : κ)
  | finish (k : κ)
  | tick
  deriving DecidableEq, Repr

section System

variable {ι κ : Type} (orgId : Uuid) (req : κ → UpdateOrganizationRequest)

/-- A lookup starts, looks at the copy, and without a fresh one reads the column and keeps
what it has read. An update stores, drops the copy and returns. -/
inductive Serves [DecidableEq ι] [DecidableEq κ] :
    InService ι κ → ServiceStep ι κ → InService ι κ → Prop where
  | call {σ : InService ι κ} {i : ι} (h : σ.reader i = .idle) :
      Serves σ (.call i)
        { σ with reader := Function.update σ.reader i (.started σ.returned) }
  | hit {σ : InService ι κ} {i : ι} {floor : Nat} {c : Copy}
      (h : σ.reader i = .started floor) (hc : σ.freshCopy = some c) :
      Serves σ (.hit i)
        { σ with reader := Function.update σ.reader i (.returned floor (some c.value) c.version) }
  | miss {σ : InService ι κ} {i : ι} {floor : Nat}
      (h : σ.reader i = .started floor) (hc : σ.freshCopy = none) :
      Serves σ (.miss i) { σ with reader := Function.update σ.reader i (.missed floor) }
  | fetch {σ : InService ι κ} {i : ι} {floor : Nat} (h : σ.reader i = .missed floor) :
      Serves σ (.fetch i)
        { σ with reader := Function.update σ.reader i (.fetched floor (σ.read orgId)) }
  | fetchFails {σ : InService ι κ} {i : ι} {floor : Nat} (h : σ.reader i = .missed floor) :
      Serves σ (.fetchFails i) { σ with reader := Function.update σ.reader i .failed }
  -- the copy is as old as the read, but its age counts from here
  | keep {σ : InService ι κ} {i : ι} {floor : Nat} {c : Copy}
      (h : σ.reader i = .fetched floor c) :
      Serves σ (.keep i)
        { σ with
          kept := some { keptAt := σ.now, copy := c }
          reader := Function.update σ.reader i (.returned floor c.settings c.version) }
  | store {σ : InService ι κ} {k : κ} {s : Session} {org : Organization} {db : Database}
      (h : σ.updater k = .idle)
      (hs : s.call 0 (OrganizationRepo.update s orgId (req k).name (req k).settings σ.db)
        = .ok (org, db)) :
      Serves σ (.store k)
        { σ with
          db
          updater := Function.update σ.updater k (.stored (σ.version + 1))
          replaced := σ.columns orgId }
  | storeFails {σ : InService ι κ} {k : κ} {s : Session} {e : DbError}
      (h : σ.updater k = .idle)
      (hs : s.call 0 (OrganizationRepo.update s orgId (req k).name (req k).settings σ.db)
        = .error e) :
      Serves σ (.storeFails k) { σ with updater := Function.update σ.updater k .failed }
  | drop {σ : InService ι κ} {k : κ} {v : Nat} (h : σ.updater k = .stored v) :
      Serves σ (.drop k)
        { σ with
          kept := none
          updater := Function.update σ.updater k (.dropped v)
          dropped := max σ.dropped v }
  | finish {σ : InService ι κ} {k : κ} {v : Nat} (h : σ.updater k = .dropped v) :
      Serves σ (.finish k)
        { σ with
          updater := Function.update σ.updater k (.returned v)
          returned := max σ.returned v }
  | tick {σ : InService ι κ} {now : Instant} (h : σ.now ≤ now) : Serves σ .tick { σ with now }

/-- A lookup keeps its copy in time when no update stored after the read has dropped the
kept copy yet. -/
def InTime (σ : InService ι κ) : ServiceStep ι κ → Prop
  | .keep i => ∀ floor c, σ.reader i = .fetched floor c → σ.dropped ≤ c.version
  | _ => True

/-- Steps in which every copy is kept in time. -/
def ServesInTime [DecidableEq ι] [DecidableEq κ] (σ : InService ι κ) (e : ServiceStep ι κ)
    (σ' : InService ι κ) : Prop :=
  Serves orgId req σ e σ' ∧ InTime σ e

/-- The settings are those of the column after `version` updates. -/
def OfColumn (columns : List (Option Json)) (value : Json) (version : Nat) : Prop :=
  ∃ column, columns[version]? = some column ∧ value = column.getD .null

/-- A lookup holds settings of the column, and none from before an update it must see. -/
def Reader.Fresh (dropped : Nat) (columns : List (Option Json)) : Reader → Prop
  | .idle | .failed => True
  | .started floor | .missed floor => floor ≤ dropped
  | .fetched floor c => floor ≤ c.version ∧ OfColumn columns c.value c.version
  | .returned floor answer version =>
      floor ≤ version ∧ OfColumn columns (answer.getD .null) version

/-- An update that has stored is among the stored ones, and one that has dropped the copy
among those. -/
def Updater.Counted (version dropped : Nat) : Updater → Prop
  | .idle | .failed | .returned _ => True
  | .stored v => v ≤ version
  | .dropped v => v ≤ dropped

/-- What runs keep when every copy is kept in time: no update that has returned is newer
than those that have dropped the copy, and none of these is newer than the kept copy. -/
structure KeptFresh (σ : InService ι κ) : Prop where
  returned : σ.returned ≤ σ.dropped
  dropped : σ.dropped ≤ σ.version
  kept : ∀ k ∈ σ.kept, σ.dropped ≤ k.copy.version ∧
    OfColumn (σ.columns orgId) k.copy.value k.copy.version
  reader : ∀ i, (σ.reader i).Fresh σ.dropped (σ.columns orgId)
  updater : ∀ k, (σ.updater k).Counted σ.version σ.dropped

/-! ## What one step keeps -/

variable {orgId} {req} {σ σ' : InService ι κ}

theorem OfColumn.mono {columns columns' : List (Option Json)} {value : Json} {version : Nat}
    (hp : columns <+: columns') (h : OfColumn columns value version) :
    OfColumn columns' value version := by
  obtain ⟨column, hcolumn, hvalue⟩ := h
  obtain ⟨later, rfl⟩ := hp
  refine ⟨column, ?_, hvalue⟩
  rw [List.getElem?_append_left (List.getElem?_eq_some_iff.mp hcolumn).1]
  exact hcolumn

theorem Reader.Fresh.mono {dropped dropped' : Nat} {columns columns' : List (Option Json)}
    (hd : dropped ≤ dropped') (hp : columns <+: columns') {r : Reader}
    (h : r.Fresh dropped columns) : r.Fresh dropped' columns' := by
  cases r with
  | idle => trivial
  | failed => trivial
  | started floor => exact Nat.le_trans h hd
  | missed floor => exact Nat.le_trans h hd
  | fetched floor c => exact ⟨h.1, h.2.mono hp⟩
  | returned floor answer version => exact ⟨h.1, h.2.mono hp⟩

theorem Updater.Counted.mono {version version' dropped dropped' : Nat}
    (hv : version ≤ version') (hd : dropped ≤ dropped') {u : Updater}
    (h : u.Counted version dropped) : u.Counted version' dropped' := by
  cases u with
  | idle => trivial
  | failed => trivial
  | returned v => trivial
  | stored v => exact Nat.le_trans h hv
  | dropped v => exact Nat.le_trans h hd

/-- A read takes the newest column. -/
theorem ofColumn_read : OfColumn (σ.columns orgId) (σ.read orgId).value σ.version := by
  refine ⟨OrganizationRepo.getSettings orgId σ.db, ?_, rfl⟩
  simp [InService.columns, InService.version]

namespace KeptFresh

/-- A property of every call is kept when one call moves on. -/
theorem forall_update {α β : Type} [DecidableEq α] {f : α → β} {P : β → Prop} {a : α} {b : β}
    (h : ∀ x, P (f x)) (hb : P b) : ∀ x, P (Function.update f a b x) :=
  (Function.forall_update_iff f fun _ y => P y).mpr ⟨hb, fun x _ => h x⟩

theorem setReader [DecidableEq ι] {i : ι} {r : Reader} (h : KeptFresh orgId σ)
    (hr : r.Fresh σ.dropped (σ.columns orgId)) :
    KeptFresh orgId { σ with reader := Function.update σ.reader i r } :=
  { h with reader := forall_update h.reader hr }

theorem setUpdater [DecidableEq κ] {k : κ} {u : Updater} (h : KeptFresh orgId σ)
    (hu : u.Counted σ.version σ.dropped) :
    KeptFresh orgId { σ with updater := Function.update σ.updater k u } :=
  { h with updater := forall_update h.updater hu }

theorem keep [DecidableEq ι] {i : ι} {floor : Nat} {c : Copy} (h : KeptFresh orgId σ)
    (hi : σ.reader i = .fetched floor c) (ht : σ.dropped ≤ c.version) :
    KeptFresh orgId
      { σ with
        kept := some { keptAt := σ.now, copy := c }
        reader := Function.update σ.reader i (.returned floor c.settings c.version) } := by
  have hr := h.reader i
  rw [hi] at hr
  obtain ⟨hfloor, hc⟩ := hr
  refine { h with kept := ?_, reader := forall_update h.reader ⟨hfloor, ?_⟩ }
  · rintro k hk
    obtain rfl := Option.some.inj hk
    exact ⟨ht, hc⟩
  · rw [c.settings_getD]
    exact hc

/-- A stored update adds a column and is counted. -/
theorem store [DecidableEq κ] {k : κ} {db : Database} (h : KeptFresh orgId σ) :
    KeptFresh orgId
      { σ with
        db
        updater := Function.update σ.updater k (.stored (σ.version + 1))
        replaced := σ.columns orgId } := by
  -- the new column comes last, so the versions of what was read stay valid
  have hp : σ.columns orgId <+: σ.columns orgId ++ [OrganizationRepo.getSettings orgId db] :=
    List.prefix_append _ _
  have hv : σ.version + 1 = (σ.columns orgId).length := by
    simp [InService.columns, InService.version]
  have hle : σ.version ≤ (σ.columns orgId).length := by omega
  exact
    { returned := h.returned
      dropped := Nat.le_trans h.dropped hle
      kept := fun k hk => ⟨(h.kept k hk).1, (h.kept k hk).2.mono hp⟩
      reader := fun i => (h.reader i).mono (Nat.le_refl _) hp
      updater := forall_update (fun k => (h.updater k).mono hle (Nat.le_refl _)) (Nat.le_of_eq hv) }

/-- Dropping the copy makes the update one that later lookups must see. -/
theorem drop [DecidableEq κ] {k : κ} {v : Nat} (h : KeptFresh orgId σ) (hk : σ.updater k = .stored v) :
    KeptFresh orgId
      { σ with
        kept := none
        updater := Function.update σ.updater k (.dropped v)
        dropped := max σ.dropped v } := by
  have hu := h.updater k
  rw [hk] at hu
  have hd : σ.dropped ≤ max σ.dropped v := Nat.le_max_left _ _
  exact
    { returned := Nat.le_trans h.returned hd
      -- the update was stored before it drops the copy
      dropped := Nat.max_le.mpr ⟨h.dropped, hu⟩
      kept := fun _ hk => by cases hk
      reader := fun i => (h.reader i).mono hd List.prefix_rfl
      updater := forall_update (fun k => (h.updater k).mono (Nat.le_refl _) hd)
        (Nat.le_max_right _ _) }

theorem finish [DecidableEq κ] {k : κ} {v : Nat} (h : KeptFresh orgId σ) (hk : σ.updater k = .dropped v) :
    KeptFresh orgId
      { σ with
        updater := Function.update σ.updater k (.returned v)
        returned := max σ.returned v } := by
  have hu := h.updater k
  rw [hk] at hu
  exact
    { h with
      returned := Nat.max_le.mpr ⟨h.returned, hu⟩
      updater := forall_update h.updater trivial }

theorem start (now : Instant) (db : Database) :
    KeptFresh orgId (InService.start now db : InService ι κ) where
  returned := Nat.le_refl _
  dropped := Nat.le_refl _
  kept := fun _ hk => by cases hk
  reader := fun _ => trivial
  updater := fun _ => trivial

theorem step [DecidableEq ι] [DecidableEq κ] {e : ServiceStep ι κ} (h : KeptFresh orgId σ)
    (hs : ServesInTime orgId req σ e σ') : KeptFresh orgId σ' := by
  obtain ⟨hstep, ht⟩ := hs
  cases hstep with
  -- what has returned has dropped the copy, so the floor is below it
  | call hi => exact h.setReader h.returned
  | @hit i floor c hi hc =>
      have hr := h.reader i
      rw [hi] at hr
      -- a fresh copy is the kept copy
      obtain ⟨k, hk, rfl⟩ := Option.map_eq_some_iff.mp hc
      obtain ⟨hv, hcol⟩ := h.kept k (Option.eq_some_of_filter_eq_some hk)
      exact h.setReader ⟨Nat.le_trans hr hv, hcol⟩
  | @miss i floor hi hc =>
      have hr := h.reader i
      rw [hi] at hr
      exact h.setReader hr
  | @fetch i floor hi =>
      have hr := h.reader i
      rw [hi] at hr
      exact h.setReader ⟨Nat.le_trans hr h.dropped, ofColumn_read⟩
  | fetchFails hi => exact h.setReader trivial
  | keep hi => exact h.keep hi (ht _ _ hi)
  | store hk hs => exact h.store
  | storeFails hk hs => exact h.setUpdater trivial
  | drop hk => exact h.drop hk
  | finish hk => exact h.finish hk
  | tick hn => exact { h with }

end KeptFresh

/-- A lookup that runs alone answers what `orgSettings` computes from the fresh copy and
the database. -/
theorem lookup_alone [DecidableEq ι] [DecidableEq κ] (gw : Proxy.Gateway) (turn : Turn) {i : ι}
    (hi : σ.reader i = .idle) (hdb : gw.state.hasDatabase = true)
    (hcached : turn.cachedSettings = σ.freshCopy.map (·.value)) :
    ∃ steps σ', Run (Serves orgId req) σ steps σ' ∧
      (σ'.reader i).answer = some (orgSettings gw turn σ.db orgId) := by
  have hcall : Run (Serves orgId req) σ [.call i] _ := Run.nil.snoc (.call hi)
  cases hc : σ.freshCopy with
  | some c =>
      rw [hc, Option.map_some] at hcached
      refine ⟨_, _, hcall.snoc (.hit (Function.update_self ..) hc), ?_⟩
      simp [Reader.answer, orgSettings, hdb, hcached]
  | none =>
      rw [hc, Option.map_none] at hcached
      have hmiss := hcall.snoc (.miss (Function.update_self ..) hc)
      by_cases hf : turn.fails .settings = true
      · refine ⟨_, _, hmiss.snoc (.fetchFails (Function.update_self ..)), ?_⟩
        simp [Reader.answer, orgSettings, hdb, hcached, hf]
      · refine ⟨_, _, (hmiss.snoc (.fetch (Function.update_self ..))).snoc
          (.keep (Function.update_self ..)), ?_⟩
        cases hcol : OrganizationRepo.getSettings orgId σ.db with
        | none => simp [Reader.answer, orgSettings, hdb, hcached, hf, hcol, Copy.settings, InService.read]
        | some column =>
            cases column <;>
              simp [Reader.answer, orgSettings, hdb, hcached, hf, hcol, Copy.settings, InService.read]

end System

/-- In every run of lookups and updates of an organization in which every copy is kept in
time, a lookup that has returned was answered with the settings column as it was after
`version` updates, and `version` is not below any update that had returned when the lookup
started. -/
theorem org_settings_fresh {ι κ : Type} [DecidableEq ι] [DecidableEq κ] (orgId : Uuid)
    (req : κ → UpdateOrganizationRequest) (now : Instant) (db : Database)
    (steps : List (ServiceStep ι κ)) (σ : InService ι κ)
    (hrun : Run (ServesInTime orgId req) (InService.start now db) steps σ)
    (i : ι) (floor : Nat) (answer : Option Json) (version : Nat)
    (hi : σ.reader i = .returned floor answer version) :
    floor ≤ version ∧ OfColumn (σ.columns orgId) (answer.getD .null) version := by
  have h : KeptFresh orgId σ :=
    hrun.stateInvariant _ (KeptFresh.start now db) fun _ _ _ hk hs => hk.step hs
  have hr := h.reader i
  rw [hi] at hr
  exact hr

namespace Sample

/-- Settings that switch payload capture for the organization. -/
def orgCapture (on : Bool) : Json := .object [("payload_capture", .bool on)]

/-- A database with one organization, which captures payloads. -/
def orgDatabase : Database :=
  { organizations :=
      [{ id := 1, name := "acme", slug := "acme", ownerId := "owner",
         settings := some (orgCapture true), createdAt := 0, updatedAt := 0 }] }

/-- The update that ends the capture. -/
def endCapture : UpdateOrganizationRequest := { name := none, settings := some (orgCapture false) }

/-- A session in which no database call fails. -/
def session : Session where
  engine :=
    { errorText := fun _ => "", collate := fun a b => decide (a ≤ b)
      textMatches := fun _ _ => false, textRank := fun _ _ => 0 }
  now := 0
  newId := 0

end Sample

/-- A lookup keeps its copy before the update; the lookup after it reads the new settings. -/
theorem org_settings_fresh_sample :
    ∃ (steps : List (ServiceStep Bool Unit)) (σ : InService Bool Unit),
      Run (ServesInTime 1 fun _ => Sample.endCapture) (InService.start 0 Sample.orgDatabase)
        steps σ ∧
      σ.reader true = .returned 1 (some (Sample.orgCapture false)) 1 ∧
      1 ≤ 1 ∧ OfColumn (σ.columns 1) (Sample.orgCapture false) 1 := by
  obtain ⟨steps, σ, hrun, hanswer⟩ : ∃ (steps : List (ServiceStep Bool Unit))
      (σ : InService Bool Unit), Run (ServesInTime 1 fun _ => Sample.endCapture)
        (InService.start 0 Sample.orgDatabase) steps σ ∧
      σ.reader true = .returned 1 (some (Sample.orgCapture false)) 1 := by
    refine ⟨_, _, Run.cons ⟨.call (i := false) rfl, trivial⟩ <|
      Run.cons ⟨.miss (i := false) rfl rfl, trivial⟩ <|
      Run.cons ⟨.fetch (i := false) rfl, trivial⟩ <|
      Run.cons ⟨.keep (i := false) rfl, fun _ _ _ => Nat.zero_le _⟩ <|
      Run.cons ⟨.store (k := ()) (s := Sample.session) rfl rfl, trivial⟩ <|
      Run.cons ⟨.drop (k := ()) rfl, trivial⟩ <|
      Run.cons ⟨.finish (k := ()) rfl, trivial⟩ <|
      Run.cons ⟨.call (i := true) rfl, trivial⟩ <|
      Run.cons ⟨.miss (i := true) rfl rfl, trivial⟩ <|
      Run.cons ⟨.fetch (i := true) rfl, trivial⟩ <|
      Run.cons ⟨.keep (i := true) rfl, ?_⟩ Run.nil, rfl⟩
    intro floor c h
    cases h
    decide
  exact ⟨steps, σ, hrun, hanswer, org_settings_fresh 1 _ 0 _ steps σ hrun true 1 _ 1 hanswer⟩

/-- A lookup reads the column, an update is stored, drops the copy and returns, and the
first lookup keeps what it has read. The next lookup, which starts after the update has
returned, is answered with the settings from before it. -/
theorem org_settings_stale :
    ∃ (steps : List (ServiceStep Bool Unit)) (σ : InService Bool Unit),
      Run (Serves 1 fun _ => Sample.endCapture) (InService.start 0 Sample.orgDatabase)
        steps σ ∧
      σ.updater () = .returned 1 ∧ σ.reader true = .returned 1 (some (Sample.orgCapture true)) 0 ∧
      OrganizationRepo.getSettings 1 σ.db = some (Sample.orgCapture false) := by
  exact ⟨_, _, Run.cons (.call (i := false) rfl) <|
    Run.cons (.miss (i := false) rfl rfl) <|
    Run.cons (.fetch (i := false) rfl) <|
    Run.cons (.store (k := ()) (s := Sample.session) rfl rfl) <|
    Run.cons (.drop (k := ()) rfl) <|
    Run.cons (.finish (k := ()) rfl) <|
    Run.cons (.keep (i := false) rfl) <|
    Run.cons (.call (i := true) rfl) <|
    Run.cons (.hit (i := true) rfl rfl) Run.nil, rfl, rfl, rfl⟩

end AuraGateway.Settings
