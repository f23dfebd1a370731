import AuraGateway.Router.ModelRegistry

/-!
# Registry and memory across restarts

The gateway loads the active model of each kind when it starts, and keeps a copy in memory that
the requests change together with the table. One request after the other, the copy stays what a
start would load (`restart_changes_nothing`), under the conditions of `Quiet`: a version is
uploaded again only as the kind it is stored as, an upload to an active row activates it, what was
activated can be read back, and only kinds without a weights file are deactivated.
-/

set_option autoImplicit false

namespace AuraGateway.Router.Learned

open AuraGateway.Foundations.Resumptions AuraGateway.RustStd AuraGateway.Types

theorem kinds_ne : learnedKind ≠ costModelKind := by decide

/-! ## The active row of a kind -/

namespace RouterModelRepo

/-- The weights of the active row of a kind. -/
def activeWeights (table : List RouterModel) (kind : String) : Option Json :=
  (active table kind).map fun r => r.weights

/-- The table holds an active row of the kind with these weights. -/
def Serves (table : List RouterModel) (kind : String) (w : Json) : Prop :=
  ∃ r ∈ table, r.isActive = true ∧ r.kind = kind ∧ r.weights = w

theorem activeWeights_eq_some_iff {table : List RouterModel} (h : table.Pairwise Distinct)
    (kind : String) (w : Json) : activeWeights table kind = some w ↔ Serves table kind w := by
  constructor
  · intro hw
    obtain ⟨r, hr, rfl⟩ := Option.map_eq_some_iff.mp hw
    have hactive := List.find?_some hr
    simp only [Bool.and_eq_true, beq_iff_eq] at hactive
    exact ⟨r, List.mem_of_find?_eq_some hr, hactive.1, hactive.2, rfl⟩
  · rintro ⟨r, hr, hactive, hkind, rfl⟩
    cases hfind : active table kind with
    | none =>
        have hnone := List.find?_eq_none.mp hfind r hr
        simp [hactive, hkind] at hnone
    | some r' =>
        have hactive' := List.find?_some hfind
        simp only [Bool.and_eq_true, beq_iff_eq] at hactive'
        have hr' := List.mem_of_find?_eq_some hfind
        by_contra hne
        have hdistinct := h.forall hr hr' fun heq => hne (by rw [activeWeights, hfind, heq]; rfl)
        exact hdistinct.2.2 ⟨hactive, hactive'.1, hkind.trans hactive'.2.symm⟩

/-- Tables whose active rows have the same weights. -/
theorem activeWeights_congr {table table' : List RouterModel} (h : table.Pairwise Distinct)
    (h' : table'.Pairwise Distinct) {kind : String}
    (hserves : ∀ w, Serves table kind w ↔ Serves table' kind w) :
    activeWeights table kind = activeWeights table' kind := by
  ext w
  exact (activeWeights_eq_some_iff h kind w).trans
    ((hserves w).trans (activeWeights_eq_some_iff h' kind w).symm)

/-- After an upsert the active rows are those before, with the new weights in the row of the
version. -/
theorem upsert_serves {freshId : Uuid} {table : List RouterModel} {new : NewRouterModel}
    {u : List RouterModel × RouterModelSummary} (hu : upsert freshId table new = some u)
    (kind : String) (w : Json) :
    Serves u.1 kind w ↔ ∃ r ∈ table, r.isActive = true ∧ r.kind = kind
      ∧ (if isVersion new r then new.weights else r.weights) = w := by
  simp only [upsert] at hu
  split at hu
  · cases hu
  split at hu
  · cases hu
    constructor
    · rintro ⟨_, hmem, hactive, hkind, hw⟩
      obtain ⟨r, hr, rfl⟩ := List.mem_map.mp hmem
      refine ⟨r, hr, ?_⟩
      split_ifs at hactive hkind hw ⊢ <;> exact ⟨hactive, hkind, hw⟩
    · rintro ⟨r, hr, hactive, hkind, hw⟩
      refine ⟨_, List.mem_map_of_mem hr, ?_⟩
      split_ifs at hw ⊢ <;> exact ⟨hactive, hkind, hw⟩
  next hfind =>
  split at hu
  · cases hu
  cases hu
  have hnone : ∀ r ∈ table, isVersion new r = false := fun r hr => by
    simpa using List.find?_eq_none.mp hfind r hr
  constructor
  · rintro ⟨r, hr, hactive, hkind, hw⟩
    obtain hr | hr := List.mem_append.mp hr
    · exact ⟨r, hr, hactive, hkind, by rw [hnone r hr]; exact hw⟩
    · rw [List.mem_singleton.mp hr] at hactive
      cases hactive
  · rintro ⟨r, hr, hactive, hkind, hw⟩
    rw [hnone r hr] at hw
    exact ⟨r, List.mem_append_left _ hr, hactive, hkind, hw⟩

theorem upsert_serves_same {freshId : Uuid} {table : List RouterModel} {new : NewRouterModel}
    {u : List RouterModel × RouterModelSummary} (hu : upsert freshId table new = some u)
    {kind : String} (hnot : ∀ r ∈ table, r.isActive = true → r.kind = kind →
      isVersion new r = false) (w : Json) : Serves u.1 kind w ↔ Serves table kind w := by
  refine (upsert_serves hu kind w).trans ?_
  constructor
  · rintro ⟨r, hr, hactive, hkind, hw⟩
    rw [hnot r hr hactive hkind] at hw
    exact ⟨r, hr, hactive, hkind, hw⟩
  · rintro ⟨r, hr, hactive, hkind, hw⟩
    exact ⟨r, hr, hactive, hkind, by rw [hnot r hr hactive hkind]; exact hw⟩

/-- The row an upsert reports on has the new weights, and the kind it was stored as before or the
new one. -/
theorem upsert_row {freshId : Uuid} {table : List RouterModel} {new : NewRouterModel}
    {u : List RouterModel × RouterModelSummary} (hu : upsert freshId table new = some u) :
    ∃ row ∈ u.1, row.id = u.2.id ∧ row.weights = new.weights
      ∧ (row.kind = new.kind ∨ ∃ old ∈ table, isVersion new old = true ∧ old.kind = row.kind) := by
  simp only [upsert] at hu
  split at hu
  · cases hu
  split at hu
  · next old hfind =>
    cases hu
    have hversion := List.find?_some hfind
    have hmem := List.mem_of_find?_eq_some hfind
    refine ⟨_, List.mem_map_of_mem hmem, ?_⟩
    rw [if_pos hversion]
    exact ⟨rfl, rfl, .inr ⟨old, hmem, hversion, rfl⟩⟩
  split at hu
  · cases hu
  cases hu
  exact ⟨_, List.mem_append_right _ (List.mem_singleton.mpr rfl), rfl, rfl, .inl rfl⟩

/-- What holds of kind and weights of every row holds after an upsert. -/
theorem upsert_forall {freshId : Uuid} {table : List RouterModel} {new : NewRouterModel}
    {u : List RouterModel × RouterModelSummary} (hu : upsert freshId table new = some u)
    {P : String → Json → Prop} (hold : ∀ r ∈ table, P r.kind r.weights)
    (hnew : P new.kind new.weights)
    (hversion : ∀ r ∈ table, isVersion new r = true → P r.kind new.weights) :
    ∀ r ∈ u.1, P r.kind r.weights := by
  simp only [upsert] at hu
  split at hu
  · cases hu
  split at hu
  · cases hu
    intro _ hmem
    obtain ⟨r, hr, rfl⟩ := List.mem_map.mp hmem
    split
    · next h => exact hversion r hr h
    · exact hold r hr
  split at hu
  · cases hu
  cases hu
  intro r hr
  obtain hr | hr := List.mem_append.mp hr
  · exact hold r hr
  · rw [List.mem_singleton.mp hr]
    exact hnew

/-- Activating a row of the table. -/
theorem activate_of_mem {table : List RouterModel} (h : table.Pairwise Distinct) {r : RouterModel}
    (hr : r ∈ table) : activate table r.id = (table.map (switched r r.id), some r.kind) := by
  cases hfind : table.find? fun r' => r'.id == r.id with
  | none =>
      have hnone := List.find?_eq_none.mp hfind r hr
      simp at hnone
  | some found =>
      have hid : found.id = r.id := by simpa using List.find?_some hfind
      have heq : found = r := by
        by_contra hne
        exact (h.forall (List.mem_of_find?_eq_some hfind) hr hne).1 hid
      rw [activate_eq hfind, heq]

/-- Then the row is the active one of its kind, and the other kinds stay as they are. -/
theorem activate_serves {table : List RouterModel} (h : table.Pairwise Distinct) {r : RouterModel}
    (hr : r ∈ table) (kind : String) (w : Json) :
    Serves (activate table r.id).1 kind w ↔
      (kind = r.kind ∧ w = r.weights) ∨ (kind ≠ r.kind ∧ Serves table kind w) := by
  rw [activate_of_mem h hr]
  constructor
  · rintro ⟨_, hmem, hactive, rfl, rfl⟩
    obtain ⟨r', hr', rfl⟩ := List.mem_map.mp hmem
    simp only [switched, Bool.or_eq_true, beq_iff_eq, Bool.and_eq_true, bne_iff_ne] at hactive ⊢
    obtain hid | ⟨hactive, hkind⟩ := hactive
    · obtain rfl : r' = r := by
        by_contra hne
        exact (h.forall hr' hr hne).1 hid
      exact .inl ⟨rfl, rfl⟩
    · exact .inr ⟨hkind, r', hr', hactive, rfl, rfl⟩
  · rintro (⟨rfl, rfl⟩ | ⟨hne, r', hr', hactive, rfl, rfl⟩)
    · exact ⟨_, List.mem_map_of_mem hr, by simp [switched], rfl, rfl⟩
    · exact ⟨_, List.mem_map_of_mem hr', by simp [switched, hactive, hne], rfl, rfl⟩

/-- Deactivation takes the active rows of its kinds. -/
theorem deactivate_serves (table : List RouterModel) (kind : Option String) (k : String) (w : Json) :
    Serves (deactivate table kind) k w ↔
      Serves table k w ∧ ¬ (kind = none ∨ kind = some k) := by
  constructor
  · rintro ⟨_, hmem, hactive, rfl, rfl⟩
    obtain ⟨r, hr, rfl⟩ := List.mem_map.mp hmem
    split at hactive
    · cases hactive
    next hkeep =>
    rw [if_neg hkeep]
    simp only [Bool.and_eq_true, Bool.or_eq_true, Option.isNone_iff_eq_none, beq_iff_eq,
      hactive, true_and] at hkeep
    exact ⟨⟨r, hr, hactive, rfl, rfl⟩, hkeep⟩
  · rintro ⟨⟨r, hr, hactive, rfl, rfl⟩, hkeep⟩
    refine ⟨_, List.mem_map_of_mem hr, ?_⟩
    rw [if_neg (by simpa [hactive] using hkeep)]
    exact ⟨hactive, rfl, rfl⟩

theorem activate_forall {table : List RouterModel} (id : Uuid) {P : String → Json → Prop}
    (h : ∀ r ∈ table, P r.kind r.weights) : ∀ r ∈ (activate table id).1, P r.kind r.weights := by
  cases hfind : table.find? fun r => r.id == id with
  | none => simpa only [activate, hfind] using h
  | some found =>
      rw [activate_eq hfind]
      intro _ hmem
      obtain ⟨r, hr, rfl⟩ := List.mem_map.mp hmem
      exact h r hr

theorem deactivate_forall {table : List RouterModel} (kind : Option String)
    {P : String → Json → Prop} (h : ∀ r ∈ table, P r.kind r.weights) :
    ∀ r ∈ deactivate table kind, P r.kind r.weights := by
  intro _ hmem
  obtain ⟨r, hr, rfl⟩ := List.mem_map.mp hmem
  split <;> exact h r hr

end RouterModelRepo

/-! ## What a start loads -/

section Starts

variable (g : Setup) (disk : String → Except String Json)

/-- The weights in the file of a kind, if it can be read. -/
def fileWeights (file : Option String) : Option Json :=
  ((file.map trim).filter fun p => !p.isEmpty).bind fun path => (disk path).toOption

/-- The weights a start finds for a kind: those of the active row, else those in the file. -/
def startWeights (kind : String) (file : Option String) (table : List RouterModel) : Option Json :=
  if g.hasDatabase then (RouterModelRepo.activeWeights table kind).or (fileWeights disk file)
  else fileWeights disk file

/-- The model a start loads for a kind. -/
def startModel {M : Type} (kind : String) (file : Option String)
    (fromJson : Json → Except String M) (table : List RouterModel) : Option M :=
  (startWeights g disk kind file table).bind fun w => (fromJson w).toOption

def startLearned : List RouterModel → Option (LearnedModel Float) :=
  startModel g disk learnedKind g.learnedWeightsFile (LearnedModel.fromJson g.readLearned)

def startCost : List RouterModel → Option (CostModel Float) :=
  startModel g disk costModelKind g.costWeightsFile (CostModel.fromJson g.readCost)

variable {g disk}

theorem run_readWeightsFile (file : Option String) (k : Except String (Option Json) → Work)
    {answers : Nat → Answer} (hfile : ∀ n, (answers n).file = disk) (s : Registry) :
    ∃ n r, (readWeightsFile file k).run answers s = (k r).run (fun i => answers (i + n)) s
      ∧ (r = .ok (fileWeights disk file) ∨ ∃ e, r = .error e ∧ fileWeights disk file = none) := by
  rw [readWeightsFile, fileWeights]
  split
  · next hnone =>
    rw [hnone]
    exact ⟨0, _, rfl, .inl rfl⟩
  · next path hsome =>
    rw [Task.run_act, hsome, hfile 0, Option.bind_some]
    cases hdisk : disk path with
    | error e => exact ⟨1, _, rfl, .inr ⟨_, rfl, rfl⟩⟩
    | ok json => exact ⟨1, _, rfl, .inl rfl⟩

/-- Reading the weights ends in what a start finds, or in an error where it finds none or the
database fails. -/
theorem run_loadModelWeights (kind : String) (file : Option String)
    (k : Except String (Option Json) → Work) {answers : Nat → Answer}
    (hfile : ∀ n, (answers n).file = disk) (s : Registry) :
    ∃ n r, (loadModelWeights g kind file k).run answers s = (k r).run (fun i => answers (i + n)) s
      ∧ (r = .ok (startWeights g disk kind file s.table) ∨ ∃ e, r = .error e
        ∧ (startWeights g disk kind file s.table = none ∨ (answers 0).dbFails = true)) := by
  rw [loadModelWeights, startWeights]
  split
  · rw [Task.run_act]
    cases hdb : (answers 0).dbFails with
    | true =>
        refine ⟨1, .error ("failed to read router_models: " ++ (answers 0).message), ?_,
          .inr ⟨_, rfl, .inr rfl⟩⟩
        simp [statement, hdb]
    | false =>
        have hstatement : statement (fun _ table => some (table, RouterModelRepo.active table kind))
            (answers 0) s = (.ok (RouterModelRepo.active s.table kind), s) := by
          simp [statement, hdb]
        rw [hstatement, RouterModelRepo.activeWeights]
        cases RouterModelRepo.active s.table kind with
        | some row => exact ⟨1, _, rfl, .inl rfl⟩
        | none =>
            obtain ⟨n, r, hrun, hr⟩ := run_readWeightsFile file k (fun n => hfile (n + 1)) s
            refine ⟨n + 1, r, ?_, ?_⟩
            · simpa [Nat.add_assoc] using hrun
            · obtain hr | ⟨e, he, hnone⟩ := hr
              · exact .inl hr
              · exact .inr ⟨e, he, .inl hnone⟩
  · obtain ⟨n, r, hrun, hr | ⟨e, he, hnone⟩⟩ := run_readWeightsFile file k hfile s
    · exact ⟨n, r, hrun, .inl hr⟩
    · exact ⟨n, r, hrun, .inr ⟨e, he, .inl hnone⟩⟩

/-- Loading a kind ends with what a start loads in memory, or with memory as it was where a start
loads nothing or the database fails. -/
theorem run_reloadModel {M : Type} (kind : String) {file : Option String}
    {fromJson : Json → Except String M} {set : Option M → Registry → Registry} {label : M → String}
    (k : Except String (Option String) → Work) {answers : Nat → Answer}
    (hfile : ∀ n, (answers n).file = disk) (s : Registry) :
    ∃ n r s', (reloadModel g kind file fromJson set label k).run answers s
        = (k r).run (fun i => answers (i + n)) s'
      ∧ (s' = set (startModel g disk kind file fromJson s.table) s ∨ (s' = s
        ∧ (startModel g disk kind file fromJson s.table = none ∨ (answers 0).dbFails = true))) := by
  obtain ⟨n, r, hrun, hr⟩ :=
    run_loadModelWeights (g := g) kind file (installWeights fromJson set label k) hfile s
  have hshift : ∀ i, i + (n + 1) = i + 1 + n := fun i => by omega
  rw [reloadModel, hrun, startModel]
  obtain rfl | ⟨e, rfl, hnone | hdb⟩ := hr
  · cases startWeights g disk kind file s.table with
    | none => exact ⟨n + 1, .ok none, set none s, by simp [installWeights, hshift], .inl rfl⟩
    | some w =>
        cases hm : fromJson w with
        | error e =>
            have hnone : (fromJson w).toOption = none := by rw [hm]; rfl
            exact ⟨n, .error e, s, by simp [installWeights, hm], .inr ⟨rfl, .inl hnone⟩⟩
        | ok m =>
            have hsome : (fromJson w).toOption = some m := by rw [hm]; rfl
            refine ⟨n + 1, .ok (some (label m)), set (some m) s, ?_, .inl ?_⟩
            · simp [installWeights, hm, hshift]
            · rw [Option.bind_some, hsome]
  · exact ⟨n, .error e, s, rfl, .inr ⟨rfl, .inl (by rw [hnone]; rfl)⟩⟩
  · exact ⟨n, .error e, s, rfl, .inr ⟨rfl, .inr hdb⟩⟩

/-! ## Memory and table -/

/-- The registry after a start: the table, and what is loaded from it. -/
def booted (g : Setup) (disk : String → Except String Json) (table : List RouterModel) : Registry :=
  ⟨table, startLearned g disk table, startCost g disk table⟩

/-- The weights are those of a model of their kind. -/
def Loads (g : Setup) (kind : String) (w : Json) : Prop :=
  (kind = learnedKind ∧ ∃ m, LearnedModel.fromJson g.readLearned w = .ok m)
    ∨ (kind = costModelKind ∧ ∃ m, CostModel.fromJson g.readCost w = .ok m)

/-- Every row loads, and memory is what a start would load. -/
structure Current (g : Setup) (disk : String → Except String Json) (s : Registry) : Prop where
  table : s.table.Pairwise Distinct
  loads : ∀ r ∈ s.table, Loads g r.kind r.weights
  learned : s.learned = startLearned g disk s.table
  cost : s.cost = startCost g disk s.table

theorem Current.eq_booted {s : Registry} (h : Current g disk s) : s = booted g disk s.table := by
  rw [booted, ← h.learned, ← h.cost]

theorem current_booted {table : List RouterModel} (h : table.Pairwise Distinct)
    (hloads : ∀ r ∈ table, Loads g r.kind r.weights) : Current g disk (booted g disk table) :=
  ⟨h, hloads, rfl, rfl⟩

theorem startModel_congr {M : Type} {kind : String} {file : Option String}
    {fromJson : Json → Except String M} {table table' : List RouterModel}
    (h : table.Pairwise Distinct) (h' : table'.Pairwise Distinct)
    (hserves : ∀ w, RouterModelRepo.Serves table kind w ↔ RouterModelRepo.Serves table' kind w) :
    startModel g disk kind file fromJson table = startModel g disk kind file fromJson table' := by
  rw [startModel, startModel, startWeights, startWeights,
    RouterModelRepo.activeWeights_congr h h' hserves]

theorem startModel_of_serves {M : Type} {kind : String} {file : Option String}
    {fromJson : Json → Except String M} {table : List RouterModel} (h : table.Pairwise Distinct)
    (hdb : g.hasDatabase = true) {w : Json} (hserves : RouterModelRepo.Serves table kind w) {m : M}
    (hm : fromJson w = .ok m) : startModel g disk kind file fromJson table = some m := by
  rw [startModel, startWeights, if_pos hdb,
    (RouterModelRepo.activeWeights_eq_some_iff h kind w).mpr hserves, Option.some_or,
    Option.bind_some, hm]
  rfl

/-- What loading the classifier ends with: a property of every end it can have. -/
theorem run_reloadLearnedModel {k : Except String (Option String) → Work} {answers : Nat → Answer}
    (hfile : ∀ n, (answers n).file = disk) (s : Registry) {P : Registry → Prop}
    (hk : ∀ n r m, (m = startLearned g disk s.table ∨ (m = s.learned
        ∧ (startLearned g disk s.table = none ∨ (answers 0).dbFails = true))) →
      P ((k r).run (fun i => answers (i + n)) (s.setLearnedModel m)).2) :
    P ((reloadLearnedModel g k).run answers s).2 := by
  obtain ⟨n, r, s', hrun, hs⟩ := run_reloadModel (g := g) learnedKind k hfile s
  rw [reloadLearnedModel, hrun]
  obtain rfl | ⟨rfl, h⟩ := hs
  · exact hk n r _ (.inl rfl)
  · exact hk n r _ (.inr ⟨rfl, h⟩)

theorem run_reloadCostModel {k : Except String (Option String) → Work} {answers : Nat → Answer}
    (hfile : ∀ n, (answers n).file = disk) (s : Registry) {P : Registry → Prop}
    (hk : ∀ n r m, (m = startCost g disk s.table ∨ (m = s.cost
        ∧ (startCost g disk s.table = none ∨ (answers 0).dbFails = true))) →
      P ((k r).run (fun i => answers (i + n)) (s.setCostModel m)).2) :
    P ((reloadCostModel g k).run answers s).2 := by
  obtain ⟨n, r, s', hrun, hs⟩ := run_reloadModel (g := g) costModelKind k hfile s
  rw [reloadCostModel, hrun]
  obtain rfl | ⟨rfl, h⟩ := hs
  · exact hk n r _ (.inl rfl)
  · exact hk n r _ (.inr ⟨rfl, h⟩)

/-- The process starts with what the table and the files say. -/
theorem run_boot {answers : Nat → Answer} (hfile : ∀ n, (answers n).file = disk)
    (hdb : ∀ n, (answers n).dbFails = false) (table : List RouterModel) :
    ((boot g).run answers ⟨table, none, none⟩).2 = booted g disk table := by
  refine run_reloadLearnedModel (P := fun s => s = booted g disk table) hfile _ fun n r m hm => ?_
  refine run_reloadCostModel (P := fun s => s = booted g disk table) (fun i => hfile (i + n)) _
    fun n' r' m' hm' => ?_
  have hlearned : m = startLearned g disk table := by
    obtain h | ⟨h, hnone | hfails⟩ := hm
    · exact h
    · exact h.trans hnone.symm
    · rw [hdb] at hfails
      cases hfails
  have hcost : m' = startCost g disk table := by
    obtain h | ⟨h, hnone | hfails⟩ := hm'
    · exact h
    · exact h.trans hnone.symm
    · rw [hdb] at hfails
      cases hfails
  rw [hlearned, hcost]
  rfl

namespace Current

variable {s : Registry} {answers : Nat → Answer}

theorem setLearnedModel (h : Current g disk s) {m : Option (LearnedModel Float)} {p : Prop}
    (hm : m = startLearned g disk s.table ∨ (m = s.learned ∧ p)) : s.setLearnedModel m = s := by
  have heq : m = s.learned := hm.elim (fun heq => heq.trans h.learned.symm) And.left
  rw [heq]
  rfl

theorem setCostModel (h : Current g disk s) {m : Option (CostModel Float)} {p : Prop}
    (hm : m = startCost g disk s.table ∨ (m = s.cost ∧ p)) : s.setCostModel m = s := by
  have heq : m = s.cost := hm.elim (fun heq => heq.trans h.cost.symm) And.left
  rw [heq]
  rfl

/-- Loading both kinds again changes nothing, even when the database fails on the way. -/
theorem run_reload (h : Current g disk s) (hfile : ∀ n, (answers n).file = disk) :
    ((reloadRouterModel g).run answers s).2 = s := by
  refine run_reloadLearnedModel (P := fun t => t = s) hfile s fun n r m hm => ?_
  rw [h.setLearnedModel hm]
  match r with
  | .error e => rfl
  | .ok classifier =>
      refine run_reloadCostModel (P := fun t => t = s) (fun i => hfile (i + n)) s
        fun n' r' m' hm' => ?_
      rw [h.setCostModel hm']
      cases r' <;> rfl

/-- Nor does a start without a loss of memory. -/
theorem run_boot (h : Current g disk s) (hfile : ∀ n, (answers n).file = disk) :
    ((boot g).run answers s).2 = s := by
  refine run_reloadLearnedModel (P := fun t => t = s) hfile s fun n r m hm => ?_
  rw [h.setLearnedModel hm]
  refine run_reloadCostModel (P := fun t => t = s) (fun i => hfile (i + n)) s
    fun n' r' m' hm' => ?_
  rw [h.setCostModel hm']
  rfl

open RouterModelRepo in
/-- A new table that serves the same weights of both kinds. -/
theorem of_serves (h : Current g disk s) {table : List RouterModel}
    (htable : table.Pairwise Distinct) (hloads : ∀ r ∈ table, Loads g r.kind r.weights)
    (hserves : ∀ kind w, Serves table kind w ↔ Serves s.table kind w) :
    Current g disk { s with table } :=
  ⟨htable, hloads, h.learned.trans (startModel_congr h.table htable fun w => (hserves _ w).symm),
    h.cost.trans (startModel_congr h.table htable fun w => (hserves _ w).symm)⟩

open RouterModelRepo in
/-- A new table that differs in what it serves of one kind, with the model a start loads of it. -/
theorem of_serves_learned (h : Current g disk s) {table : List RouterModel}
    (htable : table.Pairwise Distinct) (hloads : ∀ r ∈ table, Loads g r.kind r.weights)
    (hserves : ∀ w, Serves table costModelKind w ↔ Serves s.table costModelKind w) :
    Current g disk ⟨table, startLearned g disk table, s.cost⟩ :=
  ⟨htable, hloads, rfl, h.cost.trans (startModel_congr h.table htable fun w => (hserves w).symm)⟩

open RouterModelRepo in
theorem of_serves_cost (h : Current g disk s) {table : List RouterModel}
    (htable : table.Pairwise Distinct) (hloads : ∀ r ∈ table, Loads g r.kind r.weights)
    (hserves : ∀ w, Serves table learnedKind w ↔ Serves s.table learnedKind w) :
    Current g disk ⟨table, s.learned, startCost g disk table⟩ :=
  ⟨htable, hloads, h.learned.trans (startModel_congr h.table htable fun w => (hserves w).symm), rfl⟩

open RouterModelRepo in
/-- A row of a table that serves the other kind as before, activated, and its model in memory. -/
theorem activated_learned (h : Current g disk s) (hdb : g.hasDatabase = true)
    {table : List RouterModel} (htable : table.Pairwise Distinct)
    (hloads : ∀ r ∈ table, Loads g r.kind r.weights)
    (hserves : ∀ w, Serves table costModelKind w ↔ Serves s.table costModelKind w)
    {r : RouterModel} (hr : r ∈ table) (hkind : r.kind = learnedKind) {m : LearnedModel Float}
    (hm : LearnedModel.fromJson g.readLearned r.weights = .ok m) :
    startLearned g disk (activate table r.id).1 = some m
      ∧ Current g disk ⟨(activate table r.id).1, some m, s.cost⟩ := by
  have hserves' := activate_serves htable hr
  have hdistinct := activate_distinct r.id htable
  have hstart : startLearned g disk (activate table r.id).1 = some m :=
    startModel_of_serves hdistinct hdb ((hserves' _ _).mpr (.inl ⟨hkind.symm, rfl⟩)) hm
  have hcurrent := h.of_serves_learned hdistinct (activate_forall r.id hloads) fun w => by
    rw [hserves', hkind, ← hserves]
    exact ⟨fun hs => hs.elim (fun hs => absurd hs.1 (by decide)) And.right,
      fun hs => .inr ⟨by decide, hs⟩⟩
  rw [hstart] at hcurrent
  exact ⟨hstart, hcurrent⟩

open RouterModelRepo in
theorem activated_cost (h : Current g disk s) (hdb : g.hasDatabase = true)
    {table : List RouterModel} (htable : table.Pairwise Distinct)
    (hloads : ∀ r ∈ table, Loads g r.kind r.weights)
    (hserves : ∀ w, Serves table learnedKind w ↔ Serves s.table learnedKind w)
    {r : RouterModel} (hr : r ∈ table) (hkind : r.kind = costModelKind) {m : CostModel Float}
    (hm : CostModel.fromJson g.readCost r.weights = .ok m) :
    startCost g disk (activate table r.id).1 = some m
      ∧ Current g disk ⟨(activate table r.id).1, s.learned, some m⟩ := by
  have hserves' := activate_serves htable hr
  have hdistinct := activate_distinct r.id htable
  have hstart : startCost g disk (activate table r.id).1 = some m :=
    startModel_of_serves hdistinct hdb ((hserves' _ _).mpr (.inl ⟨hkind.symm, rfl⟩)) hm
  have hcurrent := h.of_serves_cost hdistinct (activate_forall r.id hloads) fun w => by
    rw [hserves', hkind, ← hserves]
    exact ⟨fun hs => hs.elim (fun hs => absurd hs.1 (by decide)) And.right,
      fun hs => .inr ⟨by decide, hs⟩⟩
  rw [hstart] at hcurrent
  exact ⟨hstart, hcurrent⟩

end Current

/-! ## One request -/

/-- A statement that was not lost either failed or did what it says. -/
theorem statement_cases {α : Type} (f : Answer → List RouterModel → Option (List RouterModel × α))
    {o : Answer} (happlied : o.applied = false) (s : Registry) :
    ((f o s.table = none ∨ o.dbFails = true) ∧ statement f o s = (.error o.message, s)) ∨
      ∃ table a, f o s.table = some (table, a) ∧ o.dbFails = false
        ∧ statement f o s = (.ok a, { s with table }) := by
  rw [statement]
  cases hf : f o s.table with
  | none => exact .inl ⟨.inl rfl, rfl⟩
  | some r =>
      cases hdb : o.dbFails with
      | true => exact .inl ⟨.inr rfl, by rw [happlied]; rfl⟩
      | false => exact .inr ⟨r.1, r.2, rfl, rfl, rfl⟩

/-- What a request needs so that memory stays what a start would load. -/
def Quiet (g : Setup) (disk : String → Except String Json) (s : Registry) (answers : Nat → Answer) :
    Request → Prop
  -- a version comes back as the kind it is stored as, and activated if it is the active one
  | .upload weights now => ∀ model, parseUpload g weights = .ok model →
      (∀ r ∈ s.table, RouterModelRepo.isVersion (model.newRow weights) r = true →
          r.kind = (model.newRow weights).kind)
        ∧ ((∃ r ∈ s.table, RouterModelRepo.isVersion (model.newRow weights) r = true
            ∧ r.isActive = true) → now = true ∧ (answers 1).dbFails = false)
  -- what was activated can be read back
  | .activate _ => (answers 1).dbFails = false
  -- no file would bring back what was deactivated
  | .deactivate kind =>
      (kind = none ∨ kind = some learnedKind → startLearned g disk [] = none)
        ∧ (kind = none ∨ kind = some costModelKind → startCost g disk [] = none)
  | .reload => True
  | .boot => True

namespace Current

variable {s : Registry} {answers : Nat → Answer}

theorem run_activate (h : Current g disk s) (hfile : ∀ n, (answers n).file = disk)
    (happlied : ∀ n, (answers n).applied = false) (id : Uuid)
    (hread : (answers 1).dbFails = false) :
    Current g disk ((activateRouterModel g id).run answers s).2 := by
  rw [activateRouterModel]
  by_cases hdb : g.hasDatabase = true
  swap
  · rw [if_pos (by simpa using hdb)]
    exact h
  rw [if_neg (by simpa using hdb), Task.run_act]
  obtain ⟨-, hstatement⟩ | ⟨table, a, hactivate, -, hstatement⟩ :=
    statement_cases (fun _ table => some (RouterModelRepo.activate table id)) (happlied 0) s
  · rw [hstatement]
    exact h
  rw [hstatement]
  cases hfind : s.table.find? fun r => r.id == id with
  | none =>
      simp only [RouterModelRepo.activate, hfind, Option.some.injEq, Prod.mk.injEq] at hactivate
      obtain ⟨rfl, rfl⟩ := hactivate
      exact h
  | some r =>
      have hr := List.mem_of_find?_eq_some hfind
      obtain rfl : r.id = id := by simpa using List.find?_some hfind
      have heq := Option.some.inj hactivate
      obtain rfl : (RouterModelRepo.activate s.table r.id).1 = table := congrArg Prod.fst heq
      obtain rfl : some r.kind = a :=
        (congrArg Prod.snd (RouterModelRepo.activate_of_mem h.table hr)).symm.trans
          (congrArg Prod.snd heq)
      obtain ⟨hkind, m, hm⟩ | ⟨hkind, m, hm⟩ := h.loads r hr
      · obtain ⟨hstart, hcurrent⟩ :=
          h.activated_learned hdb h.table h.loads (fun _ => Iff.rfl) hr hkind hm
        rw [hkind]
        refine run_reloadLearnedModel (P := Current g disk) (fun i => hfile (i + 1)) _
          fun n r' m' hm' => ?_
        obtain rfl | ⟨-, hnone | hfails⟩ := hm'
        · rw [hstart]
          cases r' <;> exact hcurrent
        · rw [hstart] at hnone
          cases hnone
        · rw [hread] at hfails
          cases hfails
      · obtain ⟨hstart, hcurrent⟩ :=
          h.activated_cost hdb h.table h.loads (fun _ => Iff.rfl) hr hkind hm
        rw [hkind]
        refine run_reloadCostModel (P := Current g disk) (fun i => hfile (i + 1)) _
          fun n r' m' hm' => ?_
        obtain rfl | ⟨-, hnone | hfails⟩ := hm'
        · rw [hstart]
          cases r' <;> exact hcurrent
        · rw [hstart] at hnone
          cases hnone
        · rw [hread] at hfails
          cases hfails

theorem run_upload (h : Current g disk s) (happlied : ∀ n, (answers n).applied = false)
    {weights : Json} {now : Bool} (hquiet : Quiet g disk s answers (.upload weights now)) :
    Current g disk ((uploadRouterModel g weights now).run answers s).2 := by
  rw [uploadRouterModel]
  by_cases hdb : g.hasDatabase = true
  swap
  · rw [if_pos (by simpa using hdb)]
    exact h
  rw [if_neg (by simpa using hdb)]
  cases hmodel : parseUpload g weights with
  | error e => exact h
  | ok model =>
  obtain ⟨hsame, hactive⟩ := hquiet model hmodel
  dsimp only
  rw [Task.run_act]
  obtain ⟨-, hstatement⟩ | ⟨table, summary, hupsert, -, hstatement⟩ := statement_cases
    (fun o table => RouterModelRepo.upsert o.freshId table (model.newRow weights)) (happlied 0) s
  · rw [hstatement]
    exact h
  rw [hstatement]
  have hdistinct := RouterModelRepo.upsert_distinct h.table hupsert
  have hnew : Loads g (model.newRow weights).kind (model.newRow weights).weights := by
    obtain ⟨m, rfl, hm⟩ | ⟨m, rfl, hm⟩ := parseUpload_ok hmodel
    · exact .inl ⟨rfl, m, hm⟩
    · exact .inr ⟨rfl, m, hm⟩
  have hloads := RouterModelRepo.upsert_forall hupsert h.loads hnew fun r hr hversion =>
    hsame r hr hversion ▸ hnew
  -- without an activation the active rows are those before
  have hunchanged : ¬ (now = true ∧ (answers 1).dbFails = false) →
      Current g disk { s with table } := by
    intro hno
    refine h.of_serves hdistinct hloads fun kind w =>
      RouterModelRepo.upsert_serves_same hupsert (fun r hr hr' _ => ?_) w
    by_contra hversion
    exact hno (hactive ⟨r, hr, by simpa using hversion, hr'⟩)
  cases now with
  | false => exact hunchanged fun hno => by cases hno.1
  | true =>
  dsimp only
  rw [if_pos rfl, Task.run_act]
  obtain ⟨hfails, hstatement⟩ | ⟨table', _, hactivate, -, hstatement⟩ := statement_cases
    (fun _ table => some (RouterModelRepo.activate table summary.id)) (happlied 1) { s with table }
  · rw [hstatement]
    refine hunchanged fun hyes => ?_
    obtain hnone | hfails := hfails
    · cases hnone
    · rw [hyes.2] at hfails
      cases hfails
  rw [hstatement]
  obtain rfl : (RouterModelRepo.activate table summary.id).1 = table' :=
    congrArg Prod.fst (Option.some.inj hactivate)
  obtain ⟨row, hrow, hid, hweights, hrowkind⟩ := RouterModelRepo.upsert_row hupsert
  have hkind : row.kind = (model.newRow weights).kind := by
    obtain hkind | ⟨old, hold, hversion, hkind⟩ := hrowkind
    · exact hkind
    · exact hkind.symm.trans (hsame old hold hversion)
  -- rows of the other kind are not of this version
  have hother : ∀ kind, kind ≠ (model.newRow weights).kind → ∀ w,
      RouterModelRepo.Serves table kind w ↔ RouterModelRepo.Serves s.table kind w := by
    refine fun kind hne => RouterModelRepo.upsert_serves_same hupsert fun r hr _ hk => ?_
    by_contra hversion
    exact hne (hk.symm.trans (hsame r hr (by simpa using hversion)))
  rw [← hid]
  obtain ⟨m, rfl, hm⟩ | ⟨m, rfl, hm⟩ := parseUpload_ok hmodel
  · exact (h.activated_learned hdb hdistinct hloads (hother costModelKind kinds_ne.symm) hrow
      hkind (by rw [hweights]; exact hm)).2
  · exact (h.activated_cost hdb hdistinct hloads (hother learnedKind kinds_ne) hrow hkind
      (by rw [hweights]; exact hm)).2

/-- Clearing a model in memory, and going on. -/
theorem run_unload (kind : Option String) (own : String) (clear : Registry → Registry) (rest : Work)
    (answers : Nat → Answer) (s : Registry) :
    ∃ n, (unload kind own clear rest).run answers s = rest.run (fun i => answers (i + n))
      (if kind.isNone || kind == some own then clear s else s) := by
  rw [unload]
  split
  · exact ⟨1, rfl⟩
  · exact ⟨0, rfl⟩

open RouterModelRepo in
/-- What a start loads of a kind after a deactivation. -/
theorem startModel_deactivate {M : Type} {own : String} {file : Option String}
    {fromJson : Json → Except String M} {table : List RouterModel} (h : table.Pairwise Distinct)
    {kind : Option String}
    (hfile : kind = none ∨ kind = some own → startModel g disk own file fromJson [] = none) :
    startModel g disk own file fromJson (deactivate table kind)
      = if kind.isNone || kind == some own then none
        else startModel g disk own file fromJson table := by
  have hdistinct := deactivate_distinct kind h
  by_cases hkind : kind = none ∨ kind = some own
  · rw [if_pos (by simpa using hkind), ← hfile hkind]
    refine startModel_congr hdistinct List.Pairwise.nil fun w => ?_
    refine (deactivate_serves table kind own w).trans ⟨fun hs => absurd hkind hs.2, ?_⟩
    rintro ⟨r, hr, -⟩
    cases hr
  · rw [if_neg (by simpa using hkind)]
    exact startModel_congr hdistinct h fun w =>
      (deactivate_serves table kind own w).trans (and_iff_left hkind)

theorem run_deactivate (h : Current g disk s) (happlied : ∀ n, (answers n).applied = false)
    {kind : Option String} (hquiet : Quiet g disk s answers (.deactivate kind)) :
    Current g disk ((deactivateRouterModels g kind).run answers s).2 := by
  have hunload : ∀ (answers : Nat → Answer) (t : Registry), ((unload kind learnedKind
      (fun s => s.setLearnedModel none) (unload kind costModelKind (fun s => s.setCostModel none)
        reportLoaded)).run answers t).2
      = ⟨t.table, if kind.isNone || kind == some learnedKind then none else t.learned,
          if kind.isNone || kind == some costModelKind then none else t.cost⟩ := by
    intro answers t
    obtain ⟨n, hn⟩ := run_unload kind learnedKind (fun s => s.setLearnedModel none)
      (unload kind costModelKind (fun s => s.setCostModel none) reportLoaded) answers t
    obtain ⟨n', hn'⟩ := run_unload kind costModelKind (fun s => s.setCostModel none) reportLoaded
      (fun i => answers (i + n))
      (if kind.isNone || kind == some learnedKind then t.setLearnedModel none else t)
    rw [hn, hn']
    split <;> split <;> rfl
  have hlearned := startModel_deactivate h.table hquiet.1
  have hcost := startModel_deactivate h.table hquiet.2
  rw [deactivateRouterModels]
  split
  · rw [Task.run_act]
    obtain ⟨-, hstatement⟩ | ⟨table, _, hdeactivate, -, hstatement⟩ := statement_cases
      (fun _ table => some (RouterModelRepo.deactivate table kind, ())) (happlied 0) s
    · rw [hstatement]
      exact h
    rw [hstatement]
    obtain rfl : RouterModelRepo.deactivate s.table kind = table :=
      congrArg Prod.fst (Option.some.inj hdeactivate)
    dsimp only
    rw [hunload]
    exact ⟨RouterModelRepo.deactivate_distinct kind h.table,
      RouterModelRepo.deactivate_forall kind h.loads, by rw [h.learned]; exact hlearned.symm,
      by rw [h.cost]; exact hcost.symm⟩
  · -- without a database the table does not matter to a start
    next hdb =>
    rw [hunload]
    refine ⟨h.table, h.loads, ?_, ?_⟩
    · rw [h.learned]
      refine hlearned.symm.trans ?_
      rw [startLearned, startModel, startModel, startWeights, startWeights, if_neg hdb, if_neg hdb]
    · rw [h.cost]
      refine hcost.symm.trans ?_
      rw [startCost, startModel, startModel, startWeights, startWeights, if_neg hdb, if_neg hdb]

/-- One request, alone. -/
theorem run_request (h : Current g disk s) (hfile : ∀ n, (answers n).file = disk)
    (happlied : ∀ n, (answers n).applied = false) {r : Request}
    (hquiet : Quiet g disk s answers r) : Current g disk ((r.task g).run answers s).2 := by
  cases r with
  | upload weights now => exact h.run_upload happlied hquiet
  | activate id => exact h.run_activate hfile happlied id hquiet
  | reload =>
      rw [Request.task, h.run_reload hfile]
      exact h
  | deactivate kind => exact h.run_deactivate happlied hquiet
  | boot =>
      rw [Request.task, h.run_boot hfile]
      exact h

end Current

/-! ## Every run -/

/-- A request and the answers it meets. -/
structure Call where
  request : Request
  answers : Nat → Answer

def Call.run (g : Setup) (s : Registry) (c : Call) : Registry := ((c.request.task g).run c.answers s).2

/-- Calls one after the other that each find the files unchanged, lose no statement and are quiet. -/
def QuietRun (g : Setup) (disk : String → Except String Json) (s : Registry) : List Call → Prop
  | [] => True
  | c :: cs => (∀ n, (c.answers n).file = disk ∧ (c.answers n).applied = false)
      ∧ Quiet g disk s c.answers c.request ∧ QuietRun g disk (c.run g s) cs

theorem Current.run_calls {s : Registry} (h : Current g disk s) {cs : List Call}
    (hcs : QuietRun g disk s cs) : Current g disk (cs.foldl (Call.run g) s) := by
  induction cs generalizing s with
  | nil => exact h
  | cons c cs ih =>
      obtain ⟨hanswers, hquiet, hrest⟩ := hcs
      exact ih (h.run_request (fun n => (hanswers n).1) (fun n => (hanswers n).2) hquiet) hrest

end Starts

namespace Sample

/-- The stored form of the sample model, under a version. -/
def weights (version : String) : Json :=
  let row (f : Nat → String) : Json := .array ((List.range 24).map fun j => .number (f j))
  .object
    [("name", .string "test"), ("version", .string version),
      ("feature_names", .array (featureNames.map .string)), ("mean", row fun _ => "0.0"),
      ("scale", row fun _ => "1.0"), ("classes", .array (Tier.all.map fun t => .string t.asStr)),
      ("coef", .array
        [row fun j => if j = 0 then "-0.5" else if j = 17 then "3.0" else "0.0", row fun _ => "0.0",
          row fun j => if j = 11 then "3.0" else "0.0",
          row fun j => if j = 13 then "4.0" else if j = 15 then "1.0" else "0.0"]),
      ("intercept", .array [.number "0.5", .number "0.5", .number "0.0", .number "-1.0"])]

/-- A gateway with a database and no weights files, whose uploads are such forms. -/
def setup : Setup where
  hasDatabase := true
  learnedWeightsFile := none
  costWeightsFile := none
  readLearned json :=
    match (json.get "version").bind Json.asStr with
    | some version => .ok { (model : LearnedModel Float) with version }
    | none => .error "missing field"
  readCost _ := .error "missing field"

def noFile (_ : String) : Except String Json := .error "No such file or directory (os error 2)"

def answers (freshId : Uuid) (_ : Nat) : Answer := ⟨false, false, "", freshId, noFile⟩

/-- A model is uploaded and activated, activated again and loaded again; then the cost models are
deactivated. -/
def calls : List Call :=
  [⟨.upload (weights "t1") true, answers 7⟩, ⟨.activate 7, answers 8⟩, ⟨.reload, answers 9⟩,
    ⟨.deactivate (some costModelKind), answers 10⟩]

end Sample

example : ((Sample.calls.foldl (Call.run Sample.setup)
    (booted Sample.setup Sample.noFile [])).learned.map fun m => m.version) = some "t1" := by
  decide +kernel

end AuraGateway.Router.Learned
