import Mathlib

/-!
# Partition of rows by shared keys

Every row has some keys. Two rows belong together when a chain of rows links them in which
neighbours share a key. The groups are computed with a union-find forest over the
positions of the rows: parents never lie above their children, a search halves its path,
and of two roots the smaller one stays. A map keeps the first position of every key.

A search leaves the roots alone (`Forest.find_spec`), and linking two roots joins their
trees and no others (`Forest.root_link`). After the pass over the rows two positions have
one root exactly when they are linked (`root_eq_iff`), and the groups read off the roots
satisfy `Partition`. The roots are the least positions of their trees, so that the groups are
those of the connected components of the positions, in their order (`partition_components`).
-/

set_option autoImplicit false

namespace AuraGateway.Foundations.KeyedPartition

universe u v

/-! ## Forests -/

/-- A forest over the naturals. No parent lies above its child; a root is its own parent. -/
structure Forest where
  parent : Nat → Nat
  parent_le : ∀ i, parent i ≤ i

namespace Forest

/-- Every number is a root. -/
def discrete : Forest := ⟨id, fun _ => le_rfl⟩

/-- Points `i` at its grandparent. -/
def halve (f : Forest) (i : Nat) : Forest where
  parent := Function.update f.parent i (f.parent (f.parent i))
  parent_le j := by
    rcases eq_or_ne j i with rfl | hji
    · rw [Function.update_self]
      exact (f.parent_le _).trans (f.parent_le j)
    · rw [Function.update_of_ne hji]
      exact f.parent_le j

/-- Points `hi` at `lo`, which is not above it. -/
def link (f : Forest) (lo hi : Nat) (hle : lo ≤ hi) : Forest where
  parent := Function.update f.parent hi lo
  parent_le j := by
    rcases eq_or_ne j hi with rfl | hji
    · rw [Function.update_self]
      exact hle
    · rw [Function.update_of_ne hji]
      exact f.parent_le j

/-- The search for the root of `i`, halving the path it walks. Each step goes strictly
down, so that `i` steps are enough. -/
def findFrom : Nat → Forest → Nat → Nat × Forest
  | 0, f, i => (i, f)
  | fuel + 1, f, i =>
      if f.parent i = i then (i, f)
      else findFrom fuel (f.halve i) ((f.halve i).parent i)

def find (f : Forest) (i : Nat) : Nat × Forest := findFrom i f i

/-- The root above `i`. -/
def root (f : Forest) (i : Nat) : Nat := f.parent^[i] i

/-- Walking up from `i` for at least `i` steps ends at a root. -/
theorem parent_iterate (f : Forest) (i n : Nat) (hn : i ≤ n) :
    f.parent (f.parent^[n] i) = f.parent^[n] i := by
  induction n generalizing i with
  | zero =>
      have hi : i = 0 := by omega
      subst hi
      exact Nat.le_zero.mp (f.parent_le 0)
  | succ n ih =>
      rw [Function.iterate_succ_apply]
      rcases (f.parent_le i).lt_or_eq with hlt | heq
      · exact ih _ (by omega)
      · rw [heq, Function.iterate_fixed heq]
        exact heq

@[simp] theorem parent_root (f : Forest) (i : Nat) : f.parent (f.root i) = f.root i :=
  f.parent_iterate i i le_rfl

theorem root_of_parent_eq {f : Forest} {i : Nat} (hi : f.parent i = i) : f.root i = i :=
  Function.iterate_fixed hi i

@[simp] theorem root_root (f : Forest) (i : Nat) : f.root (f.root i) = f.root i :=
  root_of_parent_eq (f.parent_root i)

/-- Only `root` is constant along parents and fixes the roots. -/
theorem root_unique {f : Forest} {r : Nat → Nat} (hparent : ∀ i, r (f.parent i) = r i)
    (hroot : ∀ i, f.parent i = i → r i = i) (i : Nat) : f.root i = r i := by
  have hwalk : ∀ n, r (f.parent^[n] i) = r i := by
    intro n
    induction n with
    | zero => rfl
    | succ n ih => rw [Function.iterate_succ_apply', hparent, ih]
  calc f.root i = r (f.root i) := (hroot _ (f.parent_root i)).symm
    _ = r i := hwalk i

/-- Steps beyond the root change nothing. -/
theorem parent_iterate_eq_root (f : Forest) {i n : Nat} (hn : i ≤ n) :
    f.parent^[n] i = f.root i := by
  induction n, hn using Nat.le_induction with
  | base => rfl
  | succ n _ ih => rw [Function.iterate_succ_apply', ih, parent_root]

@[simp] theorem root_parent (f : Forest) (i : Nat) : f.root (f.parent i) = f.root i := by
  rw [← f.parent_iterate_eq_root (f.parent_le i), ← f.parent_iterate_eq_root (Nat.le_succ i),
    Function.iterate_succ_apply]

@[simp] theorem root_discrete (i : Nat) : discrete.root i = i := root_of_parent_eq rfl

/-- Halving a path keeps every root. -/
@[simp] theorem root_halve (f : Forest) (i j : Nat) : (f.halve i).root j = f.root j := by
  refine root_unique (fun j => ?_) (fun j hj => ?_) j
  · rcases eq_or_ne j i with rfl | hji
    · simp [halve]
    · simp [halve, Function.update_of_ne hji]
  · rcases eq_or_ne j i with rfl | hji
    · -- a number that is its own grandparent is its own parent
      have hgrand : f.parent (f.parent j) = j := by simpa [halve] using hj
      have hup := f.parent_le j
      have hdown := f.parent_le (f.parent j)
      exact root_of_parent_eq (by omega)
    · exact root_of_parent_eq (by simpa [halve, Function.update_of_ne hji] using hj)

theorem findFrom_spec (fuel : Nat) (f : Forest) (i : Nat) (hfuel : i ≤ fuel) :
    (findFrom fuel f i).1 = f.root i ∧ ∀ j, (findFrom fuel f i).2.root j = f.root j := by
  induction fuel generalizing f i with
  | zero =>
      have hi : i = 0 := by omega
      subst hi
      exact ⟨rfl, fun j => rfl⟩
  | succ fuel ih =>
      rw [findFrom]
      by_cases hi : f.parent i = i
      · rw [if_pos hi]
        exact ⟨(root_of_parent_eq hi).symm, fun j => rfl⟩
      · rw [if_neg hi]
        have hgrand : (f.halve i).parent i = f.parent (f.parent i) := by simp [halve]
        have hup := f.parent_le i
        have hdown := f.parent_le (f.parent i)
        obtain ⟨hroot, hkeep⟩ := ih (f.halve i) ((f.halve i).parent i) (by omega)
        refine ⟨?_, fun j => ?_⟩
        · rw [hroot, root_parent, root_halve]
        · rw [hkeep, root_halve]

/-- A search ends at the root and keeps every root. -/
theorem find_spec (f : Forest) (i : Nat) :
    (f.find i).1 = f.root i ∧ ∀ j, (f.find i).2.root j = f.root j :=
  findFrom_spec i f i le_rfl

/-- A search has ended after `i` steps: more of them change nothing. -/
theorem findFrom_of_le {fuel : Nat} (f : Forest) (i : Nat) (hfuel : i ≤ fuel) :
    findFrom fuel f i = f.find i := by
  have hsteps : ∀ fuel fuel' : Nat, ∀ (f : Forest) (i : Nat), i ≤ fuel → i ≤ fuel' →
      findFrom fuel f i = findFrom fuel' f i := by
    intro fuel
    induction fuel with
    | zero =>
        intro fuel' f i hi _
        have hi : i = 0 := by omega
        subst hi
        cases fuel' with
        | zero => rfl
        | succ fuel' =>
            rw [findFrom, findFrom, if_pos (Nat.le_zero.mp (f.parent_le 0))]
    | succ fuel ih =>
        intro fuel' f i hi hi'
        cases fuel' with
        | zero =>
            have hi : i = 0 := by omega
            subst hi
            rw [findFrom, findFrom, if_pos (Nat.le_zero.mp (f.parent_le 0))]
        | succ fuel' =>
            rw [findFrom, findFrom]
            by_cases hroot : f.parent i = i
            · rw [if_pos hroot, if_pos hroot]
            · rw [if_neg hroot, if_neg hroot]
              have hgrand : (f.halve i).parent i = f.parent (f.parent i) := by simp [halve]
              have hup := f.parent_le i
              have hdown := f.parent_le (f.parent i)
              exact ih fuel' (f.halve i) _ (by omega) (by omega)
  exact hsteps fuel i f i hfuel le_rfl

/-- Where a search ends its loop stops: at a root of the forest it leaves. -/
theorem parent_find (f : Forest) (i : Nat) : (f.find i).2.parent (f.find i).1 = (f.find i).1 := by
  obtain ⟨hroot, hkeep⟩ := f.find_spec i
  have hsame : (f.find i).2.root (f.find i).1 = (f.find i).1 := by
    rw [hkeep, hroot, root_root]
  calc (f.find i).2.parent (f.find i).1
      = (f.find i).2.parent ((f.find i).2.root (f.find i).1) := by rw [hsame]
    _ = (f.find i).1 := by rw [parent_root, hsame]

/-- No root lies above its number. -/
theorem root_le (f : Forest) (i : Nat) : f.root i ≤ i := by
  have hwalk : ∀ n, f.parent^[n] i ≤ i := by
    intro n
    induction n with
    | zero => exact le_rfl
    | succ n ih =>
        rw [Function.iterate_succ_apply']
        exact (f.parent_le _).trans ih
  exact hwalk i

/-- Linking two roots moves the tree of the upper one under the lower one. -/
theorem root_link (f : Forest) {lo hi : Nat} (hlt : lo < hi) (hlo : f.parent lo = lo)
    (hhi : f.parent hi = hi) (j : Nat) :
    (f.link lo hi hlt.le).root j = if f.root j = hi then lo else f.root j := by
  have hrlo : f.root lo = lo := root_of_parent_eq hlo
  have hrhi : f.root hi = hi := root_of_parent_eq hhi
  refine root_unique (r := fun j => if f.root j = hi then lo else f.root j)
    (fun j => ?_) (fun j hj => ?_) j
  · rcases eq_or_ne j hi with rfl | hjh
    · simp [link, hrlo, hrhi]
    · simp [link, Function.update_of_ne hjh]
  · rcases eq_or_ne j hi with rfl | hjh
    · have : lo = j := by simpa [link] using hj
      omega
    · have hroot : f.root j = j :=
        root_of_parent_eq (by simpa [link, Function.update_of_ne hjh] using hj)
      simp [hroot, hjh]

end Forest

/-! ## The pass over the keys -/

variable {α : Type u} {κ : Type v}

/-- Positions linked by chains of occurrences in which neighbours have a key in common. -/
def Linked (occ : List (Nat × κ)) : Nat → Nat → Prop :=
  Relation.EqvGen fun i j => ∃ k, (i, k) ∈ occ ∧ (j, k) ∈ occ

theorem Linked.mono {occ occ' : List (Nat × κ)} (hsub : occ ⊆ occ') {i j : Nat}
    (h : Linked occ i j) : Linked occ' i j := by
  refine Relation.EqvGen.mono ?_ _ _ h
  rintro i j ⟨k, hi, hj⟩
  exact ⟨k, hsub hi, hsub hj⟩

section Keys

variable [DecidableEq κ]

/-- The forest, and the first position of every key met. -/
structure Index (κ : Type v) where
  forest : Forest
  byKey : List (κ × Nat)

/-- One key of the row at position `i`: joins the row with the first one that has it. -/
def Index.visit (i : Nat) (st : Index κ) (k : κ) : Index κ :=
  match st.byKey.lookup k with
  | none => { st with byKey := (k, i) :: st.byKey }
  | some j =>
      let (a, f) := st.forest.find i
      let (b, f) := f.find j
      { st with forest := if a ≠ b then f.link (min a b) (max a b) min_le_max else f }

/-- What the index knows once the occurrences `occ` have been visited. -/
structure Index.Knows (occ : List (Nat × κ)) (st : Index κ) : Prop where
  known : ∀ {k j}, st.byKey.lookup k = some j → (j, k) ∈ occ
  found : ∀ {i k}, (i, k) ∈ occ →
    ∃ j, st.byKey.lookup k = some j ∧ st.forest.root j = st.forest.root i
  sound : ∀ {i j}, st.forest.root i = st.forest.root j → Linked occ i j

theorem Index.Knows.root_eq_iff {occ : List (Nat × κ)} {st : Index κ} (h : st.Knows occ)
    (i j : Nat) : st.forest.root i = st.forest.root j ↔ Linked occ i j := by
  refine ⟨h.sound, fun hlink => ?_⟩
  induction hlink with
  | rel i j hk =>
      obtain ⟨k, hi, hj⟩ := hk
      obtain ⟨a, ha, hai⟩ := h.found hi
      obtain ⟨b, hb, hbj⟩ := h.found hj
      have hab : a = b := Option.some.inj (ha.symm.trans hb)
      rw [← hai, ← hbj, hab]
  | refl => rfl
  | symm _ _ _ ih => exact ih.symm
  | trans _ _ _ _ _ ih₁ ih₂ => exact ih₁.trans ih₂

/-- The roots after the forest joined the trees of `i` and `j`. -/
theorem Index.root_visit {i j : Nat} {st : Index κ} {k : κ} (hk : st.byKey.lookup k = some j)
    (x : Nat) : (st.visit i k).forest.root x =
      if st.forest.root x = max (st.forest.root i) (st.forest.root j)
      then min (st.forest.root i) (st.forest.root j) else st.forest.root x := by
  obtain ⟨hi, hkeep⟩ := st.forest.find_spec i
  obtain ⟨hj, hkeep'⟩ := (st.forest.find i).2.find_spec j
  have hroots : ∀ y, ((st.forest.find i).2.find j).2.root y = st.forest.root y :=
    fun y => (hkeep' y).trans (hkeep y)
  have hj : ((st.forest.find i).2.find j).1 = st.forest.root j := hj.trans (hkeep j)
  simp only [Index.visit, hk, hi, hj]
  by_cases hab : st.forest.root i = st.forest.root j
  · simp only [hab, ne_eq, not_true_eq_false, if_false, max_self, min_self, hroots]
    by_cases hx : st.forest.root x = st.forest.root j
    · rw [if_pos hx, hx]
    · rw [if_neg hx]
  · have hisRoot : ∀ y, ((st.forest.find i).2.find j).2.parent (st.forest.root y)
        = st.forest.root y := by
      intro y
      rw [← hroots y]
      exact Forest.parent_root _ y
    have hlt : min (st.forest.root i) (st.forest.root j)
        < max (st.forest.root i) (st.forest.root j) := by omega
    rw [if_pos hab, Forest.root_link _ hlt, hroots]
    · rcases min_choice (st.forest.root i) (st.forest.root j) with h | h <;> rw [h]
      · exact hisRoot i
      · exact hisRoot j
    · rcases max_choice (st.forest.root i) (st.forest.root j) with h | h <;> rw [h]
      · exact hisRoot i
      · exact hisRoot j

/-- Visiting one more occurrence. -/
theorem Index.Knows.visit {occ : List (Nat × κ)} {st : Index κ} (h : st.Knows occ) (i : Nat)
    (k : κ) : (st.visit i k).Knows (occ ++ [(i, k)]) := by
  have hold : occ ⊆ occ ++ [(i, k)] := List.subset_append_left occ _
  have hnew : (i, k) ∈ occ ++ [(i, k)] := List.mem_append_right occ (List.mem_singleton_self _)
  cases hk : st.byKey.lookup k with
  | none =>
      have hvisit : st.visit i k = { st with byKey := (k, i) :: st.byKey } := by
        simp only [Index.visit, hk]
      rw [hvisit]
      refine ⟨fun {k' j} hj => ?_, fun {i' k'} hi => ?_, fun hij => (h.sound hij).mono hold⟩
      · rw [List.lookup_cons] at hj
        by_cases hkk : k' = k
        · subst hkk
          simp only [beq_self_eq_true, Option.some.injEq] at hj
          exact hj ▸ hnew
        · simp only [beq_false_of_ne hkk] at hj
          exact hold (h.known hj)
      · by_cases hkk : k' = k
        · subst hkk
          refine ⟨i, by simp, ?_⟩
          -- the key was not met before, so this is the occurrence just visited
          rcases List.mem_append.mp hi with hi | hi
          · obtain ⟨j, hj, -⟩ := h.found hi
            rw [hk] at hj
            exact absurd hj (by simp)
          · obtain ⟨rfl, -⟩ := Prod.mk.injEq _ _ _ _ ▸ List.mem_singleton.mp hi
            rfl
        · have hi : (i', k') ∈ occ := by simpa [hkk] using hi
          obtain ⟨j, hj, hroot⟩ := h.found hi
          exact ⟨j, by rw [List.lookup_cons, beq_false_of_ne hkk]; exact hj, hroot⟩
  | some j =>
      have hbyKey : (st.visit i k).byKey = st.byKey := by
        simp only [Index.visit, hk]
      have hjoin : Linked (occ ++ [(i, k)]) i j := .rel _ _ ⟨k, hnew, hold (h.known hk)⟩
      refine ⟨fun hj => ?_, fun {i' k'} hi => ?_, fun {x y} hxy => ?_⟩
      · rw [hbyKey] at hj
        exact hold (h.known hj)
      · rw [hbyKey]
        rcases List.mem_append.mp hi with hi | hi
        · obtain ⟨j', hj', hroot⟩ := h.found hi
          exact ⟨j', hj', by rw [root_visit hk, root_visit hk, hroot]⟩
        · simp only [List.mem_singleton, Prod.mk.injEq] at hi
          obtain ⟨rfl, rfl⟩ := hi
          refine ⟨j, hk, ?_⟩
          rw [root_visit hk, root_visit hk]
          split <;> split <;> omega
      · rw [root_visit hk, root_visit hk] at hxy
        -- equal roots before, or one root of `i` and one of `j`
        have hcases : st.forest.root x = st.forest.root y
            ∨ st.forest.root x = st.forest.root i ∧ st.forest.root y = st.forest.root j
            ∨ st.forest.root x = st.forest.root j ∧ st.forest.root y = st.forest.root i := by
          split at hxy <;> split at hxy <;> omega
        rcases hcases with h₁ | ⟨hx, hy⟩ | ⟨hx, hy⟩
        · exact (h.sound h₁).mono hold
        · exact .trans _ _ _ ((h.sound hx).mono hold)
            (.trans _ _ _ hjoin (.symm _ _ ((h.sound hy).mono hold)))
        · exact .trans _ _ _ ((h.sound hx).mono hold)
            (.trans _ _ _ (.symm _ _ hjoin) (.symm _ _ ((h.sound hy).mono hold)))

/-- The occurrences of keys among rows at given positions. -/
def occurrences (keysOf : α → List κ) (rows : List (α × Nat)) : List (Nat × κ) :=
  rows.flatMap fun r => (keysOf r.1).map fun k => (r.2, k)

/-- The pass over all rows. -/
def joinAll (keysOf : α → List κ) (rows : List (α × Nat)) : Index κ :=
  rows.foldl (fun st r => (keysOf r.1).foldl (Index.visit r.2) st) ⟨.discrete, []⟩

theorem Index.Knows.visitRow {occ : List (Nat × κ)} {st : Index κ} (h : st.Knows occ) (i : Nat)
    (ks : List κ) : (ks.foldl (Index.visit i) st).Knows (occ ++ ks.map fun k => (i, k)) := by
  induction ks generalizing occ st with
  | nil => simpa using h
  | cons k ks ih => simpa using ih (h.visit i k)

theorem knows_joinAll (keysOf : α → List κ) (rows : List (α × Nat)) :
    (joinAll keysOf rows).Knows (occurrences keysOf rows) := by
  induction rows using List.reverseRecOn with
  | nil =>
      refine ⟨fun h => by simp [joinAll] at h, fun h => by simp [occurrences] at h,
        fun {i j} hij => ?_⟩
      have hij : i = j := by simpa [joinAll] using hij
      exact hij ▸ .refl i
  | append_singleton rows r ih =>
      rw [joinAll, List.foldl_append, occurrences, List.flatMap_append]
      simpa [joinAll, occurrences] using ih.visitRow r.2 (keysOf r.1)

/-- Two positions have one root exactly when they are linked. -/
theorem root_eq_iff (keysOf : α → List κ) (rows : List (α × Nat)) (i j : Nat) :
    (joinAll keysOf rows).forest.root i = (joinAll keysOf rows).forest.root j ↔
      Linked (occurrences keysOf rows) i j :=
  (knows_joinAll keysOf rows).root_eq_iff i j

end Keys

/-! ## Gathering the groups -/

/-- Adds a row to the group of its class, or a new group after the others. -/
def pushTo (c : Nat) (r : α) : List (Nat × List α) → List (Nat × List α)
  | [] => [(c, [r])]
  | (c', g) :: gs => if c' = c then (c', g ++ [r]) :: gs else (c', g) :: pushTo c r gs

/-- The groups of rows with given classes, in the order of their first rows. -/
def gather (rows : List (Nat × α)) : List (Nat × List α) :=
  rows.foldl (fun gs r => pushTo r.1 r.2 gs) []

/-- The rows of one class. -/
def ofClass (rows : List (Nat × α)) (c : Nat) : List α :=
  (rows.filter fun r => r.1 = c).map Prod.snd

/-- The classes of the rows, in the order in which they first appear. -/
def classes (rows : List (Nat × α)) : List Nat :=
  rows.foldl (fun cs r => if r.1 ∈ cs then cs else cs ++ [r.1]) []

theorem classes_append (rows : List (Nat × α)) (r : Nat × α) : classes (rows ++ [r]) =
    if r.1 ∈ classes rows then classes rows else classes rows ++ [r.1] := by
  rw [classes, List.foldl_append]
  rfl

theorem mem_classes {rows : List (Nat × α)} {c : Nat} :
    c ∈ classes rows ↔ ∃ r ∈ rows, r.1 = c := by
  induction rows using List.reverseRecOn with
  | nil => simp [classes]
  | append_singleton rows r ih =>
      have hlast : c ∈ classes (rows ++ [r]) ↔ c ∈ classes rows ∨ c = r.1 := by
        rw [classes_append]
        split
        · next h => exact ⟨.inl, fun hc => hc.elim id fun hc => hc ▸ h⟩
        · simp
      rw [hlast, ih]
      simp [or_and_right, exists_or, eq_comm]

theorem nodup_classes (rows : List (Nat × α)) : (classes rows).Nodup := by
  induction rows using List.reverseRecOn with
  | nil => simp [classes]
  | append_singleton rows r ih =>
      rw [classes_append]
      split
      · exact ih
      · next h => exact List.nodup_append.mpr ⟨ih, List.nodup_singleton _, by
          rintro c hc d hd rfl
          exact h (List.mem_singleton.mp hd ▸ hc)⟩

theorem ofClass_append (rows : List (Nat × α)) (r : Nat × α) (c : Nat) :
    ofClass (rows ++ [r]) c =
      if c = r.1 then ofClass rows r.1 ++ [r.2] else ofClass rows c := by
  by_cases hc : c = r.1
  · simp [ofClass, hc]
  · simp [ofClass, hc, Ne.symm hc]

/-- A push changes the group of its class and no other. -/
theorem pushTo_map {cs : List Nat} {groupOf : Nat → List α} {c : Nat} (r : α)
    (hnodup : cs.Nodup) (hnew : c ∉ cs → groupOf c = []) :
    pushTo c r (cs.map fun d => (d, groupOf d)) =
      (if c ∈ cs then cs else cs ++ [c]).map
        fun d => (d, if d = c then groupOf c ++ [r] else groupOf d) := by
  induction cs with
  | nil => simp [pushTo, hnew]
  | cons d cs ih =>
      rw [List.nodup_cons] at hnodup
      rw [List.map_cons, pushTo]
      by_cases hd : d = c
      · subst hd
        have htail : ∀ e ∈ cs, (e, groupOf e) =
            (e, if e = d then groupOf d ++ [r] else groupOf e) := by
          intro e he
          have hed : e ≠ d := fun h => hnodup.1 (h ▸ he)
          rw [if_neg hed]
        simp [List.map_congr_left htail]
      · rw [if_neg hd, ih hnodup.2 fun hc => hnew fun h => by
          rcases List.mem_cons.mp h with h | h
          · exact hd h.symm
          · exact hc h]
        by_cases hc : c ∈ cs
        · simp [hc, hd]
        · simp [hc, hd, Ne.symm hd]

/-- The groups are the classes in the order of their first rows, each with its rows. -/
theorem gather_eq (rows : List (Nat × α)) :
    gather rows = (classes rows).map fun c => (c, ofClass rows c) := by
  induction rows using List.reverseRecOn with
  | nil => rfl
  | append_singleton rows r ih =>
      have hnew : r.1 ∉ classes rows → ofClass rows r.1 = [] := by
        intro h
        have hnone : ∀ x ∈ rows, x.1 ≠ r.1 := fun x hx hxr => h (mem_classes.mpr ⟨x, hx, hxr⟩)
        simpa [ofClass] using hnone
      calc gather (rows ++ [r]) = pushTo r.1 r.2 (gather rows) := by simp [gather]
        _ = _ := by
          rw [ih, pushTo_map r.2 (nodup_classes rows) hnew, ← classes_append]
          exact List.map_congr_left fun c _ => by rw [ofClass_append]

theorem flatten_pushTo (c : Nat) (r : α) (gs : List (Nat × List α)) :
    ((pushTo c r gs).map Prod.snd).flatten.Perm (r :: (gs.map Prod.snd).flatten) := by
  induction gs with
  | nil => simp [pushTo]
  | cons p gs ih =>
      rw [pushTo]
      split
      · simp only [List.map_cons, List.flatten_cons, List.append_assoc, List.singleton_append]
        exact List.perm_middle
      · simp only [List.map_cons, List.flatten_cons]
        exact (ih.append_left _).trans List.perm_middle

/-- No row is lost, and none is duplicated. -/
theorem flatten_gather (rows : List (Nat × α)) :
    ((gather rows).map Prod.snd).flatten.Perm (rows.map Prod.snd) := by
  induction rows using List.reverseRecOn with
  | nil => exact .refl _
  | append_singleton rows r ih =>
      have hpush : gather (rows ++ [r]) = pushTo r.1 r.2 (gather rows) := by simp [gather]
      rw [hpush, List.map_append]
      exact (flatten_pushTo _ _ _).trans
        ((ih.cons r.2).trans (List.perm_append_singleton _ _).symm)

/-- The rows with their roots; the searches go on changing the forest. -/
def collect (f : Forest) (rows : List (α × Nat)) : Forest × List (Nat × List α) :=
  rows.foldl (fun st r => ((st.1.find r.2).2, pushTo (st.1.find r.2).1 r.1 st.2)) (f, [])

theorem collect_snd (f : Forest) (rows : List (α × Nat)) :
    (collect f rows).2 = gather (rows.map fun r => (f.root r.2, r.1)) := by
  have hboth : (∀ j, (collect f rows).1.root j = f.root j) ∧
      (collect f rows).2 = gather (rows.map fun r => (f.root r.2, r.1)) := by
    induction rows using List.reverseRecOn with
    | nil => exact ⟨fun j => rfl, rfl⟩
    | append_singleton rows r ih =>
        obtain ⟨hkeep, hgroups⟩ := ih
        obtain ⟨hroot, hkeep'⟩ := (collect f rows).1.find_spec r.2
        rw [collect, List.foldl_append]
        refine ⟨fun j => (hkeep' j).trans (hkeep j), ?_⟩
        rw [List.map_append, List.map_singleton, gather, List.foldl_append]
        change pushTo ((collect f rows).1.find r.2).1 r.1 (collect f rows).2 = _
        rw [hroot, hkeep, hgroups]
        rfl
  exact hboth.2

/-! ## The partition -/

section Linking

variable {keysOf : α → List κ} {rows : List α}

theorem mem_occurrences {i : Nat} {k : κ} : (i, k) ∈ occurrences keysOf rows.zipIdx ↔
    ∃ a, rows[i]? = some a ∧ k ∈ keysOf a := by
  simp [occurrences, List.mem_zipIdx_iff_getElem?]

/-- Rows linked by chains of rows in which neighbours share a key. -/
def Chained (keysOf : α → List κ) (rows : List α) : α → α → Prop :=
  Relation.EqvGen fun a b => a ∈ rows ∧ b ∈ rows ∧ ∃ k ∈ keysOf a, k ∈ keysOf b

/-- A chain of positions is a chain of the rows at them. -/
theorem Linked.chained {i j : Nat} (h : Linked (occurrences keysOf rows.zipIdx) i j) :
    i = j ∨ ∃ a b, rows[i]? = some a ∧ rows[j]? = some b ∧ Chained keysOf rows a b := by
  induction h with
  | rel i j hk =>
      obtain ⟨k, hi, hj⟩ := hk
      obtain ⟨a, ha, hka⟩ := mem_occurrences.mp hi
      obtain ⟨b, hb, hkb⟩ := mem_occurrences.mp hj
      exact .inr ⟨a, b, ha, hb,
        .rel _ _ ⟨List.mem_of_getElem? ha, List.mem_of_getElem? hb, k, hka, hkb⟩⟩
  | refl => exact .inl rfl
  | symm _ _ _ ih =>
      rcases ih with rfl | ⟨a, b, ha, hb, hab⟩
      · exact .inl rfl
      · exact .inr ⟨b, a, hb, ha, .symm _ _ hab⟩
  | trans _ _ _ _ _ ih₁ ih₂ =>
      rcases ih₁ with rfl | ⟨a, b, ha, hb, hab⟩
      · exact ih₂
      · rcases ih₂ with rfl | ⟨b', c, hb', hc, hbc⟩
        · exact .inr ⟨a, b, ha, hb, hab⟩
        · obtain rfl : b = b' := Option.some.inj (hb.symm.trans hb')
          exact .inr ⟨a, c, ha, hc, .trans _ _ _ hab hbc⟩

end Linking

/-- Two rows share no key. -/
def Apart (keysOf : α → List κ) (a b : α) : Prop := (keysOf a).Disjoint (keysOf b)

instance (keysOf : α → List κ) : Std.Symm (Apart keysOf) :=
  ⟨fun _ _ h _ hb ha => h ha hb⟩

theorem pairwise_apart (keysOf : α → List κ) (rows : List α) :
    rows.Pairwise (Apart keysOf) ↔ (rows.map keysOf).Pairwise List.Disjoint := by
  rw [List.pairwise_map]
  rfl

/-- Rows of two groups share no key. -/
def GroupsApart (keysOf : α → List κ) (g h : List α) : Prop :=
  ∀ a ∈ g, ∀ b ∈ h, Apart keysOf a b

instance (keysOf : α → List κ) : Std.Symm (GroupsApart keysOf) :=
  ⟨fun _ _ h b hb a ha => symm (h a ha b hb)⟩

/-- Groups of rows by shared keys: no row is lost, a group keeps the order of the rows,
rows of two groups share no key, and the rows of a group are linked. -/
structure Partition (keysOf : α → List κ) (rows : List α) (groups : List (List α)) : Prop where
  perm : groups.flatten.Perm rows
  sublist : ∀ g ∈ groups, g.Sublist rows
  nonempty : ∀ g ∈ groups, g ≠ []
  apart : groups.Pairwise (GroupsApart keysOf)
  linked : ∀ g ∈ groups, ∀ a ∈ g, ∀ b ∈ g, Chained keysOf rows a b

section Spec

variable {keysOf : α → List κ} {rows : List α} {groups : List (List α)}

theorem Partition.mem (h : Partition keysOf rows groups) {a : α} :
    a ∈ rows ↔ ∃ g ∈ groups, a ∈ g := by
  rw [← h.perm.mem_iff, List.mem_flatten]

/-- A key leads to one group. -/
theorem Partition.eq_of_shared (h : Partition keysOf rows groups) {g g' : List α} {a b : α}
    {k : κ} (hg : g ∈ groups) (hg' : g' ∈ groups) (ha : a ∈ g) (hb : b ∈ g')
    (hka : k ∈ keysOf a) (hkb : k ∈ keysOf b) : g = g' := by
  by_contra hne
  exact h.apart.forall hg hg' hne a ha b hb hka hkb

/-- Rows that share no keys are alone in their groups. -/
theorem Partition.singleton (h : Partition keysOf rows groups) (hkeys : ∀ a ∈ rows, keysOf a ≠ [])
    (hapart : rows.Pairwise (Apart keysOf)) {g : List α} (hg : g ∈ groups) : ∃ a, g = [a] := by
  have hshare : ∀ a b, Chained keysOf rows a b → a = b := by
    intro a b hab
    induction hab with
    | rel a b hk =>
        obtain ⟨ha, hb, k, hka, hkb⟩ := hk
        by_contra hne
        exact hapart.forall ha hb hne hka hkb
    | refl => rfl
    | symm _ _ _ ih => exact ih.symm
    | trans _ _ _ _ _ ih₁ ih₂ => exact ih₁.trans ih₂
  match g, hg with
  | [], hg => exact absurd rfl (h.nonempty _ hg)
  | [a], _ => exact ⟨a, rfl⟩
  | a :: b :: g, hg =>
      -- two rows of one group are equal, and would share a key
      have hab : a = b := hshare a b (h.linked _ hg a (by simp) b (by simp))
      have hself : Apart keysOf a b :=
        (List.pairwise_cons.mp (hapart.sublist (h.sublist _ hg))).1 b (by simp)
      obtain ⟨k, hk⟩ := List.exists_mem_of_ne_nil _
        (hkeys a ((h.sublist _ hg).subset (by simp)))
      exact (hself hk (hab ▸ hk)).elim

end Spec

section Groups

variable [DecidableEq κ] {keysOf : α → List κ} {rows : List α}

/-- The groups of the rows. -/
def partition (keysOf : α → List κ) (rows : List α) : List (List α) :=
  (collect (joinAll keysOf rows.zipIdx).forest rows.zipIdx).2.map Prod.snd

/-- The class of a position: its root after the pass over the rows. -/
def classOf (keysOf : α → List κ) (rows : List α) (i : Nat) : Nat :=
  (joinAll keysOf rows.zipIdx).forest.root i

/-- The rows with their classes. -/
def classed (keysOf : α → List κ) (rows : List α) : List (Nat × α) :=
  rows.zipIdx.map fun r => (classOf keysOf rows r.2, r.1)

theorem map_snd_classed : (classed keysOf rows).map Prod.snd = rows := by
  rw [classed, List.map_map]
  exact List.zipIdx_map_fst 0 rows

theorem partition_eq : partition keysOf rows =
    (classes (classed keysOf rows)).map (ofClass (classed keysOf rows)) := by
  rw [partition, collect_snd, gather_eq, List.map_map]
  rfl

theorem mem_classed {c : Nat} {a : α} : (c, a) ∈ classed keysOf rows ↔
    ∃ i, rows[i]? = some a ∧ classOf keysOf rows i = c := by
  simp [classed, List.mem_zipIdx_iff_getElem?, and_comm]

theorem mem_ofClass {c : Nat} {a : α} : a ∈ ofClass (classed keysOf rows) c ↔
    ∃ i, rows[i]? = some a ∧ classOf keysOf rows i = c := by
  rw [← mem_classed]
  simp [ofClass]

theorem classOf_eq_iff {i j : Nat} : classOf keysOf rows i = classOf keysOf rows j ↔
    Linked (occurrences keysOf rows.zipIdx) i j :=
  root_eq_iff keysOf rows.zipIdx i j

theorem partition_spec (keysOf : α → List κ) (rows : List α) :
    Partition keysOf rows (partition keysOf rows) where
  perm := by
    rw [partition, collect_snd]
    refine (flatten_gather _).trans (List.Perm.of_eq ?_)
    exact map_snd_classed
  sublist := by
    rw [partition_eq]
    intro g hg
    obtain ⟨c, -, rfl⟩ := List.mem_map.mp hg
    have hsub : (ofClass (classed keysOf rows) c).Sublist ((classed keysOf rows).map Prod.snd) :=
      List.filter_sublist.map Prod.snd
    rwa [map_snd_classed] at hsub
  nonempty := by
    rw [partition_eq]
    intro g hg
    obtain ⟨c, hc, rfl⟩ := List.mem_map.mp hg
    obtain ⟨⟨c, a⟩, ha, rfl⟩ := mem_classes.mp hc
    exact List.ne_nil_of_mem (mem_ofClass.mpr (mem_classed.mp ha))
  apart := by
    rw [partition_eq, List.pairwise_map]
    refine (nodup_classes _).imp fun {c d} hcd a ha b hb k hka hkb => hcd ?_
    obtain ⟨i, hi, rfl⟩ := mem_ofClass.mp ha
    obtain ⟨j, hj, rfl⟩ := mem_ofClass.mp hb
    exact classOf_eq_iff.mpr (.rel _ _
      ⟨k, mem_occurrences.mpr ⟨a, hi, hka⟩, mem_occurrences.mpr ⟨b, hj, hkb⟩⟩)
  linked := by
    rw [partition_eq]
    intro g hg a ha b hb
    obtain ⟨c, -, rfl⟩ := List.mem_map.mp hg
    obtain ⟨i, hi, hic⟩ := mem_ofClass.mp ha
    obtain ⟨j, hj, hjc⟩ := mem_ofClass.mp hb
    rcases (classOf_eq_iff.mp (hic.trans hjc.symm)).chained with rfl | ⟨a', b', ha', hb', hab⟩
    · obtain rfl : a = b := Option.some.inj (hi.symm.trans hj)
      exact .refl a
    · obtain rfl : a = a' := Option.some.inj (hi.symm.trans ha')
      obtain rfl : b = b' := Option.some.inj (hj.symm.trans hb')
      exact hab

end Groups

/-! ## Groups of positions -/

/-- The components of a relation on the positions below `n`: every position is in one group, a
group keeps the order of the positions, the groups come in the order of their first members,
and two positions are in one group exactly when they are related. -/
structure Components (related : Nat → Nat → Prop) (n : Nat) (groups : List (List Nat)) : Prop where
  perm : groups.flatten.Perm (List.range n)
  nonempty : ∀ g ∈ groups, g ≠ []
  increasing : ∀ g ∈ groups, g.Pairwise (· < ·)
  ordered : groups.Pairwise fun g h => ∀ i ∈ g.head?, ∀ j ∈ h.head?, i < j
  together : ∀ i < n, ∀ j < n, (∃ g ∈ groups, i ∈ g ∧ j ∈ g) ↔ related i j

/-- The rows at two positions have a key in common. -/
def SharesKey (keysOf : α → List κ) (rows : List α) (i j : Nat) : Prop :=
  ∃ a b, rows[i]? = some a ∧ rows[j]? = some b ∧ ∃ k ∈ keysOf a, k ∈ keysOf b

instance (keysOf : α → List κ) (rows : List α) : Std.Symm (SharesKey keysOf rows) :=
  ⟨fun _ _ ⟨a, b, ha, hb, k, hka, hkb⟩ => ⟨b, a, hb, ha, k, hkb, hka⟩⟩

/-- Positions are linked by chains in which neighbours share a key. -/
theorem linked_iff_chain {keysOf : α → List κ} {rows : List α} {i j : Nat} :
    Linked (occurrences keysOf rows.zipIdx) i j
      ↔ Relation.ReflTransGen (SharesKey keysOf rows) i j := by
  have hshare : ∀ i j, (∃ k, (i, k) ∈ occurrences keysOf rows.zipIdx
      ∧ (j, k) ∈ occurrences keysOf rows.zipIdx) ↔ SharesKey keysOf rows i j := by
    intro i j
    simp only [mem_occurrences]
    constructor
    · rintro ⟨k, ⟨a, ha, hka⟩, b, hb, hkb⟩
      exact ⟨a, b, ha, hb, k, hka, hkb⟩
    · rintro ⟨a, b, ha, hb, k, hka, hkb⟩
      exact ⟨k, ⟨a, ha, hka⟩, b, hb, hkb⟩
  constructor
  · intro h
    induction h with
    | rel i j hk => exact .single ((hshare i j).mp hk)
    | refl => exact .refl
    | symm _ _ _ ih => exact Relation.ReflTransGen.stdSymm.symm _ _ ih
    | trans _ _ _ _ _ ih₁ ih₂ => exact ih₁.trans ih₂
  · intro h
    induction h with
    | refl => exact .refl i
    | tail _ hk ih => exact .trans _ _ _ ih (.rel _ _ ((hshare _ _).mpr hk))

section Positions

variable {r : Nat → Nat}

/-- The positions of each class, when the classes are named by their least positions. -/
def positionGroups (r : Nat → Nat) (n : Nat) : List (List Nat) :=
  ((List.range n).filter fun i => r i = i).map fun c => (List.range n).filter fun i => r i = c

theorem mem_positionGroups (hle : ∀ i, r i ≤ i) (hidem : ∀ i, r (r i) = r i) {n : Nat}
    {g : List Nat} : g ∈ positionGroups r n
      ↔ ∃ i < n, g = (List.range n).filter fun j => r j = r i := by
  simp only [positionGroups, List.mem_map, List.mem_filter, List.mem_range, decide_eq_true_eq]
  constructor
  · rintro ⟨c, ⟨hc, hroot⟩, rfl⟩
    exact ⟨c, hc, by rw [hroot]⟩
  · rintro ⟨i, hi, rfl⟩
    exact ⟨r i, ⟨(hle i).trans_lt hi, hidem i⟩, rfl⟩

/-- A group begins with the name of its class. -/
theorem head?_positionGroup (hle : ∀ i, r i ≤ i) {n c : Nat} (hc : c < n) (hroot : r c = c) :
    ((List.range n).filter fun i => r i = c).head? = some c := by
  have hbelow : (List.range c).filter (fun i => r i = c) = [] := by
    rw [List.filter_eq_nil_iff]
    intro i hi heq
    have := hle i
    have := List.mem_range.mp hi
    have := of_decide_eq_true heq
    omega
  have hsplit : List.range n = List.range (c + 1) ++ (List.range (n - (c + 1))).map (c + 1 + ·) := by
    rw [← List.range_add]
    congr 1
    omega
  rw [hsplit, List.filter_append, List.range_succ, List.filter_append, hbelow]
  simp [hroot]

theorem components_positionGroups (hle : ∀ i, r i ≤ i) (hidem : ∀ i, r (r i) = r i) (n : Nat) :
    Components (fun i j => r i = r j) n (positionGroups r n) where
  perm := by
    have hmem : ∀ i, i ∈ (positionGroups r n).flatten ↔ i ∈ List.range n := by
      intro i
      rw [List.mem_flatten]
      constructor
      · rintro ⟨g, hg, hi⟩
        obtain ⟨j, -, rfl⟩ := (mem_positionGroups hle hidem).mp hg
        exact List.mem_of_mem_filter hi
      · intro hi
        refine ⟨_, (mem_positionGroups hle hidem).mpr ⟨i, List.mem_range.mp hi, rfl⟩, ?_⟩
        exact List.mem_filter.mpr ⟨hi, decide_eq_true rfl⟩
    refine (List.perm_ext_iff_of_nodup ?_ List.nodup_range).mpr hmem
    rw [List.nodup_flatten]
    constructor
    · intro g hg
      obtain ⟨j, -, rfl⟩ := (mem_positionGroups hle hidem).mp hg
      exact List.nodup_range.filter _
    · rw [positionGroups, List.pairwise_map]
      refine (List.nodup_range.filter _).imp ?_
      intro c d hcd i hi hi'
      have hc := of_decide_eq_true (List.mem_filter.mp hi).2
      have hd := of_decide_eq_true (List.mem_filter.mp hi').2
      exact hcd (hc.symm.trans hd)
  nonempty := by
    intro g hg
    obtain ⟨i, hi, rfl⟩ := (mem_positionGroups hle hidem).mp hg
    exact List.ne_nil_of_mem (List.mem_filter.mpr ⟨List.mem_range.mpr hi, decide_eq_true rfl⟩)
  increasing := by
    intro g hg
    obtain ⟨j, -, rfl⟩ := (mem_positionGroups hle hidem).mp hg
    exact List.pairwise_lt_range.filter _
  ordered := by
    rw [positionGroups, List.pairwise_map]
    have hroots : ∀ c ∈ (List.range n).filter (fun i => r i = i), c < n ∧ r c = c := by
      intro c hc
      obtain ⟨hlt, heq⟩ := List.mem_filter.mp hc
      exact ⟨List.mem_range.mp hlt, of_decide_eq_true heq⟩
    refine (List.pairwise_lt_range.filter _).imp_of_mem ?_
    intro c d hc hd hlt i hi j hj
    rw [head?_positionGroup hle (hroots c hc).1 (hroots c hc).2] at hi
    rw [head?_positionGroup hle (hroots d hd).1 (hroots d hd).2] at hj
    obtain rfl := Option.some.inj hi
    obtain rfl := Option.some.inj hj
    exact hlt
  together := by
    intro i hi j hj
    constructor
    · rintro ⟨g, hg, hig, hjg⟩
      obtain ⟨c, -, rfl⟩ := (mem_positionGroups hle hidem).mp hg
      have hic := of_decide_eq_true (List.mem_filter.mp hig).2
      have hjc := of_decide_eq_true (List.mem_filter.mp hjg).2
      exact hic.trans hjc.symm
    · intro heq
      refine ⟨_, (mem_positionGroups hle hidem).mpr ⟨j, hj, rfl⟩, ?_, ?_⟩
      · exact List.mem_filter.mpr ⟨List.mem_range.mpr hi, decide_eq_true heq⟩
      · exact List.mem_filter.mpr ⟨List.mem_range.mpr hj, decide_eq_true rfl⟩

/-- The classes come in the order of their names. -/
theorem classes_zipIdx (hle : ∀ i, r i ≤ i) (hidem : ∀ i, r (r i) = r i) (rows : List α) :
    classes (rows.zipIdx.map fun p => (r p.2, p.1))
      = (List.range rows.length).filter fun i => r i = i := by
  induction rows using List.reverseRecOn with
  | nil => rfl
  | append_singleton rows a ih =>
      rw [List.zipIdx_append, List.map_append, List.zipIdx_singleton, List.map_singleton,
        classes_append, ih, List.length_append, List.length_singleton, List.range_succ,
        List.filter_append, Nat.zero_add]
      have hmem : r rows.length ∈ (List.range rows.length).filter (fun i => r i = i)
          ↔ r rows.length ≠ rows.length := by
        simp only [List.mem_filter, List.mem_range, decide_eq_true_eq, hidem, and_true]
        have := hle rows.length
        omega
      by_cases hroot : r rows.length = rows.length
      · rw [if_neg (fun h => hmem.mp h hroot)]
        simp [hroot]
      · rw [if_pos (hmem.mpr hroot)]
        simp [hroot]

/-- The rows of a class are those at its positions. -/
theorem ofClass_zipIdx (r : Nat → Nat) (c : Nat) (rows : List α) :
    ofClass (rows.zipIdx.map fun p => (r p.2, p.1)) c
      = ((List.range rows.length).filter fun i => r i = c).filterMap (rows[·]?) := by
  induction rows using List.reverseRecOn with
  | nil => rfl
  | append_singleton rows a ih =>
      have hold : ((List.range rows.length).filter fun i => r i = c).filterMap
          ((rows ++ [a])[·]?)
            = ((List.range rows.length).filter fun i => r i = c).filterMap (rows[·]?) := by
        refine List.filterMap_congr ?_
        intro i hi
        have hlt := List.mem_range.mp (List.mem_of_mem_filter hi)
        exact List.getElem?_append_left hlt
      rw [List.zipIdx_append, List.map_append, List.zipIdx_singleton, List.map_singleton,
        ofClass_append, List.length_append, List.length_singleton, List.range_succ,
        List.filter_append, List.filterMap_append, hold, ← ih, Nat.zero_add]
      by_cases hc : c = r rows.length
      · rw [if_pos hc]
        simp [hc]
      · rw [if_neg hc]
        simp [Ne.symm hc]

end Positions

section Groups

variable [DecidableEq κ] (keysOf : α → List κ) (rows : List α)

theorem partition_eq_positions : partition keysOf rows
    = (positionGroups (classOf keysOf rows) rows.length).map fun g => g.filterMap (rows[·]?) := by
  have hle : ∀ i, classOf keysOf rows i ≤ i := fun i => Forest.root_le _ i
  have hidem : ∀ i, classOf keysOf rows (classOf keysOf rows i) = classOf keysOf rows i :=
    fun i => Forest.root_root _ i
  rw [partition_eq, classed, classes_zipIdx hle hidem, positionGroups, List.map_map]
  refine List.map_congr_left ?_
  intro c _
  exact ofClass_zipIdx _ c rows

/-- The groups are the rows of the connected components of the positions. -/
theorem partition_components : ∃ groups,
    Components (Relation.ReflTransGen (SharesKey keysOf rows)) rows.length groups
      ∧ partition keysOf rows = groups.map fun g => g.filterMap (rows[·]?) := by
  refine ⟨_, ?_, partition_eq_positions keysOf rows⟩
  have h := components_positionGroups (r := classOf keysOf rows) (fun i => Forest.root_le _ i)
    (fun i => Forest.root_root _ i) rows.length
  refine { h with together := ?_ }
  intro i hi j hj
  rw [h.together i hi j hj, classOf_eq_iff, linked_iff_chain]

end Groups

end AuraGateway.Foundations.KeyedPartition
