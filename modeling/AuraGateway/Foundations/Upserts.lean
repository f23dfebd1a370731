import Mathlib

/-!
# Upserts

Rows of a table may have a key, which no two of them share. A row that is written is merged into
the row that has its key, and appended where there is none (`upsert`). After a series of writes the
row of a key is what the writes under that key make of the row before (`rowOf_upsertAll`), the
others do not matter, and rows without a key are appended as they come (`unkeyed_upsertAll`).

Where merging keeps one part of a row and sets the rest, the first write of a key and the last one
decide (`rowOf_upsertAll_nil`), and writing the same rows again changes nothing
(`upsertAll_again`).
-/

set_option autoImplicit false

namespace AuraGateway.Foundations.Upserts

universe u v

variable {ρ : Type u} {κ : Type v} [DecidableEq κ] (key : ρ → Option κ) (merge : ρ → ρ → ρ)

/-- The written row has a key, and this row has it. -/
def Conflict (new r : ρ) : Prop := key r = key new ∧ key new ≠ none

instance (new r : ρ) : Decidable (Conflict key new r) := by
  unfold Conflict
  infer_instance

/-- Write a row, and tell whether it is a new one. -/
def upsert (new : ρ) : List ρ → List ρ × Bool
  | [] => ([new], true)
  | r :: rest =>
    if Conflict key new r then (merge r new :: rest, false)
    else (r :: (upsert new rest).1, (upsert new rest).2)

/-- Write rows one after the other. -/
def upsertAll (table news : List ρ) : List ρ :=
  news.foldl (fun table new => (upsert key merge new table).1) table

/-- The row of a key. -/
def rowOf (k : κ) (table : List ρ) : Option ρ := table.find? fun r => key r = some k

/-- No two rows share a key. -/
def Keyed (table : List ρ) : Prop := (table.filterMap key).Nodup

variable {key merge}

theorem upsert_cons_of_conflict {new r : ρ} (h : Conflict key new r) (rest : List ρ) :
    upsert key merge new (r :: rest) = (merge r new :: rest, false) := if_pos h

theorem upsert_cons_of_not {new r : ρ} (h : ¬ Conflict key new r) (rest : List ρ) :
    upsert key merge new (r :: rest)
      = (r :: (upsert key merge new rest).1, (upsert key merge new rest).2) := if_neg h

/-! ## One write -/

/-- A row is new exactly when it meets no row of its key. -/
theorem upsert_snd_iff (new : ρ) (table : List ρ) :
    (upsert key merge new table).2 = true ↔ ∀ r ∈ table, ¬ Conflict key new r := by
  induction table with
  | nil => exact ⟨fun _ r hr => (by cases hr), fun _ => rfl⟩
  | cons r rest ih =>
      by_cases h : Conflict key new r
      · rw [upsert_cons_of_conflict h]
        exact ⟨fun hf => (by cases hf), fun hall => absurd h (hall r List.mem_cons_self)⟩
      · rw [upsert_cons_of_not h, List.forall_mem_cons]
        exact ih.trans (and_iff_right h).symm

/-- The table grows by the rows that are new. -/
theorem length_upsert (new : ρ) (table : List ρ) :
    (upsert key merge new table).1.length
      = table.length + if (upsert key merge new table).2 then 1 else 0 := by
  induction table with
  | nil => rfl
  | cons r rest ih =>
      by_cases h : Conflict key new r
      · rw [upsert_cons_of_conflict h]
        rfl
      · rw [upsert_cons_of_not h, List.length_cons, List.length_cons, ih]
        dsimp only
        omega

/-- Where the written key is there already, its row takes the write. -/
theorem upsert_of_mem {table : List ρ} (h : Keyed key table) {new : ρ} {k : κ}
    (hnew : key new = some k) (hk : k ∈ table.filterMap key) :
    upsert key merge new table
      = (table.map fun r => if Conflict key new r then merge r new else r, false) := by
  induction table with
  | nil => cases hk
  | cons r rest ih =>
      by_cases hc : Conflict key new r
      · -- the rest has other keys
        have hr : key r = some k := hc.1.trans hnew
        have hnot : k ∉ rest.filterMap key := by
          rw [Keyed, List.filterMap_cons, hr] at h
          exact (List.nodup_cons.mp h).1
        have hrest : rest.map (fun r => if Conflict key new r then merge r new else r) = rest := by
          refine (List.map_congr_left fun r' hr' => if_neg fun hc' => hnot ?_).trans (List.map_id rest)
          exact List.mem_filterMap.mpr ⟨r', hr', hc'.1.trans hnew⟩
        rw [upsert_cons_of_conflict hc, List.map_cons, if_pos hc, hrest]
      · have hr : key r ≠ some k := fun hr =>
          hc ⟨hr.trans hnew.symm, by rw [hnew]; exact Option.some_ne_none k⟩
        have hrest : Keyed key rest := by
          rw [Keyed, List.filterMap_cons] at h
          rw [Keyed]
          cases hr' : key r with
          | none => simpa only [hr'] using h
          | some _ =>
              simp only [hr'] at h
              exact (List.nodup_cons.mp h).2
        have hmem : k ∈ rest.filterMap key := by
          obtain ⟨r', hr', hk'⟩ := List.mem_filterMap.mp hk
          obtain rfl | hr' := List.mem_cons.mp hr'
          · exact absurd hk' hr
          · exact List.mem_filterMap.mpr ⟨r', hr', hk'⟩
        rw [upsert_cons_of_not hc, ih hrest hmem, List.map_cons, if_neg hc]

/-- What holds of the rows that are there and of the row that is written holds afterwards, if merging
keeps it. -/
theorem forall_mem_upsert {P : ρ → Prop} (hmerge : ∀ r n, P r → P n → Conflict key n r → P (merge r n))
    {new : ρ} {table : List ρ} (htable : ∀ r ∈ table, P r) (hnew : P new) :
    ∀ r ∈ (upsert key merge new table).1, P r := by
  induction table with
  | nil => exact List.forall_mem_singleton.mpr hnew
  | cons r rest ih =>
      obtain ⟨hr, hrest⟩ := List.forall_mem_cons.mp htable
      by_cases h : Conflict key new r
      · rw [upsert_cons_of_conflict h]
        exact List.forall_mem_cons.mpr ⟨hmerge r new hr hnew h, hrest⟩
      · rw [upsert_cons_of_not h]
        exact List.forall_mem_cons.mpr ⟨hr, ih hrest⟩

theorem forall_mem_upsertAll {P : ρ → Prop}
    (hmerge : ∀ r n, P r → P n → Conflict key n r → P (merge r n)) {table news : List ρ}
    (htable : ∀ r ∈ table, P r) (hnews : ∀ n ∈ news, P n) :
    ∀ r ∈ upsertAll key merge table news, P r := by
  induction news generalizing table with
  | nil => exact htable
  | cons n news ih =>
      obtain ⟨hn, hnews⟩ := List.forall_mem_cons.mp hnews
      exact ih (forall_mem_upsert hmerge htable hn) hnews

section Keys

variable (hkey : ∀ r n, key r = key n → key (merge r n) = key r)
include hkey

/-- Keys stay where they are, and a new row's key comes last. -/
theorem filterMap_upsert (new : ρ) (table : List ρ) :
    (upsert key merge new table).1.filterMap key
      = table.filterMap key
        ++ if (upsert key merge new table).2 then (key new).toList else [] := by
  induction table with
  | nil => cases h : key new <;> simp [upsert, h]
  | cons r rest ih =>
      by_cases h : Conflict key new r
      · rw [upsert_cons_of_conflict h, List.filterMap_cons, List.filterMap_cons, hkey r new h.1]
        simp
      · rw [upsert_cons_of_not h, List.filterMap_cons, List.filterMap_cons, ih]
        cases key r <;> rfl

theorem Keyed.upsert {table : List ρ} (h : Keyed key table) (new : ρ) :
    Keyed key (upsert key merge new table).1 := by
  rw [Keyed, filterMap_upsert hkey]
  by_cases hnew : (Upserts.upsert key merge new table).2 = true
  · rw [if_pos hnew]
    refine List.nodup_append.mpr ⟨h, by cases key new <;> simp, fun a ha b hb hab => ?_⟩
    obtain ⟨r, hr, hra⟩ := List.mem_filterMap.mp ha
    have hb : key new = some b := by simpa using hb
    refine (upsert_snd_iff new table).mp hnew r hr ⟨?_, ?_⟩
    · rw [hra, hb, hab]
    · rw [hb]
      exact Option.some_ne_none b
  · rw [if_neg hnew, List.append_nil]
    exact h

/-- Only the row of the written key changes. -/
theorem rowOf_upsert (new : ρ) (table : List ρ) (k : κ) :
    rowOf key k (upsert key merge new table).1 =
      if key new = some k then some (((rowOf key k table).map fun r => merge r new).getD new)
      else rowOf key k table := by
  induction table with
  | nil => by_cases h : key new = some k <;> simp [upsert, rowOf, h]
  | cons r rest ih =>
      by_cases h : Conflict key new r
      · rw [upsert_cons_of_conflict h]
        by_cases hk : key r = some k
        · have hnew : key new = some k := h.1 ▸ hk
          simp [rowOf, hkey r new h.1, hk, hnew]
        · have hnew : key new ≠ some k := h.1 ▸ hk
          simp [rowOf, hkey r new h.1, hk, hnew]
      · rw [upsert_cons_of_not h]
        by_cases hk : key r = some k
        · have hnew : key new ≠ some k := fun hnew =>
            h ⟨hk.trans hnew.symm, by rw [hnew]; exact Option.some_ne_none k⟩
          simp [rowOf, hk, hnew]
        · simpa [rowOf, hk] using ih

/-- Rows without a key are appended. -/
theorem unkeyed_upsert (new : ρ) (table : List ρ) :
    (upsert key merge new table).1.filter (fun r => key r = none)
      = table.filter (fun r => key r = none) ++ [new].filter (fun r => key r = none) := by
  induction table with
  | nil => rfl
  | cons r rest ih =>
      by_cases h : Conflict key new r
      · have hr : key r ≠ none := h.1 ▸ h.2
        rw [upsert_cons_of_conflict h]
        simp [hkey r new h.1, hr, h.2]
      · rw [upsert_cons_of_not h, List.filter_cons, List.filter_cons, ih]
        split <;> rfl

/-! ## A series of writes -/

theorem Keyed.upsertAll {table : List ρ} (h : Keyed key table) (news : List ρ) :
    Keyed key (upsertAll key merge table news) := by
  induction news generalizing table with
  | nil => exact h
  | cons n news ih => exact ih (h.upsert hkey n)

/-- The row of a key is what the writes under the key make of it. -/
theorem rowOf_upsertAll (table news : List ρ) (k : κ) :
    rowOf key k (upsertAll key merge table news)
      = (news.filter fun n => key n = some k).foldl
        (fun o n => some ((o.map fun r => merge r n).getD n)) (rowOf key k table) := by
  induction news generalizing table with
  | nil => rfl
  | cons n news ih =>
      rw [upsertAll, List.foldl_cons]
      refine (ih _).trans ?_
      rw [rowOf_upsert hkey]
      by_cases h : key n = some k <;> simp [h]

/-- Rows without a key are those that were written, in their order. -/
theorem unkeyed_upsertAll (table news : List ρ) :
    (upsertAll key merge table news).filter (fun r => key r = none)
      = table.filter (fun r => key r = none) ++ news.filter (fun r => key r = none) := by
  induction news generalizing table with
  | nil => simp [upsertAll]
  | cons n news ih =>
      rw [upsertAll, List.foldl_cons]
      refine (ih _).trans ?_
      rw [unkeyed_upsert hkey, List.append_assoc, ← List.filter_append]
      rfl

theorem mem_keys_upsert {new : ρ} {table : List ρ} {k : κ} :
    k ∈ (upsert key merge new table).1.filterMap key
      ↔ k ∈ table.filterMap key ∨ key new = some k := by
  rw [filterMap_upsert hkey, List.mem_append]
  refine or_congr_right' fun hk => ?_
  by_cases hnew : (Upserts.upsert key merge new table).2 = true
  · rw [if_pos hnew, Option.mem_toList]
  · -- the row it meets has the key
    rw [if_neg hnew]
    refine ⟨fun h => (by cases h), fun h => absurd ?_ hk⟩
    have hmeets := (not_congr (upsert_snd_iff new table)).mp hnew
    simp only [not_forall, not_not] at hmeets
    obtain ⟨r, hr, hc⟩ := hmeets
    exact List.mem_filterMap.mpr ⟨r, hr, hc.1.trans h⟩

/-- The keys of the table are those it had and those that were written. -/
theorem mem_keys_upsertAll {table news : List ρ} {k : κ} :
    k ∈ (upsertAll key merge table news).filterMap key
      ↔ k ∈ table.filterMap key ∨ k ∈ news.filterMap key := by
  induction news generalizing table with
  | nil => exact (or_iff_left (fun h => (by cases h))).symm
  | cons n news ih =>
      have hnews : k ∈ (n :: news).filterMap key ↔ key n = some k ∨ k ∈ news.filterMap key := by
        rw [List.mem_filterMap, List.exists_mem_cons_iff, List.mem_filterMap]
      rw [hnews, ← or_assoc, ← mem_keys_upsert hkey]
      exact ih

/-- What the writes make of a row that is there. -/
def settle (key : ρ → Option κ) (merge : ρ → ρ → ρ) (news : List ρ) (r : ρ) : ρ :=
  news.foldl (fun r n => if Conflict key n r then merge r n else r) r

theorem upsertAll_of_mem {table : List ρ} (h : Keyed key table) {news : List ρ}
    (hnews : ∀ n ∈ news, ∃ k, key n = some k ∧ k ∈ table.filterMap key) :
    upsertAll key merge table news = table.map (settle key merge news) := by
  induction news generalizing table with
  | nil => exact (List.map_id table).symm
  | cons n news ih =>
      obtain ⟨k, hn, hk⟩ := hnews n List.mem_cons_self
      have hupsert : upsert key merge n table = _ := upsert_of_mem h hn hk
      have hkeys : (upsert key merge n table).1.filterMap key = table.filterMap key := by
        rw [filterMap_upsert hkey, hupsert]
        simp
      rw [upsertAll, List.foldl_cons]
      refine (ih (h.upsert hkey n) fun n' hn' => ?_).trans ?_
      · rw [hkeys]
        exact hnews n' (List.mem_cons_of_mem n hn')
      · rw [hupsert, List.map_map]
        rfl

end Keys

theorem rowOf_of_mem {table : List ρ} (h : Keyed key table) {r : ρ} (hr : r ∈ table) {k : κ}
    (hk : key r = some k) : rowOf key k table = some r := by
  induction table with
  | nil => cases hr
  | cons r' rest ih =>
      rw [Keyed, List.filterMap_cons] at h
      obtain rfl | hr := List.mem_cons.mp hr
      · simp [rowOf, hk]
      · cases hk' : key r' with
        | none =>
            simp only [hk'] at h
            simpa [rowOf, hk'] using ih h hr
        | some k' =>
            simp only [hk'] at h
            obtain ⟨hnot, hrest⟩ := List.nodup_cons.mp h
            have hne : k' ≠ k := by
              rintro rfl
              exact hnot (List.mem_filterMap.mpr ⟨r, hr, hk⟩)
            simpa [rowOf, hk', hne] using ih hrest hr

theorem settle_of_none {r : ρ} (hk : key r = none) (news : List ρ) :
    settle key merge news r = r := by
  induction news with
  | nil => rfl
  | cons n news ih =>
      have hc : ¬ Conflict key n r := fun hc => hc.2 (hc.1.symm.trans hk)
      rw [settle, List.foldl_cons, if_neg hc]
      exact ih

/-- Writes that set the same parts make the same of a row. -/
theorem foldl_merge_congr {news news' : List ρ}
    (hsame : List.Forall₂ (fun n n' => key n' = key n ∧ ∀ r, merge r n' = merge r n) news news')
    (k : κ) {r : ρ} :
    (news.filter fun n => key n = some k).foldl merge r
      = (news'.filter fun n => key n = some k).foldl merge r := by
  induction hsame generalizing r with
  | nil => rfl
  | @cons n n' news news' hab _ ih =>
      by_cases hn : key n = some k
      · rw [List.filter_cons_of_pos (by simpa using hn),
          List.filter_cons_of_pos (by simpa using hab.1.trans hn), List.foldl_cons, List.foldl_cons,
          hab.2]
        exact ih
      · rw [List.filter_cons_of_neg (by simpa using hn),
          List.filter_cons_of_neg (by simpa [hab.1] using hn)]
        exact ih

/-! ## First and last writes -/

section Absorbing

variable (hkey : ∀ r n, key r = key n → key (merge r n) = key r)
  (habsorb : ∀ o a b, merge (merge o a) b = merge o b)
include habsorb

/-- Of several writes only the last one counts. -/
theorem foldl_merge (o : ρ) (ns : List ρ) (n : ρ) :
    (ns ++ [n]).foldl merge o = merge o n := by
  induction ns generalizing o with
  | nil => rfl
  | cons a ns ih => rw [List.cons_append, List.foldl_cons, ih, habsorb]

include hkey in
/-- From an empty table: the first write of a key keeps its part, the last one sets the rest. -/
theorem rowOf_upsertAll_nil (hself : ∀ n, merge n n = n) (news : List ρ) (k : κ) :
    rowOf key k (upsertAll key merge [] news)
      = (news.filter fun n => key n = some k).head?.bind fun o =>
        (news.filter fun n => key n = some k).getLast?.map (merge o) := by
  have hfold : ∀ (o : ρ) (ns : List ρ),
      ns.foldl (fun o n => some ((o.map fun r => merge r n).getD n)) (some o)
        = some (ns.foldl merge o) := by
    intro o ns
    induction ns generalizing o with
    | nil => rfl
    | cons n ns ih => exact ih (merge o n)
  rw [rowOf_upsertAll hkey]
  cases news.filter fun n => key n = some k with
  | nil => rfl
  | cons o ns =>
      refine (hfold o ns).trans ?_
      rw [List.head?_cons, Option.bind_some]
      rcases List.eq_nil_or_concat ns with rfl | ⟨ns, n, rfl⟩
      · rw [List.getLast?_singleton, Option.map_some, hself]
        rfl
      · rw [List.concat_eq_append, foldl_merge habsorb, ← List.cons_append, List.getLast?_concat]
        rfl

include hkey in
omit habsorb in
/-- The writes of its key are what matters to a row. -/
theorem settle_eq {r : ρ} {k : κ} (hk : key r = some k) (news : List ρ) :
    settle key merge news r = (news.filter fun n => key n = some k).foldl merge r := by
  induction news generalizing r with
  | nil => rfl
  | cons n news ih =>
      rw [settle, List.foldl_cons]
      by_cases hn : key n = some k
      · have hc : Conflict key n r := ⟨hk.trans hn.symm, by rw [hn]; exact Option.some_ne_none k⟩
        rw [if_pos hc, List.filter_cons_of_pos (by simpa using hn), List.foldl_cons]
        exact ih ((hkey r n hc.1).trans hk)
      · have hc : ¬ Conflict key n r := fun hc => hn (hc.1.symm.trans hk)
        rw [if_neg hc, List.filter_cons_of_neg (by simpa using hn)]
        exact ih hk

include hkey in
/-- Writing rows again changes nothing, if only their kept parts differ from those before. -/
theorem upsertAll_again (hself : ∀ n, merge n n = n) {table news news' : List ρ}
    (h : Keyed key table) (hnews : ∀ n ∈ news, key n ≠ none)
    (hsame : List.Forall₂ (fun n n' => key n' = key n ∧ ∀ r, merge r n' = merge r n) news news') :
    upsertAll key merge (upsertAll key merge table news) news' = upsertAll key merge table news := by
  have hkeyed := h.upsertAll hkey news
  rw [upsertAll_of_mem hkey hkeyed]
  · refine (List.map_congr_left fun r hr => ?_).trans (List.map_id _)
    cases hk : key r with
    | none => exact settle_of_none hk news'
    | some k =>
        have hrow := (rowOf_of_mem hkeyed hr hk).symm.trans (rowOf_upsertAll hkey table news k)
        rw [settle_eq hkey hk, id, ← foldl_merge_congr hsame k]
        rcases List.eq_nil_or_concat (news.filter fun n => key n = some k) with hnil | ⟨ns, n, hns⟩
        · rw [hnil]
          rfl
        · rw [hns, List.concat_eq_append, List.foldl_append] at hrow
          rw [hns, List.concat_eq_append, foldl_merge habsorb]
          -- the last write of the key is in the row
          cases ho : ns.foldl (fun o n => some ((o.map fun r => merge r n).getD n))
              (rowOf key k table) with
          | none =>
              rw [ho] at hrow
              obtain rfl : r = n := Option.some.inj hrow
              exact hself r
          | some o =>
              rw [ho] at hrow
              obtain rfl : r = merge o n := Option.some.inj hrow
              exact habsorb o n n
  · intro n' hn'
    obtain ⟨n, hn, heq⟩ : ∃ n ∈ news, key n' = key n := by
      clear hnews hkeyed
      induction hsame with
      | nil => cases hn'
      | cons hab _ ih =>
          obtain rfl | hn' := List.mem_cons.mp hn'
          · exact ⟨_, List.mem_cons_self, hab.1⟩
          · obtain ⟨n, hn, heq⟩ := ih hn'
            exact ⟨n, List.mem_cons_of_mem _ hn, heq⟩
    obtain ⟨k, hk⟩ := Option.ne_none_iff_exists'.mp (hnews n hn)
    exact ⟨k, heq.trans hk, (mem_keys_upsertAll hkey).mpr (.inr (List.mem_filterMap.mpr ⟨n, hn, hk⟩))⟩

end Absorbing

end AuraGateway.Foundations.Upserts
