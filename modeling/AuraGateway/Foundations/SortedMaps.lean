import Mathlib

/-!
# Maps in the order of their keys

A map as the list of its entries, in the order of the keys. Inserting keeps the order, and an entry
takes the place of the one that had its key before (`mem_insert_iff`). A map made of a list of
entries has, for each key, the last entry with that key (`mem_ofEntries_iff`). Where all keys are
different nothing is lost (`perm_ofEntries`).
-/

set_option autoImplicit false

namespace AuraGateway.Foundations.SortedMaps

universe u v w

variable {κ : Type u} {β : Type v} [LinearOrder κ]

/-- Insert a value; it takes the place of the one with the same key. -/
def insert (k : κ) (v : β) : List (κ × β) → List (κ × β)
  | [] => [(k, v)]
  | e :: m =>
      if k < e.1 then (k, v) :: e :: m
      else if k = e.1 then (k, v) :: m
      else e :: insert k v m

/-- Insert entries one after the other. -/
def insertAll (m : List (κ × β)) (entries : List (κ × β)) : List (κ × β) :=
  entries.foldl (fun m e => insert e.1 e.2 m) m

/-- The map of some entries. -/
def ofEntries (entries : List (κ × β)) : List (κ × β) := insertAll [] entries

/-- The keys stand in their order, each once. -/
abbrev Sorted (m : List (κ × β)) : Prop := m.Pairwise fun a b => a.1 < b.1

section Insert

variable {k : κ} {v : β} {m : List (κ × β)}

theorem insert_cons_lt {e : κ × β} (h : k < e.1) : insert k v (e :: m) = (k, v) :: e :: m := by
  rw [insert, if_pos h]

theorem insert_cons_eq {e : κ × β} (h : k = e.1) : insert k v (e :: m) = (k, v) :: m := by
  rw [insert, if_neg h.not_lt, if_pos h]

theorem insert_cons_gt {e : κ × β} (h : e.1 < k) : insert k v (e :: m) = e :: insert k v m := by
  rw [insert, if_neg h.asymm, if_neg h.ne']

/-- The new entry, and the entries with other keys. -/
theorem mem_insert_iff (hm : Sorted m) (x : κ × β) :
    x ∈ insert k v m ↔ x = (k, v) ∨ x ∈ m ∧ x.1 ≠ k := by
  induction m with
  | nil => simp [insert]
  | cons e m ih =>
      obtain ⟨hfirst, hrest⟩ := List.pairwise_cons.mp hm
      rcases lt_trichotomy k e.1 with hlt | heq | hgt
      · rw [insert_cons_lt hlt, List.mem_cons]
        refine or_congr_right ⟨fun hx => ⟨hx, ?_⟩, fun hx => hx.1⟩
        rcases List.mem_cons.mp hx with rfl | hx
        · exact hlt.ne'
        · exact (hlt.trans (hfirst x hx)).ne'
      · rw [insert_cons_eq heq, List.mem_cons]
        refine or_congr_right ⟨fun hx => ⟨List.mem_cons_of_mem e hx, ?_⟩, fun hx => ?_⟩
        · rw [heq]
          exact (hfirst x hx).ne'
        · rcases List.mem_cons.mp hx.1 with rfl | hmem
          · exact absurd heq.symm hx.2
          · exact hmem
      · rw [insert_cons_gt hgt, List.mem_cons, List.mem_cons, ih hrest]
        constructor
        · rintro (rfl | hx | ⟨hx, hne⟩)
          · exact .inr ⟨.inl rfl, hgt.ne⟩
          · exact .inl hx
          · exact .inr ⟨.inr hx, hne⟩
        · rintro (hx | ⟨rfl | hx, hne⟩)
          · exact .inr (.inl hx)
          · exact .inl rfl
          · exact .inr (.inr ⟨hx, hne⟩)

theorem sorted_insert (hm : Sorted m) : Sorted (insert k v m) := by
  induction m with
  | nil => exact List.pairwise_singleton _ _
  | cons e m ih =>
      obtain ⟨hfirst, hrest⟩ := List.pairwise_cons.mp hm
      rcases lt_trichotomy k e.1 with hlt | heq | hgt
      · rw [insert_cons_lt hlt]
        refine List.pairwise_cons.mpr ⟨List.forall_mem_cons.mpr ⟨hlt, fun x hx => ?_⟩, hm⟩
        exact hlt.trans (hfirst x hx)
      · rw [insert_cons_eq heq]
        refine List.pairwise_cons.mpr ⟨fun x hx => ?_, hrest⟩
        rw [heq]
        exact hfirst x hx
      · rw [insert_cons_gt hgt]
        refine List.pairwise_cons.mpr ⟨fun x hx => ?_, ih hrest⟩
        rcases (mem_insert_iff hrest x).mp hx with rfl | ⟨hx, -⟩
        · exact hgt
        · exact hfirst x hx

/-- Whatever is added up over the entries grows by at most the value that is inserted. -/
theorem sum_insert_le (f : κ × β → Nat) :
    ((insert k v m).map f).sum ≤ (m.map f).sum + f (k, v) := by
  induction m with
  | nil => simp [insert]
  | cons e m ih =>
      rcases lt_trichotomy k e.1 with hlt | heq | hgt
      · rw [insert_cons_lt hlt, List.map_cons, List.sum_cons]
        omega
      · rw [insert_cons_eq heq, List.map_cons, List.sum_cons, List.map_cons, List.sum_cons]
        omega
      · rw [insert_cons_gt hgt, List.map_cons, List.sum_cons, List.map_cons, List.sum_cons]
        omega

theorem perm_insert (h : ∀ e ∈ m, e.1 ≠ k) : (insert k v m).Perm ((k, v) :: m) := by
  induction m with
  | nil => exact List.Perm.refl _
  | cons e m ih =>
      obtain ⟨hne, hrest⟩ := List.forall_mem_cons.mp h
      rcases lt_trichotomy k e.1 with hlt | heq | hgt
      · rw [insert_cons_lt hlt]
      · exact absurd heq.symm hne
      · rw [insert_cons_gt hgt]
        exact ((ih hrest).cons e).trans (List.Perm.swap _ _ _)

end Insert

section Entries

variable {m entries : List (κ × β)}

theorem sorted_insertAll (hm : Sorted m) (entries : List (κ × β)) :
    Sorted (insertAll m entries) := by
  induction entries generalizing m with
  | nil => exact hm
  | cons e entries ih => exact ih (sorted_insert hm)

theorem sorted_ofEntries (entries : List (κ × β)) : Sorted (ofEntries entries) :=
  sorted_insertAll List.Pairwise.nil entries

/-- Each key has the last of the values that are inserted for it. -/
theorem mem_insertAll_iff (hm : Sorted m) (x : κ × β) :
    x ∈ insertAll m entries ↔
      (∃ before after, entries = before ++ x :: after ∧ ∀ e ∈ after, e.1 ≠ x.1)
        ∨ x ∈ m ∧ ∀ e ∈ entries, e.1 ≠ x.1 := by
  induction entries generalizing m with
  | nil =>
      refine ⟨fun hx => .inr ⟨hx, fun e he => absurd he List.not_mem_nil⟩, ?_⟩
      rintro (⟨before, after, heq, -⟩ | ⟨hx, -⟩)
      · exact absurd heq (List.append_ne_nil_of_right_ne_nil before (List.cons_ne_nil x after)).symm
      · exact hx
  | cons e entries ih =>
      change x ∈ insertAll (insert e.1 e.2 m) entries ↔ _
      rw [ih (sorted_insert hm), mem_insert_iff hm, List.forall_mem_cons]
      constructor
      · rintro (⟨before, after, rfl, hlast⟩ | ⟨rfl | ⟨hx, hne⟩, hlast⟩)
        · exact .inl ⟨e :: before, after, rfl, hlast⟩
        · exact .inl ⟨[], entries, rfl, hlast⟩
        · exact .inr ⟨hx, hne.symm, hlast⟩
      · rintro (⟨before, after, heq, hlast⟩ | ⟨hx, hne, hlast⟩)
        · cases before with
          | nil =>
              obtain ⟨rfl, rfl⟩ := List.cons.inj heq
              exact .inr ⟨.inl rfl, hlast⟩
          | cons b before =>
              obtain ⟨rfl, rfl⟩ := List.cons.inj heq
              exact .inl ⟨before, after, rfl, hlast⟩
        · exact .inr ⟨.inr ⟨hx, hne.symm⟩, hlast⟩

theorem mem_ofEntries_iff (x : κ × β) :
    x ∈ ofEntries entries ↔
      ∃ before after, entries = before ++ x :: after ∧ ∀ e ∈ after, e.1 ≠ x.1 := by
  rw [ofEntries, mem_insertAll_iff List.Pairwise.nil]
  exact or_iff_left fun h => List.not_mem_nil h.1

/-- An entry stays unless its key comes once more. -/
theorem mem_ofEntries_cons (e x : κ × β) :
    x ∈ ofEntries (e :: entries) ↔
      (x = e ∧ ∀ e' ∈ entries, e'.1 ≠ e.1) ∨ x ∈ ofEntries entries := by
  rw [mem_ofEntries_iff, mem_ofEntries_iff]
  constructor
  · rintro ⟨before, after, heq, hlast⟩
    cases before with
    | nil =>
        obtain ⟨rfl, rfl⟩ := List.cons.inj heq
        exact .inl ⟨rfl, hlast⟩
    | cons b before =>
        obtain ⟨-, rfl⟩ := List.cons.inj heq
        exact .inr ⟨before, after, rfl, hlast⟩
  · rintro (⟨rfl, hlast⟩ | ⟨before, after, rfl, hlast⟩)
    · exact ⟨[], entries, rfl, hlast⟩
    · exact ⟨e :: before, after, rfl, hlast⟩

theorem ofEntries_eq_nil_iff : ofEntries entries = [] ↔ entries = [] := by
  constructor
  · intro h
    by_contra hne
    -- the last entry stays
    have hlast : entries.getLast hne ∈ ofEntries entries := by
      rw [mem_ofEntries_iff]
      refine ⟨entries.dropLast, [], (List.dropLast_append_getLast hne).symm, fun e he => ?_⟩
      cases he
    rw [h] at hlast
    cases hlast
  · rintro rfl
    rfl

theorem sum_insertAll_le (f : κ × β → Nat) :
    ((insertAll m entries).map f).sum ≤ (m.map f).sum + (entries.map f).sum := by
  induction entries generalizing m with
  | nil => exact Nat.le_add_right _ _
  | cons e entries ih =>
      have hstep : ((insert e.1 e.2 m).map f).sum ≤ (m.map f).sum + f e := sum_insert_le f
      have hrest := ih (m := insert e.1 e.2 m)
      rw [List.map_cons, List.sum_cons]
      change ((insertAll (insert e.1 e.2 m) entries).map f).sum ≤ _
      omega

theorem sum_ofEntries_le (f : κ × β → Nat) (entries : List (κ × β)) :
    ((ofEntries entries).map f).sum ≤ (entries.map f).sum := by
  have hle : ((ofEntries entries).map f).sum ≤ (([] : List (κ × β)).map f).sum + _ :=
    sum_insertAll_le f
  rw [List.map_nil, List.sum_nil, Nat.zero_add] at hle
  exact hle

theorem perm_insertAll (hkeys : ((m ++ entries).map Prod.fst).Nodup) :
    (insertAll m entries).Perm (m ++ entries) := by
  induction entries generalizing m with
  | nil => rw [List.append_nil]; rfl
  | cons e entries ih =>
      have hmiddle : (m ++ e :: entries).Perm (e :: m ++ entries) := List.perm_middle
      have hkeys' := (hmiddle.map Prod.fst).nodup_iff.mp hkeys
      rw [List.cons_append, List.map_cons] at hkeys'
      obtain ⟨hnew, -⟩ := List.nodup_cons.mp hkeys'
      have hinsert : (insert e.1 e.2 m).Perm (e :: m) := by
        refine perm_insert fun x hx heq => hnew ?_
        rw [← heq]
        exact List.mem_map_of_mem (List.mem_append_left _ hx)
      have happend := hinsert.append_right entries
      have hnodup := ((happend.trans hmiddle.symm).map Prod.fst).nodup_iff.mpr hkeys
      exact ((ih hnodup).trans happend).trans hmiddle.symm

/-- Entries with different keys are all in the map. -/
theorem perm_ofEntries (hkeys : (entries.map Prod.fst).Nodup) :
    (ofEntries entries).Perm entries := by
  have hperm := perm_insertAll (m := []) hkeys
  rw [List.nil_append] at hperm
  exact hperm

/-- The keys of a map are different. -/
theorem nodup_keys (hm : Sorted m) : (m.map Prod.fst).Nodup := by
  rw [List.Nodup, List.pairwise_map]
  exact hm.imp fun h => h.ne

/-- Two maps with the same entries are the same. -/
theorem eq_of_perm {m' : List (κ × β)} (hm : Sorted m) (hm' : Sorted m') (h : m.Perm m') :
    m = m' := by
  refine h.eq_of_pairwise (fun a b _ _ hab hba => ?_) hm hm'
  exact absurd (hab.trans hba) (lt_irrefl a.1)

theorem ofEntries_of_perm (hm : Sorted m) (h : entries.Perm m) : ofEntries entries = m := by
  have hkeys := (h.map Prod.fst).nodup_iff.mpr (nodup_keys hm)
  exact eq_of_perm (sorted_ofEntries entries) hm ((perm_ofEntries hkeys).trans h)

theorem ofEntries_of_sorted (hm : Sorted m) : ofEntries m = m :=
  ofEntries_of_perm hm (List.Perm.refl m)

end Entries

end AuraGateway.Foundations.SortedMaps
