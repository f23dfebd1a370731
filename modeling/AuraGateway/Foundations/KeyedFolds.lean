import Mathlib

/-!
# Folding operations into the entries of a table

A table keeps one entry for each key. An operation is applied to the entry under its key, a
default entry where there is none yet (`amend`). After a series of operations the entry of a
key is what the operations under that key make of the default, in their order
(`lookup_collect`); the others do not matter.
-/

set_option autoImplicit false

namespace AuraGateway.Foundations.KeyedFolds

universe u v w

variable {κ : Type u} {β : Type v} {α : Type w} [DecidableEq κ]

/-- Apply an operation to the entry under a key; `d` is the entry of a new key. -/
def amend (d : β) (k : κ) (f : β → β) : List (κ × β) → List (κ × β)
  | [] => [(k, f d)]
  | (k', b) :: rest => if k' = k then (k', f b) :: rest else (k', b) :: amend d k f rest

/-- Keys are kept apart. -/
abbrev Keyed (t : List (κ × β)) : Prop := (t.map Prod.fst).Nodup

variable {d : β}

theorem mem_keys_amend (k k' : κ) (f : β → β) (t : List (κ × β)) :
    k' ∈ (amend d k f t).map Prod.fst ↔ k' = k ∨ k' ∈ t.map Prod.fst := by
  induction t with
  | nil => simp [amend]
  | cons p t ih =>
      obtain ⟨k₀, b⟩ := p
      rw [amend]
      split
      · rename_i h
        subst h
        simp
      · simp only [List.map_cons, List.mem_cons, ih]
        exact or_left_comm

theorem Keyed.amend {t : List (κ × β)} (h : Keyed t) (k : κ) (f : β → β) :
    Keyed (amend d k f t) := by
  induction t with
  | nil => simp [Keyed, KeyedFolds.amend]
  | cons p t ih =>
      obtain ⟨k₀, b⟩ := p
      obtain ⟨hnotin, ht⟩ := List.nodup_cons.mp h
      rw [KeyedFolds.amend]
      split
      · exact h
      · rename_i hne
        refine List.nodup_cons.mpr ⟨fun hmem => ?_, ih ht⟩
        rcases (mem_keys_amend k k₀ f t).mp hmem with heq | hmem
        · exact hne heq
        · exact hnotin hmem

theorem lookup_amend (k k' : κ) (f : β → β) (t : List (κ × β)) :
    (amend d k f t).lookup k' = if k' = k then some (f ((t.lookup k).getD d)) else t.lookup k' := by
  induction t with
  | nil =>
      by_cases h : k' = k
      · simp [amend, h]
      · simp [amend, h, List.lookup_cons, beq_eq_false_iff_ne.mpr h]
  | cons p t ih =>
      obtain ⟨k₀, b⟩ := p
      rw [amend]
      by_cases h₀ : k₀ = k
      · subst h₀
        by_cases h : k' = k₀
        · simp [h]
        · simp [h, List.lookup_cons, beq_eq_false_iff_ne.mpr h]
      · by_cases h : k' = k₀
        · subst h
          simp [h₀]
        · simp only [if_neg h₀, List.lookup_cons, beq_eq_false_iff_ne.mpr h,
            beq_eq_false_iff_ne.mpr (Ne.symm h₀)]
          exact ih

/-- Entries that are dropped by their keys. -/
theorem lookup_filter_key (p : κ → Bool) (t : List (κ × β)) (k : κ) :
    (t.filter fun e => p e.1).lookup k = if p k then t.lookup k else none := by
  induction t with
  | nil => simp
  | cons e t ih =>
      obtain ⟨k', b⟩ := e
      by_cases hk : k = k'
      · subst hk
        by_cases hp : p k
        · simp [hp]
        · simp [hp, ih]
      · have hne : (k == k') = false := beq_eq_false_iff_ne.mpr hk
        by_cases hp : p k'
        · simp [hp, List.lookup_cons, hne, ih]
        · simp [hp, List.lookup_cons, hne, ih]

/-- Entries that are mapped under their keys. -/
theorem lookup_map_snd {γ : Type*} (f : κ → β → γ) (t : List (κ × β)) (k : κ) :
    (t.map fun e => (e.1, f e.1 e.2)).lookup k = (t.lookup k).map (f k) := by
  induction t with
  | nil => rfl
  | cons e t ih =>
      obtain ⟨k', b⟩ := e
      rw [List.map_cons, List.lookup_cons, List.lookup_cons, ih]
      by_cases hk : k = k'
      · subst hk
        simp
      · rw [beq_eq_false_iff_ne.mpr hk]

/-! ## A series of operations -/

variable (d) (key : α → κ) (act : α → β → β)

/-- Apply operations to a table. -/
def amendAll (t : List (κ × β)) (ops : List α) : List (κ × β) :=
  ops.foldl (fun t a => amend d (key a) (act a) t) t

/-- The table of a series of operations. -/
def collect (ops : List α) : List (κ × β) := amendAll d key act [] ops

/-- What the operations under a key make of the default. -/
def entry (ops : List α) (k : κ) : β :=
  (ops.filter fun a => key a = k).foldl (fun b a => act a b) d

variable {d key act}

theorem amendAll_append (t : List (κ × β)) (ops ops' : List α) :
    amendAll d key act t (ops ++ ops') = amendAll d key act (amendAll d key act t ops) ops' :=
  List.foldl_append ..

/-- Entries that are set outright: the table before matters for the other keys only. -/
theorem lookup_amendAll_const (e : κ → β) (t : List (κ × β)) (ks : List κ) (k : κ) :
    (amendAll d id (fun k _ => e k) t ks).lookup k = if k ∈ ks then some (e k) else t.lookup k := by
  induction ks using List.reverseRecOn with
  | nil => simp [amendAll]
  | append_singleton ks k' ih =>
      rw [amendAll_append, amendAll, List.foldl_cons, List.foldl_nil, id, lookup_amend, ih]
      by_cases h : k = k'
      · simp [h]
      · simp [h]

theorem collect_concat (ops : List α) (a : α) :
    collect d key act (ops ++ [a]) = amend d (key a) (act a) (collect d key act ops) :=
  amendAll_append [] ops [a]

theorem mem_keys_collect (ops : List α) (k : κ) :
    k ∈ (collect d key act ops).map Prod.fst ↔ k ∈ ops.map key := by
  induction ops using List.reverseRecOn with
  | nil => rfl
  | append_singleton ops a ih =>
      rw [collect_concat, mem_keys_amend, ih, List.map_append, List.mem_append, or_comm]
      simp

theorem keyed_collect (ops : List α) : Keyed (collect d key act ops) := by
  induction ops using List.reverseRecOn with
  | nil => exact List.nodup_nil
  | append_singleton ops a ih =>
      rw [collect_concat]
      exact ih.amend _ _

theorem entry_concat (ops : List α) (a : α) (k : κ) :
    entry d key act (ops ++ [a]) k
      = if key a = k then act a (entry d key act ops k) else entry d key act ops k := by
  rw [entry, List.filter_append, List.foldl_append]
  by_cases h : key a = k
  · simp [h, entry]
  · simp [h, entry]

/-- An entry is what the operations under its key make of the default. -/
theorem lookup_collect (ops : List α) (k : κ) :
    (collect d key act ops).lookup k
      = if k ∈ ops.map key then some (entry d key act ops k) else none := by
  induction ops using List.reverseRecOn with
  | nil => rfl
  | append_singleton ops a ih =>
      rw [collect_concat, lookup_amend, entry_concat]
      by_cases h : k = key a
      · subst h
        rw [if_pos rfl, ih]
        by_cases hmem : key a ∈ ops.map key
        · simp [hmem]
        · -- the first operation under its key
          have hnone : ops.filter (fun b => decide (key b = key a)) = [] := by
            rw [List.filter_eq_nil_iff]
            intro b hb heq
            exact hmem (List.mem_map.mpr ⟨b, hb, of_decide_eq_true heq⟩)
          simp [hmem, entry, hnone]
      · rw [if_neg h, if_neg (Ne.symm h), ih]
        simp [h]

/-- A table lists the entries of its keys. -/
theorem eq_map_of_keyed {t : List (κ × β)} (h : Keyed t) {e : κ → β}
    (he : ∀ k ∈ t.map Prod.fst, t.lookup k = some (e k)) :
    t = (t.map Prod.fst).map fun k => (k, e k) := by
  induction t with
  | nil => rfl
  | cons p t ih =>
      obtain ⟨k, b⟩ := p
      obtain ⟨hnotin, ht⟩ := List.nodup_cons.mp h
      have hhead : b = e k := by
        have := he k (List.mem_cons_self ..)
        rw [List.lookup_cons_self] at this
        exact Option.some.inj this
      have htail : ∀ k' ∈ t.map Prod.fst, t.lookup k' = some (e k') := by
        intro k' hk'
        have hne : k' ≠ k := fun heq => hnotin (heq ▸ hk')
        rw [← he k' (List.mem_cons_of_mem k hk'), List.lookup_cons, beq_eq_false_iff_ne.mpr hne]
      rw [List.map_cons, List.map_cons, ← ih ht htail, hhead]

theorem collect_eq_map (ops : List α) :
    collect d key act ops
      = ((collect d key act ops).map Prod.fst).map fun k => (k, entry d key act ops k) := by
  refine eq_map_of_keyed (keyed_collect ops) fun k hk => ?_
  rw [lookup_collect, if_pos ((mem_keys_collect ops k).mp hk)]

/-- What is made of the entries can be collected in their place. -/
theorem map_collect {γ : Type*} (f : β → γ) {act' : α → γ → γ}
    (hf : ∀ a b, f (act a b) = act' a (f b)) (ops : List α) :
    (collect d key act ops).map (fun p => (p.1, f p.2)) = collect (f d) key act' ops := by
  have hamend : ∀ (a : α) (t : List (κ × β)),
      (amend d (key a) (act a) t).map (fun p => (p.1, f p.2))
        = amend (f d) (key a) (act' a) (t.map fun p => (p.1, f p.2)) := by
    intro a t
    induction t with
    | nil => simp [amend, hf]
    | cons p t ih =>
        obtain ⟨k, b⟩ := p
        by_cases hk : k = key a
        · simp [amend, hk, hf]
        · simp [amend, hk, ih]
  induction ops using List.reverseRecOn with
  | nil => rfl
  | append_singleton ops a ih => rw [collect_concat, collect_concat, hamend, ih]

/-! ## One operation for a key -/

theorem amend_of_not_mem {k : κ} {t : List (κ × β)} (h : k ∉ t.map Prod.fst) (f : β → β) :
    amend d k f t = t ++ [(k, f d)] := by
  induction t with
  | nil => rfl
  | cons p t ih =>
      obtain ⟨k₀, b⟩ := p
      rw [List.map_cons, List.mem_cons, not_or] at h
      rw [amend, if_neg (Ne.symm h.1), ih h.2, List.cons_append]

/-- The last entry is amended in its place. -/
theorem amend_concat {k : κ} {t : List (κ × β)} (h : k ∉ t.map Prod.fst) (f : β → β) (b : β) :
    amend d k f (t ++ [(k, b)]) = t ++ [(k, f b)] := by
  induction t with
  | nil => simp [amend]
  | cons p t ih =>
      obtain ⟨k₀, b₀⟩ := p
      rw [List.map_cons, List.mem_cons, not_or] at h
      rw [List.cons_append, amend, if_neg (Ne.symm h.1), ih h.2, List.cons_append]

/-- With one operation for a key, a table has an entry for each operation. -/
theorem collect_of_nodup {ops : List α} (h : (ops.map key).Nodup) :
    collect d key act ops = ops.map fun a => (key a, act a d) := by
  induction ops using List.reverseRecOn with
  | nil => rfl
  | append_singleton ops a ih =>
      rw [List.map_append, List.nodup_append] at h
      obtain ⟨hops, -, hdisjoint⟩ := h
      have hnew : key a ∉ (collect d key act ops).map Prod.fst := fun hmem =>
        hdisjoint _ ((mem_keys_collect ops _).mp hmem) _ (List.mem_singleton_self _) rfl
      rw [collect_concat, amend_of_not_mem hnew, ih hops, List.map_append]
      rfl

variable (d key act) in
/-- A table has no more entries than operations, and fewer if two have the same key. -/
theorem length_collect (ops : List α) :
    (collect d key act ops).length ≤ ops.length
      ∧ ((collect d key act ops).length = ops.length → (ops.map key).Nodup) := by
  have hperm : ((collect d key act ops).map Prod.fst).Perm (ops.map key).dedup := by
    refine (List.perm_ext_iff_of_nodup (keyed_collect ops) (List.nodup_dedup _)).mpr fun k => ?_
    rw [mem_keys_collect, List.mem_dedup]
  have hlength : (collect d key act ops).length = (ops.map key).dedup.length := by
    rw [← hperm.length_eq, List.length_map]
  have hsublist := List.dedup_sublist (ops.map key)
  constructor
  · rw [hlength, ← List.length_map (f := key)]
    exact hsublist.length_le
  · intro heq
    rw [← hsublist.eq_of_length (by rw [← hlength, heq, List.length_map])]
    exact List.nodup_dedup _

end AuraGateway.Foundations.KeyedFolds
