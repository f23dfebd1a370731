import Mathlib

/-!
# Selection from a list

One element of a list is picked by comparing them one after the other (`lastMax`), by a score
or by an index modulo the length (`Picks`), or the list is thinned out first and the pick is an
index into what is left of it. Such an index counts the accepted elements only. It belongs to exactly one place of the full list
(`exists_origin`, `IsOrigin.unique`), and it is the position of that place exactly when
everything before it is accepted (`IsOrigin.index_eq_iff`).
-/

set_option autoImplicit false

namespace AuraGateway.Foundations.Selection

universe u v

variable {α : Type u} {β : Type v}

/-! ## The last of the greatest -/

/-- The last of the greatest elements: each element replaces the best one so far unless that
one is greater. -/
def lastMax (greater : α → α → Bool) : List α → Option α
  | [] => none
  | a :: l => some (l.foldl (fun best x => if greater best x then best else x) a)

theorem exists_lastMax (greater : α → α → Bool) {l : List α} (h : l ≠ []) :
    ∃ a, lastMax greater l = some a := by
  cases l with
  | nil => exact absurd rfl h
  | cons a l => exact ⟨_, rfl⟩

theorem foldl_best_mem (greater : α → α → Bool) (l : List α) (a : α) :
    l.foldl (fun best x => if greater best x then best else x) a ∈ a :: l := by
  induction l generalizing a with
  | nil => exact List.mem_cons_self
  | cons x l ih =>
      rw [List.foldl_cons]
      split
      · -- the best one so far stays
        rcases List.mem_cons.mp (ih a) with heq | hmem
        · rw [heq]
          exact List.mem_cons_self
        · exact List.mem_cons_of_mem a (List.mem_cons_of_mem x hmem)
      · exact List.mem_cons_of_mem a (ih x)

theorem lastMax_mem {greater : α → α → Bool} {l : List α} {a : α}
    (h : lastMax greater l = some a) : a ∈ l := by
  cases l with
  | nil => cases h
  | cons x l =>
      obtain rfl := Option.some.inj h
      exact foldl_best_mem greater l x

theorem lastMax_concat (greater : α → α → Bool) (l : List α) (x : α) :
    lastMax greater (l ++ [x])
      = some ((lastMax greater l).elim x fun best => if greater best x then best else x) := by
  cases l with
  | nil => rfl
  | cons a l =>
      rw [List.cons_append, lastMax, List.foldl_append]
      rfl

/-- Nothing is above the element that is picked, in an order that `greater` decides on the list. -/
theorem le_lastMax {greater : α → α → Bool} {r : α → α → Prop} {l : List α} {a : α}
    (htrans : ∀ x y z, r x y → r y z → r x z)
    (hgreater : ∀ x ∈ l, ∀ y ∈ l, if greater x y then r y x else r x y)
    (h : lastMax greater l = some a) : ∀ b ∈ l, r b a := by
  induction l using List.reverseRecOn generalizing a with
  | nil => exact fun b hb => absurd hb List.not_mem_nil
  | append_singleton l x ih =>
      have hl : ∀ y ∈ l, y ∈ l ++ [x] := fun y => List.mem_append_left [x]
      have hx : x ∈ l ++ [x] := List.mem_append_right l (List.mem_singleton_self x)
      have hself : r x x := by
        have := hgreater x hx x hx
        split at this
        · exact this
        · exact this
      rw [lastMax_concat] at h
      intro b hb
      rw [List.mem_append, List.mem_singleton] at hb
      cases hbest : lastMax greater l with
      | none =>
          -- nothing stands before the last element
          have hnil : l = [] := by
            by_contra hne
            obtain ⟨best, heq⟩ := exists_lastMax greater hne
            rw [hbest] at heq
            cases heq
          rw [hbest] at h
          obtain rfl := Option.some.inj h
          rcases hb with hb | rfl
          · rw [hnil] at hb
            exact absurd hb List.not_mem_nil
          · exact hself
      | some best =>
          have hbefore := ih (fun y hy z hz => hgreater y (hl y hy) z (hl z hz)) hbest
          have hstep := hgreater best (hl best (lastMax_mem hbest)) x hx
          rw [hbest, Option.elim_some] at h
          obtain rfl := Option.some.inj h
          split at hstep
          · rename_i hgt
            rw [if_pos hgt]
            rcases hb with hb | rfl
            · exact hbefore b hb
            · exact hstep
          · rename_i hgt
            rw [if_neg hgt]
            rcases hb with hb | rfl
            · exact htrans b best x (hbefore b hb) hstep
            · exact hself

/-- The first element is picked exactly when it is greater than all others. -/
theorem lastMax_eq_head_iff {greater : α → α → Bool} {a : α} {l : List α} (hnotin : a ∉ l) :
    lastMax greater (a :: l) = some a ↔ ∀ b ∈ l, greater a b = true := by
  induction l using List.reverseRecOn with
  | nil => exact iff_of_true rfl fun b hb => absurd hb List.not_mem_nil
  | append_singleton l x ih =>
      rw [List.mem_append, List.mem_singleton, not_or] at hnotin
      obtain ⟨best, hbest⟩ := exists_lastMax greater (List.cons_ne_nil a l)
      rw [← List.cons_append, lastMax_concat, hbest, Option.elim_some, Option.some.injEq,
        List.forall_mem_append, ← ih hnotin.1, hbest, Option.some.injEq, List.forall_mem_singleton]
      by_cases hgt : greater best x = true
      · rw [if_pos hgt]
        constructor
        · rintro rfl
          exact ⟨rfl, hgt⟩
        · exact And.left
      · rw [if_neg hgt]
        constructor
        · rintro rfl
          exact absurd rfl hnotin.2
        · rintro ⟨rfl, habs⟩
          exact absurd habs hgt

/-- The first of the least elements: the best one so far stays unless it is greater. -/
def firstMin (greater : α → α → Bool) : List α → Option α
  | [] => none
  | a :: l => some (l.foldl (fun best x => if greater best x then x else best) a)

theorem firstMin_eq_lastMax (greater : α → α → Bool) (l : List α) :
    firstMin greater l = lastMax (fun a b => !greater a b) l := by
  have hstep : (fun best x => if greater best x = true then x else best)
      = fun best x => if (!greater best x) = true then best else x := by
    funext best x
    cases greater best x <;> rfl
  cases l with
  | nil => rfl
  | cons a l => exact congrArg (fun step => some (l.foldl step a)) hstep

/-- The first element in the order of a stable sort. -/
def firstSorted (le : α → α → Bool) (l : List α) : Option α := (l.mergeSort le).head?

/-! ## Picks -/

/-- Some element of the list is picked. -/
def Picks (l : List α) (pick : Option α) : Prop := ∃ a ∈ l, pick = some a

section Picks

variable {l : List α}

theorem Picks.mem {pick : Option α} (h : Picks l pick) {a : α} (ha : pick = some a) : a ∈ l := by
  obtain ⟨b, hb, rfl⟩ := h
  exact Option.some.inj ha ▸ hb

theorem Picks.mono {l' : List α} {pick : Option α} (h : Picks l pick) (hsub : l ⊆ l') :
    Picks l' pick := by
  obtain ⟨a, ha, heq⟩ := h
  exact ⟨a, hsub ha, heq⟩

/-- An index modulo the length is always a place. -/
theorem picks_mod (h : l ≠ []) (n : Nat) : Picks l l[n % l.length]? := by
  have hlt : n % l.length < l.length := Nat.mod_lt n (List.length_pos_iff.mpr h)
  exact ⟨l[n % l.length], List.getElem_mem hlt, List.getElem?_eq_getElem hlt⟩

theorem picks_getLast (h : l ≠ []) : Picks l l.getLast? :=
  ⟨l.getLast h, List.getLast_mem h, List.getLast?_eq_some_getLast h⟩

theorem picks_lastMax (greater : α → α → Bool) (h : l ≠ []) : Picks l (lastMax greater l) := by
  obtain ⟨a, ha⟩ := exists_lastMax greater h
  exact ⟨a, lastMax_mem ha, ha⟩

theorem picks_firstMin (greater : α → α → Bool) (h : l ≠ []) : Picks l (firstMin greater l) := by
  rw [firstMin_eq_lastMax]
  exact picks_lastMax _ h

theorem picks_firstSorted (le : α → α → Bool) (h : l ≠ []) : Picks l (firstSorted le l) := by
  have hsorted : l.mergeSort le ≠ [] := by
    intro hnil
    have hperm := List.mergeSort_perm l le
    rw [hnil] at hperm
    exact h hperm.nil_eq.symm
  refine ⟨(l.mergeSort le).head hsorted, ?_, List.head?_eq_some_head hsorted⟩
  exact List.mem_mergeSort.mp (List.head_mem hsorted)

/-- Elements with their scores: the element of the scored pick is a pick. -/
theorem Picks.of_scored {γ : Type*} {score : α → γ} {pick : Option (α × γ)}
    (h : Picks (l.map fun a => (a, score a)) pick) : Picks l (pick.map Prod.fst) := by
  obtain ⟨scored, hmem, rfl⟩ := h
  obtain ⟨a, ha, rfl⟩ := List.mem_map.mp hmem
  exact ⟨a, ha, rfl⟩

end Picks

/-- An index into the elements with a property: as many of them stand before its place. -/
theorem getElem?_filter_eq_some_iff {p : α → Bool} {l : List α} {i : Nat} {a : α} :
    (l.filter p)[i]? = some a
      ↔ ∃ left right, l = left ++ a :: right ∧ p a = true ∧ left.countP p = i := by
  induction l generalizing i with
  | nil =>
      constructor
      · intro h
        cases h
      · rintro ⟨left, right, heq, -⟩
        exact absurd heq (List.append_ne_nil_of_right_ne_nil left (List.cons_ne_nil a right)).symm
  | cons b l ih =>
      constructor
      · intro h
        by_cases hb : p b = true
        · rw [List.filter_cons_of_pos hb] at h
          cases i with
          | zero =>
              obtain rfl := Option.some.inj h
              exact ⟨[], l, rfl, hb, rfl⟩
          | succ i =>
              obtain ⟨left, right, rfl, ha, hcount⟩ := ih.mp h
              exact ⟨b :: left, right, rfl, ha, by rw [List.countP_cons_of_pos hb, hcount]⟩
        · rw [List.filter_cons_of_neg hb] at h
          obtain ⟨left, right, rfl, ha, hcount⟩ := ih.mp h
          exact ⟨b :: left, right, rfl, ha, by rw [List.countP_cons_of_neg hb, hcount]⟩
      · rintro ⟨left, right, heq, ha, rfl⟩
        cases left with
        | nil =>
            obtain ⟨rfl, rfl⟩ := List.cons.inj heq
            rw [List.filter_cons_of_pos ha]
            rfl
        | cons c left =>
            obtain ⟨rfl, rfl⟩ := List.cons.inj heq
            have hrest := ih.mpr ⟨left, right, rfl, ha, rfl⟩
            by_cases hb : p b = true
            · rw [List.filter_cons_of_pos hb, List.countP_cons_of_pos hb]
              exact hrest
            · rw [List.filter_cons_of_neg hb, List.countP_cons_of_neg hb]
              exact hrest

/-! ## Indices into the accepted elements -/

variable (accept : α → Option β)

/-- The place of the full list to which an index into the accepted elements belongs. -/
structure IsOrigin (l : List α) (index position : Nat) (b : β) : Prop where
  accepted : l[position]?.bind accept = some b
  counted : ((l.take position).filterMap accept).length = index

variable {accept}

/-- An index into the accepted elements belongs to a place of the full list. -/
theorem exists_origin {l : List α} {index : Nat} {b : β}
    (h : (l.filterMap accept)[index]? = some b) : ∃ position, IsOrigin accept l index position b := by
  induction l generalizing index with
  | nil => cases h
  | cons a l ih =>
      rw [List.filterMap_cons] at h
      split at h
      · -- a rejected element moves the rest by one
        rename_i hnone
        obtain ⟨position, haccepted, hcounted⟩ := ih h
        refine ⟨position + 1, haccepted, ?_⟩
        rw [List.take_succ_cons, List.filterMap_cons, hnone]
        exact hcounted
      · rename_i b' hsome
        cases index with
        | zero =>
            obtain rfl := Option.some.inj h
            exact ⟨0, hsome, rfl⟩
        | succ index =>
            obtain ⟨position, haccepted, hcounted⟩ := ih h
            refine ⟨position + 1, haccepted, ?_⟩
            rw [List.take_succ_cons, List.filterMap_cons, hsome, List.length_cons, hcounted]

/-- Going over an accepted element, the count of the accepted ones grows. -/
theorem length_filterMap_take_lt {l : List α} {position position' : Nat} {b : β}
    (h : l[position]?.bind accept = some b) (hlt : position < position') :
    ((l.take position).filterMap accept).length < ((l.take position').filterMap accept).length := by
  obtain ⟨a, ha, hb⟩ := Option.bind_eq_some_iff.mp h
  have hsplit : l.take (position + 1) = l.take position ++ [a] := by
    rw [List.take_add_one, ha]
    rfl
  have hle : (l.take (position + 1)).filterMap accept <+: (l.take position').filterMap accept :=
    (List.take_prefix_take_left hlt).filterMap accept
  have hlen := hle.length_le
  rw [hsplit, List.filterMap_append, List.length_append, List.filterMap_cons, hb] at hlen
  exact hlen

theorem IsOrigin.le {l : List α} {index position position' : Nat} {b b' : β}
    (h : IsOrigin accept l index position b) (h' : IsOrigin accept l index position' b') :
    position' ≤ position := by
  by_contra hlt
  have := length_filterMap_take_lt h.accepted (not_le.mp hlt)
  rw [h.counted, h'.counted] at this
  exact lt_irrefl index this

theorem IsOrigin.unique {l : List α} {index position position' : Nat} {b b' : β}
    (h : IsOrigin accept l index position b) (h' : IsOrigin accept l index position' b') :
    position = position' ∧ b = b' := by
  have heq : position = position' := le_antisymm (h'.le h) (h.le h')
  subst heq
  exact ⟨rfl, Option.some.inj (h.accepted.symm.trans h'.accepted)⟩

/-- The index is the position exactly when everything before is accepted. -/
theorem IsOrigin.index_eq_iff {l : List α} {index position : Nat} {b : β}
    (h : IsOrigin accept l index position b) :
    index = position ↔ ∀ a ∈ l.take position, (accept a).isSome = true := by
  have hlt : position < l.length := by
    obtain ⟨a, ha, -⟩ := Option.bind_eq_some_iff.mp h.accepted
    exact (List.getElem?_eq_some_iff.mp ha).1
  have hlength : (l.take position).length = position := List.length_take_of_le hlt.le
  rw [← List.filterMap_length_eq_length, h.counted, hlength]

end AuraGateway.Foundations.Selection
