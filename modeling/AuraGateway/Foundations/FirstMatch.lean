import Mathlib

/-!
# First match in a search order

A search walks a list of places and stops at the first one that has a hit.
`FirstIn accept reject order t` says that `t` is that place: it is accepted, and
everything in front of it is rejected. Acceptance and rejection are separate
predicates, so a place may be neither, and then no search passes it. Where the order is
not fixed, the search finds the same thing in every order exactly when at most one place
matches (`find?_perm_eq_iff`).
-/

set_option autoImplicit false

namespace AuraGateway.Foundations.FirstMatch

universe u

variable {τ : Type u} {accept reject : τ → Prop}

/-- `t` is the first accepted place of the order, all earlier ones being rejected. -/
def FirstIn (accept reject : τ → Prop) (order : List τ) (t : τ) : Prop :=
  ∃ before after, order = before ++ t :: after ∧ accept t ∧ ∀ x ∈ before, reject x

theorem FirstIn.mem {order : List τ} {t : τ} (h : FirstIn accept reject order t) :
    t ∈ order := by
  obtain ⟨before, after, rfl, -, -⟩ := h
  simp

theorem FirstIn.accepted {order : List τ} {t : τ} (h : FirstIn accept reject order t) :
    accept t := by
  obtain ⟨before, after, -, ha, -⟩ := h
  exact ha

theorem not_firstIn_nil {t : τ} : ¬ FirstIn accept reject [] t := by
  intro h
  exact absurd h.mem List.not_mem_nil

/-- One step of the search: stop at the head, or reject it and go on. -/
theorem firstIn_cons {a : τ} {order : List τ} {t : τ} :
    FirstIn accept reject (a :: order) t ↔
      (a = t ∧ accept t) ∨ (reject a ∧ FirstIn accept reject order t) := by
  constructor
  · intro h
    obtain ⟨before, after, e, ha, hr⟩ := h
    cases before with
    | nil =>
        injection e with e₁ e₂
        exact Or.inl ⟨e₁, ha⟩
    | cons b before =>
        injection e with e₁ e₂
        subst e₁
        refine Or.inr ⟨hr a List.mem_cons_self, before, after, e₂, ha, ?_⟩
        intro x hx
        exact hr x (List.mem_cons_of_mem a hx)
  · intro h
    rcases h with ⟨rfl, ha⟩ | ⟨hra, before, after, rfl, ha, hr⟩
    · exact ⟨[], order, rfl, ha, fun x hx => absurd hx List.not_mem_nil⟩
    · refine ⟨a :: before, after, rfl, ha, ?_⟩
      intro x hx
      rcases List.mem_cons.mp hx with rfl | hx
      · exact hra
      · exact hr x hx

/-- Where every place is accepted or rejected, the search stops somewhere or passes all. -/
theorem exists_firstIn_or_forall {order : List τ} (h : ∀ x ∈ order, accept x ∨ reject x) :
    (∃ t, FirstIn accept reject order t) ∨ ∀ x ∈ order, reject x := by
  induction order with
  | nil => exact .inr fun x hx => absurd hx List.not_mem_nil
  | cons a order ih =>
      rw [List.forall_mem_cons] at h ⊢
      rcases h.1 with haccept | hreject
      · exact .inl ⟨a, firstIn_cons.mpr (.inl ⟨rfl, haccept⟩)⟩
      · rcases ih h.2 with ⟨t, ht⟩ | hall
        · exact .inl ⟨t, firstIn_cons.mpr (.inr ⟨hreject, ht⟩)⟩
        · exact .inr ⟨hreject, hall⟩

/-! ## Descending orders -/

section Descending

variable [LinearOrder τ]

/-- In a descending order the first match is the accepted place above which
everything is rejected. -/
theorem firstIn_descending_iff {order : List τ} (hd : order.Pairwise (· > ·)) {t : τ} :
    FirstIn accept reject order t ↔
      t ∈ order ∧ accept t ∧ ∀ u ∈ order, t < u → reject u := by
  induction order with
  | nil => simp [not_firstIn_nil]
  | cons a order ih =>
      rw [List.pairwise_cons] at hd
      rw [firstIn_cons, ih hd.2, List.mem_cons, List.forall_mem_cons]
      constructor
      · intro h
        rcases h with ⟨rfl, ha⟩ | ⟨hra, hmem, ha, hr⟩
        · -- the head is the highest place of the order, so nothing was passed
          refine ⟨Or.inl rfl, ha, fun hlt => absurd hlt (lt_irrefl a), ?_⟩
          intro u hu hlt
          exact absurd hlt (lt_asymm (hd.1 u hu))
        · exact ⟨Or.inr hmem, ha, fun _ => hra, hr⟩
      · intro h
        obtain ⟨hmem, ha, hhead, hr⟩ := h
        rcases hmem with rfl | hmem
        · exact Or.inl ⟨rfl, ha⟩
        · exact Or.inr ⟨hhead (hd.1 t hmem), hmem, ha, hr⟩

/-- The same when places above `t` in any order stand in front. -/
theorem firstIn_append_descending_iff {up down : List τ} {t : τ} (hup : ∀ u ∈ up, t < u)
    (hd : down.Pairwise (· > ·)) :
    FirstIn accept reject (up ++ down) t ↔
      t ∈ up ++ down ∧ accept t ∧ ∀ u ∈ up ++ down, t < u → reject u := by
  induction up with
  | nil => exact firstIn_descending_iff hd
  | cons a up ih =>
      have ha : t < a := hup a List.mem_cons_self
      have hrec := ih fun u hu => hup u (List.mem_cons_of_mem a hu)
      rw [List.cons_append, firstIn_cons, hrec, List.mem_cons, List.forall_mem_cons]
      constructor
      · intro h
        rcases h with ⟨rfl, -⟩ | ⟨hra, hmem, hacc, hr⟩
        · exact absurd ha (lt_irrefl a)
        · exact ⟨Or.inr hmem, hacc, fun _ => hra, hr⟩
      · intro h
        obtain ⟨hmem, hacc, hhead, hr⟩ := h
        rcases hmem with rfl | hmem
        · exact absurd ha (lt_irrefl t)
        · exact Or.inr ⟨hhead ha, hmem, hacc, hr⟩

end Descending

/-! ## Searches whose order is not fixed -/

section AnyOrder

variable {p : τ → Bool} {l l' : List τ}

/-- Some order puts a given match first. -/
theorem exists_perm_find? {a : τ} (h : a ∈ l) (hp : p a = true) :
    ∃ order : List τ, order.Perm l ∧ order.find? p = some a := by
  obtain ⟨before, after, rfl⟩ := List.append_of_mem h
  exact ⟨a :: (before ++ after), List.perm_middle.symm, List.find?_cons_of_pos hp⟩

/-- A search with at most one match finds the same in every order. -/
theorem find?_perm_of_unique (h : ∀ a ∈ l, ∀ b ∈ l, p a = true → p b = true → a = b)
    (hl : l'.Perm l) : l'.find? p = l.find? p := by
  cases hf : l.find? p with
  | none =>
      rw [List.find?_eq_none] at hf ⊢
      intro a ha
      exact hf a (hl.mem_iff.mp ha)
  | some a =>
      have hpa := List.find?_some hf
      have ha : a ∈ l := List.mem_of_find?_eq_some hf
      obtain ⟨b, hb⟩ := Option.isSome_iff_exists.mp
        (List.find?_isSome.mpr ⟨a, hl.mem_iff.mpr ha, hpa⟩)
      have hbl : b ∈ l := hl.mem_iff.mp (List.mem_of_find?_eq_some hb)
      rw [hb, h b hbl a ha (List.find?_some hb) hpa]

/-- What a search finds depends on the order exactly when two places match. -/
theorem find?_perm_eq_iff :
    (∀ o₁ o₂ : List τ, o₁.Perm l → o₂.Perm l → o₁.find? p = o₂.find? p) ↔
      ∀ a ∈ l, ∀ b ∈ l, p a = true → p b = true → a = b := by
  constructor
  · intro h a ha b hb hpa hpb
    obtain ⟨o₁, h₁, e₁⟩ := exists_perm_find? ha hpa
    obtain ⟨o₂, h₂, e₂⟩ := exists_perm_find? hb hpb
    have he := h o₁ o₂ h₁ h₂
    rw [e₁, e₂] at he
    exact Option.some.inj he
  · intro h o₁ o₂ h₁ h₂
    rw [find?_perm_of_unique h h₁, find?_perm_of_unique h h₂]

end AnyOrder

end AuraGateway.Foundations.FirstMatch
