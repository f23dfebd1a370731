import Mathlib

/-!
# Joined fields

Fields joined with a separator can be told apart when each is closed by the separator behind it
(`joined_inj`): where the separator occurs equally often in the two fields that are compared
(`Delimits.of_count`), where neither of them goes on behind the other
(`Delimits.of_selfDelimiting`), or where one is empty and the other begins with something else
(`Delimits.of_head`).

The fields that a text is split into are its longest parts without a separator
(`mem_splitOnP_iff`).
-/

set_option autoImplicit false

namespace AuraGateway.Foundations.Delimited

universe u

variable {α : Type u} {c : α} {x y : List α}

/-- Two fields with the separator behind them differ where the fields do. -/
def Delimits (c : α) (x y : List α) : Prop :=
  ∀ s t, x ++ c :: s = y ++ c :: t → x = y ∧ s = t

/-- Neither of two texts goes on behind the other. -/
def SelfDelimiting (x y : List α) : Prop := (x <+: y → x = y) ∧ (y <+: x → x = y)

theorem selfDelimiting_refl (x : List α) : SelfDelimiting x x := ⟨fun _ => rfl, fun _ => rfl⟩

theorem Delimits.symm (h : Delimits c x y) : Delimits c y x := by
  intro s t heq
  obtain ⟨hxy, hst⟩ := h t s heq.symm
  exact ⟨hxy.symm, hst.symm⟩

theorem Delimits.of_count [BEq α] [LawfulBEq α] (h : x.count c = y.count c) : Delimits c x y := by
  induction x generalizing y with
  | nil =>
      intro s t heq
      cases y with
      | nil => exact ⟨rfl, (List.cons.inj heq).2⟩
      | cons b y =>
          -- the separator would be in `y`
          obtain ⟨rfl, -⟩ := List.cons.inj heq
          rw [List.count_nil, List.count_cons_self] at h
          omega
  | cons a x ih =>
      intro s t heq
      cases y with
      | nil =>
          obtain ⟨rfl, -⟩ := List.cons.inj heq
          rw [List.count_nil, List.count_cons_self] at h
          omega
      | cons b y =>
          obtain ⟨rfl, hrest⟩ := List.cons.inj heq
          have hcount : x.count c = y.count c := by
            rw [List.count_cons, List.count_cons] at h
            exact Nat.add_right_cancel h
          obtain ⟨rfl, hst⟩ := ih hcount s t hrest
          exact ⟨rfl, hst⟩

theorem Delimits.of_selfDelimiting (h : SelfDelimiting x y) : Delimits c x y := by
  intro s t heq
  have hx : x <+: y ++ c :: t := ⟨c :: s, heq⟩
  have hy : y <+: y ++ c :: t := List.prefix_append y _
  have hxy : x = y := by
    rcases List.prefix_or_prefix_of_prefix hx hy with hpre | hpre
    · exact h.1 hpre
    · exact h.2 hpre
  subst hxy
  exact ⟨rfl, (List.cons.inj (List.append_cancel_left heq)).2⟩

theorem Delimits.of_head {d : α} (hd : d ≠ c) : Delimits c [] (d :: y) := by
  intro s t heq
  exact absurd (List.cons.inj heq).1.symm hd

/-- Joined fields are the same when each is closed by the separator. -/
theorem joined_inj {xs ys : List (List α)} (h : List.Forall₂ (Delimits c) xs ys)
    (heq : [c].intercalate (xs ++ [x]) = [c].intercalate (ys ++ [y])) : xs = ys ∧ x = y := by
  induction h with
  | nil =>
      rw [List.nil_append, List.nil_append, List.intercalate_singleton,
        List.intercalate_singleton] at heq
      exact ⟨rfl, heq⟩
  | cons hfield _ ih =>
      rw [List.cons_append, List.cons_append, List.intercalate_cons_of_ne_nil (by simp),
        List.intercalate_cons_of_ne_nil (by simp), List.append_assoc, List.append_assoc] at heq
      obtain ⟨rfl, hrest⟩ := hfield _ _ heq
      obtain ⟨rfl, hlast⟩ := ih hrest
      exact ⟨rfl, hlast⟩

/-! ## The fields of a text -/

/-- A part of a text between two separators, or between one and an end. -/
structure IsField (p : α → Bool) (w l : List α) : Prop where
  free : ∀ c ∈ w, p c = false
  bounded : ∃ a b, l = a ++ w ++ b ∧ (a = [] ∨ ∃ a' c, a = a' ++ [c] ∧ p c = true)
    ∧ (b = [] ∨ ∃ c b', b = c :: b' ∧ p c = true)

variable {p : α → Bool} {w l : List α}

theorem IsField.mem_splitOnP (h : IsField p w l) : w ∈ l.splitOnP p := by
  obtain ⟨a, b, rfl, ha, hb⟩ := h.bounded
  have hw : w ∈ (w ++ b).splitOnP p := by
    rcases hb with rfl | ⟨c, b', rfl, hc⟩
    · rw [List.append_nil, List.splitOnP_eq_singleton h.free]
      exact List.mem_singleton_self w
    · rw [List.splitOnP_append_cons_of_forall_mem h.free c hc]
      exact List.mem_cons_self
  rcases ha with rfl | ⟨a', c, rfl, hc⟩
  · exact hw
  · rw [List.append_assoc, List.append_assoc, List.singleton_append,
      List.splitOnP_append_cons _ _ hc]
    exact List.mem_append_right _ hw

theorem isField_of_mem_splitOnP (h : w ∈ l.splitOnP p) : IsField p w l := by
  induction hlength : l.length using Nat.strong_induction_on generalizing l with
  | _ n ih =>
      by_cases hfree : ∀ c ∈ l, p c = false
      · rw [List.splitOnP_eq_singleton hfree, List.mem_singleton] at h
        subst h
        exact ⟨hfree, [], [], by simp, Or.inl rfl, Or.inl rfl⟩
      · -- the first field, its separator and the rest
        obtain ⟨c, rest, hdrop⟩ : ∃ c rest, l.dropWhile (fun c => !p c) = c :: rest := by
          apply List.exists_cons_of_ne_nil
          intro hnil
          apply hfree
          intro c hc
          simpa using List.dropWhile_eq_nil_iff.mp hnil c hc
        have hl : l = l.takeWhile (fun c => !p c) ++ c :: rest := by
          rw [← hdrop, List.takeWhile_append_dropWhile]
        have hc : p c = true := by
          have hhead := List.head?_dropWhile_not (fun c => !p c) l
          rw [hdrop] at hhead
          simpa using hhead
        have hfirst : ∀ d ∈ l.takeWhile (fun c => !p c), p d = false := by
          intro d hd
          simpa using List.mem_takeWhile_imp hd
        generalize l.takeWhile (fun c => !p c) = first at hl hfirst
        subst hl
        rw [List.splitOnP_append_cons_of_forall_mem hfirst c hc] at h
        rcases List.mem_cons.mp h with rfl | h
        · exact ⟨hfirst, [], c :: rest, by simp, Or.inl rfl, Or.inr ⟨c, rest, rfl, hc⟩⟩
        · obtain ⟨hw, a, b, hrest, ha, hb⟩ := ih rest.length (by simp at hlength; omega) h rfl
          refine ⟨hw, first ++ c :: a, b, by simp [hrest], Or.inr ?_, hb⟩
          rcases ha with rfl | ⟨a', d, rfl, hd⟩
          · exact ⟨first, c, rfl, hc⟩
          · exact ⟨first ++ c :: a', d, by simp, hd⟩

theorem mem_splitOnP_iff : w ∈ l.splitOnP p ↔ IsField p w l :=
  ⟨isField_of_mem_splitOnP, IsField.mem_splitOnP⟩

end AuraGateway.Foundations.Delimited
