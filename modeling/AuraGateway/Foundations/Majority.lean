import AuraGateway.Foundations.KeyedFolds

/-!
# Majorities and medians

The elements of a list are counted in the order of their first occurrences, and a pass over the
counts keeps the first of the highest (`leader`). A strict majority is unique, and it leads
(`leader_eq_of_majority`), whatever the order of the list. The middle elements of a sorted list
do not depend on its order either (`insertionSort_eq_of_perm`).
-/

set_option autoImplicit false

namespace AuraGateway.Foundations.Majority

open AuraGateway.Foundations.KeyedFolds

universe u

variable {α : Type u}

/-! ## Leaders -/

/-- The first of the entries with the highest count, if it is above that of `start`. -/
def leader (start : α × Nat) (entries : List (α × Nat)) : α × Nat :=
  entries.foldl (fun best e => if best.2 < e.2 then e else best) start

theorem leader_mem (start : α × Nat) (entries : List (α × Nat)) :
    leader start entries = start ∨ leader start entries ∈ entries := by
  induction entries generalizing start with
  | nil => exact .inl rfl
  | cons e entries ih =>
      rw [leader, List.foldl_cons]
      rcases ih (if start.2 < e.2 then e else start) with heq | hmem
      · rw [leader] at heq
        rw [heq]
        split
        · exact .inr List.mem_cons_self
        · exact .inl rfl
      · exact .inr (List.mem_cons_of_mem e hmem)

theorem le_leader (start : α × Nat) (entries : List (α × Nat)) :
    start.2 ≤ (leader start entries).2 ∧ ∀ e ∈ entries, e.2 ≤ (leader start entries).2 := by
  induction entries generalizing start with
  | nil => exact ⟨le_rfl, fun e he => absurd he List.not_mem_nil⟩
  | cons e entries ih =>
      obtain ⟨hstart, hrest⟩ := ih (if start.2 < e.2 then e else start)
      have hboth : start.2 ≤ (if start.2 < e.2 then e else start).2
          ∧ e.2 ≤ (if start.2 < e.2 then e else start).2 := by
        split <;> omega
      refine ⟨hboth.1.trans hstart, fun x hx => ?_⟩
      rcases List.mem_cons.mp hx with rfl | hx
      · exact hboth.2.trans hstart
      · exact hrest x hx

/-! ## Counts -/

section Counts

variable [DecidableEq α]

/-- The elements with their counts, in the order of their first occurrences. -/
def tally (l : List α) : List (α × Nat) := collect 0 id (fun _ n => n + 1) l

theorem entry_eq_count (l : List α) (a : α) : entry 0 id (fun _ n => n + 1) l a = l.count a := by
  induction l using List.reverseRecOn with
  | nil => rfl
  | append_singleton l b ih =>
      rw [entry_concat, ih, List.count_append, id]
      by_cases hb : b = a
      · rw [if_pos hb, hb, List.count_singleton_self]
      · rw [if_neg hb, List.count_singleton, beq_eq_false_iff_ne.mpr hb]
        rfl

theorem mem_tally {l : List α} {a : α} {n : Nat} : (a, n) ∈ tally l ↔ a ∈ l ∧ n = l.count a := by
  have hkeys : ∀ b, b ∈ (tally l).map Prod.fst ↔ b ∈ l := by
    intro b
    rw [tally, mem_keys_collect, List.map_id]
  rw [tally, collect_eq_map, List.mem_map]
  simp only [entry_eq_count, Prod.mk.injEq]
  constructor
  · rintro ⟨b, hb, rfl, rfl⟩
    exact ⟨(hkeys b).mp hb, rfl⟩
  · rintro ⟨ha, rfl⟩
    exact ⟨a, (hkeys a).mpr ha, rfl, rfl⟩

/-- The leader of a tally has the highest count. -/
theorem leader_tally {l : List α} (hne : l ≠ []) (a : α) :
    (leader (a, 0) (tally l)).1 ∈ l
      ∧ (leader (a, 0) (tally l)).2 = l.count (leader (a, 0) (tally l)).1
      ∧ ∀ b, l.count b ≤ (leader (a, 0) (tally l)).2 := by
  have hmost : ∀ b, l.count b ≤ (leader (a, 0) (tally l)).2 := by
    intro b
    by_cases hb : b ∈ l
    · exact (le_leader (a, 0) (tally l)).2 (b, l.count b) (mem_tally.mpr ⟨hb, rfl⟩)
    · rw [List.count_eq_zero_of_not_mem hb]
      exact Nat.zero_le _
  rcases leader_mem (a, 0) (tally l) with heq | hmem
  · -- every element of the list is above the start
    obtain ⟨b, hb⟩ := List.exists_mem_of_ne_nil l hne
    have hpos := List.count_pos_iff.mpr hb
    have hle := hmost b
    rw [heq] at hle
    exact absurd hle (Nat.not_le.mpr hpos)
  · obtain ⟨hin, hcount⟩ := mem_tally.mp hmem
    exact ⟨hin, hcount, hmost⟩

/-! ## Majorities -/

/-- More than half of the elements are `a`. -/
def StrictMajority (l : List α) (a : α) : Prop := l.length < 2 * l.count a

theorem count_add_count_le {a b : α} (hab : a ≠ b) (l : List α) :
    l.count a + l.count b ≤ l.length := by
  induction l with
  | nil => exact le_rfl
  | cons c l ih =>
      rw [List.count_cons, List.count_cons, List.length_cons]
      by_cases hca : c = a
      · have hcb : c ≠ b := fun h => hab (hca.symm.trans h)
        simp only [hca, beq_self_eq_true, if_true, beq_eq_false_iff_ne.mpr hab, Bool.false_eq_true,
          if_false]
        omega
      · have hstep : (if (c == b) = true then 1 else 0) ≤ 1 := by split <;> omega
        simp only [beq_eq_false_iff_ne.mpr hca, Bool.false_eq_true, if_false]
        omega

theorem StrictMajority.unique {l : List α} {a b : α} (ha : StrictMajority l a)
    (hb : StrictMajority l b) : a = b := by
  by_contra hab
  have hle := count_add_count_le hab l
  rw [StrictMajority] at ha hb
  omega

theorem StrictMajority.ne_nil {l : List α} {a : α} (h : StrictMajority l a) : l ≠ [] := by
  rintro rfl
  exact absurd h (Nat.lt_irrefl 0)

theorem strictMajority_congr {l l' : List α} (h : l.Perm l') (a : α) :
    StrictMajority l a ↔ StrictMajority l' a := by
  rw [StrictMajority, StrictMajority, h.length_eq, h.count_eq]

/-- A strict majority leads. -/
theorem leader_eq_of_majority {l : List α} {a : α} (h : StrictMajority l a) (b : α) :
    leader (b, 0) (tally l) = (a, l.count a) := by
  obtain ⟨-, hcount, hmost⟩ := leader_tally h.ne_nil b
  have hlead : StrictMajority l (leader (b, 0) (tally l)).1 := by
    have hle := hmost a
    rw [StrictMajority] at h ⊢
    omega
  have heq := hlead.unique h
  rw [heq] at hcount
  exact Prod.ext heq hcount

theorem majority_of_leader {l : List α} (hne : l ≠ []) (b : α)
    (h : l.length < (leader (b, 0) (tally l)).2 * 2) :
    StrictMajority l (leader (b, 0) (tally l)).1 := by
  obtain ⟨-, hcount, -⟩ := leader_tally hne b
  rw [StrictMajority, ← hcount]
  omega

end Counts

/-! ## Sorted lists -/

section Sorted

variable [LinearOrder α]

theorem insertionSort_eq_of_perm {l l' : List α} (h : l.Perm l') :
    l.insertionSort (· ≤ ·) = l'.insertionSort (· ≤ ·) :=
  List.Perm.eq_of_pairwise' (List.pairwise_insertionSort (· ≤ ·) l)
    (List.pairwise_insertionSort (· ≤ ·) l')
    ((List.perm_insertionSort _ l).trans (h.trans (List.perm_insertionSort _ l').symm))

/-- A list that is not empty has a least and a greatest element. -/
theorem exists_bounds {l : List α} (hne : l ≠ []) :
    ∃ lo ∈ l, ∃ hi ∈ l, ∀ a ∈ l, lo ≤ a ∧ a ≤ hi := by
  have hfin : l.toFinset.Nonempty := by
    obtain ⟨a, ha⟩ := List.exists_mem_of_ne_nil l hne
    exact ⟨a, List.mem_toFinset.mpr ha⟩
  obtain ⟨lo, hlo, hmin⟩ := l.toFinset.exists_min_image id hfin
  obtain ⟨hi, hhi, hmax⟩ := l.toFinset.exists_max_image id hfin
  refine ⟨lo, List.mem_toFinset.mp hlo, hi, List.mem_toFinset.mp hhi, fun a ha => ?_⟩
  exact ⟨hmin a (List.mem_toFinset.mpr ha), hmax a (List.mem_toFinset.mpr ha)⟩

end Sorted

end AuraGateway.Foundations.Majority
