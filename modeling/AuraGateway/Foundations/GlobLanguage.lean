import AuraGateway.Standard.RustStd

/-!
# Glob patterns

A glob over an alphabet with one distinguished letter `star`: the star stands
for any run of letters, every other letter for itself (`Glob`). Splitting the
pattern at its stars turns membership into a statement about segments
(`glob_iff_segmented`); with at least one star, the first and the last segment
pin the ends of the text and the others occur in order between them
(`segmented_ends_iff`). Searching each segment at its first occurrence decides
the middle part (`inOrder_cons_iff_find`).
-/

set_option autoImplicit false

namespace AuraGateway.Foundations.GlobLanguage

open AuraGateway.RustStd (find)

universe u

variable {α : Type u}

/-- The language of a glob pattern. -/
inductive Glob (star : α) : List α → List α → Prop where
  | nil : Glob star [] []
  | letter {c : α} {p t : List α} (hc : c ≠ star) (h : Glob star p t) :
      Glob star (c :: p) (c :: t)
  | run {p t : List α} (gap : List α) (h : Glob star p t) : Glob star (star :: p) (gap ++ t)

/-- The text is the segments in order, with an arbitrary gap between neighbours. -/
def Segmented : List (List α) → List α → Prop
  | [], t => t = []
  | [s], t => t = s
  | s :: r :: rest, t => ∃ gap t', t = s ++ (gap ++ t') ∧ Segmented (r :: rest) t'

/-- The segments occur in the text in order and without overlap. -/
def InOrder : List (List α) → List α → Prop
  | [], _ => True
  | s :: rest, t => ∃ a b, t = a ++ (s ++ b) ∧ InOrder rest b

theorem segmented_cons {s : List α} {rest : List (List α)} (hr : rest ≠ []) {t : List α} :
    Segmented (s :: rest) t ↔ ∃ gap t', t = s ++ (gap ++ t') ∧ Segmented rest t' := by
  cases rest with
  | nil => exact absurd rfl hr
  | cons r rest => exact Iff.rfl

/-- A letter in front of the first segment is a letter in front of the text. -/
theorem segmented_modifyHead_cons (c : α) :
    ∀ {segs : List (List α)}, segs ≠ [] → ∀ {t : List α},
      Segmented (segs.modifyHead (List.cons c)) t ↔ ∃ t', t = c :: t' ∧ Segmented segs t'
  | [], h, _ => absurd rfl h
  | [s], _, t => by simp [Segmented]
  | s :: r :: rest, _, t => by
      simp only [List.modifyHead_cons, Segmented]
      constructor
      · rintro ⟨gap, t', rfl, h⟩
        exact ⟨s ++ (gap ++ t'), rfl, gap, t', rfl, h⟩
      · rintro ⟨_, rfl, gap, t', rfl, h⟩
        exact ⟨gap, t', rfl, h⟩

/-- An empty first segment leaves an arbitrary gap in front of the rest. -/
theorem segmented_nil_cons {rest : List (List α)} (hr : rest ≠ []) {t : List α} :
    Segmented ([] :: rest) t ↔ ∃ gap t', t = gap ++ t' ∧ Segmented rest t' := by
  rw [segmented_cons hr]
  rfl

theorem glob_star_iff {star : α} {p t : List α} :
    Glob star (star :: p) t ↔ ∃ gap t', t = gap ++ t' ∧ Glob star p t' := by
  constructor
  · intro h
    cases h with
    | letter hc => exact absurd rfl hc
    | run gap h => exact ⟨gap, _, rfl, h⟩
  · rintro ⟨gap, t', rfl, h⟩
    exact .run gap h

theorem glob_letter_iff {star c : α} (hc : c ≠ star) {p t : List α} :
    Glob star (c :: p) t ↔ ∃ t', t = c :: t' ∧ Glob star p t' := by
  constructor
  · intro h
    cases h with
    | letter _ h => exact ⟨_, rfl, h⟩
    | run gap h => exact absurd rfl hc
  · rintro ⟨t', rfl, h⟩
    exact .letter hc h

/-- A glob matches exactly the texts cut up along its segments. -/
theorem glob_iff_segmented [DecidableEq α] {star : α} :
    ∀ (p : List α) {t : List α}, Glob star p t ↔ Segmented (p.splitOn star) t
  | [], t => by
      rw [List.splitOn_nil]
      constructor
      · intro h
        cases h
        rfl
      · rintro rfl
        exact .nil
  | c :: p, t => by
      have hne : p.splitOn star ≠ [] := List.splitOn_ne_nil star p
      rw [List.splitOn_cons_eq_if_modifyHead]
      by_cases hc : c = star
      · rw [if_pos (by simpa using hc), hc, glob_star_iff, segmented_nil_cons hne]
        simp only [glob_iff_segmented p]
      · rw [if_neg (by simpa using hc), glob_letter_iff hc, segmented_modifyHead_cons c hne]
        simp only [glob_iff_segmented p]

/-- With two or more segments the outer ones are the ends of the text and the
others lie in order between them. -/
theorem segmented_ends_iff (first last : List α) :
    ∀ (mid : List (List α)) {t : List α},
      Segmented (first :: (mid ++ [last])) t ↔
        ∃ body, t = first ++ (body ++ last) ∧ InOrder mid body
  | [], t => by
      simp only [List.nil_append, Segmented, InOrder]
      constructor
      · rintro ⟨gap, _, ht, rfl⟩
        exact ⟨gap, ht, trivial⟩
      · rintro ⟨body, ht, -⟩
        exact ⟨body, last, ht, rfl⟩
  | s :: mid, t => by
      rw [segmented_cons (by simp), List.cons_append]
      simp only [segmented_ends_iff s last mid, InOrder]
      constructor
      · rintro ⟨gap, _, rfl, body, rfl, h⟩
        -- the gap in front of `s`, then `s`, then the body of the shorter pattern
        exact ⟨gap ++ (s ++ body), by simp, gap, body, rfl, h⟩
      · rintro ⟨_, rfl, a, b, rfl, h⟩
        exact ⟨a, s ++ (b ++ last), by simp, b, rfl, h⟩

/-! ## Greedy search -/

/-- Text in front does not hide occurrences. -/
theorem InOrder.append_left {segs : List (List α)} {t : List α} (a : List α)
    (h : InOrder segs t) : InOrder segs (a ++ t) := by
  cases segs with
  | nil => trivial
  | cons s rest =>
      obtain ⟨b, c, rfl, hc⟩ := h
      exact ⟨a ++ b, c, by simp, hc⟩

theorem inOrder_nil_cons {rest : List (List α)} {t : List α} :
    InOrder ([] :: rest) t ↔ InOrder rest t := by
  constructor
  · rintro ⟨a, b, rfl, h⟩
    exact h.append_left a
  · intro h
    exact ⟨[], t, rfl, h⟩

section Search

variable [DecidableEq α]

/-- A found offset carries an occurrence. -/
theorem find_eq_some {s : List α} :
    ∀ {t : List α} {i : Nat}, find s t = some i → t = t.take i ++ (s ++ t.drop (i + s.length))
  | [], i, h => by
      cases s with
      | nil =>
          obtain rfl : 0 = i := by simpa [find] using h
          rfl
      | cons x s => simp [find] at h
  | c :: cs, i, h => by
      simp only [find] at h
      split at h
      · rename_i hp
        obtain rfl : 0 = i := by simpa using h
        obtain ⟨r, hr⟩ := List.isPrefixOf_iff_prefix.mp hp
        rw [← hr]
        simp
      · cases hf : find s cs with
        | none => simp [hf] at h
        | some j =>
            obtain rfl : j + 1 = i := by simpa [hf] using h
            have e := find_eq_some hf
            rw [List.take_succ_cons, Nat.add_right_comm, List.drop_succ_cons, List.cons_append, ← e]

/-- An occurrence is found, at its own offset or before. -/
theorem find_of_occurs {s : List α} :
    ∀ (a b : List α), ∃ i, i ≤ a.length ∧ find s (a ++ (s ++ b)) = some i
  | [], b => by
      refine ⟨0, Nat.le_refl 0, ?_⟩
      cases h : ([] : List α) ++ (s ++ b) with
      | nil =>
          obtain ⟨rfl, -⟩ : s = [] ∧ b = [] := by simpa using h
          rfl
      | cons c cs =>
          have hp : s.isPrefixOf (c :: cs) = true :=
            List.isPrefixOf_iff_prefix.mpr ⟨b, by simpa using h⟩
          simp [find, hp]
  | c :: a, b => by
      obtain ⟨i, hi, hf⟩ := find_of_occurs (s := s) a b
      by_cases hp : s.isPrefixOf (c :: (a ++ (s ++ b))) = true
      · exact ⟨0, Nat.zero_le _, by simp [find, hp]⟩
      · refine ⟨i + 1, Nat.succ_le_succ hi, ?_⟩
        rw [List.cons_append, find, if_neg hp, hf]
        rfl

/-- The first occurrence of a segment leaves the most text for the others. -/
theorem inOrder_cons_iff_find {s : List α} {rest : List (List α)} {t : List α} :
    InOrder (s :: rest) t ↔
      ∃ i, find s t = some i ∧ InOrder rest (t.drop (i + s.length)) := by
  constructor
  · rintro ⟨a, b, rfl, hb⟩
    -- the occurrence found starts no later, so `b` is a suffix of what it leaves
    obtain ⟨i, hi, hf⟩ := find_of_occurs (s := s) a b
    refine ⟨i, hf, ?_⟩
    have e : (a ++ (s ++ b)).drop (i + s.length) = ((a ++ s).drop (i + s.length)) ++ b := by
      rw [← List.append_assoc, List.drop_append_of_le_length]
      simp
      omega
    rw [e]
    exact hb.append_left _
  · rintro ⟨i, hf, h⟩
    exact ⟨t.take i, _, find_eq_some hf, h⟩

end Search

end AuraGateway.Foundations.GlobLanguage
