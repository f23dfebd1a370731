import Mathlib

/-!
# Texts read with a state

A text is cut at its separators where the state of a reader allows it: a line at every line break, a
row at the commas that stand between no quotes. Parts that are joined with the separator come back
exactly when the reader meets no cut in any of them and is where it started behind all but the last
(`pieces_joined_iff`).
-/

set_option autoImplicit false

namespace AuraGateway.Foundations.QuotedCells

universe u v

variable {σ : Type u} {α : Type v}

/-- A reader: in its first state the separator is a cut, and it stays there behind one. -/
structure Reader (σ : Type u) (α : Type v) where
  start : σ
  step : σ → α → σ
  sep : α
  step_sep : step start sep = start

variable [DecidableEq σ] [DecidableEq α] (r : Reader σ α)

/-- The parts of a text between its cuts. -/
def pieces : σ → List α → List (List α)
  | _, [] => [[]]
  | q, a :: l =>
      if q = r.start ∧ a = r.sep then [] :: pieces (r.step q a) l
      else (pieces (r.step q a) l).modifyHead (a :: ·)

/-- The state behind a text without a cut. -/
def scan : σ → List α → Option σ
  | q, [] => some q
  | q, a :: l => if q = r.start ∧ a = r.sep then none else scan (r.step q a) l

variable {r} {q s : σ} {x y : List α}

theorem scan_append : scan r q (x ++ y) = (scan r q x).bind fun s => scan r s y := by
  induction x generalizing q with
  | nil => rfl
  | cons a x ih =>
      simp only [List.cons_append, scan]
      split
      · rfl
      · exact ih

/-- A text of characters that leave the state alone. -/
theorem scan_of_fixed (h : ∀ a ∈ x, a ≠ r.sep ∧ r.step q a = q) : scan r q x = some q := by
  induction x with
  | nil => rfl
  | cons a x ih =>
      obtain ⟨hsep, hstep⟩ := h a List.mem_cons_self
      rw [scan, if_neg fun hcut => hsep hcut.2, hstep]
      exact ih fun b hb => h b (List.mem_cons_of_mem a hb)

theorem pieces_ne_nil (x : List α) : pieces r q x ≠ [] := by
  induction x generalizing q with
  | nil => exact List.cons_ne_nil _ _
  | cons a x ih =>
      rw [pieces]
      split
      · exact List.cons_ne_nil _ _
      · exact mt List.modifyHead_eq_nil_iff.mp ih

/-- A text without a cut is the beginning of its first part. -/
theorem pieces_append (h : scan r q x = some s) :
    pieces r q (x ++ y) = (pieces r s y).modifyHead (x ++ ·) := by
  induction x generalizing q with
  | nil =>
      obtain rfl := Option.some.inj h
      exact (congrFun List.modifyHead_id _).symm
  | cons a x ih =>
      rw [scan] at h
      split at h
      · cases h
      · rename_i hcut
        rw [List.cons_append, pieces, if_neg hcut, ih h, List.modifyHead_modifyHead]
        rfl

/-- The first part has no cut. -/
theorem scan_of_pieces {ps : List (List α)} (h : pieces r q y = x :: ps) :
    (scan r q x).isSome = true := by
  induction y generalizing q x ps with
  | nil =>
      obtain ⟨rfl, -⟩ := List.cons.inj h
      rfl
  | cons a y ih =>
      rw [pieces] at h
      split at h
      · obtain ⟨rfl, -⟩ := List.cons.inj h
        rfl
      · rename_i hcut
        cases hrest : pieces r (r.step q a) y with
        | nil => exact absurd hrest (pieces_ne_nil y)
        | cons z zs =>
            rw [hrest, List.modifyHead_cons] at h
            obtain ⟨rfl, -⟩ := List.cons.inj h
            rw [scan, if_neg hcut]
            exact ih hrest

theorem pieces_eq_singleton_iff : pieces r q x = [x] ↔ (scan r q x).isSome = true := by
  constructor
  · exact scan_of_pieces
  · intro h
    obtain ⟨s, hs⟩ := Option.isSome_iff_exists.mp h
    have heq := pieces_append (y := []) hs
    rw [List.append_nil] at heq
    rw [heq, pieces, List.modifyHead_cons, List.append_nil]

/-- The parts make the text again. -/
theorem intercalate_pieces : [r.sep].intercalate (pieces r q x) = x := by
  induction x generalizing q with
  | nil => rfl
  | cons a x ih =>
      rw [pieces]
      obtain ⟨z, zs, hrest⟩ := List.exists_cons_of_ne_nil (pieces_ne_nil (r := r)
        (q := r.step q a) x)
      have ih := ih (q := r.step q a)
      rw [hrest] at ih ⊢
      split
      · rename_i hcut
        rw [List.intercalate_cons_of_ne_nil (by simp), List.nil_append, ih, hcut.2,
          List.singleton_append]
      · rw [List.modifyHead_cons]
        cases zs with
        | nil =>
            rw [List.intercalate_singleton] at ih ⊢
            exact congrArg (List.cons a) ih
        | cons w zs =>
            rw [List.intercalate_cons_of_ne_nil (by simp)] at ih ⊢
            exact congrArg (List.cons a) ih

/-- Joined parts come back when none has a cut and the reader is where it started behind all but the
last, and only then. -/
theorem pieces_joined_iff {ps : List (List α)} (hps : ps ≠ []) :
    pieces r r.start ([r.sep].intercalate ps) = ps
      ↔ (∀ p ∈ ps, (scan r r.start p).isSome = true)
        ∧ ∀ p ∈ ps.dropLast, scan r r.start p = some r.start := by
  induction ps with
  | nil => exact absurd rfl hps
  | cons p ps ih =>
      cases ps with
      | nil => simp [pieces_eq_singleton_iff]
      | cons p' ps =>
          have ih := ih (List.cons_ne_nil _ _)
          rw [List.intercalate_cons_of_ne_nil (by simp), List.append_assoc, List.singleton_append,
            List.dropLast_cons_of_ne_nil (List.cons_ne_nil _ _), List.forall_mem_cons (a := p),
            List.forall_mem_cons (a := p)]
          generalize [r.sep].intercalate (p' :: ps) = rest at ih ⊢
          -- behind the first part the reader cuts where it is back at its start
          have hcut (h : scan r r.start p = some r.start) :
              pieces r r.start (p ++ r.sep :: rest) = p :: pieces r r.start rest := by
            rw [pieces_append h, pieces, if_pos ⟨rfl, rfl⟩, r.step_sep, List.modifyHead_cons,
              List.append_nil]
          constructor
          · intro heq
            obtain ⟨s, hs⟩ := Option.isSome_iff_exists.mp (scan_of_pieces heq)
            have hstart : s = r.start := by
              by_contra hne
              rw [pieces_append hs, pieces, if_neg fun h => hne h.1,
                List.modifyHead_modifyHead] at heq
              obtain ⟨z, zs, hrest⟩ := List.exists_cons_of_ne_nil (pieces_ne_nil (r := r)
                (q := r.step s r.sep) rest)
              rw [hrest, List.modifyHead_cons] at heq
              have hlength := congrArg List.length (List.cons.inj heq).1
              simp at hlength
            subst hstart
            rw [hcut hs] at heq
            obtain ⟨hall, hlast⟩ := ih.mp (List.cons.inj heq).2
            exact ⟨⟨Option.isSome_iff_exists.mpr ⟨_, hs⟩, hall⟩, hs, hlast⟩
          · rintro ⟨⟨-, hall⟩, hs, hlast⟩
            rw [hcut hs, ih.mpr ⟨hall, hlast⟩]

end AuraGateway.Foundations.QuotedCells
