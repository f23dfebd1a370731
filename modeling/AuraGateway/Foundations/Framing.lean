import Mathlib

/-!
# Frames in a stream

A stream carries frames, each closed by a separator. The receiver gets it in chunks: it
appends each chunk to a buffer, cuts off the frames that are complete (`drain`) and carries
the rest over (`feed`).

What a receiver cuts off does not depend on where the chunks end (`feed_eq_drain`), and
from frames that do not hide a separator it gets the frames back (`drain_frames`).
-/

set_option autoImplicit false

namespace AuraGateway.Foundations.Framing

universe u v

variable {α : Type u} [DecidableEq α]

/-! ## The first separator -/

/-- What stands before and after the first occurrence of a separator. -/
def splitFirst (sep : List α) : List α → Option (List α × List α)
  | [] => none
  | a :: rest =>
      if sep <+: a :: rest then some ([], (a :: rest).drop sep.length)
      else (splitFirst sep rest).map fun p => (a :: p.1, p.2)

variable {sep : List α}

theorem eq_of_splitFirst {l p r : List α} (h : splitFirst sep l = some (p, r)) :
    l = p ++ (sep ++ r) := by
  induction l generalizing p r with
  | nil => cases h
  | cons a rest ih =>
      simp only [splitFirst] at h
      split at h
      · rename_i hpre
        obtain ⟨rfl, rfl⟩ := Prod.mk.inj (Option.some.inj h)
        exact (List.prefix_iff_eq_append.mp hpre).symm
      · obtain ⟨⟨p', r'⟩, hsplit, heq⟩ := Option.map_eq_some_iff.mp h
        obtain ⟨rfl, rfl⟩ := Prod.mk.inj heq
        rw [ih hsplit]
        rfl

/-- The first separator stays the first when text is appended. -/
theorem splitFirst_append {l p r : List α} (h : splitFirst sep l = some (p, r)) (m : List α) :
    splitFirst sep (l ++ m) = some (p, r ++ m) := by
  induction l generalizing p r with
  | nil => cases h
  | cons a rest ih =>
      have hlen : sep.length ≤ (a :: rest).length := by
        rw [eq_of_splitFirst h]
        simp only [List.length_append]
        omega
      simp only [splitFirst, List.cons_append] at h ⊢
      by_cases hpre : sep <+: a :: rest
      · rw [if_pos hpre] at h
        obtain ⟨rfl, rfl⟩ := Prod.mk.inj (Option.some.inj h)
        have hpre' : sep <+: a :: (rest ++ m) := hpre.trans (List.prefix_append (a :: rest) m)
        rw [if_pos hpre', ← List.cons_append, List.drop_append_of_le_length hlen]
      · -- a separator that reaches into the appended text would not end in time
        have hpre' : ¬ sep <+: a :: (rest ++ m) := by
          intro hpre'
          exact hpre (List.prefix_of_prefix_length_le hpre' (List.prefix_append (a :: rest) m) hlen)
        rw [if_neg hpre] at h
        obtain ⟨⟨p', r'⟩, hsplit, heq⟩ := Option.map_eq_some_iff.mp h
        obtain ⟨rfl, rfl⟩ := Prod.mk.inj heq
        rw [if_neg hpre', ih hsplit]
        rfl

theorem length_of_splitFirst (hsep : sep ≠ []) {l p r : List α} (h : splitFirst sep l = some (p, r)) :
    r.length < l.length := by
  have hpos := List.length_pos_of_ne_nil hsep
  rw [eq_of_splitFirst h]
  simp only [List.length_append]
  omega

/-- Text without the first element of the separator is passed over. -/
theorem splitFirst_append_of_not_mem {c : α} {s a : List α} (h : c ∉ a) (l : List α) :
    splitFirst (c :: s) (a ++ l) = (splitFirst (c :: s) l).map fun p => (a ++ p.1, p.2) := by
  induction a with
  | nil => simp
  | cons x a ih =>
      have hne : ¬ (c :: s) <+: x :: (a ++ l) := by
        intro hpre
        exact h (List.mem_cons.mpr (Or.inl (List.cons_prefix_cons.mp hpre).1))
      rw [List.cons_append, splitFirst, if_neg hne, ih (fun hmem => h (List.mem_cons_of_mem x hmem)),
        Option.map_map]
      rfl

/-! ## Cutting off frames -/

/-- Cut off frames while there are any, and keep the rest. -/
def drain (sep : List α) (hsep : sep ≠ []) (buffer : List α) : List (List α) × List α :=
  match h : splitFirst sep buffer with
  | none => ([], buffer)
  | some (frame, rest) =>
      have := length_of_splitFirst hsep h
      let drained := drain sep hsep rest
      (frame :: drained.1, drained.2)
termination_by buffer.length

variable {hsep : sep ≠ []}

theorem drain_of_none {buffer : List α} (h : splitFirst sep buffer = none) :
    drain sep hsep buffer = ([], buffer) := by
  rw [drain]
  split
  · rfl
  · rename_i hsome
    rw [h] at hsome
    cases hsome

theorem drain_of_some {buffer frame rest : List α} (h : splitFirst sep buffer = some (frame, rest)) :
    drain sep hsep buffer
      = (frame :: (drain sep hsep rest).1, (drain sep hsep rest).2) := by
  rw [drain]
  split
  · rename_i hnone
    rw [h] at hnone
    cases hnone
  · rename_i hsome
    rw [h] at hsome
    obtain ⟨rfl, rfl⟩ := Prod.mk.inj (Option.some.inj hsome)
    rfl

/-- The frames of a text come first among those of a longer one. -/
theorem drain_append (l m : List α) :
    drain sep hsep (l ++ m)
      = ((drain sep hsep l).1 ++ (drain sep hsep ((drain sep hsep l).2 ++ m)).1,
          (drain sep hsep ((drain sep hsep l).2 ++ m)).2) := by
  -- over the frames of the first text
  induction l using (measure List.length).wf.induction with
  | _ l ih =>
      cases h : splitFirst sep l with
      | none =>
          rw [drain_of_none h]
          rfl
      | some p =>
          obtain ⟨frame, rest⟩ := p
          rw [drain_of_some (splitFirst_append h m), drain_of_some h,
            ih rest (length_of_splitFirst hsep h)]
          rfl

/-- Feed chunks one after the other to a receiver that has carried a buffer over. -/
def feed (sep : List α) (hsep : sep ≠ []) (buffer : List α) :
    List (List α) → List (List α) × List α
  | [] => ([], buffer)
  | chunk :: chunks =>
      let drained := drain sep hsep (buffer ++ chunk)
      let fed := feed sep hsep drained.2 chunks
      (drained.1 ++ fed.1, fed.2)

theorem splitFirst_drain (buffer : List α) :
    splitFirst sep (drain sep hsep buffer).2 = none := by
  induction buffer using (measure List.length).wf.induction with
  | _ buffer ih =>
      cases h : splitFirst sep buffer with
      | none =>
          rw [drain_of_none h]
          exact h
      | some p =>
          obtain ⟨frame, rest⟩ := p
          rw [drain_of_some h]
          exact ih rest (length_of_splitFirst hsep h)

/-- Where the chunks end does not matter. -/
theorem feed_eq_drain {buffer : List α} (h : splitFirst sep buffer = none) (chunks : List (List α)) :
    feed sep hsep buffer chunks = drain sep hsep (buffer ++ chunks.flatten) := by
  induction chunks generalizing buffer with
  | nil => rw [List.flatten_nil, List.append_nil, drain_of_none h, feed]
  | cons chunk chunks ih =>
      rw [feed, ih (splitFirst_drain _), List.flatten_cons, ← List.append_assoc,
        ← drain_append (buffer ++ chunk) chunks.flatten]

/-- A frame whose first separator is the one that closes it. -/
def Framed (sep frame : List α) : Prop := splitFirst sep (frame ++ sep) = some (frame, [])

/-- A series of frames is received as it was sent. -/
theorem drain_frames {frames : List (List α)} (h : ∀ f ∈ frames, Framed sep f) :
    drain sep hsep (frames.flatMap fun f => f ++ sep) = (frames, []) := by
  induction frames with
  | nil => exact drain_of_none rfl
  | cons f frames ih =>
      have hfirst := splitFirst_append (h f (List.mem_cons_self ..)) (frames.flatMap fun f => f ++ sep)
      rw [List.flatMap_cons, drain_of_some hfirst, List.nil_append,
        ih fun g hg => h g (List.mem_cons_of_mem f hg)]

/-- Two lines make a frame when frames are closed by an empty line. -/
theorem framed_two_lines {c : α} {a b : List α} (ha : c ∉ a) (hb : c ∉ b) (hne : b ≠ []) :
    Framed [c, c] (a ++ c :: b) := by
  obtain ⟨d, b, rfl⟩ := List.exists_cons_of_ne_nil hne
  have hd : d ≠ c := fun heq => hb (heq ▸ List.mem_cons_self ..)
  -- the line end after the first line is not followed by another
  have hsecond : splitFirst [c, c] (c :: (d :: b ++ [c, c])) = some (c :: d :: b, []) := by
    have hpre : ¬ [c, c] <+: c :: (d :: b ++ [c, c]) := by
      intro hpre
      exact hd (List.cons_prefix_cons.mp (List.cons_prefix_cons.mp hpre).2).1.symm
    rw [splitFirst, if_neg hpre, splitFirst_append_of_not_mem hb]
    simp [splitFirst]
  rw [Framed, List.append_assoc, List.cons_append, splitFirst_append_of_not_mem ha, hsecond]
  rfl

end AuraGateway.Foundations.Framing
