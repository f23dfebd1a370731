import Mathlib

/-!
# Unique reading

A writer gives a text for each value. A text with something behind it is read uniquely when no other
value, with something else behind it, is written the same (`ReadsAs`). What may stand behind it
is part of the statement: a word ends at the character behind it, and values in a row end at the
separator or at what stops the row.

Words read uniquely behind which a character follows that they do not have (`word_unique`), texts
in quotation marks whose own marks are escaped (`quoted_unique`), and values in a row when each of
them does and nothing that stops the row goes on like a further value (`joined_unique`).
-/

set_option autoImplicit false

namespace AuraGateway.Foundations.UniqueReading

universe u v

variable {α : Type u} {β : Type v}

/-! ## Words -/

/-- Nothing, or something that starts with a character with the property. -/
def Stops (p : β → Prop) (r : List β) : Prop := ∀ c ∈ r.head?, p c

theorem stops_nil {p : β → Prop} : Stops p [] := by
  intro c hc
  cases hc

theorem stops_cons {p : β → Prop} {c : β} {r : List β} :
    Stops p (c :: r) ↔ p c := by
  simp [Stops]

/-- Words end at the first character that is none of theirs. -/
theorem word_unique {p : β → Prop} {x y r s : List β} (hx : ∀ c ∈ x, ¬ p c)
    (hy : ∀ c ∈ y, ¬ p c) (hr : Stops p r) (hs : Stops p s)
    (heq : x ++ r = y ++ s) : x = y ∧ r = s := by
  induction x generalizing y with
  | nil =>
      cases y with
      | nil => exact ⟨rfl, heq⟩
      | cons b y =>
          subst heq
          exact absurd (stops_cons.mp hr) (hy b (List.mem_cons_self ..))
  | cons a x ih =>
      cases y with
      | nil =>
          rw [List.nil_append] at heq
          subst heq
          exact absurd (stops_cons.mp hs) (hx a (List.mem_cons_self ..))
      | cons b y =>
          obtain ⟨rfl, hrest⟩ := List.cons.inj heq
          obtain ⟨rfl, hrs⟩ := ih (fun c hc => hx c (List.mem_cons_of_mem a hc))
            (fun c hc => hy c (List.mem_cons_of_mem a hc)) hrest
          exact ⟨rfl, hrs⟩

/-! ## Quotation -/

/-- A text in which the quotation mark and the escape character stand behind the escape character. -/
def escaped [DecidableEq β] (mark escape : β) (t : List β) : List β :=
  t.flatMap fun c => if c = mark ∨ c = escape then [escape, c] else [c]

section Quoted

variable [DecidableEq β] {mark escape c : β} {x y r s : List β}

theorem escaped_nil : escaped mark escape [] = [] := rfl

theorem escaped_cons_of_special (h : c = mark ∨ c = escape) :
    escaped mark escape (c :: x) = escape :: c :: escaped mark escape x := by
  rw [escaped, List.flatMap_cons, if_pos h]
  rfl

theorem escaped_cons_of_plain (h : ¬ (c = mark ∨ c = escape)) :
    escaped mark escape (c :: x) = c :: escaped mark escape x := by
  rw [escaped, List.flatMap_cons, if_neg h]
  rfl

/-- No text that goes on starts with the mark that ends it. -/
theorem escaped_cons_ne_mark (hne : mark ≠ escape) (c : β) (x s r : List β) :
    escaped mark escape (c :: x) ++ s ≠ mark :: r := by
  by_cases h : c = mark ∨ c = escape
  · rw [escaped_cons_of_special h, List.cons_append]
    intro heq
    exact hne (List.cons.inj heq).1.symm
  · rw [escaped_cons_of_plain h, List.cons_append]
    intro heq
    exact h (.inl (List.cons.inj heq).1)

/-- A quoted text ends at the first mark that is not escaped. -/
theorem quoted_unique (hne : mark ≠ escape)
    (heq : escaped mark escape x ++ mark :: r = escaped mark escape y ++ mark :: s) :
    x = y ∧ r = s := by
  induction x generalizing y with
  | nil =>
      cases y with
      | nil => exact ⟨rfl, (List.cons.inj heq).2⟩
      | cons b y => exact absurd heq.symm (escaped_cons_ne_mark hne b y _ _)
  | cons a x ih =>
      cases y with
      | nil => exact absurd heq (escaped_cons_ne_mark hne a x _ _)
      | cons b y =>
          by_cases ha : a = mark ∨ a = escape
          · by_cases hb : b = mark ∨ b = escape
            · rw [escaped_cons_of_special ha, escaped_cons_of_special hb] at heq
              obtain ⟨rfl, hrest⟩ := List.cons.inj (List.cons.inj heq).2
              obtain ⟨rfl, hrs⟩ := ih hrest
              exact ⟨rfl, hrs⟩
            · -- the escape character would stand there without being escaped
              rw [escaped_cons_of_special ha, escaped_cons_of_plain hb] at heq
              exact absurd (.inr (List.cons.inj heq).1.symm) hb
          · by_cases hb : b = mark ∨ b = escape
            · rw [escaped_cons_of_plain ha, escaped_cons_of_special hb] at heq
              exact absurd (.inr (List.cons.inj heq).1) ha
            · rw [escaped_cons_of_plain ha, escaped_cons_of_plain hb] at heq
              obtain ⟨rfl, hrest⟩ := List.cons.inj heq
              obtain ⟨rfl, hrs⟩ := ih hrest
              exact ⟨rfl, hrs⟩

end Quoted

/-! ## Values in a row -/

/-- No other value is written like `a`, with something behind it that may stand there. -/
def ReadsAs (enc : α → List β) (Ok : α → Prop) (Follow : List β → Prop) (a : α) : Prop :=
  ∀ b, Ok b → ∀ r s, Follow r → Follow s → enc a ++ r = enc b ++ s → a = b ∧ r = s

/-- What stands behind a value in a row: a separator and a further value, or what stops the row. -/
def InRow (enc : α → List β) (Ok : α → Prop) (sep : List β) (Stop : List β → Prop)
    (r : List β) : Prop :=
  Stop r ∨ ∃ b t, Ok b ∧ r = sep ++ (enc b ++ t)

variable {enc : α → List β} {Ok : α → Prop} {sep : List β} {Stop : List β → Prop}

/-- Further values, each behind a separator, and what stops the row. -/
theorem inRow_flatMap {xs : List α} (hxs : ∀ a ∈ xs, Ok a) {r : List β} (hr : Stop r) :
    InRow enc Ok sep Stop ((xs.flatMap fun a => sep ++ enc a) ++ r) := by
  cases xs with
  | nil => exact .inl hr
  | cons a xs =>
      refine .inr ⟨a, (xs.flatMap fun a => sep ++ enc a) ++ r, hxs a (List.mem_cons_self ..), ?_⟩
      simp only [List.flatMap_cons, List.append_assoc]

/-- The further values of a row read uniquely when each value does and nothing that stops the row
goes on like a further value. -/
theorem rest_unique (hstop : ∀ r, Stop r → ∀ b t, Ok b → r ≠ sep ++ (enc b ++ t))
    {xs ys : List α} (hxs : ∀ a ∈ xs, Ok a ∧ ReadsAs enc Ok (InRow enc Ok sep Stop) a)
    (hys : ∀ b ∈ ys, Ok b) {r s : List β} (hr : Stop r) (hs : Stop s)
    (heq : (xs.flatMap fun a => sep ++ enc a) ++ r = (ys.flatMap fun b => sep ++ enc b) ++ s) :
    xs = ys ∧ r = s := by
  induction xs generalizing ys with
  | nil =>
      cases ys with
      | nil => exact ⟨rfl, heq⟩
      | cons b ys =>
          rw [List.flatMap_nil, List.nil_append, List.flatMap_cons, List.append_assoc,
            List.append_assoc] at heq
          exact absurd heq (hstop r hr b _ (hys b (List.mem_cons_self ..)))
  | cons a xs ih =>
      obtain ⟨ha, hread⟩ := hxs a (List.mem_cons_self ..)
      have hxs' := fun x hx => hxs x (List.mem_cons_of_mem a hx)
      cases ys with
      | nil =>
          rw [List.flatMap_nil, List.nil_append, List.flatMap_cons, List.append_assoc,
            List.append_assoc] at heq
          exact absurd heq.symm (hstop s hs a _ ha)
      | cons b ys =>
          have hys' := fun y hy => hys y (List.mem_cons_of_mem b hy)
          rw [List.flatMap_cons, List.flatMap_cons, List.append_assoc, List.append_assoc,
            List.append_assoc, List.append_assoc, List.append_cancel_left_eq] at heq
          obtain ⟨rfl, hrest⟩ := hread b (hys b (List.mem_cons_self ..)) _ _
            (inRow_flatMap (fun x hx => (hxs' x hx).1) hr) (inRow_flatMap hys' hs) heq
          obtain ⟨rfl, hrs⟩ := ih hxs' hys' hrest
          exact ⟨rfl, hrs⟩

theorem intercalate_map_cons (a : α) (xs : List α) :
    sep.intercalate ((a :: xs).map enc) = enc a ++ xs.flatMap fun b => sep ++ enc b := by
  induction xs generalizing a with
  | nil => simp
  | cons b xs ih =>
      rw [List.map_cons, List.map_cons, List.intercalate_cons_cons, ← List.map_cons, ih,
        List.flatMap_cons, List.append_assoc, List.append_assoc]

/-- Rows of values read uniquely when each value does and nothing that stops the row goes on like
a further value. -/
theorem joined_unique (hstop : ∀ r, Stop r → ∀ b t, Ok b → r ≠ sep ++ (enc b ++ t))
    {xs ys : List α} (hxs : ∀ a ∈ xs, Ok a ∧ ReadsAs enc Ok (InRow enc Ok sep Stop) a)
    (hys : ∀ b ∈ ys, Ok b) (hx : xs ≠ []) (hy : ys ≠ []) {r s : List β} (hr : Stop r)
    (hs : Stop s)
    (heq : sep.intercalate (xs.map enc) ++ r = sep.intercalate (ys.map enc) ++ s) :
    xs = ys ∧ r = s := by
  obtain ⟨a, xs, rfl⟩ := List.exists_cons_of_ne_nil hx
  obtain ⟨b, ys, rfl⟩ := List.exists_cons_of_ne_nil hy
  obtain ⟨-, hread⟩ := hxs a (List.mem_cons_self ..)
  have hxs' := fun x hx => hxs x (List.mem_cons_of_mem a hx)
  have hys' := fun y hy => hys y (List.mem_cons_of_mem b hy)
  rw [intercalate_map_cons, intercalate_map_cons, List.append_assoc, List.append_assoc] at heq
  obtain ⟨rfl, hrest⟩ := hread b (hys b (List.mem_cons_self ..)) _ _
    (inRow_flatMap (fun x hx => (hxs' x hx).1) hr) (inRow_flatMap hys' hs) heq
  obtain ⟨rfl, hrs⟩ := rest_unique hstop hxs' hys' hr hs hrest
  exact ⟨rfl, hrs⟩

end AuraGateway.Foundations.UniqueReading
