import Mathlib

/-!
# Keys of texts

A text is reduced to a key: the spaces at its ends are dropped, then all marks, and each run of
spaces becomes one blank (`Separators.key`). The marks go wherever they stand, and the spaces at
the ends before them, so a key is not quite the text without its ends: a space between the text
and a mark at its end stays (`key_of_solid`). Hence when a key is its own key (`key_key_iff`),
when spaces and marks at the ends do not change it (`key_append_iff`, `key_prepend_iff`), and when
it is shared by other texts (`core_eq_of_key_eq`, `exists_same_key`).
-/

set_option autoImplicit false

namespace AuraGateway.Foundations.StrippedText

universe u

variable {α : Type u}

/-! ## The ends of a list -/

section Ends

variable (p : α → Bool)

/-- Drop the elements with a property at both ends. -/
def strip (l : List α) : List α := (l.dropWhile p).rdropWhile p

/-- The elements at the two ends do not have the property. -/
structure Solid (k : List α) : Prop where
  head : ∃ a r, k = a :: r ∧ p a = false
  last : ∃ r b, k = r ++ [b] ∧ p b = false

variable {p}

theorem Solid.mono {q : α → Bool} {k : List α} (h : Solid p k) (hpq : ∀ a, p a = false → q a = false) :
    Solid q k := by
  obtain ⟨⟨a, r, hhead, ha⟩, r', b, hlast, hb⟩ := h
  exact ⟨⟨a, r, hhead, hpq a ha⟩, r', b, hlast, hpq b hb⟩

/-- A list has the property throughout, or it is a solid one between two that do. -/
theorem all_or_solid (p : α → Bool) (l : List α) :
    (∀ c ∈ l, p c = true)
      ∨ ∃ left k right, l = left ++ k ++ right ∧ (∀ c ∈ left, p c = true)
        ∧ (∀ c ∈ right, p c = true) ∧ Solid p k := by
  induction l with
  | nil => exact Or.inl fun c hc => absurd hc List.not_mem_nil
  | cons c l ih =>
      by_cases hc : p c = true
      · rcases ih with hall | ⟨left, k, right, rfl, hleft, hright, hk⟩
        · exact Or.inl (List.forall_mem_cons.mpr ⟨hc, hall⟩)
        · exact Or.inr ⟨c :: left, k, right, rfl, List.forall_mem_cons.mpr ⟨hc, hleft⟩, hright, hk⟩
      · rw [Bool.not_eq_true] at hc
        right
        rcases ih with hall | ⟨left, k, right, rfl, hleft, hright, hk⟩
        · exact ⟨[], [c], l, rfl, fun c hc => absurd hc List.not_mem_nil, hall,
            ⟨c, [], rfl, hc⟩, [], c, rfl, hc⟩
        · -- the solid part begins here
          obtain ⟨r, b, rfl, hb⟩ := hk.last
          refine ⟨[], c :: (left ++ (r ++ [b])), right, ?_, fun c hc => absurd hc List.not_mem_nil,
            hright, ⟨c, _, rfl, hc⟩, c :: (left ++ r), b, ?_, hb⟩
          · simp
          · simp

theorem dropWhile_append_cons {a : α} (ha : p a = false) (l r : List α) :
    (l ++ a :: r).dropWhile p = l.dropWhile p ++ a :: r := by
  induction l with
  | nil => rw [List.nil_append, List.dropWhile_cons_of_neg (by simp [ha])]; rfl
  | cons c l ih =>
      by_cases hc : p c = true
      · rw [List.cons_append, List.dropWhile_cons_of_pos hc, List.dropWhile_cons_of_pos hc, ih]
      · rw [List.cons_append, List.dropWhile_cons_of_neg hc, List.dropWhile_cons_of_neg hc]
        rfl

theorem rdropWhile_append_singleton {b : α} (hb : p b = false) (l r : List α) :
    (r ++ [b] ++ l).rdropWhile p = r ++ [b] ++ l.rdropWhile p := by
  rw [List.rdropWhile, List.rdropWhile, List.append_assoc, List.reverse_append,
    List.singleton_append, List.reverse_cons, List.append_assoc, List.singleton_append,
    dropWhile_append_cons hb]
  simp

/-- A solid part stays, and what is left of the ends around it. -/
theorem Solid.strip_append {k : List α} (hk : Solid p k) (left right : List α) :
    strip p (left ++ k ++ right) = left.dropWhile p ++ k ++ right.rdropWhile p := by
  obtain ⟨a, r, hhead, ha⟩ := hk.head
  obtain ⟨r', b, hlast, hb⟩ := hk.last
  have hdrop : (left ++ k ++ right).dropWhile p = left.dropWhile p ++ k ++ right := by
    rw [hhead, List.append_assoc, List.cons_append, dropWhile_append_cons ha, List.append_assoc,
      List.cons_append]
  rw [strip, hdrop, hlast, ← List.append_assoc, rdropWhile_append_singleton hb]

theorem dropWhile_eq_nil {l : List α} (h : ∀ c ∈ l, p c = true) : l.dropWhile p = [] :=
  List.dropWhile_eq_nil_iff.mpr h

theorem rdropWhile_eq_nil {l : List α} (h : ∀ c ∈ l, p c = true) : l.rdropWhile p = [] :=
  List.rdropWhile_eq_nil_iff.mpr h

theorem strip_of_all {l : List α} (h : ∀ c ∈ l, p c = true) : strip p l = [] := by
  rw [strip, dropWhile_eq_nil h]
  rfl

theorem Solid.strip_eq {k left right : List α} (hk : Solid p k) (hleft : ∀ c ∈ left, p c = true)
    (hright : ∀ c ∈ right, p c = true) : strip p (left ++ k ++ right) = k := by
  rw [hk.strip_append, dropWhile_eq_nil hleft, rdropWhile_eq_nil hright, List.nil_append,
    List.append_nil]

/-- The elements at the front, up to a solid part. -/
theorem Solid.takeWhile_append {k left : List α} (hk : Solid p k) (hleft : ∀ c ∈ left, p c = true)
    (right : List α) : (left ++ k ++ right).takeWhile p = left := by
  obtain ⟨a, r, rfl, ha⟩ := hk.head
  rw [List.append_assoc, List.takeWhile_append_of_pos hleft, List.cons_append,
    List.takeWhile_cons_of_neg (by simp [ha]), List.append_nil]

theorem Solid.rtakeWhile_append {k right : List α} (hk : Solid p k)
    (hright : ∀ c ∈ right, p c = true) (left : List α) :
    (left ++ k ++ right).rtakeWhile p = right := by
  obtain ⟨r, b, rfl, hb⟩ := hk.last
  have hrev : ∀ c ∈ right.reverse, p c = true := fun c hc => hright c (List.mem_reverse.mp hc)
  have hstop : (left ++ (r ++ [b])).reverse.takeWhile p = [] := by
    rw [← List.append_assoc, List.reverse_append]
    exact List.takeWhile_cons_of_neg (by simp [hb])
  rw [List.rtakeWhile, List.reverse_append, List.takeWhile_append_of_pos hrev, hstop,
    List.append_nil, List.reverse_reverse]

end Ends

/-! ## Spaces and marks -/

/-- The spaces and the marks of a text, and the space that stands for a run of them. -/
structure Separators (α : Type u) where
  space : α → Bool
  mark : α → Bool
  blank : α
  space_blank : space blank = true
  mark_eq_false : ∀ c, space c = true → mark c = false

namespace Separators

variable (S : Separators α)

/-- A space or a mark. -/
def affix (c : α) : Bool := S.space c || S.mark c

/-- Each run of spaces becomes one blank; the flag says that one was just written. -/
def squeeze : Bool → List α → List α
  | _, [] => []
  | prevSpace, c :: l =>
      if S.space c then if prevSpace then squeeze true l else S.blank :: squeeze true l
      else c :: squeeze false l

/-- Drop the marks. -/
def unmark (l : List α) : List α := l.filter fun c => !S.mark c

/-- The key of a text. -/
def key (l : List α) : List α := S.squeeze false (S.unmark (strip S.space l))

/-- The text without its ends. -/
def core (l : List α) : List α := S.squeeze false (strip S.affix l)

/-- A space stands between the text and a mark at its beginning. -/
def detachedStart (l : List α) : Bool := ((strip S.space l).takeWhile S.affix).any S.space

/-- A space stands between the text and a mark at its end. -/
def detachedEnd (l : List α) : Bool := ((strip S.space l).rtakeWhile S.affix).any S.space

/-- There is a mark inside the text. -/
def innerMark (l : List α) : Bool := (strip S.affix l).any S.mark

/-- A blank, where there is one. -/
def gap (b : Bool) : List α := if b then [S.blank] else []

variable {S}

theorem affix_eq_false {c : α} : S.affix c = false ↔ S.space c = false ∧ S.mark c = false :=
  Bool.or_eq_false_iff

theorem space_eq_false {c : α} (h : S.affix c = false) : S.space c = false := (affix_eq_false.mp h).1

theorem affix_of_space {c : α} (h : S.space c = true) : S.affix c = true := by
  rw [affix, h, Bool.true_or]

theorem gap_inj {b b' : Bool} : S.gap b = S.gap b' ↔ b = b' := by
  cases b <;> cases b' <;> simp [gap]

theorem gap_eq_nil {b : Bool} : S.gap b = [] ↔ b = false := by
  cases b <;> simp [gap]

/-! ### Squeezing -/

theorem squeeze_cons {c : α} (hc : S.space c = false) (b : Bool) (l : List α) :
    S.squeeze b (c :: l) = c :: S.squeeze false l := by
  rw [squeeze, if_neg (by simp [hc])]

theorem squeeze_append {c : α} (hc : S.space c = false) (b : Bool) (l r : List α) :
    S.squeeze b (l ++ [c] ++ r) = S.squeeze b (l ++ [c]) ++ S.squeeze false r := by
  induction l generalizing b with
  | nil =>
      rw [List.nil_append, List.singleton_append, squeeze_cons hc, squeeze_cons hc]
      rfl
  | cons a l ih =>
      simp only [List.cons_append, squeeze]
      split
      · split
        · exact ih true
        · rw [ih true, List.cons_append]
      · rw [ih false, List.cons_append]

theorem squeeze_spaces {l : List α} (h : ∀ c ∈ l, S.space c = true) (r : List α)
    (hr : ∀ a r', r = a :: r' → S.space a = false) :
    S.squeeze true (l ++ r) = S.squeeze false r
      ∧ S.squeeze false (l ++ r) = S.gap (!l.isEmpty) ++ S.squeeze false r := by
  have htrue : ∀ l : List α, (∀ c ∈ l, S.space c = true) →
      S.squeeze true (l ++ r) = S.squeeze false r := by
    intro l
    induction l with
    | nil =>
        intro _
        cases r with
        | nil => rfl
        | cons a r => rw [List.nil_append, squeeze_cons (hr a r rfl), squeeze_cons (hr a r rfl)]
    | cons c l ih =>
        intro h
        obtain ⟨hc, hl⟩ := List.forall_mem_cons.mp h
        rw [List.cons_append, squeeze, if_pos hc, if_pos rfl, ih hl]
  refine ⟨htrue l h, ?_⟩
  cases l with
  | nil => rfl
  | cons c l =>
      obtain ⟨hc, hl⟩ := List.forall_mem_cons.mp h
      rw [List.cons_append, squeeze, if_pos hc, if_neg Bool.false_ne_true, htrue l hl]
      rfl

theorem squeeze_squeeze (b : Bool) (l : List α) : S.squeeze b (S.squeeze b l) = S.squeeze b l := by
  induction l generalizing b with
  | nil => rfl
  | cons c l ih =>
      by_cases hc : S.space c = true
      · cases b with
        | true =>
            rw [squeeze, if_pos hc, if_pos rfl]
            exact ih true
        | false =>
            rw [squeeze, if_pos hc, if_neg Bool.false_ne_true, squeeze, if_pos S.space_blank,
              if_neg Bool.false_ne_true, ih true]
      · rw [Bool.not_eq_true] at hc
        rw [squeeze_cons hc, squeeze_cons hc, ih false]

/-- A squeezed text has the same marks, and its spaces are blanks. -/
theorem mem_squeeze {b : Bool} {l : List α} {c : α} (h : c ∈ S.squeeze b l) :
    c = S.blank ∨ c ∈ l := by
  induction l generalizing b with
  | nil => exact absurd h List.not_mem_nil
  | cons a l ih =>
      rw [squeeze] at h
      split at h
      · split at h
        · exact (ih h).imp_right (List.mem_cons_of_mem a)
        · rcases List.mem_cons.mp h with rfl | h
          · exact Or.inl rfl
          · exact (ih h).imp_right (List.mem_cons_of_mem a)
      · rcases List.mem_cons.mp h with rfl | h
        · exact Or.inr List.mem_cons_self
        · exact (ih h).imp_right (List.mem_cons_of_mem a)

theorem mem_squeeze_of_mem {c : α} (hc : S.space c = false) (b : Bool) {l : List α} (h : c ∈ l) :
    c ∈ S.squeeze b l := by
  induction l generalizing b with
  | nil => exact absurd h List.not_mem_nil
  | cons a l ih =>
      rcases List.mem_cons.mp h with rfl | h
      · rw [squeeze_cons hc]
        exact List.mem_cons_self
      · rw [squeeze]
        split
        · split
          · exact ih true h
          · exact List.mem_cons_of_mem _ (ih true h)
        · exact List.mem_cons_of_mem _ (ih false h)

/-- Squeezing keeps a solid text solid. -/
theorem solid_squeeze {k : List α} (hk : Solid S.affix k) : Solid S.affix (S.squeeze false k) := by
  obtain ⟨⟨a, r, hhead, ha⟩, r', b, hlast, hb⟩ := hk
  constructor
  · refine ⟨a, S.squeeze false r, ?_, ha⟩
    rw [hhead, squeeze_cons (space_eq_false ha)]
  · rw [hlast]
    have hsplit : ∀ (flag : Bool) (l : List α),
        ∃ l', S.squeeze flag (l ++ [b]) = l' ++ [b] := by
      intro flag l
      induction l generalizing flag with
      | nil => exact ⟨[], by rw [List.nil_append, squeeze_cons (space_eq_false hb)]; rfl⟩
      | cons c l ih =>
          simp only [List.cons_append, squeeze]
          split
          · split
            · exact ih true
            · obtain ⟨l', heq⟩ := ih true
              exact ⟨S.blank :: l', by rw [heq, List.cons_append]⟩
          · obtain ⟨l', heq⟩ := ih false
            exact ⟨c :: l', by rw [heq, List.cons_append]⟩
    obtain ⟨l', heq⟩ := hsplit false r'
    exact ⟨l', b, heq, hb⟩

/-! ### Dropping marks -/

theorem mem_unmark {l : List α} {c : α} : c ∈ S.unmark l ↔ c ∈ l ∧ S.mark c = false := by
  rw [unmark, List.mem_filter, Bool.not_eq_true']

theorem unmark_append (l r : List α) : S.unmark (l ++ r) = S.unmark l ++ S.unmark r :=
  List.filter_append ..

theorem unmark_eq_self {l : List α} (h : l.any S.mark = false) : S.unmark l = l := by
  rw [unmark, List.filter_eq_self]
  intro c hc
  have hmark := List.any_eq_false.mp h c hc
  simp only [Bool.not_eq_true] at hmark
  rw [hmark]
  rfl

/-- What is left of the ends without the marks is spaces. -/
theorem unmark_affixes {l : List α} (h : ∀ c ∈ l, S.affix c = true) :
    (∀ c ∈ S.unmark l, S.space c = true) ∧ (!(S.unmark l).isEmpty) = l.any S.space := by
  induction l with
  | nil => exact ⟨fun c hc => absurd hc List.not_mem_nil, rfl⟩
  | cons c l ih =>
      obtain ⟨hc, hl⟩ := List.forall_mem_cons.mp h
      obtain ⟨hspaces, hempty⟩ := ih hl
      cases hspace : S.space c with
      | true =>
          have hkeep : S.unmark (c :: l) = c :: S.unmark l :=
            List.filter_cons_of_pos (by simp [S.mark_eq_false c hspace])
          rw [hkeep]
          refine ⟨List.forall_mem_cons.mpr ⟨hspace, hspaces⟩, ?_⟩
          rw [List.any_cons, hspace]
          rfl
      | false =>
          have hdrop : S.unmark (c :: l) = S.unmark l := by
            apply List.filter_cons_of_neg
            rw [affix, hspace, Bool.false_or] at hc
            simp [hc]
          rw [hdrop, List.any_cons, hspace, Bool.false_or]
          exact ⟨hspaces, hempty⟩

theorem solid_unmark {k : List α} (hk : Solid S.affix k) : Solid S.affix (S.unmark k) := by
  obtain ⟨⟨a, r, hhead, ha⟩, r', b, hlast, hb⟩ := hk
  constructor
  · refine ⟨a, S.unmark r, ?_, ha⟩
    rw [hhead]
    exact List.filter_cons_of_pos (by simp [(affix_eq_false.mp ha).2])
  · refine ⟨S.unmark r', b, ?_, hb⟩
    rw [hlast, unmark_append]
    congr 1
    exact List.filter_cons_of_pos (by simp [(affix_eq_false.mp hb).2])

/-! ### The key of a text -/

section Key

variable {left k right : List α}

theorem strip_space (hk : Solid S.affix k) :
    strip S.space (left ++ k ++ right)
      = left.dropWhile S.space ++ k ++ right.rdropWhile S.space := by
  apply Solid.strip_append
  exact hk.mono fun c => space_eq_false

theorem detachedStart_of_solid (hk : Solid S.affix k) (hleft : ∀ c ∈ left, S.affix c = true) :
    S.detachedStart (left ++ k ++ right) = (left.dropWhile S.space).any S.space := by
  rw [detachedStart, strip_space hk, hk.takeWhile_append]
  intro c hc
  exact hleft c ((List.dropWhile_sublist S.space).subset hc)

theorem detachedEnd_of_solid (hk : Solid S.affix k) (hright : ∀ c ∈ right, S.affix c = true) :
    S.detachedEnd (left ++ k ++ right) = (right.rdropWhile S.space).any S.space := by
  rw [detachedEnd, strip_space hk, hk.rtakeWhile_append]
  intro c hc
  exact hright c ((List.rdropWhile_prefix S.space _).subset hc)

/-- The key of a text with something between its ends. -/
theorem key_of_solid (hk : Solid S.affix k) (hleft : ∀ c ∈ left, S.affix c = true)
    (hright : ∀ c ∈ right, S.affix c = true) :
    S.key (left ++ k ++ right)
      = S.gap (S.detachedStart (left ++ k ++ right)) ++ S.squeeze false (S.unmark k)
        ++ S.gap (S.detachedEnd (left ++ k ++ right)) := by
  rw [detachedStart_of_solid hk hleft, detachedEnd_of_solid hk hright, key, strip_space hk,
    unmark_append, unmark_append]
  obtain ⟨hstart, hstart_any⟩ := unmark_affixes (S := S) (l := left.dropWhile S.space) fun c hc =>
    hleft c ((List.dropWhile_sublist S.space).subset hc)
  obtain ⟨hend, hend_any⟩ := unmark_affixes (S := S) (l := right.rdropWhile S.space) fun c hc =>
    hright c ((List.rdropWhile_prefix S.space _).subset hc)
  obtain ⟨⟨a, r, hhead, ha⟩, r', b, hlast, hb⟩ := solid_unmark hk
  have hbegin := (squeeze_spaces hstart (S.unmark k ++ S.unmark (right.rdropWhile S.space)) (by
    intro c l heq
    rw [hhead, List.cons_append] at heq
    rw [← (List.cons.inj heq).1]
    exact space_eq_false ha)).2
  have hfinish := (squeeze_spaces hend [] (by
    intro c l heq
    cases heq)).2
  rw [List.append_nil, squeeze, List.append_nil] at hfinish
  rw [List.append_assoc, hbegin, hstart_any, hlast, squeeze_append (space_eq_false hb), hfinish,
    hend_any, List.append_assoc]

/-- The key of a text that is spaces and marks. -/
theorem key_of_all {l : List α} (h : ∀ c ∈ l, S.affix c = true) :
    S.key l = S.gap (S.detachedEnd l) ∧ S.detachedStart l = S.detachedEnd l := by
  have hstrip : ∀ c ∈ strip S.space l, S.affix c = true := by
    intro c hc
    apply h c
    exact (List.dropWhile_sublist S.space).subset ((List.rdropWhile_prefix S.space _).subset hc)
  obtain ⟨hspaces, hany⟩ := unmark_affixes hstrip
  have hkey := (squeeze_spaces hspaces [] (by
    intro c r heq
    cases heq)).2
  rw [List.append_nil, squeeze, List.append_nil] at hkey
  rw [key, hkey, hany, detachedStart, detachedEnd, List.takeWhile_eq_self_iff.mpr hstrip,
    List.rtakeWhile_eq_self_iff.mpr hstrip]
  exact ⟨rfl, rfl⟩

theorem affix_gap {b : Bool} : ∀ c ∈ S.gap b, S.affix c = true := by
  intro c hc
  cases b with
  | false => exact absurd hc List.not_mem_nil
  | true =>
      rw [List.mem_singleton.mp hc]
      exact affix_of_space S.space_blank

theorem strip_gap {b : Bool} : (S.gap b).dropWhile S.space = [] ∧ (S.gap b).rdropWhile S.space = [] := by
  have hspaces : ∀ c ∈ S.gap b, S.space c = true := by
    intro c hc
    cases b with
    | false => exact absurd hc List.not_mem_nil
    | true =>
        rw [List.mem_singleton.mp hc]
        exact S.space_blank
  exact ⟨dropWhile_eq_nil hspaces, rdropWhile_eq_nil hspaces⟩

theorem any_mark_squeeze {l : List α} (h : l.any S.mark = false) (b : Bool) :
    (S.squeeze b l).any S.mark = false := by
  rw [List.any_eq_false] at h ⊢
  intro c hc
  rcases mem_squeeze hc with rfl | hc
  · rw [S.mark_eq_false _ S.space_blank]
    exact Bool.false_ne_true
  · exact h c hc

theorem any_mark_unmark (l : List α) : (S.unmark l).any S.mark = false := by
  rw [List.any_eq_false]
  intro c hc
  rw [(mem_unmark.mp hc).2]
  exact Bool.false_ne_true

end Key

/-! ### Laws of keys -/

/-- A key is its own key exactly when no space was left at its ends. -/
theorem key_key_iff (l : List α) :
    S.key (S.key l) = S.key l ↔ S.detachedStart l = false ∧ S.detachedEnd l = false := by
  rcases all_or_solid S.affix l with hall | ⟨left, k, right, rfl, hleft, hright, hk⟩
  · obtain ⟨hkey, hsame⟩ := key_of_all hall
    have hnil : S.key (S.gap (S.detachedEnd l)) = [] := by
      rw [key, strip, strip_gap.1]
      rfl
    rw [hkey, hnil, hsame, and_self]
    cases S.detachedEnd l <;> simp [gap]
  · have hsolid := solid_squeeze (solid_unmark hk)
    rw [key_of_solid hk hleft hright]
    generalize S.detachedStart (left ++ k ++ right) = start
    generalize S.detachedEnd (left ++ k ++ right) = finish
    have hkey : S.key (S.gap start ++ S.squeeze false (S.unmark k) ++ S.gap finish)
        = S.squeeze false (S.unmark k) := by
      rw [key, strip_space hsolid, strip_gap.1, strip_gap.2, List.nil_append, List.append_nil,
        unmark_eq_self (any_mark_squeeze (any_mark_unmark k) false), squeeze_squeeze]
    rw [hkey]
    constructor
    · intro h
      have hlength := congrArg List.length h
      rw [List.length_append, List.length_append] at hlength
      constructor
      · exact (gap_eq_nil (S := S)).mp (List.length_eq_zero_iff.mp (by omega))
      · exact (gap_eq_nil (S := S)).mp (List.length_eq_zero_iff.mp (by omega))
    · rintro ⟨rfl, rfl⟩
      exact (List.append_nil _).symm

/-- Spaces and marks at the end do not matter as long as they leave no space there, or as long as
there was one before. -/
theorem key_append_iff {w : List α} (hw : ∀ c ∈ w, S.affix c = true) (l : List α) :
    S.key (l ++ w) = S.key l ↔ S.detachedEnd (l ++ w) = S.detachedEnd l := by
  rcases all_or_solid S.affix l with hall | ⟨left, k, right, rfl, hleft, hright, hk⟩
  · rw [(key_of_all hall).1, (key_of_all (List.forall_mem_append.mpr ⟨hall, hw⟩)).1, gap_inj]
  · have hmore := List.forall_mem_append.mpr ⟨hright, hw⟩
    have hstart : S.detachedStart (left ++ k ++ (right ++ w))
        = S.detachedStart (left ++ k ++ right) := by
      rw [detachedStart_of_solid hk hleft, detachedStart_of_solid hk hleft]
    rw [List.append_assoc (left ++ k), key_of_solid hk hleft hmore, key_of_solid hk hleft hright,
      hstart, List.append_cancel_left_eq, gap_inj]

theorem key_prepend_iff {w : List α} (hw : ∀ c ∈ w, S.affix c = true) (l : List α) :
    S.key (w ++ l) = S.key l ↔ S.detachedStart (w ++ l) = S.detachedStart l := by
  rcases all_or_solid S.affix l with hall | ⟨left, k, right, rfl, hleft, hright, hk⟩
  · obtain ⟨hkey, hsame⟩ := key_of_all hall
    obtain ⟨hkey', hsame'⟩ := key_of_all (List.forall_mem_append.mpr ⟨hw, hall⟩)
    rw [hkey, hkey', gap_inj, hsame, hsame']
  · have hmore := List.forall_mem_append.mpr ⟨hw, hleft⟩
    have hend : S.detachedEnd (w ++ left ++ k ++ right) = S.detachedEnd (left ++ k ++ right) := by
      rw [detachedEnd_of_solid hk hright, detachedEnd_of_solid hk hright]
    rw [← List.append_assoc, ← List.append_assoc, key_of_solid hk hmore hright,
      key_of_solid hk hleft hright, hend, List.append_cancel_right_eq, List.append_cancel_right_eq,
      gap_inj]

/-- Without marks inside, the text without its ends is read off the key. -/
theorem core_eq_strip_key {l : List α} (h : S.innerMark l = false) :
    S.core l = strip S.space (S.key l) := by
  rcases all_or_solid S.affix l with hall | ⟨left, k, right, rfl, hleft, hright, hk⟩
  · rw [core, strip_of_all hall, (key_of_all hall).1, strip, strip_gap.1]
    rfl
  · rw [innerMark, hk.strip_eq hleft hright] at h
    rw [core, hk.strip_eq hleft hright, key_of_solid hk hleft hright, unmark_eq_self h,
      strip_space (solid_squeeze hk), strip_gap.1, strip_gap.2, List.nil_append, List.append_nil]

/-- Texts without marks inside that have the same key differ in their ends and runs of spaces. -/
theorem core_eq_of_key_eq {l l' : List α} (h : S.innerMark l = false)
    (h' : S.innerMark l' = false) (heq : S.key l = S.key l') : S.core l = S.core l' := by
  rw [core_eq_strip_key h, core_eq_strip_key h', heq]

/-- A text with marks inside shares its key with one that has none. -/
theorem exists_same_key {l : List α} (h : S.innerMark l = true) :
    ∃ l', (∀ c ∈ l', c ∈ l) ∧ S.innerMark l' = false ∧ S.key l = S.key l'
      ∧ S.core l ≠ S.core l' := by
  rcases all_or_solid S.affix l with hall | ⟨left, k, right, rfl, hleft, hright, hk⟩
  · rw [innerMark, strip_of_all hall] at h
    cases h
  · have hk' := solid_unmark hk
    rw [innerMark, hk.strip_eq hleft hright] at h
    refine ⟨left ++ S.unmark k ++ right, ?_, ?_, ?_, ?_⟩
    · intro c hc
      simp only [List.mem_append] at hc ⊢
      exact hc.imp_left (Or.imp_right fun hmem => (mem_unmark.mp hmem).1)
    · rw [innerMark, hk'.strip_eq hleft hright]
      exact any_mark_unmark k
    · rw [key_of_solid hk hleft hright, key_of_solid hk' hleft hright,
        detachedStart_of_solid hk hleft, detachedStart_of_solid hk' hleft,
        detachedEnd_of_solid hk hright, detachedEnd_of_solid hk' hright,
        unmark_eq_self (any_mark_unmark k)]
    · rw [core, core, hk.strip_eq hleft hright, hk'.strip_eq hleft hright]
      intro heq
      obtain ⟨c, hc, hmark⟩ := List.any_eq_true.mp h
      have hspace : S.space c = false := by
        by_contra hspace
        rw [S.mark_eq_false c (Bool.of_not_eq_false hspace)] at hmark
        cases hmark
      have hmem := mem_squeeze_of_mem hspace false hc
      rw [heq] at hmem
      have hnone := List.any_eq_false.mp (any_mark_squeeze (any_mark_unmark k) false) c hmem
      exact hnone hmark

/-! ### Texts recast letter by letter -/

variable (S) in
/-- A text whose letters are replaced by words, its spaces and marks kept. -/
inductive Recast : List α → List α → Prop
  | nil : Recast [] []
  | affix {c : α} {l m : List α} : S.affix c = true → Recast l m → Recast (c :: l) (c :: m)
  | word {c : α} {piece l m : List α} : S.affix c = false → piece ≠ [] →
      (∀ d ∈ piece, S.affix d = false) → Recast l m → Recast (c :: l) (piece ++ m)

theorem Recast.append {l r m : List α} (h : S.Recast (l ++ r) m) :
    ∃ m₁ m₂, m = m₁ ++ m₂ ∧ S.Recast l m₁ ∧ S.Recast r m₂ := by
  induction l generalizing m with
  | nil => exact ⟨[], m, rfl, .nil, h⟩
  | cons c l ih =>
      cases h with
      | affix hc h =>
          obtain ⟨m₁, m₂, rfl, h₁, h₂⟩ := ih h
          exact ⟨c :: m₁, m₂, rfl, .affix hc h₁, h₂⟩
      | word hc hne hpiece h =>
          obtain ⟨m₁, m₂, rfl, h₁, h₂⟩ := ih h
          exact ⟨_, m₂, (List.append_assoc ..).symm, .word hc hne hpiece h₁, h₂⟩

theorem Recast.eq_of_all {l m : List α} (h : S.Recast l m) (hl : ∀ c ∈ l, S.affix c = true) :
    m = l := by
  induction h with
  | nil => rfl
  | affix _ _ ih => rw [ih (List.forall_mem_cons.mp hl).2]
  | word hc _ _ _ _ =>
      rw [(List.forall_mem_cons.mp hl).1] at hc
      cases hc

theorem Recast.any_mark {l m : List α} (h : S.Recast l m) : m.any S.mark = l.any S.mark := by
  induction h with
  | nil => rfl
  | affix _ _ ih => rw [List.any_cons, List.any_cons, ih]
  | word hc _ hpiece _ ih =>
      rw [List.any_append, List.any_cons, ih, (affix_eq_false.mp hc).2]
      congr 1
      rw [List.any_eq_false]
      intro d hd
      rw [(affix_eq_false.mp (hpiece d hd)).2]
      exact Bool.false_ne_true

theorem Recast.solid {k m : List α} (h : S.Recast k m) (hk : Solid S.affix k) :
    Solid S.affix m := by
  obtain ⟨⟨a, r, hhead, ha⟩, r', b, hlast, hb⟩ := hk
  constructor
  · rw [hhead] at h
    cases h with
    | affix hc _ =>
        rw [ha] at hc
        cases hc
    | word _ hne hpiece _ =>
        obtain ⟨d, piece, rfl⟩ := List.exists_cons_of_ne_nil hne
        exact ⟨d, _, List.cons_append, hpiece d List.mem_cons_self⟩
  · rw [hlast] at h
    obtain ⟨m₁, m₂, rfl, -, h₂⟩ := h.append
    cases h₂ with
    | affix hc _ =>
        rw [hb] at hc
        cases hc
    | @word _ piece _ _ _ hne hpiece hnil =>
        cases hnil
        obtain ⟨front, d, rfl⟩ := (List.eq_nil_or_concat piece).resolve_left hne
        exact ⟨m₁ ++ front, d, by simp, hpiece d (by simp)⟩

/-- What the laws of keys ask of a text is not changed by recasting it. -/
theorem Recast.same {l m : List α} (h : S.Recast l m) :
    S.detachedStart m = S.detachedStart l ∧ S.detachedEnd m = S.detachedEnd l
      ∧ S.innerMark m = S.innerMark l := by
  rcases all_or_solid S.affix l with hall | ⟨left, k, right, rfl, hleft, hright, hk⟩
  · rw [h.eq_of_all hall]
    exact ⟨rfl, rfl, rfl⟩
  · obtain ⟨m', m₃, rfl, h', h₃⟩ := h.append
    obtain ⟨m₁, m₂, rfl, h₁, h₂⟩ := h'.append
    obtain rfl := h₁.eq_of_all hleft
    obtain rfl := h₃.eq_of_all hright
    have hm := h₂.solid hk
    refine ⟨?_, ?_, ?_⟩
    · rw [detachedStart_of_solid hm hleft, detachedStart_of_solid hk hleft]
    · rw [detachedEnd_of_solid hm hright, detachedEnd_of_solid hk hright]
    · rw [innerMark, innerMark, hm.strip_eq hleft hright, hk.strip_eq hleft hright, h₂.any_mark]

theorem mem_key {l : List α} {c : α} (h : c ∈ S.key l) : c = S.blank ∨ c ∈ l := by
  refine (mem_squeeze h).imp_right fun hc => ?_
  have hstrip := (mem_unmark.mp hc).1
  exact (List.dropWhile_sublist S.space).subset ((List.rdropWhile_prefix S.space _).subset hstrip)

end Separators

end AuraGateway.Foundations.StrippedText
