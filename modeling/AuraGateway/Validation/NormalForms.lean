import AuraGateway.Foundations.StrippedText
import AuraGateway.Validation.Fanout

/-!
# Normal forms of answers

Answers are grouped by their normalised texts. Normalising deletes sentence punctuation wherever
it stands, after the ends were trimmed: a normal form is its own one unless whitespace was left at
an end, whitespace and punctuation at the ends matter when they leave some, and a text shares its
normal form with others as soon as there is punctuation inside it (`normalizeText_laws`).
-/

set_option autoImplicit false

namespace AuraGateway.Validation

open AuraGateway.RustStd AuraGateway.Foundations.StrippedText
open AuraGateway.JsStd (CaseTable)

/-- Whitespace and sentence punctuation. -/
def textSeparators : Separators Char where
  space := isWhitespace
  mark := fun c => decide (c ∈ ['.', ',', ';', '!', '?'])
  blank := ' '
  space_blank := by decide
  mark_eq_false := by
    intro c hc
    rw [decide_eq_false_iff_not]
    intro hmem
    fin_cases hmem <;> exact absurd hc (by decide)

/-! ## The laws of a grouping key -/

/-- Whitespace stands between a text and the punctuation before it. -/
def detachedStart (s : String) : Bool := textSeparators.detachedStart s.toList

/-- Whitespace stands between a text and the punctuation after it. -/
def detachedEnd (s : String) : Bool := textSeparators.detachedEnd s.toList

/-- There is sentence punctuation inside the text. -/
def innerPunctuation (s : String) : Bool := textSeparators.innerMark s.toList

/-- A text up to letter case, the whitespace between its words, and what stands at its ends. -/
def coreText (table : CaseTable) (s : String) : String :=
  String.ofList (textSeparators.core (table.toLowerCase s.toList))

/-- What the Unicode tables say of lowercase forms: they are their own ones, whitespace has no
case, and the context of a final sigma ends at whitespace and punctuation. -/
structure LowercaseForms (table : CaseTable) : Prop where
  stable : ∀ before c after before' after', 128 ≤ c.toNat → c.toNat ≠ 0x212A → c.toNat ≠ 0x0130 →
    table.lowerChar before' (table.other before c after) after' = [table.other before c after]
  dot : ∀ before after, table.other before (Char.ofNat 0x0307) after = Char.ofNat 0x0307
  space : ∀ before c after, 128 ≤ c.toNat → isWhitespace c = true → table.other before c after = c
  letter : ∀ before c after, 128 ≤ c.toNat → isWhitespace c = false →
    isWhitespace (table.other before c after) = false
  context : ∀ before c after w, (∀ x ∈ w, textSeparators.affix x = true) →
    table.other before c (after ++ w) = table.other before c after
      ∧ table.other (w ++ before) c after = table.other before c after

theorem lowercaseForms_fixed : LowercaseForms .fixed where
  stable := by
    intro before c after before' after' hc hkelvin hdot
    have hsame : CaseTable.fixed.other before c after = c := rfl
    rw [hsame, CaseTable.lowerChar, if_neg (Nat.not_lt.mpr hc), if_neg hkelvin, if_neg hdot]
    rfl
  dot := fun _ _ => rfl
  space := fun _ _ _ _ _ => rfl
  letter := fun _ _ _ _ h => h
  context := fun _ _ _ _ _ => ⟨rfl, rfl⟩

/-! ## Normal forms are keys -/

theorem space_iff (c : Char) : textSeparators.space c = isWhitespace c := by rw [textSeparators]

theorem mark_iff {c : Char} : textSeparators.mark c = true ↔ c ∈ ['.', ',', ';', '!', '?'] :=
  decide_eq_true_iff

theorem collapse_eq (b : Bool) (l : List Char) :
    collapse b l = textSeparators.squeeze b (textSeparators.unmark l) := by
  induction l generalizing b with
  | nil => rfl
  | cons c l ih =>
      rw [collapse]
      by_cases hspace : isWhitespace c = true
      · have hkeep : textSeparators.unmark (c :: l) = c :: textSeparators.unmark l := by
          apply List.filter_cons_of_pos
          rw [textSeparators.mark_eq_false c hspace]
          rfl
        rw [if_pos hspace, hkeep, Separators.squeeze, space_iff, if_pos hspace, ih]
        rfl
      · rw [if_neg hspace]
        by_cases hmark : c ∈ ['.', ',', ';', '!', '?']
        · have hdrop : textSeparators.unmark (c :: l) = textSeparators.unmark l :=
            List.filter_cons_of_neg (by simp only [mark_iff.mpr hmark]; decide)
          rw [if_pos hmark, hdrop, ih]
        · have hkeep : textSeparators.unmark (c :: l) = c :: textSeparators.unmark l := by
            apply List.filter_cons_of_pos
            rw [Bool.eq_false_iff.mpr (mt mark_iff.mp hmark)]
            rfl
          rw [if_neg hmark, hkeep, Separators.squeeze, space_iff, if_neg hspace, ih]

theorem normalizeText_eq (table : CaseTable) (s : String) :
    normalizeText table s
      = String.ofList (textSeparators.key (table.toLowerCase s.toList)) := by
  rw [normalizeText, collapse_eq]
  rfl

/-! ## Lowercase forms -/

section Lowercase

theorem affix_of_nonascii {c : Char} (hc : 128 ≤ c.toNat) :
    textSeparators.affix c = isWhitespace c := by
  have hmark : textSeparators.mark c ≠ true := by
    intro hmark
    have hmem := mark_iff.mp hmark
    fin_cases hmem <;> exact absurd hc (by decide)
  rw [Separators.affix, Bool.eq_false_iff.mpr hmark, Bool.or_false, space_iff]

/-- Lowercase ASCII characters are their own lowercase forms, and letters stay letters. -/
theorem toLower_ascii {c : Char} (hc : c.toNat < 128) :
    c.toLower.toNat < 128 ∧ c.toLower.toLower = c.toLower
      ∧ (textSeparators.affix c = true → c.toLower = c)
      ∧ textSeparators.affix c.toLower = textSeparators.affix c := by
  have hall : ∀ n, n < 128 → (Char.ofNat n).toLower.toNat < 128
      ∧ (Char.ofNat n).toLower.toLower = (Char.ofNat n).toLower
      ∧ (textSeparators.affix (Char.ofNat n) = true → (Char.ofNat n).toLower = Char.ofNat n)
      ∧ textSeparators.affix (Char.ofNat n).toLower = textSeparators.affix (Char.ofNat n) := by
    decide +kernel
  have := hall c.toNat hc
  rwa [Char.ofNat_toNat] at this

/-- A character that is its own lowercase form in every context. -/
def Fixed (table : CaseTable) (c : Char) : Prop :=
  ∀ before after, table.lowerChar before c after = [c]

variable {table : CaseTable}

theorem fixed_of_ascii {c : Char} (hc : c.toNat < 128) (hlower : c.toLower = c) : Fixed table c := by
  intro before after
  rw [CaseTable.lowerChar, if_pos hc, hlower]

theorem fixed_dot (h : LowercaseForms table) : Fixed table (Char.ofNat 0x0307) := by
  intro before after
  rw [CaseTable.lowerChar, if_neg (by decide), if_neg (by decide), if_neg (by decide), h.dot]

/-- Lowercase forms are fixed; whitespace and punctuation is kept, and what replaces another
character has none. -/
theorem lowerChar_spec (h : LowercaseForms table) (before : List Char) (c : Char)
    (after : List Char) :
    (∀ d ∈ table.lowerChar before c after, Fixed table d)
      ∧ (textSeparators.affix c = true → table.lowerChar before c after = [c])
      ∧ (textSeparators.affix c = false → table.lowerChar before c after ≠ []
        ∧ ∀ d ∈ table.lowerChar before c after, textSeparators.affix d = false) := by
  rw [CaseTable.lowerChar]
  split
  · rename_i hc
    obtain ⟨hascii, hlower, hkeep, haffix⟩ := toLower_ascii hc
    simp only [List.forall_mem_singleton]
    refine ⟨fixed_of_ascii hascii hlower, fun hc' => by rw [hkeep hc'], fun hc' => ?_⟩
    exact ⟨List.cons_ne_nil _ _, haffix.trans hc'⟩
  · rename_i hc
    rw [affix_of_nonascii (not_lt.mp hc)]
    split
    · rename_i hkelvin
      have hspace : isWhitespace c = false := by
        rw [← Char.ofNat_toNat c, hkelvin]
        decide
      simp only [List.forall_mem_singleton, hspace]
      refine ⟨fixed_of_ascii (by decide) (by decide), fun hc' => ?_, fun _ => ?_⟩
      · cases hc'
      · exact ⟨List.cons_ne_nil _ _, by decide⟩
    · rename_i hkelvin
      split
      · rename_i hdot
        have hspace : isWhitespace c = false := by
          rw [← Char.ofNat_toNat c, hdot]
          decide
        simp only [List.forall_mem_cons, hspace]
        refine ⟨⟨fixed_of_ascii (by decide) (by decide), fixed_dot h, ?_⟩, fun hc' => ?_,
          fun _ => ?_⟩
        · exact fun d hd => absurd hd List.not_mem_nil
        · cases hc'
        · refine ⟨List.cons_ne_nil _ _, by decide, ?_, fun d hd => absurd hd List.not_mem_nil⟩
          rw [affix_of_nonascii (by decide)]
          decide
      · rename_i hdot
        have hnonascii := table.other_nonascii before c after (not_lt.mp hc)
        simp only [List.forall_mem_singleton]
        refine ⟨?_, fun hspace => ?_, fun hspace => ⟨List.cons_ne_nil _ _, ?_⟩⟩
        · exact fun before' after' => h.stable before c after before' after' (not_lt.mp hc) hkelvin hdot
        · rw [h.space before c after (not_lt.mp hc) hspace]
        · rw [affix_of_nonascii hnonascii]
          exact h.letter before c after (not_lt.mp hc) hspace

/-- Characters of a lowercase text are fixed, and whitespace and punctuation stand where they
stood. -/
theorem lowerFrom_spec (h : LowercaseForms table) (before s : List Char) :
    (∀ d ∈ table.lowerFrom before s, Fixed table d)
      ∧ textSeparators.Recast s (table.lowerFrom before s) := by
  induction s generalizing before with
  | nil => exact ⟨fun d hd => absurd hd List.not_mem_nil, .nil⟩
  | cons c s ih =>
      obtain ⟨hfixed, hkeep, hword⟩ := lowerChar_spec h before c s
      obtain ⟨hrest, hrecast⟩ := ih (before ++ [c])
      rw [CaseTable.lowerFrom]
      refine ⟨List.forall_mem_append.mpr ⟨hfixed, hrest⟩, ?_⟩
      cases haffix : textSeparators.affix c with
      | true =>
          rw [hkeep haffix]
          exact .affix haffix hrecast
      | false =>
          obtain ⟨hne, hletters⟩ := hword haffix
          exact .word haffix hne hletters hrecast

theorem lowerFrom_of_fixed {s : List Char} (h : ∀ c ∈ s, Fixed table c) (before : List Char) :
    table.lowerFrom before s = s := by
  induction s generalizing before with
  | nil => rfl
  | cons c s ih =>
      obtain ⟨hc, hs⟩ := List.forall_mem_cons.mp h
      rw [CaseTable.lowerFrom, hc, ih hs, List.singleton_append]

/-- Whitespace and punctuation around its context does not change a lowercase form. -/
theorem lowerChar_context (h : LowercaseForms table) {w : List Char}
    (hw : ∀ x ∈ w, textSeparators.affix x = true) (before : List Char) (c : Char)
    (after : List Char) :
    table.lowerChar before c (after ++ w) = table.lowerChar before c after
      ∧ table.lowerChar (w ++ before) c after = table.lowerChar before c after := by
  obtain ⟨hafter, hbefore⟩ := h.context before c after w hw
  simp only [CaseTable.lowerChar, hafter, hbefore, and_self]

theorem lowerFrom_affixes (h : LowercaseForms table) {w : List Char}
    (hw : ∀ x ∈ w, textSeparators.affix x = true) (before : List Char) :
    table.lowerFrom before w = w := by
  apply lowerFrom_of_fixed
  intro c hc before' after
  exact (lowerChar_spec h before' c after).2.1 (hw c hc)

theorem lowerFrom_append (h : LowercaseForms table) {w : List Char}
    (hw : ∀ x ∈ w, textSeparators.affix x = true) (before s : List Char) :
    table.lowerFrom before (s ++ w) = table.lowerFrom before s ++ w := by
  induction s generalizing before with
  | nil => exact lowerFrom_affixes h hw before
  | cons c s ih =>
      rw [List.cons_append, CaseTable.lowerFrom, (lowerChar_context h hw before c s).1, ih,
        CaseTable.lowerFrom, List.append_assoc]

theorem lowerFrom_after (h : LowercaseForms table) {w : List Char}
    (hw : ∀ x ∈ w, textSeparators.affix x = true) (before s : List Char) :
    table.lowerFrom (w ++ before) s = table.lowerFrom before s := by
  induction s generalizing before with
  | nil => rfl
  | cons c s ih =>
      rw [CaseTable.lowerFrom, (lowerChar_context h hw before c s).2, List.append_assoc, ih,
        CaseTable.lowerFrom]

/-- Whitespace and punctuation in front stays there. -/
theorem lowerFrom_prepend (h : LowercaseForms table) {w : List Char}
    (hw : ∀ x ∈ w, textSeparators.affix x = true) (before s : List Char) :
    table.lowerFrom before (w ++ s) = w ++ table.lowerFrom (before ++ w) s := by
  induction w generalizing before with
  | nil => rw [List.append_nil, List.nil_append, List.nil_append]
  | cons c w ih =>
      obtain ⟨hc, hw⟩ := List.forall_mem_cons.mp hw
      rw [List.cons_append, CaseTable.lowerFrom, (lowerChar_spec h before c (w ++ s)).2.1 hc, ih hw,
        List.append_assoc, List.singleton_append, List.singleton_append, List.cons_append]

end Lowercase

/-! ## When normal forms are sound keys -/

section Laws

variable {table : CaseTable}

theorem toLowerCase_append (h : LowercaseForms table) {w : List Char}
    (hw : ∀ x ∈ w, textSeparators.affix x = true) (s : List Char) :
    table.toLowerCase (s ++ w) = table.toLowerCase s ++ w := lowerFrom_append h hw [] s

theorem toLowerCase_prepend (h : LowercaseForms table) {w : List Char}
    (hw : ∀ x ∈ w, textSeparators.affix x = true) (s : List Char) :
    table.toLowerCase (w ++ s) = w ++ table.toLowerCase s := by
  have hcontext := lowerFrom_after h hw [] s
  rw [List.append_nil] at hcontext
  rw [CaseTable.toLowerCase, lowerFrom_prepend h hw, List.nil_append, hcontext]
  rfl

/-- A normalised text is normalised as its key is. -/
theorem toLowerCase_toList_normalizeText (h : LowercaseForms table) (s : String) :
    table.toLowerCase (normalizeText table s).toList
      = textSeparators.key (table.toLowerCase s.toList) := by
  rw [normalizeText_eq, String.toList_ofList]
  apply lowerFrom_of_fixed
  intro c hc
  rcases Separators.mem_key hc with rfl | hc
  · exact fixed_of_ascii (by decide) (by decide)
  · exact (lowerFrom_spec h [] s.toList).1 c hc

theorem toLowerCase_same (h : LowercaseForms table) (s : List Char) :
    textSeparators.detachedStart (table.toLowerCase s) = textSeparators.detachedStart s
      ∧ textSeparators.detachedEnd (table.toLowerCase s) = textSeparators.detachedEnd s
      ∧ textSeparators.innerMark (table.toLowerCase s) = textSeparators.innerMark s :=
  (lowerFrom_spec h [] s).2.same

/-- A normal form is its own one exactly when no whitespace was left at its ends; whitespace and
punctuation at an end changes it exactly when whitespace is left there by one of the two texts
only; and it tells a text from those without punctuation inside exactly when it has none. -/
theorem normalizeText_laws (h : LowercaseForms table) :
    (∀ s, normalizeText table (normalizeText table s) = normalizeText table s
        ↔ detachedStart s = false ∧ detachedEnd s = false)
      ∧ (∀ s w : String, (∀ c ∈ w.toList, textSeparators.affix c = true) →
        (normalizeText table (s ++ w) = normalizeText table s
            ↔ detachedEnd (s ++ w) = detachedEnd s)
          ∧ (normalizeText table (w ++ s) = normalizeText table s
            ↔ detachedStart (w ++ s) = detachedStart s))
      ∧ ∀ s, (∀ t, innerPunctuation t = false → normalizeText table s = normalizeText table t →
          coreText table s = coreText table t) ↔ innerPunctuation s = false := by
  refine ⟨fun s => ?_, fun s w hw => ⟨?_, ?_⟩, fun s => ?_⟩
  · obtain ⟨hstart, hend, -⟩ := toLowerCase_same h s.toList
    rw [normalizeText_eq, toLowerCase_toList_normalizeText h, normalizeText_eq, String.ofList_inj,
      Separators.key_key_iff, hstart, hend, detachedStart, detachedEnd]
  · obtain ⟨-, hend, -⟩ := toLowerCase_same h s.toList
    obtain ⟨-, hend', -⟩ := toLowerCase_same h (s.toList ++ w.toList)
    rw [toLowerCase_append h hw] at hend'
    rw [normalizeText_eq, normalizeText_eq, String.ofList_inj, String.toList_append,
      toLowerCase_append h hw, Separators.key_append_iff hw, hend, hend', detachedEnd, detachedEnd,
      String.toList_append]
  · obtain ⟨hstart, -⟩ := toLowerCase_same h s.toList
    obtain ⟨hstart', -⟩ := toLowerCase_same h (w.toList ++ s.toList)
    rw [toLowerCase_prepend h hw] at hstart'
    rw [normalizeText_eq, normalizeText_eq, String.ofList_inj, String.toList_append,
      toLowerCase_prepend h hw, Separators.key_prepend_iff hw, hstart, hstart', detachedStart,
      detachedStart, String.toList_append]
  · have hsame : ∀ s : String, textSeparators.innerMark (table.toLowerCase s.toList)
        = innerPunctuation s := fun s => (toLowerCase_same h s.toList).2.2
    simp only [normalizeText_eq, coreText, String.ofList_inj, ← hsame]
    constructor
    · intro htold
      by_contra hinner
      obtain ⟨l, hsub, hl, hkey, hcore⟩ := Separators.exists_same_key (Bool.of_not_eq_false hinner)
      -- the text without the punctuation inside is its own lowercase form
      have hlower : table.toLowerCase (String.ofList l).toList = l := by
        rw [String.toList_ofList]
        apply lowerFrom_of_fixed
        exact fun c hc => (lowerFrom_spec h [] s.toList).1 c (hsub c hc)
      have heq := htold (String.ofList l)
      rw [hlower] at heq
      exact hcore (heq hl hkey)
    · intro hs t ht heq
      exact Separators.core_eq_of_key_eq hs ht heq

/-- Two short answers, with tables that know ASCII letters only. -/
theorem normalizeText_laws_fixed :
    normalizeText .fixed (normalizeText .fixed "42.") = normalizeText .fixed "42."
      ∧ normalizeText .fixed ("Yes" ++ "! ") = normalizeText .fixed "Yes"
      ∧ (coreText .fixed "New  York" = coreText .fixed "new york.") := by
  obtain ⟨hidem, haffix, htold⟩ := normalizeText_laws lowercaseForms_fixed
  have hends : ∀ c ∈ "! ".toList, textSeparators.affix c = true := by
    intro c hc
    have hchars : "! ".toList = ['!', ' '] := rfl
    rw [hchars] at hc
    fin_cases hc <;> rfl
  refine ⟨(hidem "42.").mpr (by decide +kernel), ?_, ?_⟩
  · exact (haffix "Yes" "! " hends).1.mpr (by decide +kernel)
  · exact (htold "New  York").mpr (by decide +kernel) "new york." (by decide +kernel)
      (by decide +kernel)

/-- A decimal point is lost, and a detached full stop leaves its blank. -/
theorem decimalPoint_lost :
    (normalizeText .fixed "3.14" = normalizeText .fixed "314"
        ∧ coreText .fixed "3.14" ≠ coreText .fixed "314")
      ∧ normalizeText .fixed ("42" ++ " .") ≠ normalizeText .fixed "42"
      ∧ normalizeText .fixed (normalizeText .fixed "42 .") ≠ normalizeText .fixed "42 ." := by
  decide +kernel

end Laws

end AuraGateway.Validation
