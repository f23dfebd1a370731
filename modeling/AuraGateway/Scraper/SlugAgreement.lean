import AuraGateway.Pricing.ModelCatalog
import AuraGateway.Scraper.FamilyKey

/-!
# Two slugs of one id

The gateway's catalog and the scraper both reduce a model id to a slug. Read as marks (a kept
character, or a separator) both are the runs of kept characters joined by dashes: the gateway
writes them in one pass (`collapse`), the scraper in three, with the same result
(`stripDashes_dashRuns`). White space at the ends leaves no trace in either.

The marks differ for two characters only. The scraper lowercases by the Unicode tables, where
the Kelvin sign and the capital I with a dot have an ASCII letter in their lowercase forms; the
gateway takes both for separators. So the slugs agree exactly on the texts without them.
-/

set_option autoImplicit false

namespace AuraGateway.Scraper

open AuraGateway.JsStd
open AuraGateway.Pricing (canonicalSlug slugFrom)

/-! ## Runs of kept characters -/

/-- The kept characters of a list of marks, a dash before each run but the first. -/
def collapse (written pendingDash : Bool) : List (Option Char) → List Char
  | [] => []
  | some c :: ms => (if pendingDash && written then ['-'] else []) ++ c :: collapse true false ms
  | none :: ms => collapse written true ms

theorem collapse_unwritten (p q : Bool) (ms : List (Option Char)) :
    collapse false p ms = collapse false q ms := by
  cases ms with
  | nil => rfl
  | cons m ms =>
      cases m with
      | none => rfl
      | some c => simp [collapse]

/-- Separators in front leave no trace. -/
theorem collapse_append_left {front : List (Option Char)} (hfront : ∀ m ∈ front, m = none)
    (p : Bool) (ms : List (Option Char)) : collapse false p (front ++ ms) = collapse false p ms := by
  induction front with
  | nil => rfl
  | cons m front ih =>
      obtain rfl := hfront m List.mem_cons_self
      rw [List.cons_append, collapse, collapse_unwritten true p]
      exact ih fun m hm => hfront m (List.mem_cons_of_mem _ hm)

/-- Neither do separators behind. -/
theorem collapse_append_right {back : List (Option Char)} (hback : ∀ m ∈ back, m = none)
    (w p : Bool) (ms : List (Option Char)) : collapse w p (ms ++ back) = collapse w p ms := by
  induction ms generalizing w p with
  | nil =>
      induction back generalizing p with
      | nil => rfl
      | cons m back ih =>
          obtain rfl := hback m List.mem_cons_self
          exact ih (fun m hm => hback m (List.mem_cons_of_mem _ hm)) true
  | cons m ms ih =>
      cases m with
      | none => exact ih w true
      | some c => rw [List.cons_append, collapse, collapse, ih]

/-- As many characters other than dashes are written as are kept. -/
theorem countP_collapse (w p : Bool) {ms : List (Option Char)} (hkept : some '-' ∉ ms) :
    (collapse w p ms).countP (· ≠ '-') = ms.countP Option.isSome := by
  induction ms generalizing w p with
  | nil => rfl
  | cons m ms ih =>
      have hrest : some '-' ∉ ms := fun h => hkept (List.mem_cons_of_mem m h)
      cases m with
      | none => simpa [collapse] using ih w true hrest
      | some c =>
          have hc : c ≠ '-' := fun h => hkept (h ▸ List.mem_cons_self)
          have hdash : (if (p && w) = true then ['-'] else []).countP (· ≠ '-') = 0 := by
            split <;> rfl
          rw [collapse, List.countP_append, hdash, List.countP_cons_of_pos (by simpa using hc),
            ih true false hrest, List.countP_cons_of_pos rfl, Nat.zero_add]

/-! ## Stripping -/

/-- The text between the characters taken off both ends. -/
theorem exists_stripped (p : Char → Bool) (s : List Char) :
    ∃ front back, s = front ++ ((s.dropWhile p).reverse.dropWhile p).reverse ++ back
      ∧ (∀ c ∈ front, p c = true) ∧ ∀ c ∈ back, p c = true := by
  refine ⟨s.takeWhile p, ((s.dropWhile p).reverse.takeWhile p).reverse, ?_, ?_, ?_⟩
  · rw [List.append_assoc, ← List.reverse_append, List.takeWhile_append_dropWhile,
      List.reverse_reverse, List.takeWhile_append_dropWhile]
  · exact fun c hc => List.mem_takeWhile_imp hc
  · exact fun c hc => List.mem_takeWhile_imp (List.mem_reverse.mp hc)

/-- Removes `-+$`. -/
def stripEnd (s : List Char) : List Char := (s.reverse.dropWhile (· = '-')).reverse

theorem stripEnd_append (s : List Char) {c : Char} (hc : c ≠ '-') (t : List Char) :
    stripEnd (s ++ c :: t) = s ++ c :: stripEnd t := by
  have hsplit : s ++ c :: t = (s ++ [c]) ++ t := by simp
  rw [stripEnd, hsplit, List.reverse_append, List.dropWhile_append]
  split
  · rename_i h
    rw [List.isEmpty_iff] at h
    rw [stripEnd, h, List.reverse_append, List.reverse_singleton, List.singleton_append,
      List.dropWhile_cons_of_neg (by simpa using hc)]
    simp
  · simp [stripEnd]

theorem stripDashes_eq (s : List Char) : stripDashes s = stripEnd (s.dropWhile (· = '-')) := rfl

/-! ## The marks of a text -/

/-- What the gateway makes of a character. -/
def rustMark (c : Char) : Option Char := if c.isAlphanum then some c.toLower else none

/-- What the scraper's pattern makes of a lowercase character. -/
def jsMark (c : Char) : Option Char := if isAlnum c then some c else none

theorem slugFrom_eq_collapse (w p : Bool) (s : List Char) :
    slugFrom w p s = collapse w p (s.map rustMark) := by
  induction s generalizing w p with
  | nil => rfl
  | cons c s ih =>
      rw [slugFrom, List.map_cons, rustMark]
      split
      · rw [collapse, ih]
      · rw [collapse, ih]

theorem ne_dash_of_isAlnum {c : Char} (h : isAlnum c = true) : c ≠ '-' := by
  rintro rfl
  exact absurd h (by decide)

theorem stripEnd_dashRuns (s : List Char) (p : Bool) :
    stripEnd ((if p then ['-'] else []) ++ dashRuns p s) = collapse true p (s.map jsMark) := by
  induction s generalizing p with
  | nil => cases p <;> rfl
  | cons c s ih =>
      rw [List.map_cons, dashRuns, jsMark]
      by_cases hc : isAlnum c = true
      · have hrest : stripEnd (dashRuns false s) = collapse true false (s.map jsMark) := by
          simpa using ih false
        rw [if_pos hc, if_pos hc, stripEnd_append _ (ne_dash_of_isAlnum hc), hrest, collapse,
          Bool.and_true]
      · rw [if_neg hc, if_neg hc, collapse, ← ih true]
        cases p <;> simp

/-- The scraper's three replacements write the runs of kept characters. -/
theorem stripDashes_dashRuns (s : List Char) (p q : Bool) :
    stripDashes (dashRuns p s) = collapse false q (s.map jsMark) := by
  rw [stripDashes_eq]
  induction s generalizing p q with
  | nil => rfl
  | cons c s ih =>
      rw [List.map_cons, dashRuns, jsMark]
      by_cases hc : isAlnum c = true
      · have hrest : stripEnd (dashRuns false s) = collapse true false (s.map jsMark) := by
          simpa using stripEnd_dashRuns s false
        have hne := ne_dash_of_isAlnum hc
        rw [if_pos hc, if_pos hc, List.dropWhile_cons_of_neg (by simpa using hne), collapse,
          Bool.and_false, if_neg Bool.false_ne_true, List.nil_append,
          ← List.nil_append (c :: dashRuns false s), stripEnd_append [] hne, hrest, List.nil_append]
      · rw [if_neg hc, if_neg hc, collapse]
        split
        · exact ih true true
        · rw [List.dropWhile_cons_of_pos (by simp)]
          exact ih true true

/-! ## Lowercase forms -/

theorem isAlphanum_iff (c : Char) : c.isAlphanum = true ↔
    (48 ≤ c.toNat ∧ c.toNat ≤ 57) ∨ (65 ≤ c.toNat ∧ c.toNat ≤ 90)
      ∨ (97 ≤ c.toNat ∧ c.toNat ≤ 122) := by
  simp only [Char.isAlphanum, Char.isAlpha, Char.isUpper, Char.isLower, Char.isDigit,
    Bool.or_eq_true, Bool.and_eq_true, decide_eq_true_eq, ge_iff_le, UInt32.le_iff_toNat_le,
    Char.toNat]
  simp
  omega

theorem isAlnum_iff (c : Char) : isAlnum c = true ↔
    (48 ≤ c.toNat ∧ c.toNat ≤ 57) ∨ (97 ≤ c.toNat ∧ c.toNat ≤ 122) := by
  simp only [isAlnum, Char.isLower, Char.isDigit, Bool.or_eq_true, Bool.and_eq_true,
    decide_eq_true_eq, ge_iff_le, UInt32.le_iff_toNat_le, Char.toNat]
  simp
  omega

/-- The characters with an ASCII letter in their lowercase forms: the Kelvin sign, and the
capital I with a dot. -/
def LowersToAscii (c : Char) : Prop := c.toNat = 0x212A ∨ c.toNat = 0x0130

/-- What the scraper makes of a character. -/
def jsMarks (c : Char) : List (Option Char) :=
  if c.toNat < 128 then [rustMark c]
  else if c.toNat = 0x212A then [some 'k']
  else if c.toNat = 0x0130 then [some 'i', none]
  else [none]

theorem jsMark_toLower : ∀ n < 128, jsMark (Char.ofNat n).toLower = rustMark (Char.ofNat n) := by
  decide

theorem rustMark_of_nonascii {c : Char} (hc : 128 ≤ c.toNat) : rustMark c = none := by
  refine if_neg ?_
  rw [isAlphanum_iff]
  omega

theorem jsMark_of_nonascii {c : Char} (hc : 128 ≤ c.toNat) : jsMark c = none := by
  refine if_neg ?_
  rw [isAlnum_iff]
  omega

section Lowercase

variable (table : CaseTable)

theorem map_jsMark_lowerChar (before : List Char) (c : Char) (after : List Char) :
    (table.lowerChar before c after).map jsMark = jsMarks c := by
  rw [CaseTable.lowerChar, jsMarks]
  split
  · rename_i hc
    have hmark := jsMark_toLower c.toNat hc
    rw [Char.ofNat_toNat] at hmark
    rw [List.map_singleton, hmark]
  · rename_i hc
    split
    · rfl
    · split
      · rfl
      · have hother := table.other_nonascii before c after (not_lt.mp hc)
        rw [List.map_singleton, jsMark_of_nonascii hother]

/-- The marks of a lowercase text do not depend on the context of its characters. -/
theorem map_jsMark_toLowerCase (s : List Char) :
    (table.toLowerCase s).map jsMark = s.flatMap jsMarks := by
  rw [CaseTable.toLowerCase]
  generalize [] = before
  induction s generalizing before with
  | nil => rfl
  | cons c s ih =>
      rw [CaseTable.lowerFrom, List.map_append, map_jsMark_lowerChar, ih, List.flatMap_cons]

end Lowercase

/-! ## The slugs as runs of marks -/

theorem rustMark_of_whitespace {c : Char} (h : RustStd.isWhitespace c = true) :
    rustMark c = none := by
  refine if_neg ?_
  simp only [RustStd.isWhitespace, Bool.or_eq_true, Bool.and_eq_true, decide_eq_true_eq,
    beq_iff_eq] at h
  rw [isAlphanum_iff]
  omega

theorem jsMarks_of_whitespace {c : Char} (h : JsStd.isWhitespace c = true) :
    jsMarks c = [none] := by
  simp only [JsStd.isWhitespace, Bool.or_eq_true, Bool.and_eq_true, decide_eq_true_eq,
    beq_iff_eq] at h
  rw [jsMarks]
  split
  · have hmark : rustMark c = none := by
      refine if_neg ?_
      rw [isAlphanum_iff]
      omega
    rw [hmark]
  · rw [if_neg (by omega), if_neg (by omega)]

theorem toList_canonicalSlug (raw : String) :
    (canonicalSlug raw).toList = collapse false false (raw.toList.map rustMark) := by
  obtain ⟨front, back, hsplit, hfront, hback⟩ := exists_stripped RustStd.isWhitespace raw.toList
  have hnone : ∀ t : List Char, (∀ c ∈ t, RustStd.isWhitespace c = true) →
      ∀ m ∈ t.map rustMark, m = none := by
    intro t ht m hm
    obtain ⟨c, hc, rfl⟩ := List.mem_map.mp hm
    exact rustMark_of_whitespace (ht c hc)
  rw [canonicalSlug, String.toList_ofList, slugFrom_eq_collapse, RustStd.trim,
    String.toList_ofList, RustStd.trimChars]
  conv_rhs => rw [hsplit, List.map_append, List.map_append]
  rw [collapse_append_right (hnone back hback), collapse_append_left (hnone front hfront)]

theorem toList_canonicalModelId (table : CaseTable) (raw : String) :
    (canonicalModelId table raw).toList = collapse false false (raw.toList.flatMap jsMarks) := by
  obtain ⟨front, back, hsplit, hfront, hback⟩ := exists_stripped JsStd.isWhitespace raw.toList
  have hnone : ∀ t : List Char, (∀ c ∈ t, JsStd.isWhitespace c = true) →
      ∀ m ∈ t.flatMap jsMarks, m = none := by
    intro t ht m hm
    obtain ⟨c, hc, hm⟩ := List.mem_flatMap.mp hm
    rw [jsMarks_of_whitespace (ht c hc)] at hm
    exact List.mem_singleton.mp hm
  rw [canonicalModelId, String.toList_ofList, slug, stripDashes_dashRuns _ false false,
    map_jsMark_toLowerCase, JsStd.trim]
  conv_rhs => rw [hsplit, List.flatMap_append, List.flatMap_append]
  rw [collapse_append_right (hnone back hback), collapse_append_left (hnone front hfront)]

/-! ## Where they agree -/

theorem jsMarks_eq_of_not_lowersToAscii {c : Char} (h : ¬ LowersToAscii c) :
    jsMarks c = [rustMark c] := by
  rw [LowersToAscii, not_or] at h
  rw [jsMarks]
  split
  · rfl
  · rename_i hc
    rw [if_neg h.1, if_neg h.2, rustMark_of_nonascii (not_lt.mp hc)]

/-- The scraper keeps one character more for each of the two. -/
theorem countP_jsMarks (c : Char) [Decidable (LowersToAscii c)] :
    (jsMarks c).countP Option.isSome
      = [rustMark c].countP Option.isSome + if LowersToAscii c then 1 else 0 := by
  by_cases h : LowersToAscii c
  · have hc : 128 ≤ c.toNat := by
      rcases h with h | h <;> omega
    rw [if_pos h, rustMark_of_nonascii hc, jsMarks, if_neg (by omega)]
    rcases h with h | h
    · rw [if_pos h]
      rfl
    · rw [if_neg (by omega), if_pos h]
      rfl
  · rw [if_neg h, jsMarks_eq_of_not_lowersToAscii h, Nat.add_zero]

theorem dash_not_mem_jsMarks (c : Char) : some '-' ∉ jsMarks c := by
  rw [← map_jsMark_lowerChar .fixed [] c []]
  intro h
  obtain ⟨d, -, hd⟩ := List.mem_map.mp h
  rw [jsMark] at hd
  split at hd
  · rename_i halnum
    exact ne_dash_of_isAlnum halnum (Option.some.inj hd)
  · cases hd

theorem rustMark_ne_dash (c : Char) : rustMark c ≠ some '-' := by
  intro h
  by_cases hc : c.toNat < 128
  · have hmem := dash_not_mem_jsMarks c
    rw [jsMarks, if_pos hc, h] at hmem
    exact hmem (List.mem_singleton_self _)
  · rw [rustMark_of_nonascii (not_lt.mp hc)] at h
    cases h

instance (c : Char) : Decidable (LowersToAscii c) :=
  inferInstanceAs (Decidable (_ ∨ _))

/-- The kept characters of a text: the scraper keeps those of the gateway and the two. -/
theorem countP_flatMap_jsMarks (s : List Char) :
    (s.flatMap jsMarks).countP Option.isSome
      = (s.map rustMark).countP Option.isSome + s.countP fun c => LowersToAscii c := by
  induction s with
  | nil => rfl
  | cons c s ih =>
      simp only [List.flatMap_cons, List.countP_append, countP_jsMarks, ih, List.map_cons,
        List.countP_cons, List.countP_nil, decide_eq_true_eq]
      omega

/-- The catalog's slug of an id is the scraper's exactly when the id has neither a Kelvin sign
nor a capital I with a dot. -/
theorem canonicalSlug_eq_canonicalModelId_iff (table : CaseTable) (raw : String) :
    canonicalSlug raw = canonicalModelId table raw ↔ ∀ c ∈ raw.toList, ¬ LowersToAscii c := by
  rw [← String.toList_inj, toList_canonicalSlug, toList_canonicalModelId]
  constructor
  · intro h
    have hcount := congrArg (List.countP (· ≠ '-')) h
    have hrust : some '-' ∉ raw.toList.map rustMark := by
      intro hmem
      obtain ⟨c, -, hc⟩ := List.mem_map.mp hmem
      exact rustMark_ne_dash c hc
    have hjs : some '-' ∉ raw.toList.flatMap jsMarks := by
      intro hmem
      obtain ⟨c, -, hc⟩ := List.mem_flatMap.mp hmem
      exact dash_not_mem_jsMarks c hc
    rw [countP_collapse _ _ hrust, countP_collapse _ _ hjs, countP_flatMap_jsMarks] at hcount
    have hnone : raw.toList.countP (fun c => LowersToAscii c) = 0 := by omega
    rw [List.countP_eq_zero] at hnone
    exact fun c hc hlow => hnone c hc (decide_eq_true hlow)
  · intro h
    have hmarks : raw.toList.flatMap jsMarks = raw.toList.map rustMark := by
      rw [← List.flatMap_pure_eq_map]
      exact List.flatMap_congr fun c hc => jsMarks_eq_of_not_lowersToAscii (h c hc)
    rw [hmarks]

/-- A context length of 128 thousand tokens, written with a Kelvin sign. -/
theorem kelvin_slugs_differ :
    canonicalSlug "llama-128\u212A" = "llama-128"
      ∧ ∀ table : CaseTable, canonicalModelId table "llama-128\u212A" = "llama-128k" := by
  constructor
  · rw [← String.toList_inj, toList_canonicalSlug]
    decide
  · intro table
    rw [← String.toList_inj, toList_canonicalModelId]
    decide

end AuraGateway.Scraper
