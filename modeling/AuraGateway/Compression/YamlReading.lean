import AuraGateway.Compression.Yaml

/-!
# When YAML tells values apart

The kind of a value that stands below another is seen at its first character (`head_toYaml`):
lines are indented, arrays in brackets, empty objects in braces, and scalars start with something
else. Scalars end with their line, items in brackets at a comma and a space, and lines end where
one follows that is indented less (`Below`). So values are read uniquely line by line (`reads`), as
long as no key has a quotation mark or a line feed, which are not escaped in keys, and no string
that stands bare in brackets has a comma and a space in it (`convert_injective`).
-/

set_option autoImplicit false

namespace AuraGateway.Compression.Yaml

open AuraGateway.Types AuraGateway.Foundations.UniqueReading

variable {config : YamlConfig}

/-! ## Lines -/

section Lines

variable {indent : Nat}

theorem flowItems_eq (items : List Json) :
    flowItems config items = items.map (toYaml config 0) := by
  induction items with
  | nil => rfl
  | cons v items ih => rw [flowItems, ih, List.map_cons]

theorem blockItems_eq (items : List Json) :
    blockItems config indent items
      = items.map fun v => formatItem indent v (toYaml config (indent + 1) v) := by
  induction items with
  | nil => rfl
  | cons v items ih => rw [blockItems, ih, List.map_cons]

theorem blockFields_eq (fields : List (String × Json)) :
    blockFields config indent fields
      = fields.map fun f => formatField indent f.1 f.2 (toYaml config (indent + 1) f.2) := by
  induction fields with
  | nil => rfl
  | cons f fields ih => rw [blockFields, ih, List.map_cons]

/-- What stands behind a dash. -/
def afterDash : Json → Char
  | .array _ => '\n'
  | _ => ' '

/-- A line for an item starts with a dash. -/
theorem formatItem_eq (v : Json) (formatted : List Char) :
    formatItem indent v formatted = indentStr indent ++ '-' :: afterDash v :: formatted := by
  cases v with
  | object fields =>
      simp only [formatItem, afterDash]
      split <;> simp [List.takeWhile_append_dropWhile]
  | _ => simp [formatItem, afterDash]

/-- A value that is written on lines of its own. -/
def isBlock (config : YamlConfig) : Json → Bool
  | .array items => !items.isEmpty && !isFlow config items
  | .object fields => !fields.isEmpty
  | _ => false

/-- What stands behind a key and its colon. -/
def afterKey (config : YamlConfig) (v : Json) : Char := if isBlock config v then '\n' else ' '

theorem indentStr_succ (indent : Nat) :
    indentStr (indent + 1) = ' ' :: ' ' :: indentStr indent := rfl

/-- The lines of a block array. -/
theorem toYaml_items {items : List Json} (h : isBlock config (.array items) = true) :
    toYaml config indent (.array items)
      = ['\n'].intercalate
          (items.map fun v => formatItem indent v (toYaml config (indent + 1) v)) := by
  simp only [isBlock, Bool.and_eq_true, Bool.not_eq_true'] at h
  rw [toYaml, h.1, h.2, if_neg (by simp), if_neg (by simp), blockItems_eq]

/-- The lines of an object. -/
theorem toYaml_fields {fields : List (String × Json)} (h : isBlock config (.object fields) = true) :
    toYaml config indent (.object fields)
      = ['\n'].intercalate
          (fields.map fun f => formatField indent f.1 f.2 (toYaml config (indent + 1) f.2)) := by
  simp only [isBlock, Bool.not_eq_true'] at h
  rw [toYaml, h, if_neg (by simp), blockFields_eq]

/-- What is written on one line is written alike at every indentation. -/
theorem toYaml_inline {v : Json} (h : isBlock config v = false) (indent' : Nat) :
    toYaml config indent v = toYaml config indent' v := by
  cases v with
  | array items =>
      simp only [isBlock, Bool.and_eq_false_iff, Bool.not_eq_false'] at h
      simp only [toYaml]
      rcases h with h | h
      · simp only [h, if_true]
      · simp only [h, if_true]
  | object fields =>
      simp only [isBlock, Bool.not_eq_false'] at h
      simp only [toYaml, h, if_true]
  | _ => simp only [toYaml]

end Lines

/-! ## Kinds -/

/-- The ways of writing a value. -/
inductive Kind where
  | block
  | brackets
  | braces
  | scalar
  deriving DecidableEq

def kind (config : YamlConfig) (v : Json) : Kind :=
  if isBlock config v then .block
  else
    match v with
    | .array _ => .brackets
    | .object _ => .braces
    | _ => .scalar

/-- The kind of a value that is written below another, by its first character. -/
def kindOfHead (c : Char) : Kind :=
  if c = ' ' then .block else if c = '[' then .brackets else if c = '{' then .braces else .scalar

/-! ## Scalars -/

/-- What is written without quotation marks. -/
structure IsWord (t : List Char) : Prop where
  noNewline : '\n' ∉ t
  noQuote : '"' ∉ t
  noColon : ':' ∉ t
  head : ∃ c u, t = c :: u ∧ c ≠ ' ' ∧ c ≠ '[' ∧ c ≠ '{'
  dash : ∀ u, t = '-' :: u → ∃ d ∈ u.head?, d.isDigit = true

theorem isWord_of_needsQuotes {s : List Char} (h : needsQuotes s = false) : IsWord s := by
  simp only [needsQuotes, Bool.or_eq_false_iff, List.contains_eq_mem, decide_eq_false_iff_not,
    List.isEmpty_eq_false_iff] at h
  obtain ⟨⟨⟨⟨⟨⟨⟨⟨⟨⟨⟨⟨⟨⟨⟨hne, hspace⟩, -⟩, hcolon⟩, -⟩, hnewline⟩, hquote⟩, -⟩, hdash⟩, hbracket⟩,
    hbrace⟩, -⟩, -⟩, -⟩, -⟩, -⟩ := h
  obtain ⟨c, u, rfl⟩ := List.exists_cons_of_ne_nil hne
  rw [List.head?_cons] at hspace hdash hbracket hbrace
  refine ⟨hnewline, hquote, hcolon, ⟨c, u, rfl, ?_, ?_, ?_⟩, ?_⟩
  · exact fun hc => hspace (congrArg some hc)
  · exact fun hc => hbracket (congrArg some hc)
  · exact fun hc => hbrace (congrArg some hc)
  · intro w hw
    exact absurd (congrArg some (List.cons.inj hw).1) hdash

theorem isWord_of_isNumberText {s : List Char} (h : isNumberText s = true) : IsWord s := by
  have hchars := isNumberChar_of_isNumberText h
  have hmem : ∀ c, isNumberChar c = false → c ∉ s := by
    intro c hc hmem
    rw [hchars c hmem] at hc
    cases hc
  obtain ⟨d, t, hd, hs⟩ := head_of_isNumberText h
  refine ⟨hmem _ (by decide), hmem _ (by decide), hmem _ (by decide), ?_, ?_⟩
  · obtain ⟨c, u, rfl⟩ : ∃ c u, s = c :: u := by
      rcases hs with rfl | rfl
      · exact ⟨d, t, rfl⟩
      · exact ⟨'-', d :: t, rfl⟩
    refine ⟨c, u, rfl, ?_, ?_, ?_⟩
    · rintro rfl
      exact hmem ' ' (by decide) (List.mem_cons_self ..)
    · rintro rfl
      exact hmem '[' (by decide) (List.mem_cons_self ..)
    · rintro rfl
      exact hmem '{' (by decide) (List.mem_cons_self ..)
  · rintro u rfl
    rcases hs with hs | hs
    · rw [← (List.cons.inj hs).1] at hd
      exact absurd hd (by decide)
    · exact ⟨d, by rw [(List.cons.inj hs).2]; rfl, hd⟩

/-- A text with none of the characters that mean something is a word. -/
theorem isWord_of_chars {c : Char} {u : List Char}
    (h : ∀ d ∈ ['\n', '"', ':', ' ', '[', '{', '-'], d ∉ c :: u) : IsWord (c :: u) := by
  have hhead : ∀ d ∈ ['\n', '"', ':', ' ', '[', '{', '-'], c ≠ d := by
    rintro d hd rfl
    exact h c hd (List.mem_cons_self ..)
  refine ⟨h _ (by decide), h _ (by decide), h _ (by decide),
    ⟨c, u, rfl, hhead _ (by decide), hhead _ (by decide), hhead _ (by decide)⟩, ?_⟩
  intro w hw
  exact absurd (List.cons.inj hw).1 (hhead _ (by decide))

/-- The text of a scalar that is written without quotation marks. -/
def word (config : YamlConfig) : Json → Option (List Char)
  | .null => some ['~']
  | .bool b => some (if b then ['t', 'r', 'u', 'e'] else ['f', 'a', 'l', 's', 'e'])
  | .number text => some text.toList
  | .string s =>
      if needsQuotes s.toList || !config.minimalQuotes then none else some s.toList
  | _ => none

/-- The scalar that a word is written for. -/
def meaning (t : List Char) : Json :=
  if t = ['~'] then .null
  else if t = ['t', 'r', 'u', 'e'] then .bool true
  else if t = ['f', 'a', 'l', 's', 'e'] then .bool false
  else if isNumberText t then .number (String.ofList t)
  else .string (String.ofList t)

section Words

variable {v w : Json} {t : List Char} {indent : Nat}

theorem toYaml_of_word (h : word config v = some t) : toYaml config indent v = t := by
  cases v with
  | string s =>
      simp only [word] at h
      split at h
      · cases h
      · rename_i hbare
        obtain rfl := Option.some.inj h
        rw [toYaml, formatString, if_neg hbare]
  | array items => cases h
  | object fields => cases h
  | _ =>
      obtain rfl := Option.some.inj h
      rw [toYaml]

/-- Scalars that are no words are quoted strings. -/
theorem toYaml_of_quoted (indent : Nat) (hv : isScalar v = true) (h : word config v = none) :
    ∃ s, v = .string s ∧ toYaml config indent v = quote s.toList := by
  cases v with
  | string s =>
      simp only [word] at h
      split at h
      · rename_i hquoted
        exact ⟨s, rfl, by rw [toYaml, formatString, if_pos hquoted]⟩
      · cases h
  | array items => cases hv
  | object fields => cases hv
  | _ => cases h

theorem isWord_of_word (hv : isPartOfValue v) (h : word config v = some t) : IsWord t := by
  cases v with
  | null =>
      obtain rfl := Option.some.inj h
      exact isWord_of_chars (by simp)
  | bool b =>
      obtain rfl := Option.some.inj h
      cases b
      · exact isWord_of_chars (by simp)
      · exact isWord_of_chars (by simp)
  | number text =>
      obtain rfl := Option.some.inj h
      exact isWord_of_isNumberText hv
  | string s =>
      simp only [word] at h
      split at h
      · cases h
      · rename_i hbare
        obtain rfl := Option.some.inj h
        simp only [Bool.or_eq_true, not_or, Bool.not_eq_true] at hbare
        exact isWord_of_needsQuotes hbare.1
  | array items => cases h
  | object fields => cases h

/-- A word says which scalar it was written for. -/
theorem meaning_of_word (hv : isPartOfValue v) (h : word config v = some t) : meaning t = v := by
  cases v with
  | null =>
      obtain rfl := Option.some.inj h
      rfl
  | bool b =>
      obtain rfl := Option.some.inj h
      cases b <;> rfl
  | number text =>
      obtain rfl := Option.some.inj h
      have hnumber : isNumberText text.toList = true := hv
      have hne : ∀ t, isNumberText t = false → text.toList ≠ t := by
        rintro t ht rfl
        rw [ht] at hnumber
        cases hnumber
      rw [meaning, if_neg (hne _ (by decide)), if_neg (hne _ (by decide)),
        if_neg (hne _ (by decide)), if_pos hnumber, String.ofList_toList]
  | string s =>
      simp only [word] at h
      split at h
      · cases h
      · rename_i hbare
        obtain rfl := Option.some.inj h
        simp only [Bool.or_eq_true, not_or, Bool.not_eq_true] at hbare
        have hne : ∀ t, needsQuotes t = true → s.toList ≠ t := by
          rintro t ht heq
          rw [heq, ht] at hbare
          cases hbare.1
        have hnumber : ¬ isNumberText s.toList = true := by
          intro hnumber
          have hparses := parsesF64_of_isNumberText hnumber
          have hquotes : needsQuotes s.toList = true := by simp [needsQuotes, hparses]
          exact hne _ hquotes rfl
        rw [meaning, if_neg (hne _ (by decide)), if_neg (hne _ (by decide)),
          if_neg (hne _ (by decide)), if_neg hnumber, String.ofList_toList]
  | array items => cases h
  | object fields => cases h

/-- In a quoted string the marks and the backslashes are escaped. -/
theorem quote_eq (s : List Char) : quote s = '"' :: (escaped '"' '\\' s ++ ['"']) := by
  have hescape : replace '"' ['\\', '"'] (replace '\\' ['\\', '\\'] s) = escaped '"' '\\' s := by
    induction s with
    | nil => rfl
    | cons c s ih =>
        simp only [replace, escaped, List.flatMap_cons, List.flatMap_append] at ih ⊢
        rw [ih]
        by_cases hslash : c = '\\'
        · subst hslash
          rfl
        · by_cases hquote : c = '"'
          · subst hquote
            rfl
          · simp [hslash, hquote]
  rw [quote, hescape, List.cons_append]

/-- Scalars are read uniquely when the words among them are. -/
theorem scalar_unique {r s : List Char}
    (hv : isScalar v = true) (hw : isScalar w = true) (hvok : isPartOfValue v)
    (hwok : isPartOfValue w)
    (hwords : ∀ t u, word config v = some t → word config w = some u → t ++ r = u ++ s →
      t = u ∧ r = s)
    (heq : toYaml config indent v ++ r = toYaml config indent w ++ s) : v = w ∧ r = s := by
  have hne : ∀ {v w : Json} {t r s : List Char}, isPartOfValue v → word config v = some t →
      isScalar w = true → word config w = none →
      t ++ r ≠ toYaml config indent w ++ s := by
    intro v w t r s hv ht hw hquoted heq
    obtain ⟨text, -, htext⟩ := toYaml_of_quoted indent hw hquoted
    obtain ⟨c, u, rfl, -⟩ := (isWord_of_word hv ht).head
    rw [htext, quote_eq, List.cons_append, List.cons_append] at heq
    exact (isWord_of_word hv ht).noQuote ((List.cons.inj heq).1 ▸ List.mem_cons_self ..)
  cases hvword : word config v with
  | some t =>
      cases hwword : word config w with
      | some u =>
          rw [toYaml_of_word hvword, toYaml_of_word hwword] at heq
          obtain ⟨rfl, hrs⟩ := hwords t u hvword hwword heq
          exact ⟨(meaning_of_word hvok hvword).symm.trans (meaning_of_word hwok hwword), hrs⟩
      | none =>
          rw [toYaml_of_word hvword] at heq
          exact absurd heq (hne hvok hvword hw hwword)
  | none =>
      cases hwword : word config w with
      | some u =>
          rw [toYaml_of_word hwword] at heq
          exact absurd heq.symm (hne hwok hwword hv hvword)
      | none =>
          obtain ⟨a, rfl, ha⟩ := toYaml_of_quoted indent hv hvword
          obtain ⟨b, rfl, hb⟩ := toYaml_of_quoted indent hw hwword
          rw [ha, hb, quote_eq, quote_eq, List.cons_append, List.cons_append, List.append_assoc,
            List.append_assoc] at heq
          obtain ⟨hab, hrs⟩ := quoted_unique (by decide) (List.cons.inj heq).2
          rw [String.toList_inj.mp hab]
          exact ⟨rfl, hrs⟩

end Words

/-! ## Brackets -/

section Brackets

variable {v w : Json} {indent : Nat} {r s : List Char}

/-- The end of a line: a line feed, or nothing. -/
def LineEnd (r : List Char) : Prop := Stops (fun c => c = '\n') r

/-- The scalar that is written on the rest of a line is read uniquely. -/
theorem scalar_line_unique (hv : isScalar v = true) (hw : isScalar w = true)
    (hvok : isPartOfValue v) (hwok : isPartOfValue w) (hr : LineEnd r) (hs : LineEnd s)
    (heq : toYaml config indent v ++ r = toYaml config indent w ++ s) : v = w ∧ r = s := by
  apply scalar_unique hv hw hvok hwok _ heq
  intro t u ht hu htext
  have hline : ∀ {v : Json} {t : List Char}, isPartOfValue v → word config v = some t →
      ∀ c ∈ t, ¬ c = '\n' := by
    rintro v t hv ht c hc rfl
    exact (isWord_of_word hv ht).noNewline hc
  exact word_unique (hline hvok ht) (hline hwok hu) hr hs htext

/-- What stands behind the last item in brackets. -/
def Closed (r : List Char) : Prop := ∃ t, LineEnd t ∧ r = ']' :: t

/-- What stands behind a word in brackets. -/
def BehindItem (r : List Char) : Prop := Closed r ∨ ∃ x, r = [',', ' '] ++ x

/-- A word in brackets does not go on with what stands behind another. -/
theorem bracket_word_ends {t x : List Char} (hx : x ≠ []) (hline : '\n' ∉ t ++ x)
    (hsep : ¬ [',', ' '] <:+: t ++ x) (hr : BehindItem r) (hs : BehindItem s) : r ≠ x ++ s := by
  intro heq
  obtain ⟨c, x, rfl⟩ := List.exists_cons_of_ne_nil hx
  obtain ⟨d, s, rfl, hd⟩ : ∃ d s', s = d :: s' ∧ (d = ']' ∨ d = ',') := by
    rcases hs with ⟨y, -, rfl⟩ | ⟨y, rfl⟩
    · exact ⟨_, _, rfl, .inl rfl⟩
    · exact ⟨_, _, rfl, .inr rfl⟩
  rw [List.cons_append] at heq
  rcases hr with ⟨y, hy, rfl⟩ | ⟨y, rfl⟩
  · -- behind the closing bracket the line ends
    obtain ⟨rfl, rfl⟩ := List.cons.inj heq
    cases x with
    | nil =>
        have hend := stops_cons.mp hy
        rcases hd with rfl | rfl
        · exact absurd hend (by decide)
        · exact absurd hend (by decide)
    | cons e x =>
        obtain rfl := stops_cons.mp hy
        exact hline (by simp)
  · -- behind the separator there is a space
    obtain ⟨rfl, hrest⟩ := List.cons.inj heq
    cases x with
    | nil =>
        have hspace := (List.cons.inj hrest).1
        rcases hd with rfl | rfl
        · exact absurd hspace (by decide)
        · exact absurd hspace (by decide)
    | cons e x =>
        obtain ⟨rfl, -⟩ := List.cons.inj hrest
        exact hsep ⟨t, x, by simp⟩

/-- A word in brackets ends where a separator follows, or the bracket that closes the line. -/
theorem bracket_word_unique {t u : List Char} (ht : '\n' ∉ t) (hu : '\n' ∉ u)
    (htsep : ¬ [',', ' '] <:+: t) (husep : ¬ [',', ' '] <:+: u) (hr : BehindItem r)
    (hs : BehindItem s) (heq : t ++ r = u ++ s) : t = u ∧ r = s := by
  rcases List.append_eq_append_iff.mp heq with ⟨x, rfl, hrs⟩ | ⟨x, rfl, hrs⟩
  · by_cases hnil : x = []
    · subst hnil
      exact ⟨by simp, by simpa using hrs⟩
    · exact absurd hrs (bracket_word_ends hnil hu husep hr hs)
  · by_cases hnil : x = []
    · subst hnil
      exact ⟨by simp, by simpa using hrs.symm⟩
    · exact absurd hrs (bracket_word_ends hnil ht htsep hs hr)

/-- A scalar in brackets: a word in it has no comma and space. -/
structure IsItem (config : YamlConfig) (v : Json) : Prop where
  scalar : isScalar v = true
  part : isPartOfValue v
  apart : ∀ t, word config v = some t → ¬ [',', ' '] <:+: t

theorem behindItem_of_inRow
    (h : InRow (toYaml config 0) (IsItem config) [',', ' '] Closed r) : BehindItem r := by
  rcases h with h | ⟨b, t, -, rfl⟩
  · exact .inl h
  · exact .inr ⟨_, rfl⟩

/-- Items are read uniquely in brackets. -/
theorem readsAs_item (hv : IsItem config v) :
    ReadsAs (toYaml config 0) (IsItem config)
      (InRow (toYaml config 0) (IsItem config) [',', ' '] Closed) v := by
  intro w hw r s hr hs heq
  apply scalar_unique hv.scalar hw.scalar hv.part hw.part _ heq
  intro t u ht hu
  exact bracket_word_unique (isWord_of_word hv.part ht).noNewline
    (isWord_of_word hw.part hu).noNewline (hv.apart t ht) (hw.apart u hu)
    (behindItem_of_inRow hr) (behindItem_of_inRow hs)

/-- No item starts where the brackets are closed. -/
theorem item_ne_closed (hv : IsItem config v) (hr : Closed r) (hs : BehindItem s) :
    r ≠ toYaml config 0 v ++ s := by
  cases hword : word config v with
  | some t =>
      have ht := isWord_of_word hv.part hword
      obtain ⟨c, u, rfl, -⟩ := ht.head
      rw [toYaml_of_word hword]
      exact bracket_word_ends (t := []) (by simp) ht.noNewline (hv.apart _ hword) (.inl hr) hs
  | none =>
      obtain ⟨text, -, htext⟩ := toYaml_of_quoted 0 hv.scalar hword
      obtain ⟨t, -, rfl⟩ := hr
      rw [htext, quote_eq]
      intro heq
      exact absurd (List.cons.inj heq).1 (by decide)

theorem toYaml_brackets {items : List Json} (h : kind config (.array items) = .brackets) :
    toYaml config indent (.array items)
      = '[' :: ([',', ' '].intercalate (items.map (toYaml config 0)) ++ [']']) := by
  cases items with
  | nil => rfl
  | cons v items =>
      have hflow : isFlow config (v :: items) = true := by
        by_contra hflow
        simp [kind, isBlock, hflow] at h
      simp [toYaml, hflow, flowItems_eq]

/-- Arrays in brackets are read uniquely. -/
theorem brackets_unique {items items' : List Json} (hv : kind config (.array items) = .brackets)
    (hw : kind config (.array items') = .brackets) (hvitems : ∀ v ∈ items, IsItem config v)
    (hwitems : ∀ v ∈ items', IsItem config v) (hr : LineEnd r) (hs : LineEnd s)
    (heq : toYaml config indent (.array items) ++ r = toYaml config indent (.array items') ++ s) :
    items = items' ∧ r = s := by
  have hclosed : ∀ {r}, LineEnd r → Closed (']' :: r) := fun {r} hr => ⟨r, hr, rfl⟩
  have hstop : ∀ r, Closed r → ∀ b t, IsItem config b →
      r ≠ [',', ' '] ++ (toYaml config 0 b ++ t) := by
    rintro r ⟨t, -, rfl⟩ b u - heq
    exact absurd (List.cons.inj heq).1 (by decide)
  have hempty : ∀ {v : Json} {items : List Json} {r s : List Char}, (∀ w ∈ v :: items, IsItem config w) →
      LineEnd r → LineEnd s →
      ']' :: r ≠ [',', ' '].intercalate ((v :: items).map (toYaml config 0)) ++ ']' :: s := by
    intro v items r s hitems hr hs
    rw [intercalate_map_cons, List.append_assoc]
    apply item_ne_closed (hitems v (List.mem_cons_self ..)) (hclosed hr)
    apply behindItem_of_inRow
    exact inRow_flatMap (fun w hw => hitems w (List.mem_cons_of_mem v hw)) (hclosed hs)
  rw [toYaml_brackets hv, toYaml_brackets hw, List.cons_append, List.cons_append,
    List.append_assoc, List.append_assoc] at heq
  have hrow := (List.cons.inj heq).2
  cases items with
  | nil =>
      cases items' with
      | nil => exact ⟨rfl, (List.cons.inj hrow).2⟩
      | cons w items' => exact absurd hrow (hempty hwitems hr hs)
  | cons v items =>
      cases items' with
      | nil => exact absurd hrow.symm (hempty hvitems hs hr)
      | cons w items' =>
          obtain ⟨hitems, hrs⟩ := joined_unique hstop
            (fun a ha => ⟨hvitems a ha, readsAs_item (hvitems a ha)⟩) hwitems (by simp) (by simp)
            (hclosed hr) (hclosed hs) hrow
          exact ⟨hitems, (List.cons.inj hrs).2⟩

end Brackets

/-! ## Blocks -/

/-- The end of a text, or a line that is indented less. -/
def Below (indent : Nat) (r : List Char) : Prop :=
  r = [] ∨ ∃ j < indent, ∃ c t, c ≠ ' ' ∧ r = '\n' :: (indentStr j ++ c :: t)

section Below

variable {indent : Nat} {r : List Char}

theorem Below.lineEnd (h : Below indent r) : LineEnd r := by
  rcases h with rfl | ⟨j, -, c, t, -, rfl⟩
  · exact stops_nil
  · exact stops_cons.mpr rfl

theorem Below.succ (h : Below indent r) : Below (indent + 1) r := by
  rcases h with h | ⟨j, hj, h⟩
  · exact .inl h
  · exact .inr ⟨j, Nat.lt_succ_of_lt hj, h⟩

theorem below_line {c : Char} (hc : c ≠ ' ') (t : List Char) :
    Below (indent + 1) ('\n' :: (indentStr indent ++ c :: t)) :=
  .inr ⟨indent, Nat.lt_succ_self indent, c, t, hc, rfl⟩

/-- A line of the block itself is indented as the block is. -/
theorem Below.ne_line (h : Below indent r) (t : List Char) :
    r ≠ '\n' :: (indentStr indent ++ t) := by
  rcases h with rfl | ⟨j, hj, c, u, hc, rfl⟩
  · exact (List.cons_ne_nil _ _).symm
  · intro heq
    have hsplit : indentStr indent = indentStr j ++ ' ' :: List.replicate (2 * indent - 2 * j - 1) ' ' := by
      rw [indentStr, indentStr, ← List.replicate_succ, List.replicate_append_replicate]
      congr 1
      omega
    rw [hsplit, List.append_assoc] at heq
    have hrest := List.append_cancel_left (List.cons.inj heq).2
    exact hc (List.cons.inj hrest).1

end Below

/-- What tells the values with the same text apart: bare strings in brackets have no comma and
space in them, and keys no quotation mark and no line feed. -/
def isToldApart (config : YamlConfig) : Json → Prop
  | .array items =>
      isFlow config items = true → ∀ s, .string s ∈ items →
        (needsQuotes s.toList || !config.minimalQuotes) = false → ¬ [',', ' '] <:+: s.toList
  | .object fields => ∀ f ∈ fields, '"' ∉ f.1.toList ∧ '\n' ∉ f.1.toList
  | _ => True

/-- A value of the JSON library that is told apart. -/
structure IsRead (config : YamlConfig) (v : Json) : Prop where
  value : everywhere isPartOfValue v
  toldApart : everywhere (isToldApart config) v

section Keys

variable {key key' : List Char} {r s : List Char}

structure IsKey (key : List Char) : Prop where
  noQuote : '"' ∉ key
  noNewline : '\n' ∉ key

theorem formatKey_cases (hkey : IsKey key) :
    (formatKey key = '"' :: key ++ ['"'])
      ∨ (formatKey key = key ∧ ∃ c t, key = c :: t ∧ c ≠ '"' ∧ ':' ∉ key ∧ ' ' ∉ key) := by
  unfold formatKey
  split
  · exact .inl rfl
  · rename_i h
    simp only [Bool.or_eq_true, not_or, List.contains_eq_mem, decide_eq_true_eq,
      Bool.not_eq_true, List.isEmpty_eq_false_iff] at h
    obtain ⟨⟨hcolon, hspace⟩, hne⟩ := h
    obtain ⟨c, t, rfl⟩ := List.exists_cons_of_ne_nil hne
    refine .inr ⟨rfl, c, t, rfl, ?_, hcolon, hspace⟩
    rintro rfl
    exact hkey.noQuote (List.mem_cons_self ..)

/-- Keys are read uniquely up to the colon behind them. -/
theorem key_unique (hkey : IsKey key) (hkey' : IsKey key')
    (heq : formatKey key ++ ':' :: r = formatKey key' ++ ':' :: s) : key = key' ∧ r = s := by
  have hbare : ∀ {c : Char} {t key r s : List Char}, c ≠ '"' →
      (c :: t) ++ ':' :: r ≠ '"' :: key ++ s := by
    intro c t key r s hc heq
    exact hc (List.cons.inj heq).1
  rcases formatKey_cases hkey with hk | ⟨hk, c, t, rfl, hc, hcolon, -⟩
  · rcases formatKey_cases hkey' with hk' | ⟨hk', d, u, rfl, hd, -, -⟩
    · rw [hk, hk', List.cons_append, List.cons_append, List.cons_append, List.cons_append,
        List.append_assoc, List.append_assoc] at heq
      obtain ⟨rfl, hrest⟩ := word_unique (p := fun c => c = '"')
        (fun c hc h => hkey.noQuote (h ▸ hc)) (fun c hc h => hkey'.noQuote (h ▸ hc))
        (stops_cons.mpr rfl) (stops_cons.mpr rfl) (List.cons.inj heq).2
      exact ⟨rfl, by simpa using hrest⟩
    · rw [hk, hk', List.append_assoc] at heq
      exact absurd heq.symm (hbare hd)
  · rcases formatKey_cases hkey' with hk' | ⟨hk', d, u, rfl, hd, hcolon', -⟩
    · rw [hk, hk', List.append_assoc] at heq
      exact absurd heq (hbare hc)
    · rw [hk, hk'] at heq
      obtain ⟨hkeys, hrest⟩ := word_unique (p := fun c => c = ':')
        (fun e he h => hcolon (h ▸ he)) (fun e he h => hcolon' (h ▸ he)) (stops_cons.mpr rfl)
        (stops_cons.mpr rfl) heq
      exact ⟨hkeys, (List.cons.inj hrest).2⟩

theorem formatKey_head (hkey : IsKey key) : ∃ c t, formatKey key = c :: t ∧ c ≠ ' ' := by
  rcases formatKey_cases hkey with hk | ⟨hk, c, t, rfl, -, -, hspace⟩
  · exact ⟨'"', key ++ ['"'], by rw [hk, List.cons_append], by decide⟩
  · refine ⟨c, t, hk, ?_⟩
    rintro rfl
    exact hspace (List.mem_cons_self ..)

/-- A line for a field is no line for an item. -/
theorem key_ne_dash (hkey : IsKey key) (v : Json) :
    formatKey key ++ ':' :: r ≠ '-' :: afterDash v :: s := by
  intro heq
  have hdash : afterDash v = '\n' ∨ afterDash v = ' ' := by
    cases v <;> simp [afterDash]
  rcases formatKey_cases hkey with hk | ⟨hk, c, t, rfl, -, -, hspace⟩
  · rw [hk] at heq
    exact absurd (List.cons.inj heq).1 (by decide)
  · rw [hk, List.cons_append] at heq
    obtain ⟨rfl, hrest⟩ := List.cons.inj heq
    cases t with
    | nil =>
        have hcolon := (List.cons.inj hrest).1
        rcases hdash with h | h
        · rw [h] at hcolon
          exact absurd hcolon (by decide)
        · rw [h] at hcolon
          exact absurd hcolon (by decide)
    | cons d t =>
        have hd := (List.cons.inj hrest).1
        rcases hdash with h | h
        · rw [h] at hd
          exact hkey.noNewline (by simp [hd])
        · rw [h] at hd
          exact hspace (by simp [hd])

end Keys

section Blocks

variable {v w : Json} {items : List Json} {fields : List (String × Json)} {indent : Nat}
  {r s : List Char}

/-- A line for a field: the key, a colon, and the value behind it or below. -/
theorem formatField_split (key : String) (v : Json) (formatted : List Char) :
    formatField indent key v formatted
      = indentStr indent ++ (formatKey key.toList ++ ':' ::
          (if isScalar v = true ∨ formatted.head? = some '[' ∨ formatted.head? = some '{' then ' '
            else '\n') :: formatted) := by
  cases v with
  | array items =>
      simp only [formatField, isScalar, Bool.false_eq_true, false_or]
      split <;> simp
  | object fields =>
      simp only [formatField, isScalar, Bool.false_eq_true, false_or]
      split <;> simp
  | _ => simp [formatField, isScalar]

/-- Lines are indented. -/
theorem head_block (indent : Nat) (h : isBlock config v = true) :
    ∃ t, toYaml config (indent + 1) v = ' ' :: t := by
  cases v with
  | array items =>
      obtain ⟨a, items, rfl⟩ : ∃ a l, items = a :: l := by
        apply List.exists_cons_of_ne_nil
        rintro rfl
        cases h
      rw [toYaml_items h, intercalate_map_cons, formatItem_eq, indentStr_succ]
      exact ⟨_, rfl⟩
  | object fields =>
      obtain ⟨f, fields, rfl⟩ : ∃ f l, fields = f :: l := by
        apply List.exists_cons_of_ne_nil
        rintro rfl
        cases h
      rw [toYaml_fields h, intercalate_map_cons, formatField_split, indentStr_succ]
      exact ⟨_, rfl⟩
  | _ => cases h

/-- Scalars start with something else than lines, brackets and braces. -/
theorem head_scalar (hv : isScalar v = true) (hpart : isPartOfValue v) :
    ∃ c t, toYaml config indent v = c :: t ∧ kindOfHead c = .scalar := by
  cases hword : word config v with
  | some t =>
      obtain ⟨c, u, rfl, hspace, hbracket, hbrace⟩ := (isWord_of_word hpart hword).head
      refine ⟨c, u, toYaml_of_word hword, ?_⟩
      rw [kindOfHead, if_neg hspace, if_neg hbracket, if_neg hbrace]
  | none =>
      obtain ⟨text, -, htext⟩ := toYaml_of_quoted indent hv hword
      exact ⟨_, _, by rw [htext, quote_eq], rfl⟩

theorem kind_of_isScalar (hv : isScalar v = true) : kind config v = .scalar := by
  cases v with
  | array items => cases hv
  | object fields => cases hv
  | _ => rfl

/-- The kind of a value that is written below another is seen at its first character. -/
theorem head_toYaml (config : YamlConfig) (indent : Nat) (hv : isPartOfValue v) :
    ∃ c t, toYaml config (indent + 1) v = c :: t ∧ kindOfHead c = kind config v := by
  cases hblock : isBlock config v with
  | true =>
      obtain ⟨t, ht⟩ := head_block indent hblock
      exact ⟨' ', t, ht, by simp [kind, hblock, kindOfHead]⟩
  | false =>
      cases hscalar : isScalar v with
      | true =>
          rw [kind_of_isScalar hscalar]
          exact head_scalar hscalar hv
      | false =>
          cases v with
          | array items =>
              have hkind : kind config (.array items) = .brackets := by simp [kind, hblock]
              rw [toYaml_brackets hkind, hkind]
              exact ⟨_, _, rfl, rfl⟩
          | object fields =>
              have hnil : fields = [] := by simpa [isBlock] using hblock
              subst hnil
              exact ⟨'{', ['}'], rfl, rfl⟩
          | _ => cases hscalar

theorem kind_eq (hv : isPartOfValue v) (hw : isPartOfValue w)
    (heq : toYaml config (indent + 1) v ++ r = toYaml config (indent + 1) w ++ s) :
    kind config v = kind config w := by
  obtain ⟨c, t, ht, hc⟩ := head_toYaml config indent hv
  obtain ⟨d, u, hu, hd⟩ := head_toYaml config indent hw
  rw [ht, hu, List.cons_append, List.cons_append] at heq
  rw [← hc, ← hd, (List.cons.inj heq).1]

/-- Behind the colon of a key stands the value, or the line ends. -/
theorem formatField_eq (key : String) (hv : isPartOfValue v) :
    formatField indent key v (toYaml config (indent + 1) v)
      = indentStr indent
        ++ (formatKey key.toList ++ ':' :: afterKey config v :: toYaml config (indent + 1) v) := by
  obtain ⟨c, t, ht, hc⟩ := head_toYaml config indent hv
  rw [formatField_split, afterKey, ht, List.head?_cons]
  cases hblock : isBlock config v with
  | true =>
      have hkind : kindOfHead c = .block := by simpa [kind, hblock] using hc
      have hspace : c = ' ' := by
        by_contra hspace
        rw [kindOfHead, if_neg hspace] at hkind
        split at hkind
        · cases hkind
        · split at hkind <;> cases hkind
      have hscalar : isScalar v = false := by
        cases v with
        | array items => rfl
        | object fields => rfl
        | _ => cases hblock
      subst hspace
      simp [hscalar]
  | false =>
      have hinline : isScalar v = true ∨ some c = some '[' ∨ some c = some '{' := by
        cases hscalar : isScalar v with
        | true => exact .inl rfl
        | false =>
            have hkind : kindOfHead c = .brackets ∨ kindOfHead c = .braces := by
              rw [hc]
              cases v with
              | array items => exact .inl (by simp [kind, hblock])
              | object fields => exact .inr (by simp [kind, hblock])
              | _ => cases hscalar
            refine .inr ?_
            by_contra hne
            rw [not_or, Option.some.injEq, Option.some.injEq] at hne
            unfold kindOfHead at hkind
            split at hkind
            · rcases hkind with hkind | hkind <;> cases hkind
            · rw [if_neg hne.1, if_neg hne.2] at hkind
              rcases hkind with hkind | hkind <;> cases hkind
      rw [if_pos hinline]
      simp

theorem IsRead.item (h : IsRead config (.array items)) : ∀ v ∈ items, IsRead config v := by
  intro v hv
  exact ⟨(everywhere_array.mp h.value).2 v hv, (everywhere_array.mp h.toldApart).2 v hv⟩

theorem IsRead.field (h : IsRead config (.object fields)) :
    ∀ f ∈ fields, IsKey f.1.toList ∧ IsRead config f.2 := by
  intro f hf
  obtain ⟨hkeys, hfields⟩ := everywhere_object.mp h.toldApart
  exact ⟨⟨(hkeys f hf).1, (hkeys f hf).2⟩, (everywhere_object.mp h.value).2 f hf, hfields f hf⟩

theorem IsRead.part (h : IsRead config v) : isPartOfValue v := everywhere_self h.value

/-- The scalars of a flow array are told apart in its brackets. -/
theorem IsRead.isItem (h : IsRead config (.array items))
    (hkind : kind config (.array items) = .brackets) : ∀ v ∈ items, IsItem config v := by
  intro v hv
  have hflow : isFlow config items = true := by
    by_contra hflow
    have hne : items.isEmpty = false := by
      rw [List.isEmpty_eq_false_iff]
      rintro rfl
      cases hv
    simp [kind, isBlock, hflow, hne] at hkind
  have hscalar : isScalar v = true := by
    simp only [isFlow, Bool.and_eq_true] at hflow
    exact List.all_eq_true.mp hflow.2 v hv
  have hpart := (h.item v hv).part
  refine ⟨hscalar, hpart, ?_⟩
  intro t ht hsep
  have hcomma : ',' ∈ t := hsep.mem (by simp)
  cases v with
  | string s =>
      simp only [word] at ht
      split at ht
      · cases ht
      · rename_i hbare
        obtain rfl := Option.some.inj ht
        exact everywhere_self h.toldApart hflow s hv (by simpa using hbare) hsep
  | number text =>
      obtain rfl := Option.some.inj ht
      exact absurd (isNumberChar_of_isNumberText hpart _ hcomma) (by decide)
  | bool b =>
      obtain rfl := Option.some.inj ht
      cases b <;> exact absurd hcomma (by decide)
  | null =>
      obtain rfl := Option.some.inj ht
      exact absurd hcomma (by decide)
  | array items => cases hscalar
  | object fields => cases hscalar

/-- A value that is written below another is read uniquely, up to the line that is indented less. -/
def Reads (config : YamlConfig) (v : Json) : Prop :=
  ∀ indent, ReadsAs (toYaml config (indent + 1)) (IsRead config) (Below (indent + 1)) v

/-- The items of a block are read uniquely when each item is. -/
theorem items_unique {items items' : List Json} (hv : isBlock config (.array items) = true)
    (hw : isBlock config (.array items') = true) (hvok : IsRead config (.array items))
    (hwok : IsRead config (.array items')) (hreads : ∀ v ∈ items, Reads config v)
    (hr : Below indent r) (hs : Below indent s)
    (heq : toYaml config indent (.array items) ++ r = toYaml config indent (.array items') ++ s) :
    items = items' ∧ r = s := by
  let enc := fun v => formatItem indent v (toYaml config (indent + 1) v)
  have hbelow : ∀ {r}, InRow enc (IsRead config) ['\n'] (Below indent) r → Below (indent + 1) r := by
    rintro r (hr | ⟨b, t, -, rfl⟩)
    · exact hr.succ
    · simp only [enc, formatItem_eq, List.append_assoc, List.cons_append]
      exact below_line (by decide) _
  have hread : ∀ v ∈ items, ReadsAs enc (IsRead config) (InRow enc (IsRead config) ['\n'] (Below indent)) v := by
    intro v hv w hw r s hr hs heq
    simp only [enc, formatItem_eq, List.append_assoc, List.cons_append] at heq
    have hline := (List.cons.inj (List.append_cancel_left heq)).2
    exact hreads v hv indent w hw r s (hbelow hr) (hbelow hs) (List.cons.inj hline).2
  have hstop : ∀ r, Below indent r → ∀ b t, IsRead config b → r ≠ ['\n'] ++ (enc b ++ t) := by
    rintro r hr b t -
    simp only [enc, formatItem_eq, List.append_assoc]
    exact hr.ne_line _
  rw [toYaml_items hv, toYaml_items hw] at heq
  refine joined_unique hstop (fun v hv => ⟨hvok.item v hv, hread v hv⟩) hwok.item ?_ ?_ hr hs heq
  · rintro rfl
    cases hv
  · rintro rfl
    cases hw

/-- The fields of an object are read uniquely when each value is. -/
theorem fields_unique {fields fields' : List (String × Json)}
    (hv : isBlock config (.object fields) = true) (hw : isBlock config (.object fields') = true)
    (hvok : IsRead config (.object fields)) (hwok : IsRead config (.object fields'))
    (hreads : ∀ f ∈ fields, Reads config f.2) (hr : Below indent r) (hs : Below indent s)
    (heq : toYaml config indent (.object fields) ++ r = toYaml config indent (.object fields') ++ s) :
    fields = fields' ∧ r = s := by
  let enc := fun f : String × Json =>
    formatField indent f.1 f.2 (toYaml config (indent + 1) f.2)
  let Ok := fun f : String × Json => IsKey f.1.toList ∧ IsRead config f.2
  have henc : ∀ f, Ok f → enc f = indentStr indent ++ (formatKey f.1.toList ++ ':' ::
      afterKey config f.2 :: toYaml config (indent + 1) f.2) :=
    fun f hf => formatField_eq f.1 hf.2.part
  have hbelow : ∀ {r}, InRow enc Ok ['\n'] (Below indent) r → Below (indent + 1) r := by
    rintro r (hr | ⟨f, t, hf, rfl⟩)
    · exact hr.succ
    · obtain ⟨c, u, hkey, hc⟩ := formatKey_head hf.1
      rw [henc f hf, hkey, List.append_assoc, List.singleton_append]
      exact below_line hc _
  have hread : ∀ f ∈ fields, ReadsAs enc Ok (InRow enc Ok ['\n'] (Below indent)) f := by
    intro f hf g hg r s hr hs heq
    have hfok := hvok.field f hf
    rw [henc f hfok, henc g hg] at heq
    simp only [List.append_assoc, List.cons_append] at heq
    obtain ⟨hkey, hrest⟩ := key_unique hfok.1 hg.1 (List.append_cancel_left heq)
    obtain ⟨hvalue, hrs⟩ := hreads f hf indent g.2 hg.2 r s (hbelow hr) (hbelow hs)
      (List.cons.inj hrest).2
    exact ⟨Prod.ext (String.toList_inj.mp hkey) hvalue, hrs⟩
  have hstop : ∀ r, Below indent r → ∀ f t, Ok f → r ≠ ['\n'] ++ (enc f ++ t) := by
    intro r hr f t hf
    rw [henc f hf, List.append_assoc, List.singleton_append]
    exact hr.ne_line _
  rw [toYaml_fields hv, toYaml_fields hw] at heq
  refine joined_unique hstop (fun f hf => ⟨hvok.field f hf, hread f hf⟩) hwok.field ?_ ?_ hr hs heq
  · rintro rfl
    cases hv
  · rintro rfl
    cases hw

/-- The lines of an array are none of an object. -/
theorem items_ne_fields (hv : isBlock config (.array items) = true)
    (hw : isBlock config (.object fields) = true) (hwok : IsRead config (.object fields)) :
    toYaml config indent (.array items) ++ r ≠ toYaml config indent (.object fields) ++ s := by
  obtain ⟨v, items, rfl⟩ : ∃ a l, items = a :: l := by
    apply List.exists_cons_of_ne_nil
    rintro rfl
    cases hv
  obtain ⟨f, fields, rfl⟩ : ∃ a l, fields = a :: l := by
    apply List.exists_cons_of_ne_nil
    rintro rfl
    cases hw
  have hf := hwok.field f (List.mem_cons_self ..)
  rw [toYaml_items hv, toYaml_fields hw, intercalate_map_cons, intercalate_map_cons,
    formatItem_eq, formatField_eq f.1 hf.2.part]
  intro heq
  simp only [List.append_assoc] at heq
  have hline := List.append_cancel_left heq
  exact key_ne_dash hf.1 v hline.symm


/-! ## Values -/

theorem kind_eq_block_iff : kind config v = .block ↔ isBlock config v = true := by
  unfold kind
  split
  · rename_i h
    simp [h]
  · rename_i h
    split <;> simp [h]

/-- A scalar below another value is read uniquely. -/
theorem reads_scalar (hvok : IsRead config v) (hv : isScalar v = true) : Reads config v := by
  intro indent w hw r s hr hs heq
  have hkind := kind_eq hvok.part hw.part heq
  rw [kind_of_isScalar hv] at hkind
  have hwscalar : isScalar w = true := by
    cases w with
    | array items =>
        cases hblock : isBlock config (.array items) <;> simp [kind, hblock] at hkind
    | object fields =>
        cases hblock : isBlock config (.object fields) <;> simp [kind, hblock] at hkind
    | _ => rfl
  exact scalar_line_unique hv hwscalar hvok.part hw.part hr.lineEnd hs.lineEnd heq

/-- An array is read uniquely when its items are. -/
theorem reads_array (hvok : IsRead config (.array items)) (h : ∀ v ∈ items, Reads config v) :
    Reads config (.array items) := by
  intro indent w hw r s hr hs heq
  have hkind := kind_eq hvok.part hw.part heq
  cases hblock : isBlock config (.array items) with
  | true =>
      have hwblock : isBlock config w = true := by
        rw [← kind_eq_block_iff, ← hkind, kind_eq_block_iff, hblock]
      cases w with
      | array items' =>
          obtain ⟨rfl, hrs⟩ := items_unique hblock hwblock hvok hw h hr hs heq
          exact ⟨rfl, hrs⟩
      | object fields => exact absurd heq (items_ne_fields hblock hwblock hw)
      | _ => cases hwblock
  | false =>
      have hbrackets : kind config (.array items) = .brackets := by simp [kind, hblock]
      rw [hbrackets] at hkind
      cases w with
      | array items' =>
          obtain ⟨rfl, hrs⟩ := brackets_unique hbrackets hkind.symm (hvok.isItem hbrackets)
            (hw.isItem hkind.symm) hr.lineEnd hs.lineEnd heq
          exact ⟨rfl, hrs⟩
      | object fields =>
          cases hfields : isBlock config (.object fields) <;> simp [kind, hfields] at hkind
      | _ => simp [kind, isBlock] at hkind

/-- An object is read uniquely when the values of its fields are. -/
theorem reads_object (hvok : IsRead config (.object fields))
    (h : ∀ f ∈ fields, Reads config f.2) : Reads config (.object fields) := by
  intro indent w hw r s hr hs heq
  have hkind := kind_eq hvok.part hw.part heq
  cases hblock : isBlock config (.object fields) with
  | true =>
      have hwblock : isBlock config w = true := by
        rw [← kind_eq_block_iff, ← hkind, kind_eq_block_iff, hblock]
      cases w with
      | array items => exact absurd heq.symm (items_ne_fields hwblock hblock hvok)
      | object fields' =>
          obtain ⟨rfl, hrs⟩ := fields_unique hblock hwblock hvok hw h hr hs heq
          exact ⟨rfl, hrs⟩
      | _ => cases hwblock
  | false =>
      have hbraces : kind config (.object fields) = .braces := by simp [kind, hblock]
      rw [hbraces] at hkind
      cases w with
      | array items =>
          cases hitems : isBlock config (.array items) <;> simp [kind, hitems] at hkind
      | object fields' =>
          have hnil : fields = [] := by simpa [isBlock] using hblock
          have hnil' : fields' = [] := by
            cases hfields : isBlock config (.object fields') with
            | true => simp [kind, hfields] at hkind
            | false => simpa [isBlock] using hfields
          subst hnil hnil'
          exact ⟨rfl, List.append_cancel_left heq⟩
      | _ => simp [kind, isBlock] at hkind

/-- Every value below another is read uniquely. -/
theorem reads (v : Json) : IsRead config v → Reads config v := by
  induction v using value_induction with
  | scalar v hv => exact fun h => reads_scalar h hv
  | array items ih => exact fun h => reads_array h fun v hv => ih v hv (h.item v hv)
  | object fields ih => exact fun h => reads_object h fun f hf => ih f hf (h.field f hf).2

/-! ## Whole texts -/

/-- A text that ends with a mark has a quoted string at its end, behind a space. -/
def EndsQuoted (t : List Char) : Prop :=
  t.getLast? = some '"' → ∃ a b, b ≠ [] ∧ t = a ++ ' ' :: '"' :: b

theorem EndsQuoted.append {t : List Char} (h : EndsQuoted t) (hne : t ≠ []) (pre : List Char) :
    EndsQuoted (pre ++ t) := by
  intro hlast
  rw [List.getLast?_append_of_ne_nil _ hne] at hlast
  obtain ⟨a, b, hb, rfl⟩ := h hlast
  exact ⟨pre ++ a, b, hb, by simp⟩

theorem endsQuoted_of_getLast {t : List Char} {c : Char} (hc : c ≠ '"') (ht : t.getLast? = some c) :
    EndsQuoted t := by
  intro hlast
  rw [ht] at hlast
  exact absurd (Option.some.inj hlast) hc

/-- Lines end as the last of them does. -/
theorem endsQuoted_lines {lines : List (List Char)} (h : ∀ l ∈ lines, l ≠ [] ∧ EndsQuoted l)
    (hne : lines ≠ []) :
    ['\n'].intercalate lines ≠ [] ∧ EndsQuoted (['\n'].intercalate lines) := by
  induction lines with
  | nil => exact absurd rfl hne
  | cons l lines ih =>
      rw [List.forall_mem_cons] at h
      cases lines with
      | nil =>
          rw [List.intercalate_singleton]
          exact h.1
      | cons l' lines =>
          obtain ⟨hrest, hends⟩ := ih h.2 (by simp)
          rw [List.intercalate_cons_cons]
          exact ⟨by simp, hends.append hrest _⟩

/-- A scalar behind a space ends with a mark only if it is quoted. -/
theorem endsQuoted_scalar (hv : isScalar v = true) (hpart : isPartOfValue v) :
    EndsQuoted (' ' :: toYaml config indent v) := by
  cases hword : word config v with
  | some t =>
      rw [toYaml_of_word hword]
      intro hlast
      have hmem := List.mem_of_getLast? hlast
      rcases List.mem_cons.mp hmem with h | h
      · exact absurd h (by decide)
      · exact absurd h (isWord_of_word hpart hword).noQuote
  | none =>
      obtain ⟨text, -, htext⟩ := toYaml_of_quoted indent hv hword
      rw [htext, quote_eq]
      intro _
      exact ⟨[], _, by simp, rfl⟩

/-- How a value ends that is written behind a space, or below. -/
def Ends (config : YamlConfig) (v : Json) : Prop :=
  ∀ indent, EndsQuoted (if isScalar v then ' ' :: toYaml config indent v else toYaml config indent v)

theorem toYaml_ne_nil (hv : isPartOfValue v) : toYaml config (indent + 1) v ≠ [] := by
  obtain ⟨c, t, ht, -⟩ := head_toYaml config indent hv
  rw [ht]
  exact List.cons_ne_nil c t

/-- A line ends as the value does that stands behind a space or below. -/
theorem endsQuoted_line {c : Char} (indent : Nat) (hv : isPartOfValue v) (hc : isScalar v = true → c = ' ')
    (h : Ends config v) (pre : List Char) :
    EndsQuoted (pre ++ c :: toYaml config (indent + 1) v) := by
  have hends := h (indent + 1)
  cases hscalar : isScalar v with
  | true =>
      rw [hscalar, if_pos rfl] at hends
      rw [hc hscalar]
      exact hends.append (by simp) pre
  | false =>
      rw [hscalar, if_neg (by simp)] at hends
      rw [← List.singleton_append, ← List.append_assoc]
      exact hends.append (toYaml_ne_nil hv) _

theorem ends_array (hvok : IsRead config (.array items)) (h : ∀ v ∈ items, Ends config v) :
    Ends config (.array items) := by
  intro indent
  rw [if_neg (by simp [isScalar])]
  cases hblock : isBlock config (.array items) with
  | true =>
      rw [toYaml_items hblock]
      apply (endsQuoted_lines _ _).2
      · intro l hl
        obtain ⟨v, hv, rfl⟩ := List.mem_map.mp hl
        rw [formatItem_eq]
        refine ⟨by simp, ?_⟩
        have hdash : isScalar v = true → afterDash v = ' ' := by
          cases v <;> simp [isScalar, afterDash]
        rw [← List.singleton_append, ← List.append_assoc]
        exact endsQuoted_line indent (hvok.item v hv).part hdash (h v hv) _
      · rintro hnil
        rw [List.map_eq_nil_iff] at hnil
        subst hnil
        cases hblock
  | false =>
      have hbrackets : kind config (.array items) = .brackets := by simp [kind, hblock]
      rw [toYaml_brackets hbrackets]
      apply endsQuoted_of_getLast (c := ']') (by decide)
      rw [← List.cons_append, List.getLast?_concat]

theorem ends_object (hvok : IsRead config (.object fields)) (h : ∀ f ∈ fields, Ends config f.2) :
    Ends config (.object fields) := by
  intro indent
  rw [if_neg (by simp [isScalar])]
  cases hblock : isBlock config (.object fields) with
  | true =>
      rw [toYaml_fields hblock]
      apply (endsQuoted_lines _ _).2
      · intro l hl
        obtain ⟨f, hf, rfl⟩ := List.mem_map.mp hl
        have hpart := (hvok.field f hf).2.part
        rw [formatField_eq f.1 hpart]
        refine ⟨by simp, ?_⟩
        have hkey : isScalar f.2 = true → afterKey config f.2 = ' ' := by
          intro hscalar
          cases hv : f.2 <;> simp_all [isScalar, afterKey, isBlock]
        have hline := endsQuoted_line indent hpart hkey (h f hf)
          (indentStr indent ++ (formatKey f.1.toList ++ [':']))
        simpa using hline
      · rintro hnil
        rw [List.map_eq_nil_iff] at hnil
        subst hnil
        cases hblock
  | false =>
      have hnil : fields = [] := by simpa [isBlock] using hblock
      subst hnil
      exact endsQuoted_of_getLast (c := '}') (by decide) rfl

theorem ends (v : Json) : IsRead config v → Ends config v := by
  induction v using value_induction with
  | scalar v hv =>
      intro h indent
      rw [if_pos hv]
      exact endsQuoted_scalar hv h.part
  | array items ih => exact fun h => ends_array h fun v hv => ih v hv (h.item v hv)
  | object fields ih => exact fun h => ends_object h fun f hf => ih f hf (h.field f hf).2

/-- Inside a quoted string every mark stands behind a backslash. -/
theorem mark_escaped {text a b : List Char} {c : Char}
    (h : escaped '"' '\\' text = a ++ c :: '"' :: b) : c = '\\' := by
  induction text generalizing a with
  | nil =>
      rw [escaped_nil] at h
      simp at h
  | cons d text ih =>
      by_cases hd : d = '"' ∨ d = '\\'
      · rw [escaped_cons_of_special hd] at h
        cases a with
        | nil => exact (List.cons.inj h).1.symm
        | cons e a =>
            have h' := (List.cons.inj h).2
            cases a with
            | nil =>
                -- the mark would stand behind an escaped character
                have hrest := (List.cons.inj h').2
                cases text with
                | nil => cases hrest
                | cons f text =>
                    exact absurd (congrArg (· ++ []) hrest)
                      (by simpa using escaped_cons_ne_mark (by decide) f text [] b)
            | cons f a => exact ih (List.cons.inj h').2
      · rw [escaped_cons_of_plain hd] at h
        cases a with
        | nil =>
            have hrest := (List.cons.inj h).2
            cases text with
            | nil => cases hrest
            | cons f text =>
                exact absurd (congrArg (· ++ []) hrest)
                  (by simpa using escaped_cons_ne_mark (by decide) f text [] b)
        | cons e a => exact ih (List.cons.inj h).2

/-- An object in lines is no quoted string: the last of its quoted strings would be escaped. -/
theorem object_ne_quote (hvok : IsRead config (.object fields)) (text : List Char) :
    toYaml config indent (.object fields) ≠ quote text := by
  intro heq
  have hends := ends _ hvok indent
  rw [if_neg (by simp [isScalar]), heq, quote_eq] at hends
  obtain ⟨a, b, hb, hab⟩ := hends (by rw [← List.cons_append, List.getLast?_concat])
  obtain ⟨b, c, rfl⟩ := (List.eq_nil_or_concat' b).resolve_left hb
  cases a with
  | nil => exact absurd (List.cons.inj hab).1 (by decide)
  | cons d a =>
      have hinner : escaped '"' '\\' text ++ ['"'] = (a ++ ' ' :: '"' :: b) ++ [c] := by
        rw [(List.cons.inj hab).2]
        simp
      have hescaped := List.append_inj_left' hinner rfl
      exact absurd (mark_escaped hescaped) (by decide)

/-- The first line of an object starts with a key. -/
theorem object_line (hv : isBlock config (.object fields) = true)
    (hvok : IsRead config (.object fields)) :
    ∃ key rest, IsKey key
      ∧ toYaml config 0 (.object fields) = formatKey key ++ ':' :: rest := by
  obtain ⟨f, fields, rfl⟩ : ∃ a l, fields = a :: l := by
    apply List.exists_cons_of_ne_nil
    rintro rfl
    cases hv
  have hf := hvok.field f (List.mem_cons_self ..)
  have hline : ∃ rest, toYaml config 0 (.object (f :: fields)) = formatKey f.1.toList ++ ':' :: rest := by
    have hmargin : indentStr 0 = [] := rfl
    rw [toYaml_fields hv, intercalate_map_cons, formatField_eq f.1 hf.2.part, hmargin,
      List.nil_append, List.append_assoc, List.cons_append]
    exact ⟨_, rfl⟩
  obtain ⟨rest, hrest⟩ := hline
  exact ⟨f.1.toList, rest, hf.1, hrest⟩

/-- No item in brackets goes on like a key: a bare key has no marks, no spaces and a colon. -/
theorem item_ne_key {key rest : List Char} (hv : IsItem config v) (hs : BehindItem s)
    (hquote : '"' ∉ key) (hspace : ' ' ∉ key) (hline : '\n' ∉ key) :
    toYaml config 0 v ++ s ≠ key ++ ':' :: rest := by
  intro heq
  cases hword : word config v with
  | none =>
      obtain ⟨text, -, htext⟩ := toYaml_of_quoted 0 hv.scalar hword
      rw [htext, quote_eq] at heq
      cases key with
      | nil => exact absurd (List.cons.inj heq).1 (by decide)
      | cons c key =>
          obtain ⟨rfl, -⟩ := List.cons.inj heq
          exact hquote (List.mem_cons_self ..)
  | some t =>
      have ht := isWord_of_word hv.part hword
      rw [toYaml_of_word hword] at heq
      rcases List.append_eq_append_iff.mp heq with ⟨x, rfl, hx⟩ | ⟨x, rfl, hx⟩
      · -- the key goes on behind the item
        rcases hs with ⟨y, hy, rfl⟩ | ⟨y, rfl⟩
        · cases x with
          | nil => exact absurd (List.cons.inj hx).1 (by decide)
          | cons c x =>
              have hy' := (List.cons.inj hx).2
              cases x with
              | nil =>
                  change y = ':' :: rest at hy'
                  rw [hy'] at hy
                  exact absurd (stops_cons.mp hy) (by decide)
              | cons d x =>
                  change y = d :: (x ++ ':' :: rest) at hy'
                  rw [hy'] at hy
                  obtain rfl := stops_cons.mp hy
                  exact hline (by simp)
        · cases x with
          | nil => exact absurd (List.cons.inj hx).1 (by decide)
          | cons c x =>
              have hx' := (List.cons.inj hx).2
              cases x with
              | nil => exact absurd (List.cons.inj hx').1 (by decide)
              | cons d x =>
                  obtain ⟨rfl, -⟩ := List.cons.inj hx'
                  exact hspace (by simp)
      · -- the colon stands in the item, or behind it
        cases x with
        | nil =>
            rw [List.nil_append] at hx
            rcases hs with ⟨y, -, rfl⟩ | ⟨y, rfl⟩
            · exact absurd (List.cons.inj hx).1 (by decide)
            · exact absurd (List.cons.inj hx).1 (by decide)
        | cons c x =>
            obtain ⟨rfl, -⟩ := List.cons.inj hx
            exact ht.noColon (by simp)

/-- An array in brackets does not start with a key. -/
theorem brackets_ne_key {key rest : List Char} (hw : IsRead config (.array items))
    (hkind : kind config (.array items) = .brackets) (hkey : IsKey key) :
    toYaml config 0 (.array items) ≠ formatKey key ++ ':' :: rest := by
  rw [toYaml_brackets hkind]
  rcases formatKey_cases hkey with hk | ⟨hk, c, t, rfl, -, hcolon, hspace⟩
  · rw [hk]
    intro heq
    exact absurd (List.cons.inj heq).1 (by decide)
  · rw [hk]
    intro heq
    obtain ⟨rfl, hrow⟩ := List.cons.inj heq
    have hitems := hw.isItem hkind
    have hquote := fun h => hkey.noQuote (List.mem_cons_of_mem _ h)
    have hline := fun h => hkey.noNewline (List.mem_cons_of_mem _ h)
    have hspace' := fun h => hspace (List.mem_cons_of_mem _ h)
    cases items with
    | nil =>
        cases t with
        | nil => exact absurd (List.cons.inj hrow).1 (by decide)
        | cons d t => simp at hrow
    | cons v items =>
        rw [intercalate_map_cons, List.append_assoc] at hrow
        refine item_ne_key (hitems v (List.mem_cons_self ..)) ?_ hquote hspace' hline hrow
        apply behindItem_of_inRow
        exact inRow_flatMap (fun w hw => hitems w (List.mem_cons_of_mem v hw))
          ⟨[], stops_nil, rfl⟩

/-- A line for an item is none of a value on a single line: a word starts with a dash only
before a digit. -/
theorem dash_ne_inline (hw : isBlock config w = false) (hpart : isPartOfValue w) (a : Json)
    (t : List Char) : '-' :: afterDash a :: t ≠ toYaml config 0 w := by
  intro heq
  cases hscalar : isScalar w with
  | true =>
      cases hword : word config w with
      | some u =>
          rw [toYaml_of_word hword] at heq
          obtain ⟨d, hd, hdigit⟩ := (isWord_of_word hpart hword).dash _ heq.symm
          obtain rfl := Option.some.inj hd
          cases a <;> simp [afterDash] at hdigit
      | none =>
          obtain ⟨text, -, htext⟩ := toYaml_of_quoted 0 hscalar hword
          rw [htext, quote_eq] at heq
          exact absurd (List.cons.inj heq).1 (by decide)
  | false =>
      cases w with
      | array items =>
          rw [toYaml_brackets (by simp [kind, hw])] at heq
          exact absurd (List.cons.inj heq).1 (by decide)
      | object fields =>
          have hnil : fields = [] := by simpa [isBlock] using hw
          subst hnil
          exact absurd (List.cons.inj heq).1 (by decide)
      | _ => cases hscalar

/-- A text of lines is none of a single line. -/
theorem block_ne_inline (hv : isBlock config v = true) (hw : isBlock config w = false)
    (hvok : IsRead config v) (hwok : IsRead config w) :
    toYaml config 0 v ≠ toYaml config 0 w := by
  intro heq
  cases v with
  | array items =>
      obtain ⟨a, items, rfl⟩ : ∃ a l, items = a :: l := by
        apply List.exists_cons_of_ne_nil
        rintro rfl
        cases hv
      rw [toYaml_items hv, intercalate_map_cons, formatItem_eq] at heq
      exact dash_ne_inline hw hwok.part a _ heq
  | object fields =>
      obtain ⟨key, rest, hkey, hline⟩ := object_line hv hvok
      rw [hline] at heq
      cases hscalar : isScalar w with
      | true =>
          cases hword : word config w with
          | some t =>
              have hcolon := (isWord_of_word hwok.part hword).noColon
              rw [toYaml_of_word hword] at heq
              exact hcolon (by simp [← heq])
          | none =>
              obtain ⟨text, -, htext⟩ := toYaml_of_quoted 0 hscalar hword
              rw [← hline, htext] at heq
              exact object_ne_quote hvok _ heq
      | false =>
          cases w with
          | array items =>
              exact brackets_ne_key hwok (by simp [kind, hw]) hkey heq.symm
          | object fields =>
              have hnil : fields = [] := by simpa [isBlock] using hw
              subst hnil
              have hcolon : ':' ∈ toYaml config 0 (.object []) := by simp [← heq]
              simp [toYaml] at hcolon
          | _ => cases hscalar
  | _ => cases hv

/-- Texts of lines that are the same are written for the same value. -/
theorem blocks_unique (hv : isBlock config v = true) (hw : isBlock config w = true)
    (hvok : IsRead config v) (hwok : IsRead config w)
    (heq : toYaml config 0 v ++ [] = toYaml config 0 w ++ []) : v = w := by
  cases v with
  | array items =>
      cases w with
      | array items' =>
          obtain ⟨rfl, -⟩ := items_unique hv hw hvok hwok (fun v h => reads v (hvok.item v h))
            (.inl rfl) (.inl rfl) heq
          rfl
      | object fields => exact absurd heq (items_ne_fields hv hw hwok)
      | _ => cases hw
  | object fields =>
      cases w with
      | array items => exact absurd heq.symm (items_ne_fields hw hv hvok)
      | object fields' =>
          obtain ⟨rfl, -⟩ := fields_unique hv hw hvok hwok
            (fun f h => reads f.2 (hvok.field f h).2) (.inl rfl) (.inl rfl) heq
          rfl
      | _ => cases hw
  | _ => cases hv

end Blocks

namespace Sample

/-- An object with one field. -/
def field (key : String) (v : Json) : Json := .object [(key, v)]

theorem part_field {key : String} {v : Json} (h : everywhere isPartOfValue v) :
    everywhere isPartOfValue (field key v) :=
  everywhere_object.mpr ⟨List.pairwise_singleton _ _, List.forall_mem_singleton.mpr h⟩

/-- One string with a comma in it. -/
def oneString : Value :=
  ⟨.array [.string "x, y"], everywhere_array.mpr ⟨trivial, List.forall_mem_singleton.mpr trivial⟩⟩

def twoStrings : Value :=
  ⟨.array [.string "x", .string "y"],
    everywhere_array.mpr ⟨trivial, List.forall_mem_cons.mpr
      ⟨trivial, List.forall_mem_singleton.mpr trivial⟩⟩⟩

/-- An empty key, and a key of two quotation marks. -/
def emptyKey : Value := ⟨field "" .null, part_field trivial⟩

def markKey : Value := ⟨field "\"\"" .null, part_field trivial⟩

/-- A number, and a string of digits. -/
def number : Value := ⟨field "version" (.number "123"),
  part_field (show isNumberText "123".toList = true by decide)⟩

def digits : Value := ⟨field "version" (.string "123"), part_field trivial⟩

theorem toldApart_version {v : Json} (h : everywhere (isToldApart {}) v) :
    everywhere (isToldApart {}) (field "version" v) :=
  everywhere_object.mpr ⟨List.forall_mem_singleton.mpr (by simp), List.forall_mem_singleton.mpr h⟩

end Sample

end AuraGateway.Compression.Yaml
