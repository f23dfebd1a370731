import AuraGateway.Compression.Selector

/-!
# What stands around rewritten phrases

The pattern of a phrase matches anywhere in a line, and what is written for it is made of its groups
alone. So the text before the phrase is lost; behind it nothing of the line is left, since the
patterns end in `.+`. The surroundings are kept exactly where every phrase that is found stands at the
beginning of the text it is found in (`surroundings_kept_iff`): a line with a condition somewhere begins
with one (`startsIfFound_conditional_iff`).
-/

set_option autoImplicit false

namespace AuraGateway.Compression.Aisp

open AuraGateway.RustStd AuraGateway.Foundations.LeftmostRegex
open AuraGateway.JsStd (CaseTable)

/-! ## Surroundings -/

section Surroundings

variable (captures : Engine Char) (tables : CharTables) (table : CaseTable)

/-- Where a phrase is found, what is written for it stands between the text before it and the text
of the line behind it. -/
def KeepsAround (r : Regex Char) (written : Found Char → List Char) (input result : List Char) :
    Prop :=
  ∀ caps ∈ captures r none input,
    result = caps.before ++ written caps ++ caps.rest.takeWhile isAny

/-- A definition with a word for it, or without one an equation. -/
def DefinitionsKeep (input : List Char) : Prop :=
  KeepsAround captures (definePattern tables) (fun caps => symbolic (caps.get 2) '≜' (caps.get 4))
    input (convertDefinitions captures tables input)
  ∧ (captures (definePattern tables) none input = none →
    KeepsAround captures (equalsDefPattern tables)
      (fun caps => symbolic (caps.get 1) '≜' (caps.get 2))
      input (convertDefinitions captures tables input))

def ConditionalKeeps (r : Regex Char) (input : List Char) : Prop :=
  KeepsAround captures r
    (fun caps => symbolic (trimChars (caps.get 1)) '⇒' (trimChars (caps.get 2)))
    input (convertConditional captures r input)

/-- The text that when-then phrases are looked for in. -/
def afterIfThen (input : List Char) : List Char :=
  convertConditional captures (ifThenPattern tables) input

/-- If-then phrases are rewritten, and then when-then phrases in the result. -/
def RulesKeep (input : List Char) : Prop :=
  ConditionalKeeps captures (ifThenPattern tables) input
    ∧ ConditionalKeeps captures (whenThenPattern tables) (afterIfThen captures tables input)

/-- In every line, the rewritings of definitions and of rules keep what stands around the phrases
they find. -/
def EncodeKeeps (config : AispConfig) (input : List Char) : Prop :=
  ∀ line ∈ encodedLines input,
    (config.convertDefinitions = true → DefinitionsKeep captures tables line)
    ∧ (config.convertRules = true →
      RulesKeep captures tables (beforeRules captures tables table config line))

/-- A text with a phrase begins with one. -/
def StartsIfFound (r : Regex Char) (text : List Char) : Prop :=
  Occurs r none text → Begins r none text

instance (r : Regex Char) (text : List Char) : Decidable (StartsIfFound r text) :=
  inferInstanceAs (Decidable (Occurs r none text → Begins r none text))

/-- Every text that phrases are looked for in begins with a phrase if it has one. -/
def PhrasesFirst (config : AispConfig) (input : List Char) : Prop :=
  ∀ line ∈ encodedLines input,
    (config.convertDefinitions = true → StartsIfFound (definePattern tables) line)
    ∧ (config.convertRules = true →
      let text := beforeRules captures tables table config line
      StartsIfFound (ifThenPattern tables) text
        ∧ StartsIfFound (whenThenPattern tables) (afterIfThen captures tables text))

instance (config : AispConfig) (input : List Char) :
    Decidable (PhrasesFirst captures tables table config input) :=
  inferInstanceAs (Decidable (∀ line ∈ encodedLines input,
    (config.convertDefinitions = true → StartsIfFound (definePattern tables) line)
    ∧ (config.convertRules = true →
      StartsIfFound (ifThenPattern tables) (beforeRules captures tables table config line)
        ∧ StartsIfFound (whenThenPattern tables)
          (afterIfThen captures tables (beforeRules captures tables table config line)))))

end Surroundings

section Engine

variable {captures : Engine Char} {tables : CharTables} {table : CaseTable}

theorem exhausts_define : Exhausts (definePattern tables) isAny :=
  exhausts_seqs [_, _, _, _, _, _, _] ((exhausts_plus isAny).group 4)

theorem exhausts_conditional (keyword : String) :
    Exhausts (conditionalPattern tables keyword) isAny :=
  exhausts_seqs [_, _, _, _, _, _, _, _, _] ((exhausts_plus isAny).group 2)

theorem exhausts_equalsDef : Exhausts (equalsDefPattern tables) isAny := by
  refine exhausts_seqs [_, _, _, _, _, _] (r := textEnd) ?_
  intro prev t m hm
  rw [textEnd, parses] at hm
  split at hm
  · rename_i hend
    obtain rfl := Option.some.inj hm
    rw [Option.isNone_iff_eq_none.mp hend]
    intro a ha
    cases ha
  · cases hm

/-- An equation is one at the beginning of the text only. -/
theorem startsIfFound_equalsDef (text : List Char) :
    StartsIfFound (equalsDefPattern tables) text := by
  intro h
  obtain ⟨before, t, rfl, hbegins⟩ := occurs_iff.mp h
  cases hlast : before.getLast? with
  | none =>
      obtain rfl := List.getLast?_eq_none_iff.mp hlast
      exact hbegins
  | some c =>
      rw [hlast] at hbegins
      exact absurd rfl hbegins

/-- A rewriting that writes its groups alone keeps what stands around a phrase exactly where there is
nothing before it. -/
theorem keepsAround_iff {r : Regex Char} {written : Found Char → List Char}
    {input result : List Char} (hcaptures : LeftmostFirst captures) (hend : Exhausts r isAny)
    (hresult : ∀ caps ∈ captures r none input, result = written caps) :
    KeepsAround captures r written input result ↔ StartsIfFound r input := by
  rw [KeepsAround, StartsIfFound, ← find_isSome_iff]
  simp only [hcaptures r none input] at hresult ⊢
  cases hfind : find r none input with
  | none => exact iff_of_true nofun fun h => Bool.false_ne_true h |>.elim
  | some caps =>
      have hwritten := hresult caps hfind
      have hrest : caps.rest.takeWhile isAny = [] := by
        cases hline : caps.rest with
        | nil => rfl
        | cons c rest =>
            have hc := hend.find hfind c (by rw [hline]; rfl)
            exact List.takeWhile_cons_of_neg (by rw [hc]; exact Bool.false_ne_true)
      rw [← before_eq_nil_iff hfind]
      constructor
      · intro hkeeps _
        have heq := hkeeps caps rfl
        rw [hrest, List.append_nil, hwritten] at heq
        exact List.self_eq_append_left.mp heq
      · intro hstarts caps' hcaps
        obtain rfl := Option.some.inj hcaps
        rw [hrest, List.append_nil, hstarts rfl, List.nil_append]
        exact hwritten

theorem definitionsKeep_iff (hcaptures : LeftmostFirst captures) (input : List Char) :
    DefinitionsKeep captures tables input ↔ StartsIfFound (definePattern tables) input := by
  have hdefine : KeepsAround captures (definePattern tables)
      (fun caps => symbolic (caps.get 2) '≜' (caps.get 4)) input
      (convertDefinitions captures tables input) ↔ StartsIfFound (definePattern tables) input :=
    keepsAround_iff hcaptures exhausts_define fun caps hcaps => by
      rw [convertDefinitions, Option.mem_def.mp hcaps]
  refine ⟨fun h => hdefine.mp h.1, fun h => ⟨hdefine.mpr h, fun hnone => ?_⟩⟩
  refine (keepsAround_iff hcaptures exhausts_equalsDef fun caps hcaps => ?_).mpr
    (startsIfFound_equalsDef input)
  rw [convertDefinitions, hnone, Option.mem_def.mp hcaps]

theorem conditionalKeeps_iff (hcaptures : LeftmostFirst captures) (keyword : String)
    (input : List Char) :
    ConditionalKeeps captures (conditionalPattern tables keyword) input
      ↔ StartsIfFound (conditionalPattern tables keyword) input :=
  keepsAround_iff hcaptures (exhausts_conditional keyword) fun caps hcaps => by
    rw [convertConditional, Option.mem_def.mp hcaps]

/-- For every configuration and every input, what stands around a rewritten phrase is kept exactly
where every text that phrases are looked for in begins with a phrase if it has one. -/
theorem encodeKeeps_iff (hcaptures : LeftmostFirst captures) (config : AispConfig)
    (input : List Char) :
    EncodeKeeps captures tables table config input
      ↔ PhrasesFirst captures tables table config input := by
  refine forall₂_congr fun line _ => and_congr ?_ ?_
  · exact forall_congr' fun _ => definitionsKeep_iff hcaptures line
  · refine forall_congr' fun _ => and_congr ?_ ?_
    · exact conditionalKeeps_iff hcaptures "if" _
    · exact conditionalKeeps_iff hcaptures "when" _

end Engine

/-! ## Conditions in a line -/

section Conditions

variable {tables : CharTables}

/-- The text is a word of a pattern, in lower or upper case. -/
def Spells (s : String) (w : List Char) : Prop :=
  List.Forall₂ (fun c d => sameLetter c d = true) s.toList w

/-- White space, and some of it. -/
def IsSpaces (s : List Char) : Prop := s ≠ [] ∧ ∀ c ∈ s, isWhitespace c = true

/-- A keyword, a condition, `then` and what follows from it. -/
def IsConditional (keyword : String) (t : List Char) : Prop :=
  ∃ w s x e s' y, t = w ++ s ++ x ++ e ++ s' ++ y ∧ Spells keyword w ∧ IsSpaces s ∧ x ≠ []
    ∧ Spells "then" e ∧ IsSpaces s' ∧ y ≠ []

theorem takes_letters_iff {prev : Option Char} {t w u : List Char} (cs : List Char) :
    Takes (Regex.seqs (cs.map fun c => .one (sameLetter c))) prev t w u
      ↔ List.Forall₂ (fun c d => sameLetter c d = true) cs w ∧ t = w ++ u := by
  induction cs generalizing prev t w with
  | nil =>
      rw [List.map_nil, Regex.seqs, takes_empty_iff, List.forall₂_nil_left_iff]
      constructor
      · rintro ⟨rfl, rfl⟩
        exact ⟨rfl, rfl⟩
      · rintro ⟨rfl, rfl⟩
        exact ⟨rfl, rfl⟩
  | cons c cs ih =>
      rw [List.map_cons, takes_seqs_cons_iff]
      simp only [takes_one_iff, ih]
      constructor
      · rintro ⟨-, w, -, rfl, ⟨d, hd, rfl, rfl⟩, hw, rfl⟩
        exact ⟨.cons hd hw, rfl⟩
      · rintro ⟨hw, rfl⟩
        cases hw with
        | cons hd hw => exact ⟨[_], _, _, rfl, ⟨_, hd, rfl, rfl⟩, hw, rfl⟩

theorem takes_word_iff {s : String} {prev : Option Char} {t w u : List Char} :
    Takes (word s) prev t w u ↔ Spells s w ∧ t = w ++ u :=
  takes_letters_iff s.toList

theorem takes_spaces_iff {prev : Option Char} {t w u : List Char} :
    Takes spaces prev t w u ↔ IsSpaces w ∧ t = w ++ u := by
  rw [spaces, Regex.plus, takes_one_many_iff, IsSpaces, and_assoc, and_comm (a := t = w ++ u)]

/-- A keyword of conditions begins with a letter of a word, whatever its case. -/
theorem isWord_of_spells {keyword : String} (hkeyword : keyword = "if" ∨ keyword = "when")
    {w : List Char} (hw : Spells keyword w) : ∃ c ∈ w.head?, tables.isWord c = true := by
  have hletter {c d : Char} (hc : c.isAlphanum = true ∧ c ≠ 's' ∧ c ≠ 'k')
      (hd : sameLetter c d = true) : tables.isWord d = true := by
    obtain ⟨halphanum, hs, hk⟩ := hc
    simp only [sameLetter, Bool.or_eq_true, Bool.and_eq_true, beq_iff_eq, hs, hk, false_and,
      or_false] at hd
    refine tables.isWord_of_alphanum d ?_
    rw [Char.toLower] at hd
    split at hd
    · rename_i hupper
      have halpha : d.isUpper = true := by simpa [Char.isUpper] using hupper
      simp [Char.isAlphanum, Char.isAlpha, halpha]
    · rw [hd]
      exact halphanum
  rcases hkeyword with rfl | rfl
  · cases hw with
    | cons hd _ => exact ⟨_, rfl, hletter (by decide) hd⟩
  · cases hw with
    | cons hd _ => exact ⟨_, rfl, hletter (by decide) hd⟩

theorem isAny_of_line {s : List Char} (h : '\n' ∉ s) : ∀ c ∈ s, isAny c = true := by
  intro c hc
  rw [isAny, bne_iff_ne]
  rintro rfl
  exact h hc

theorem boundary_iff {keyword : String} {prev : Option Char} {w t : List Char}
    (hkeyword : ∀ w, Spells keyword w → ∃ c ∈ w.head?, tables.isWord c = true)
    (hw : Spells keyword w) :
    (prev.any tables.isWord != (w ++ t).head?.any tables.isWord) = true
      ↔ ∀ c ∈ prev, tables.isWord c = false := by
  obtain ⟨c, hc, hword⟩ := hkeyword w hw
  obtain ⟨w, rfl⟩ := List.head?_eq_some_iff.mp hc
  cases prev with
  | none => simp [hword]
  | some d => simp [hword]

/-- A line has a condition behind `prev` when there is no letter of a word there. -/
theorem begins_conditional_iff {keyword : String} {prev : Option Char} {t : List Char}
    (hkeyword : ∀ w, Spells keyword w → ∃ c ∈ w.head?, tables.isWord c = true)
    (hline : '\n' ∉ t) :
    Begins (conditionalPattern tables keyword) prev t
      ↔ (∀ c ∈ prev, tables.isWord c = false) ∧ IsConditional keyword t := by
  rw [begins_iff, conditionalPattern]
  simp only [takes_seqs_cons_iff, takes_seqs_nil_iff, boundary, takes_look_iff, takes_word_iff,
    takes_spaces_iff, takes_group_iff, Regex.plusLazy, Regex.plus, takes_one_many_iff, maybeSpaces,
    takes_many_iff, Regex.opt, takes_alt_iff, takes_empty_iff]
  constructor
  · rintro ⟨_, u, _, _, _, _, ⟨hboundary, rfl, rfl⟩, w, _, _, _, ⟨hw, rfl⟩, s, _, _, _, ⟨hs, rfl⟩,
      x, _, _, _, ⟨hx, rfl, -⟩, g, _, _, _, ⟨rfl, -⟩, c, _, _, _, hcomma, g', _, _, _, ⟨rfl, -⟩,
      e, _, _, _, ⟨he, rfl⟩, s', _, _, _, ⟨hs', rfl⟩, y, _, _, _, ⟨hy, rfl, -⟩, -, rfl⟩
    refine ⟨(boundary_iff hkeyword hw).mp hboundary, ?_⟩
    rcases hcomma with ⟨-, rfl⟩ | ⟨rfl, rfl⟩
    · exact ⟨w, s, x ++ g ++ c ++ g', e, s', y ++ u, by simp, hw, hs, by simp [hx], he, hs',
        by simp [hy]⟩
    · exact ⟨w, s, x ++ g ++ g', e, s', y ++ u, by simp, hw, hs, by simp [hx], he, hs',
        by simp [hy]⟩
  · rintro ⟨hprev, w, s, x, e, s', y, rfl, hw, hs, hx, he, hs', hy⟩
    simp only [List.mem_append, not_or] at hline
    obtain ⟨⟨⟨⟨⟨-, -⟩, hxline⟩, -⟩, -⟩, hyline⟩ := hline
    simp only [List.append_assoc]
    refine ⟨_, [], _, _, _, rfl, ⟨(boundary_iff hkeyword hw).mpr hprev, rfl, rfl⟩,
      w, _, _, rfl, ⟨hw, rfl⟩, s, _, _, rfl, ⟨hs, rfl⟩,
      x, _, _, rfl, ⟨hx, rfl, isAny_of_line hxline⟩, [], _, _, rfl, ⟨rfl, nofun⟩,
      [], _, _, rfl, .inr ⟨rfl, rfl⟩, [], _, _, rfl, ⟨rfl, nofun⟩,
      e, _, _, rfl, ⟨he, rfl⟩, s', _, _, rfl, ⟨hs', rfl⟩,
      y, _, _, rfl, ⟨hy, (List.append_nil y).symm, isAny_of_line hyline⟩, rfl, rfl⟩

/-- A line begins with a condition where it has one in it: at its beginning, or behind a character
that is no letter of a word. -/
theorem startsIfFound_conditional_iff {keyword : String} {line : List Char}
    (hkeyword : keyword = "if" ∨ keyword = "when") (hline : '\n' ∉ line) :
    StartsIfFound (conditionalPattern tables keyword) line ↔
      ∀ before t, line = before ++ t → (∀ c ∈ before.getLast?, tables.isWord c = false) →
        IsConditional keyword t → IsConditional keyword line := by
  have hword : ∀ w, Spells keyword w → ∃ c ∈ w.head?, tables.isWord c = true :=
    fun w => isWord_of_spells hkeyword
  rw [StartsIfFound, begins_conditional_iff hword hline, occurs_iff]
  constructor
  · intro h before t heq hbefore ht
    refine (h ⟨before, t, heq, ?_⟩).2
    rw [Option.or_none, begins_conditional_iff hword (by simp_all)]
    exact ⟨hbefore, ht⟩
  · rintro h ⟨before, t, heq, hbegins⟩
    rw [Option.or_none, begins_conditional_iff hword (by simp_all)] at hbegins
    exact ⟨nofun, h before t heq hbegins.1 hbegins.2⟩

end Conditions

/-! ## Every configuration, every input -/

/-- What is reported as rewritten in symbols keeps what stands around its phrases. -/
def SmartKeeps (lib : JsonLibrary) (text : TextLibrary) (c : SmartCompressor) (input : List Char) :
    Prop :=
  CompressionStrategy.aisp ∈ (c.compressSmart lib text input).strategies →
    EncodeKeeps text.captures text.tables text.lowercase c.aisp input

/-- For every configuration and every input, the encoder keeps what stands around the phrases it
rewrites exactly where every text that phrases are looked for in begins with a phrase if it has one.
The same holds of the smart compressor wherever it hands its input to the encoder. -/
theorem surroundings_kept_iff (lib : JsonLibrary) (text : TextLibrary)
    (hcaptures : LeftmostFirst text.captures) (input : List Char) :
    (∀ config, EncodeKeeps text.captures text.tables text.lowercase config input
      ↔ PhrasesFirst text.captures text.tables text.lowercase config input)
    ∧ ∀ c : SmartCompressor, SmartKeeps lib text c input
      ↔ (c.appliesAisp lib text input = true →
        PhrasesFirst text.captures text.tables text.lowercase c.aisp input) := by
  refine ⟨fun config => encodeKeeps_iff hcaptures config input, fun c => ?_⟩
  rw [SmartKeeps, SmartCompressor.aisp_mem_strategies_iff, encodeKeeps_iff hcaptures]

namespace Sample

/-- ASCII classes, and a leftmost-first engine. -/
def english : TextLibrary where
  captures := find
  tables :=
    { isWord := fun c => c.isAlphanum || c == '_'
      isDigit := Char.isDigit
      isWord_of_alphanum := fun c h => by rw [h, Bool.true_or] }
  lowercase := .fixed

/-- A library for texts that are no JSON. -/
def noJson : JsonLibrary where
  toString := fun _ => []
  oneLine := fun _ => List.not_mem_nil
  fromStr := fun _ => none

/-- A compressor that writes rules in symbols. -/
def symbols : SmartCompressor := .fromConfig { semanticFormat := .aisp }

end Sample

/-- A rule and a definition, each at the beginning of its line. -/
theorem surroundings_kept_sample :
    EncodeKeeps Sample.english.captures Sample.english.tables Sample.english.lowercase {}
      "if it rains then leave\nset x to 5".toList :=
  ((surroundings_kept_iff Sample.noJson Sample.english (fun _ _ _ => rfl) _).1 {}).mpr
    (by decide +kernel)

/-- The instruction in front of the condition is lost. -/
theorem leading_never_dropped :
    (Sample.symbols.compressSmart Sample.noJson Sample.english
        "never if it rains then leave".toList).content = "it rains ⇒ leave".toList
      ∧ ¬ SmartKeeps Sample.noJson Sample.english Sample.symbols
        "never if it rains then leave".toList := by
  refine ⟨by decide +kernel, fun hkeeps => ?_⟩
  have hengine : LeftmostFirst Sample.english.captures := fun _ _ _ => rfl
  have hfirst := (encodeKeeps_iff hengine _ _).mp (hkeeps (by decide +kernel))
  exact absurd hfirst (by decide +kernel)

end AuraGateway.Compression.Aisp
