import AuraGateway.Foundations.Delimited
import AuraGateway.Foundations.StrippedText
import AuraGateway.Types.EventDecoding
import AuraGateway.Types.Routing

/-!
# Replies of models

The classifier and the judge answer with a JSON object, which may stand inside prose. It is looked
for between the first opening and the last closing brace of the reply. A closing brace behind the
object therefore makes the text in between no JSON: the judge then gives no verdict, and of the
classifier's reply the bare tier words count, the strongest first (`replies_iff`).
-/

set_option autoImplicit false

namespace AuraGateway.Router

open AuraGateway.RustStd AuraGateway.Types
open AuraGateway.Foundations.Delimited AuraGateway.Foundations.StrippedText

/-! ## Parsing replies -/

/-- Parsed classifier answer. -/
structure ClassifierAnswer where
  tier : Tier
  confidence : Float

/-- The text from the first opening brace to the last closing one behind it. -/
def firstJsonObject (text : String) : Option String :=
  let rest := text.toList.dropWhile (· ≠ '\x7b')
  let object := rest.rdropWhile (· ≠ '\x7d')
  -- nothing is left where one of the braces is missing
  if object.isEmpty then none else some (String.ofList object)

/-- A number of an object, between zero and one; a half where there is none. -/
def confidenceField (s : SerdeJson) (v : Json) : Float :=
  f64Clamp (((v.get "confidence").bind s.asF64).getD 0.5) 0.0 1.0

/-- The tier that an object names. -/
def namedTier (v : Json) : Option Tier := ((v.get "tier").bind Json.asStr).bind Tier.parse

/-- The answer in the JSON object of a reply. -/
def objectAnswer (s : SerdeJson) (text : String) : Option ClassifierAnswer := do
  let json ← firstJsonObject text
  let v ← s.fromStr json
  let tier ← namedTier v
  some ⟨tier, confidenceField s v⟩

/-- The names that are looked for as words, and their tiers. -/
def bareTiers : List (String × Tier) :=
  [("reasoning", .reasoning), ("complex", .complex), ("medium", .medium), ("simple", .simple)]

/-- The answer in a bare tier word. -/
def bareAnswer (isAlphabetic : Char → Bool) (text : String) : Option ClassifierAnswer :=
  let words := (toAsciiLowercase text).toList.splitOnP fun c => !isAlphabetic c
  (bareTiers.find? fun entry => words.contains entry.1.toList).map fun entry => ⟨entry.2, 0.5⟩

/-- Parse the classifier's reply. -/
def parseClassifierOutput (s : SerdeJson) (isAlphabetic : Char → Bool) (text : String) :
    Option ClassifierAnswer :=
  (objectAnswer s text).or (bareAnswer isAlphabetic text)

/-- Who won a gold-label comparison. -/
inductive JudgeVerdict where
  | a
  | b
  | tie
  deriving DecidableEq, Repr

/-- Parsed judge answer. -/
structure JudgeAnswer where
  verdict : JudgeVerdict
  confidence : Float
  rationale : Option String

/-- The verdict that an object names. -/
def namedVerdict (v : Json) : Option JudgeVerdict := do
  let word ← (v.get "verdict").bind Json.asStr
  match toAsciiLowercase (trim word) with
  | "a" => some .a
  | "b" => some .b
  | "tie" | "equal" | "same" => some .tie
  | _ => none

/-- Parse the judge's reply. -/
def parseJudgeOutput (s : SerdeJson) (text : String) : Option JudgeAnswer := do
  let json ← firstJsonObject text
  let v ← s.fromStr json
  let verdict ← namedVerdict v
  some
    { verdict := verdict
      confidence := confidenceField s v
      rationale :=
        ((v.get "rationale").bind Json.asStr).map fun r => String.ofList (r.toList.take 500) }

/-! ## Objects inside prose -/

/-- What a JSON reader does with more text behind an object. -/
def RejectsTrailing (s : SerdeJson) (o : Json) : Prop :=
  ∀ t : String, (∃ c ∈ t.toList, isWhitespace c = false) → s.fromStr (s.toString o ++ t) = none

/-- A text has a name as a whole word, up to the case of ASCII letters. -/
def HasWord (isAlphabetic : Char → Bool) (text name : String) : Prop :=
  IsField (fun c => !isAlphabetic c) name.toList (toAsciiLowercase text).toList

/-- The tier is the strongest one whose name is a word of the text. -/
def IsBareTier (isAlphabetic : Char → Bool) (text : String) (tier : Tier) : Prop :=
  HasWord isAlphabetic text tier.asStr ∧ ∀ t, tier < t → ¬ HasWord isAlphabetic text t.asStr

variable {s : SerdeJson} {o : Json}

/-- The text that is taken for the object: it, and what follows up to the last closing brace. -/
theorem firstJsonObject_eq (ho : s.Faithful o) {before : String} (hbefore : '\x7b' ∉ before.toList)
    (after : String) :
    firstJsonObject (before ++ s.toString o ++ after)
      = some (s.toString o ++ String.ofList (after.toList.rdropWhile (· ≠ '\x7d'))) := by
  obtain ⟨inner, hinner⟩ := ho.braces
  have hskip : ∀ c ∈ before.toList, decide (c ≠ '\x7b') = true := by
    intro c hc
    apply decide_eq_true
    rintro rfl
    exact hbefore hc
  have hdrop : (before ++ s.toString o ++ after).toList.dropWhile (· ≠ '\x7b')
      = '\x7b' :: inner ++ ['\x7d'] ++ after.toList := by
    rw [String.toList_append, String.toList_append, List.append_assoc, hinner, List.cons_append,
      List.cons_append, dropWhile_append_cons (by decide), dropWhile_eq_nil hskip, List.nil_append]
  have htake : ('\x7b' :: inner ++ ['\x7d'] ++ after.toList).rdropWhile (· ≠ '\x7d')
      = (s.toString o).toList ++ after.toList.rdropWhile (· ≠ '\x7d') := by
    rw [hinner]
    exact rdropWhile_append_singleton (by decide) after.toList ('\x7b' :: inner)
  rw [firstJsonObject, hdrop, htake, if_neg, String.ofList_append, String.ofList_toList]
  rw [List.isEmpty_iff, hinner]
  exact List.cons_ne_nil _ _

/-- The object is read exactly when no closing brace follows it. -/
theorem read_object (ho : s.Faithful o) (htrailing : RejectsTrailing s o) {before : String}
    (hbefore : '\x7b' ∉ before.toList) (after : String) :
    (firstJsonObject (before ++ s.toString o ++ after)).bind s.fromStr
      = if '\x7d' ∈ after.toList then none else some o := by
  rw [firstJsonObject_eq ho hbefore, Option.bind_some]
  split
  · rename_i hmem
    apply htrailing
    rw [String.toList_ofList]
    refine ⟨'\x7d', ?_, by decide⟩
    have hne : after.toList.rdropWhile (· ≠ '\x7d') ≠ [] := by
      rw [ne_eq, List.rdropWhile_eq_nil_iff]
      intro hall
      exact of_decide_eq_true (hall _ hmem) rfl
    -- the last character that is left is the brace
    have hlast := List.rdropWhile_last_not (fun c : Char => decide (c ≠ '\x7d')) after.toList hne
    rw [decide_eq_true_iff, not_not] at hlast
    have hlast_mem := List.getLast_mem hne
    rwa [hlast] at hlast_mem
  · rename_i hmem
    have hnil : after.toList.rdropWhile (· ≠ '\x7d') = [] := by
      apply rdropWhile_eq_nil
      intro c hc
      apply decide_eq_true
      rintro rfl
      exact hmem hc
    rw [hnil, String.ofList_nil, String.append_empty, ho.fromStr]

/-! ## Bare tier words -/

/-- The tiers are looked for from the strongest one down, each by its name. -/
theorem bareTiers_spec :
    bareTiers.Pairwise (fun x y => y.2 < x.2) ∧ (∀ t : Tier, (t.asStr, t) ∈ bareTiers)
      ∧ ∀ x ∈ bareTiers, x.1 = x.2.asStr := by
  refine ⟨by decide, ?_, by decide⟩
  intro t
  cases t <;> decide

theorem bareAnswer_iff (isAlphabetic : Char → Bool) (text : String) (tier : Tier) :
    (bareAnswer isAlphabetic text).map (·.tier) = some tier ↔ IsBareTier isAlphabetic text tier := by
  obtain ⟨hsorted, hall, hnames⟩ := bareTiers_spec
  have hword : ∀ name : String, ((toAsciiLowercase text).toList.splitOnP fun c =>
      !isAlphabetic c).contains name.toList = true ↔ HasWord isAlphabetic text name := by
    intro name
    rw [List.contains_iff_mem]
    exact mem_splitOnP_iff
  have hanswer : (bareAnswer isAlphabetic text).map (·.tier) = some tier
      ↔ bareTiers.find? (fun x => ((toAsciiLowercase text).toList.splitOnP fun c =>
          !isAlphabetic c).contains x.1.toList) = some (tier.asStr, tier) := by
    rw [bareAnswer, Option.map_map, Option.map_eq_some_iff]
    constructor
    · rintro ⟨⟨name, t⟩, hfind, rfl⟩
      have hname := hnames _ (List.mem_of_find?_eq_some hfind)
      obtain rfl : name = t.asStr := hname
      exact hfind
    · intro hfind
      exact ⟨_, hfind, rfl⟩
  rw [hanswer, List.find?_eq_some_iff_append, hword]
  constructor
  · rintro ⟨htier, stronger, weaker, heq, hnone⟩
    refine ⟨htier, fun t hlt ht => ?_⟩
    have hmem := hall t
    rw [heq] at hmem hsorted
    obtain ⟨-, hrest, -⟩ := List.pairwise_append.mp hsorted
    rcases List.mem_append.mp hmem with hmem | hmem
    · have hnot := hnone _ hmem
      rw [(hword t.asStr).mpr ht] at hnot
      cases hnot
    · rcases List.mem_cons.mp hmem with hself | hmem
      · exact absurd (Prod.mk.inj hself).2 hlt.ne'
      · exact absurd ((List.pairwise_cons.mp hrest).1 _ hmem) hlt.asymm
  · rintro ⟨htier, hstronger⟩
    obtain ⟨stronger, weaker, heq⟩ := List.append_of_mem (hall tier)
    refine ⟨htier, stronger, weaker, heq, fun x hx => ?_⟩
    have hname := hnames x (heq ▸ List.mem_append_left _ hx)
    rw [heq] at hsorted
    have hlt := (List.pairwise_append.mp hsorted).2.2 x hx _ List.mem_cons_self
    rw [Bool.not_eq_true', ← Bool.not_eq_true, hword, hname]
    exact hstronger x.2 hlt

/-! ## What a reply says -/

/-- The tier that an object names is given exactly when no closing brace follows the object or the
tier is the strongest one whose name is a word of the reply, and the verdict exactly when no
closing brace follows. -/
theorem replies_iff (s : SerdeJson) (isAlphabetic : Char → Bool) (o : Json) (ho : s.Faithful o)
    (htrailing : RejectsTrailing s o) (before after : String) (hbefore : '\x7b' ∉ before.toList) :
    (∀ tier, namedTier o = some tier →
        ((parseClassifierOutput s isAlphabetic (before ++ s.toString o ++ after)).map (·.tier)
            = some tier
          ↔ '\x7d' ∉ after.toList
            ∨ IsBareTier isAlphabetic (before ++ s.toString o ++ after) tier))
      ∧ ∀ verdict, namedVerdict o = some verdict →
        ((parseJudgeOutput s (before ++ s.toString o ++ after)).map (·.verdict) = some verdict
          ↔ '\x7d' ∉ after.toList) := by
  have hread := read_object ho htrailing hbefore after
  generalize htext : before ++ s.toString o ++ after = text at hread ⊢
  constructor
  · intro tier htier
    have hobject : objectAnswer s text
        = if '\x7d' ∈ after.toList then none else some ⟨tier, confidenceField s o⟩ := by
      have hbind : objectAnswer s text = ((firstJsonObject text).bind s.fromStr).bind fun v =>
          (namedTier v).bind fun tier => some ⟨tier, confidenceField s v⟩ :=
        (Option.bind_assoc ..).symm
      rw [hbind, hread]
      split
      · rfl
      · rw [Option.bind_some, htier, Option.bind_some]
    rw [parseClassifierOutput, hobject]
    split
    · rename_i hmem
      rw [Option.none_or, bareAnswer_iff, or_iff_right (not_not.mpr hmem)]
    · rename_i hmem
      exact iff_of_true rfl (Or.inl hmem)
  · intro verdict hverdict
    have hjudge : (parseJudgeOutput s text).map (·.verdict)
        = if '\x7d' ∈ after.toList then none else some verdict := by
      have hbind : parseJudgeOutput s text = ((firstJsonObject text).bind s.fromStr).bind _ :=
        (Option.bind_assoc ..).symm
      rw [hbind, hread]
      split
      · rfl
      · rw [Option.bind_some, hverdict]
        rfl
    rw [hjudge]
    split
    · rename_i hmem
      exact iff_of_false (by rintro ⟨⟩) (not_not.mpr hmem)
    · rename_i hmem
      exact iff_of_true rfl hmem

/-! ### Two replies with something behind the object -/

namespace Sample

open AuraGateway.Types.Sample

def tierObject : Json := .object [("tier", .string "simple")]

def verdictObject : Json := .object [("verdict", .string "a")]

def tierJson : SerdeJson := serdeJson "\"tier\":\"simple\"" tierObject

def verdictJson : SerdeJson := serdeJson "\"verdict\":\"a\"" verdictObject

/-- The text of the object with anything behind it is another text. -/
theorem rejectsTrailing (inner : String) (o : Json) : RejectsTrailing (serdeJson inner o) o := by
  rintro t ⟨c, hc, -⟩
  apply if_neg
  intro heq
  have hlength := congrArg (fun text : String => text.toList.length) heq
  simp only [serdeJson, String.toList_append, List.length_append] at hlength
  have hpos := List.length_pos_of_mem hc
  omega

end Sample

open Sample in
/-- Prose around the objects does not matter. -/
theorem replies_in_prose :
    (parseClassifierOutput tierJson Char.isAlpha
        ("It is " ++ tierJson.toString tierObject ++ ", not complex.")).map (·.tier) = some .simple
      ∧ (parseJudgeOutput verdictJson
        ("Result: " ++ verdictJson.toString verdictObject ++ " (close)")).map (·.verdict)
          = some .a := by
  constructor
  · have hreply := replies_iff tierJson Char.isAlpha tierObject
      (Types.Sample.faithful _ _ (by decide)) (rejectsTrailing _ _) "It is " ", not complex."
      (by decide)
    exact (hreply.1 .simple (by decide +kernel)).mpr (Or.inl (by decide))
  · have hreply := replies_iff verdictJson Char.isAlpha verdictObject
      (Types.Sample.faithful _ _ (by decide)) (rejectsTrailing _ _) "Result: " " (close)"
      (by decide)
    exact (hreply.2 .a (by decide +kernel)).mpr (by decide)

open Sample in
/-- Braces behind the objects turn a simple request into a complex one, and lose a verdict. -/
theorem braces_behind_objects :
    (namedTier tierObject = some .simple
        ∧ (parseClassifierOutput tierJson Char.isAlpha
          (tierJson.toString tierObject ++ " (not \x7bcomplex\x7d)")).map (·.tier) = some .complex)
      ∧ namedVerdict verdictObject = some .a
      ∧ (parseJudgeOutput verdictJson
        (verdictJson.toString verdictObject ++ " \x7bclose\x7d")).map (·.verdict) = none := by
  decide +kernel

end AuraGateway.Router
